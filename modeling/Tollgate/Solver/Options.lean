import Tollgate.Text.Digits
import Tollgate.Text.Split

/-!
The command line of the solver.

Arguments are read from left to right, and the first one that asks for help or cannot be understood
decides. A value follows its option, either in the same argument or as the next one; the next one may
not look like an option, but a single dash may stand for standard input.
-/

namespace Tollgate.Solver

/-- What the solver is asked to do. -/
structure Options where
  /-- The token, or a dash to read it from standard input. -/
  token : String
  /-- How many threads to use; zero stands for all there are. -/
  threads : Nat := 0
  /-- After how many seconds to give up; zero stands for never. -/
  timeout : Nat := 0
  estimate : Bool := false
  json : Bool := false
deriving DecidableEq, Repr

/-- What a command line amounts to. -/
inductive Command
  | solve (options : Options)
  | help
  | version
  | misuse
deriving DecidableEq, Repr

/-- Whether the token is read from standard input. -/
def Command.readsInput : Command → Bool
  | .solve options => options.token = "-"
  | .help | .version | .misuse => false

/-- The names of options. -/
inductive Flag
  | token
  | threads
  | timeout
  | estimate
  | json
  | help
  | version
deriving DecidableEq, Repr

namespace Flag

def ofLong? : String → Option Flag
  | "token" => some .token
  | "threads" => some .threads
  | "timeout" => some .timeout
  | "estimate" => some .estimate
  | "json" => some .json
  | "help" => some .help
  | "version" => some .version
  | _ => none

def ofShort? : Char → Option Flag
  | 'k' => some .token
  | 't' => some .threads
  | 'h' => some .help
  | 'V' => some .version
  | _ => none

def takesValue : Flag → Bool
  | .token | .threads | .timeout => true
  | .estimate | .json | .help | .version => false

end Flag

/-- The options read so far. -/
structure Progress where
  given : List Flag := []
  options : Options := { token := "" }

namespace Progress

/-- Takes in an option; none may be given twice. -/
def set? (p : Progress) (flag : Flag) (value : String) : Option Progress := do
  if p.given.contains flag then none
  let o := p.options
  let options ← match flag with
    | .token => some { o with token := value }
    | .threads => (Text.word? value).map fun threads => { o with threads }
    | .timeout => (Text.word? value).map fun timeout => { o with timeout }
    | .estimate => some { o with estimate := true }
    | .json => some { o with json := true }
    | .help | .version => none
  return ⟨flag :: p.given, options⟩

/-- What the options amount to once all have been read. -/
def finish (p : Progress) : Command :=
  if p.given.contains .token then .solve p.options else .misuse

end Progress

/-- An argument taken apart: the option that it names, and the value behind it. -/
def Flag.ofArgument? (argument : String) : Option (Flag × Option String) :=
  match argument.toList with
  | '-' :: '-' :: word =>
    let (name, value) := Text.cut '=' word
    (ofLong? (String.ofList name)).map fun flag => (flag, value.map String.ofList)
  | '-' :: letter :: rest =>
    (ofShort? letter).map fun flag =>
      if flag.takesValue then
        match rest with
        | [] => (flag, none)
        | '=' :: value => (flag, some (String.ofList value))
        | value => (flag, some (String.ofList value))
      else (flag, none)
  | _ => none

/-- Whether an argument cannot be a value. -/
def looksLikeOption (argument : String) : Bool :=
  match argument.toList with
  | '-' :: _ :: _ => true
  | _ => false

/-- Reads the arguments one by one. -/
def Progress.read (p : Progress) : List String → Command
  | [] => p.finish
  | argument :: rest =>
    if argument = "--" then if rest.isEmpty then p.finish else .misuse
    else
      match Flag.ofArgument? argument with
      | none => .misuse
      | some (.help, none) => .help
      | some (.version, none) => .version
      | some (flag, some value) =>
        if flag.takesValue then
          match p.set? flag value with
          | some p => p.read rest
          | none => .misuse
        else .misuse
      | some (flag, none) =>
        if flag.takesValue then
          match rest with
          | [] => .misuse
          | value :: rest =>
            if looksLikeOption value then .misuse
            else
              match p.set? flag value with
              | some p => p.read rest
              | none => .misuse
        else
          match p.set? flag "" with
          | some p => p.read rest
          | none => .misuse

/-- What a command line amounts to. -/
def Command.ofArguments (arguments : List String) : Command :=
  Progress.read {} arguments

end Tollgate.Solver
