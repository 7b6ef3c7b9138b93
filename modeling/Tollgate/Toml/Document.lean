import Tollgate.Toml.Value

/-!
How the lines of a settings file make up its tables.

A table may be written in parts, but not twice: once under its own header, or line by line with keys
that are paths. What a table was made by tells what may still be added to it.
-/

namespace Tollgate.Toml

/-- What made a table. -/
inductive Origin
  /-- A header of its own, or braces. -/
  | header
  /-- The header of a table below it. -/
  | implied
  /-- A key that is a path. -/
  | dotted
deriving DecidableEq, Repr

/-- A part of a file that is still being read. -/
inductive Node
  | value (value : Value)
  | table (origin : Origin) (entries : List (String × Node))
  /-- Tables that are given one by one. -/
  | tables (elements : List (List (String × Node)))

/-- A table that is still being read. -/
abbrev Entries := List (String × Node)

namespace Entries

/-- Puts a node under a key, in place of the one there was. -/
def put (key : String) (node : Node) (entries : Entries) : Entries :=
  if (entries.lookup key).isSome then
    entries.map fun (k, old) => (k, if k = key then node else old)
  else entries ++ [(key, node)]

/-- Changes the table at the end of a path. Tables on the way that are not there are made, with `making`
as their origin; of several tables given one by one the last is meant. A path in a key leads through no
table with a header, and makes the others its own. -/
def changeAt (making : Origin) (change : Origin → Entries → Option Entries) (made : Origin) :
    List String → Entries → Option Entries
  | [], entries => change made entries
  | key :: path, entries =>
    match entries.lookup key with
    | none => do
      let inner ← changeAt making change making path []
      return entries.put key (.table making inner)
    | some (.table made inner) =>
      if making = .dotted ∧ made = .header then none
      else do
        let made := if making = .dotted then .dotted else made
        let inner ← changeAt making change made path inner
        return entries.put key (.table made inner)
    | some (.tables elements) => do
      let last ← changeAt making change .header path (elements.getLastD [])
      return entries.put key (.tables (elements.dropLast ++ [last]))
    | some (.value _) => none

/-- Adds a value under a key, which is a path to a new place. The tables on the way belong to keys that
are paths alone. -/
def assign (path : List String) (value : Value) : Entries → Option Entries :=
  changeAt .dotted (fun made entries => do
    let key ← path.getLast?
    let direct := path.length ≤ 1
    if (made = .dotted) = direct ∨ (entries.lookup key).isSome then none
    return entries.put key (.value value)) .header path.dropLast

/-- Opens the table of a header: a new one, or one of which there are only tables below. -/
def openTable (path : List String) : Entries → Option Entries :=
  changeAt .implied (fun _ entries => do
    let key ← path.getLast?
    match entries.lookup key with
    | none => return entries.put key (.table .header [])
    | some (.table .implied inner) => return entries.put key (.table .header inner)
    | some _ => none) .header path.dropLast

/-- Adds one more to the tables of a header that are given one by one. -/
def openElement (path : List String) : Entries → Option Entries :=
  changeAt .implied (fun _ entries => do
    let key ← path.getLast?
    match entries.lookup key with
    | none => return entries.put key (.tables [[]])
    | some (.tables elements) => return entries.put key (.tables (elements ++ [[]]))
    | some _ => none) .header path.dropLast

end Entries

mutual

/-- What has been read, without the traces of how. -/
def Node.finish : Node → Value
  | .value value => value
  | .table _ entries => .table (Entries.finish entries)
  | .tables elements => .array (Entries.finishAll elements)

/-- The table that entries make up. -/
def Entries.finish : List (String × Node) → Table
  | [] => []
  | (key, node) :: rest => (key, node.finish) :: Entries.finish rest

/-- The tables that lists of entries make up. -/
def Entries.finishAll : List (List (String × Node)) → List Value
  | [] => []
  | entries :: rest => .table (Entries.finish entries) :: Entries.finishAll rest

end

/-- What has been read of a file: its entries, and the path of the table that keys go to now. -/
structure Document where
  root : Entries
  current : List String

namespace Document

def empty : Document := ⟨[], []⟩

/-- Adds a value to the current table. -/
def assign (doc : Document) (path : List String) (value : Value) : Option Document := do
  let root ← Entries.changeAt .implied (fun _ entries => Entries.assign path value entries) .header
    doc.current doc.root
  return { doc with root }

/-- Goes on with the table of a header. -/
def openTable (doc : Document) (path : List String) : Option Document := do
  return ⟨← Entries.openTable path doc.root, path⟩

/-- Goes on with one more of several tables. -/
def openElement (doc : Document) (path : List String) : Option Document := do
  return ⟨← Entries.openElement path doc.root, path⟩

def table (doc : Document) : Table :=
  Entries.finish doc.root

end Document

end Tollgate.Toml
