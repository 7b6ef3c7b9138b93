/-!
Maps that remember in which order their keys were last touched.

Main statements: a key that was just put is found, and what is found under other keys stays the same.
-/

namespace Tollgate

/-- A map as a list of entries, the most recently touched one first. -/
structure Recency (K V : Type) where
  entries : List (K × V)
deriving DecidableEq, Repr

namespace Recency

variable {K V : Type}

def empty : Recency K V := ⟨[]⟩

instance : Inhabited (Recency K V) := ⟨empty⟩

def size (r : Recency K V) : Nat :=
  r.entries.length

def isEmpty (r : Recency K V) : Bool :=
  r.entries.isEmpty

def keys (r : Recency K V) : List K :=
  r.entries.map Prod.fst

/-- The key touched longest ago. -/
def oldest? (r : Recency K V) : Option (K × V) :=
  r.entries.getLast?

def dropOldest (r : Recency K V) : Recency K V :=
  ⟨r.entries.dropLast⟩

/-- Keeps the entries of a kind, in their order. -/
def filter (kind : K → V → Bool) (r : Recency K V) : Recency K V :=
  ⟨r.entries.filter fun (k, v) => kind k v⟩

variable [DecidableEq K]

/-- The value of a key; looking does not touch it. -/
def find? (r : Recency K V) (k : K) : Option V :=
  (r.entries.find? fun entry => entry.1 = k).map Prod.snd

def contains (r : Recency K V) (k : K) : Bool :=
  r.entries.any fun entry => entry.1 = k

def erase (r : Recency K V) (k : K) : Recency K V :=
  ⟨r.entries.filter fun entry => entry.1 ≠ k⟩

/-- Gives a key a value and touches it. -/
def put (r : Recency K V) (k : K) (v : V) : Recency K V :=
  ⟨(k, v) :: (r.erase k).entries⟩

/-- Touches a key, if it has a value. -/
def touch (r : Recency K V) (k : K) : Recency K V :=
  match r.find? k with
  | some v => r.put k v
  | none => r

theorem find?_put_self (r : Recency K V) (k : K) (v : V) : (r.put k v).find? k = some v := by
  simp [put, find?]

theorem find?_put_of_ne {other k : K} (r : Recency K V) (v : V) (ne : other ≠ k) :
    (r.put k v).find? other = r.find? other := by
  have different : ¬(k = other) := fun equal => ne equal.symm
  have sameTest : (fun entry : K × V => decide (entry.1 ≠ k) && decide (entry.1 = other)) =
      fun entry => decide (entry.1 = other) := by
    funext entry
    by_cases same : entry.1 = other <;> simp [same, ne]
  simp only [put, find?, erase, List.find?_cons, different, decide_false, List.find?_filter]
  rw [← sameTest]
  simp

end Recency

end Tollgate
