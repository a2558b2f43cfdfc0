import RecoverAI.Text.Uuid

/-!
# JSON values

A value as `json.loads` builds it. Python strings may hold lone surrogates and floats may be
infinite or NaN; neither has a text a database column takes, so they stand as single constructors.
-/
namespace RecoverAI

inductive Json where
  | null
  | bool (b : Bool)
  | int (n : Int)
  | float (q : Rat)
  | nonfinite
  | str (s : String)
  /-- A string with a lone surrogate. Where the code cuts a reason before it, `loads`
  may answer the cut text. -/
  | surrogates
  | arr (items : List Json)
  | obj (fields : List (String × Json))

/-- The items of a `dict`. -/
abbrev Fields := List (String × Json)

/-- PostgreSQL text has no NUL character. -/
def hasNul (s : String) : Bool := s.toList.contains '\x00'

@[simp] theorem hasNul_append (s t : String) : hasNul (s ++ t) = (hasNul s || hasNul t) := by
  simp [hasNul]

@[simp] theorem hasNul_uuid (u : Uuid) : hasNul u.str = false := by
  have nul : '\x00' ∉ u.chars := fun h => (Uuid.mem_chars h).elim (by decide) fun h =>
    absurd rfl (h.forall (F := (· ≠ '\x00')) (by decide))
  simpa [hasNul, Uuid.str] using nul

namespace Json

instance : Inhabited Json := ⟨null⟩

/-- `bool(x)`. -/
def truthy : Json → Bool
  | null => false
  | bool b => b
  | int n => n ≠ 0
  | float q => q ≠ 0
  | str s => s ≠ ""
  | arr items => !items.isEmpty
  | obj fields => !fields.isEmpty
  | nonfinite | surrogates => true

/-- `x or y`. -/
def orElse (x y : Json) : Json := if x.truthy then x else y

/-- `x.get(name)` of a `dict`, where a missing item reads as `None`. -/
def item (fields : Fields) (name : String) : Json := (fields.lookup name).getD null

mutual

/-- Whether a JSONB column stores the value. -/
def storable : Json → Bool
  | nonfinite | surrogates => false
  | str s => !hasNul s
  | arr items => storableItems items
  | obj fields => storableFields fields
  | _ => true

def storableItems : List Json → Bool
  | [] => true
  | j :: items => j.storable && storableItems items

def storableFields : Fields → Bool
  | [] => true
  | (name, j) :: fields => !hasNul name && j.storable && storableFields fields

end

/-- `UUID(str(x))`. The text of `None`, a bool, a float, a list or a `dict` never reads as one: it
has a letter, a bracket or a quote no spelling has, or is shorter than 32 characters. -/
def uuid [PyText] : Json → Option Uuid
  | str s => Uuid.parse s
  | int n => Uuid.parse (toString n)
  | _ => none

@[simp] theorem uuid_str [PyText] (u : Uuid) : uuid (.str u.str) = some u := Uuid.parse_str u

end Json

end RecoverAI
