import Mathlib.Data.List.Basic

/-!
# Python strings

The `str` methods the service calls. Their Unicode tables are those of the interpreter, so they are
a parameter: `PyText` gives the tables and fixes them on ASCII.
-/
namespace RecoverAI

/-- The white space of the C locale. -/
def asciiSpace (c : Char) : Bool := c = ' ' || ('\t' ≤ c && c ≤ '\r')

/-- The Unicode tables behind `str.strip`, `str.isalpha`, `str.upper`, `str.lower` and `int`. -/
class PyText where
  isSpace : Char → Bool
  isAlpha : Char → Bool
  decimal : Char → Option Nat
  upper : String → String
  lower : String → String
  isSpace_ascii : ∀ c, c.toNat < 128 →
    isSpace c = (asciiSpace c || (28 ≤ c.toNat && c.toNat ≤ 31))
  isAlpha_ascii : ∀ c, c.toNat < 128 → isAlpha c = c.isAlpha
  upper_ascii : ∀ s : String, (∀ c ∈ s.toList, c.toNat < 128) →
    upper s = String.ofList (s.toList.map Char.toUpper)
  lower_ascii : ∀ s : String, (∀ c ∈ s.toList, c.toNat < 128) →
    lower s = String.ofList (s.toList.map Char.toLower)

/-- The tables of a text that is ASCII throughout. -/
@[reducible] def PyText.ascii : PyText where
  isSpace c := asciiSpace c || (28 ≤ c.toNat && c.toNat ≤ 31)
  isAlpha c := c.isAlpha
  decimal c := if c.isDigit then some (c.toNat - 48) else none
  upper s := String.ofList (s.toList.map Char.toUpper)
  lower s := String.ofList (s.toList.map Char.toLower)
  isSpace_ascii _ _ := rfl
  isAlpha_ascii _ _ := rfl
  upper_ascii _ _ := rfl
  lower_ascii _ _ := rfl

namespace Text

/-- Drop the characters that satisfy `p` from both ends. -/
def stripBy (p : Char → Bool) (s : List Char) : List Char :=
  ((s.dropWhile p).reverse.dropWhile p).reverse

theorem stripBy_of_forall_not {p : Char → Bool} {s : List Char} (h : ∀ c ∈ s, p c = false) :
    stripBy p s = s := by
  have drop : ∀ t : List Char, (∀ c ∈ t, p c = false) → t.dropWhile p = t := by
    intro t ht
    cases t with
    | nil => rfl
    | cons c t => simp [List.dropWhile, ht c (by simp)]
  rw [stripBy, drop s h, drop s.reverse (by simpa using h), List.reverse_reverse]

/-- Skip `n` characters, then drop every occurrence of `pat`. -/
def eraseFrom (pat : List Char) : Nat → List Char → List Char
  | _, [] => []
  | n + 1, _ :: s => eraseFrom pat n s
  | 0, c :: s =>
    if pat.isPrefixOf (c :: s) then eraseFrom pat (pat.length - 1) s else c :: eraseFrom pat 0 s

/-- `s.replace(pat, "")`. -/
def erase (pat : String) (s : List Char) : List Char := eraseFrom pat.toList 0 s

theorem eraseFrom_eq_self {p : Char} {pat s : List Char} (h : p ∉ s) :
    eraseFrom (p :: pat) 0 s = s := by
  induction s with
  | nil => rfl
  | cons c s ih =>
    rw [List.mem_cons, not_or] at h
    simp [eraseFrom, List.isPrefixOf, h.1, ih h.2]

/-- The text before the first separator can be told from the text after it. -/
theorem append_cons_inj {c : Char} {s t s' t' : List Char} (hs : c ∉ s) (hs' : c ∉ s')
    (same : s ++ c :: t = s' ++ c :: t') : s = s' ∧ t = t' := by
  induction s generalizing s' with
  | nil =>
    cases s' with
    | nil => exact ⟨rfl, (List.cons.inj same).2⟩
    | cons d s' => exact absurd (List.cons.inj same).1 (List.ne_of_not_mem_cons hs')
  | cons d s ih =>
    cases s' with
    | nil => exact absurd (List.cons.inj same).1.symm (List.ne_of_not_mem_cons hs)
    | cons d' s' =>
      obtain ⟨head, same⟩ := List.cons.inj same
      obtain ⟨tail, rest⟩ :=
        ih (List.not_mem_of_not_mem_cons hs) (List.not_mem_of_not_mem_cons hs') same
      exact ⟨by rw [head, tail], rest⟩

theorem repr_inj {m n : Nat} (same : m.repr = n.repr) : m = n := by
  have digits := congrArg String.toList same
  rw [Nat.toList_repr, Nat.toList_repr] at digits
  rw [← Nat.ofDigitChars_ten_toDigits (n := m), digits, Nat.ofDigitChars_ten_toDigits]

theorem minus_not_mem_repr (n : Nat) : '-' ∉ n.repr.toList := by
  rw [Nat.toList_repr]
  exact fun minus => absurd (Nat.isDigit_of_mem_toDigits (by decide) (by decide) minus) (by decide)

theorem toList_toString_negSucc (n : Nat) :
    (toString (Int.negSucc n)).toList = '-' :: (n + 1).repr.toList := by
  rw [show toString (Int.negSucc n) = "-" ++ (n + 1).repr from rfl, String.toList_append]
  rfl

theorem toString_int_inj {m n : Int} (same : toString m = toString n) : m = n := by
  have texts := congrArg String.toList same
  cases m with
  | ofNat m =>
    cases n with
    | ofNat n => exact congrArg Int.ofNat (repr_inj same)
    | negSucc n =>
      rw [toList_toString_negSucc] at texts
      exact absurd (texts.symm ▸ List.mem_cons_self) (minus_not_mem_repr m)
  | negSucc m =>
    rw [toList_toString_negSucc] at texts
    cases n with
    | ofNat n => exact absurd (texts ▸ List.mem_cons_self) (minus_not_mem_repr n)
    | negSucc n =>
      rw [toList_toString_negSucc] at texts
      have digits := String.toList_inj.1 (List.cons.inj texts).2
      exact congrArg Int.negSucc (Nat.succ.inj (repr_inj digits))

/-- `needle in s`. -/
def contains (needle s : String) : Bool := s.toList.tails.any needle.toList.isPrefixOf

/-- `s[:n]`. -/
def slice (s : String) (n : Nat) : String := String.ofList (s.toList.take n)

/-- `x or default`. -/
def orDefault (x : Option String) (default : String) : String :=
  match x with
  | some s => if s = "" then default else s
  | none => default

variable [PyText]

/-- `s.strip()`. -/
def strip (s : String) : String := String.ofList (stripBy PyText.isSpace s.toList)

/-- `s.isalpha()`. -/
def isAlpha (s : String) : Bool := !s.toList.isEmpty && s.toList.all PyText.isAlpha

end Text

end RecoverAI
