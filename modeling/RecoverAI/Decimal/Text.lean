import Mathlib.Data.List.TakeWhile
import RecoverAI.Decimal.Arithmetic
import RecoverAI.Text.Python

/-!
# Decimals as text

The conversions `Decimal(text)` and `str(d)` and the fixed-point format. What `str` writes is read
back as the same number.
-/
namespace RecoverAI

/-! ## Reading -/

namespace Decimal

/-- The limits of an exact conversion on a 64-bit machine. -/
def maxPrec : Nat := 999999999999999999

def maxEmax : Int := 999999999999999999

def minEtiny : Int := -1999999999999999997

end Decimal

/-- What an exact conversion can hold. -/
def Dec.representable (d : Dec) : Bool :=
  numDigits d.coeff ≤ Decimal.maxPrec && d.adjusted ≤ Decimal.maxEmax && Decimal.minEtiny ≤ d.exp

namespace Decimal

/-- A character of the number; `none` where it belongs to no number. -/
def numericChar [PyText] (c : Char) : Option Char :=
  if 0 < c.toNat ∧ c.toNat < 128 then some c
  else if PyText.isSpace c then some ' '
  else (PyText.decimal c).map fun d => Char.ofNat (48 + d)

/-- The text without surrounding white space and underscores, in ASCII. -/
def numericText [PyText] (s : String) : Option (List Char) :=
  ((Text.stripBy PyText.isSpace s.toList).filter (· ≠ '_')).mapM numericChar

def readSign : List Char → Bool × List Char
  | '-' :: s => (true, s)
  | '+' :: s => (false, s)
  | s => (false, s)

def readDigits (s : List Char) : Option Nat :=
  if s.all Char.isDigit then some (Nat.ofDigitChars 10 s 0) else none

/-- `[sign]digits`. -/
def readExponent (s : List Char) : Option Int :=
  let (negative, digits) := readSign s
  if digits = [] then none else (readDigits digits).map fun n => if negative then -n else n

/-- `digits[.digits]` with at least one digit: the digits, and how many are behind the point. -/
def readCoeff (s : List Char) : Option (Nat × Nat) :=
  let whole := s.takeWhile (· ≠ '.')
  let fraction := (s.dropWhile (· ≠ '.')).drop 1
  if whole ++ fraction = [] then none
  else (readDigits (whole ++ fraction)).map fun n => (n, fraction.length)

/-- The exponent may be missing. -/
def readScale : List Char → Option Int
  | [] => some 0
  | _ :: s => readExponent s

def isExponentMark (c : Char) : Bool := c = 'e' || c = 'E'

def readNumber (negative : Bool) (s : List Char) : Option Decimal := do
  let (coeff, places) ← readCoeff (s.takeWhile fun c => !isExponentMark c)
  let scale ← readScale (s.dropWhile fun c => !isExponentMark c)
  let d : Dec := ⟨negative, coeff, scale - places⟩
  if d.representable then some (.finite d) else none

def readPayload (negative signaling : Bool) (s : List Char) : Option Decimal := do
  let payload ← readDigits s
  if numDigits payload ≤ maxPrec then some (.nan negative signaling payload) else none

def readSpecial (negative : Bool) (s : List Char) : Option Decimal :=
  let s := s.map Char.toLower
  if s = "inf".toList ∨ s = "infinity".toList then some (.infinity negative)
  else if "nan".toList.isPrefixOf s then readPayload negative false (s.drop 3)
  else if "snan".toList.isPrefixOf s then readPayload negative true (s.drop 4)
  else none

def read (s : List Char) : Option Decimal :=
  let (negative, s) := readSign s
  (readSpecial negative s).or (readNumber negative s)

/-- `Decimal(s)`; `none` where it raises `InvalidOperation`. -/
def parse [PyText] (s : String) : Option Decimal := (numericText s).bind read

end Decimal

/-- A number of few digits and a moderate exponent. -/
theorem Dec.representable_of_digits {negative : Bool} {c : Nat} {e : Int}
    (digits : numDigits c ≤ 4300) (low : -4300 ≤ e) (high : e ≤ 4300) :
    (⟨negative, c, e⟩ : Dec).representable := by
  have top : Dec.adjusted ⟨negative, c, e⟩ = e + numDigits c - 1 := rfl
  simp only [Dec.representable, Bool.and_eq_true, decide_eq_true_eq]
  simp only [top, Decimal.maxPrec, Decimal.maxEmax, Decimal.minEtiny]
  omega

/-! ## Writing -/

namespace Dec

def signText (negative : Bool) : List Char := if negative then ['-'] else []

/-- The digits with the point behind the first `place` of them. -/
def point (digits : List Char) (place : Int) : List Char :=
  if place ≤ 0 then '0' :: '.' :: (List.replicate (-place).toNat '0' ++ digits)
  else if digits.length ≤ place then digits ++ List.replicate (place - digits.length).toNat '0'
  else digits.take place.toNat ++ '.' :: digits.drop place.toNat

def scaleText (scale : Int) : List Char :=
  if scale = 0 then []
  else 'E' :: (if scale < 0 then '-' else '+') :: Nat.toDigits 10 scale.natAbs

/-- `str(d)`. -/
def str (d : Dec) : String :=
  let digits := Nat.toDigits 10 d.coeff
  let left := d.exp + digits.length
  let place := if d.exp ≤ 0 ∧ -6 < left then left else 1
  String.ofList (signText d.negative ++ point digits place ++ scaleText (left - place))

/-- `format(d, ".{places}f")`. -/
def formatFixed (places : Nat) (d : Dec) : String :=
  let r := d.rescale .halfEven (-places)
  let digits := Nat.toDigits 10 r.coeff
  String.ofList (signText d.negative ++ point digits (digits.length - places))

end Dec

/-- `str(d)`. -/
def Decimal.str : Decimal → String
  | finite d => d.str
  | infinity negative => String.ofList (Dec.signText negative ++ "Infinity".toList)
  | nan negative signaling payload =>
    String.ofList (Dec.signText negative ++ (if signaling then "sNaN" else "NaN").toList ++
      if payload = 0 then [] else Nat.toDigits 10 payload)

/-! ## Digits -/

theorem isDigit_toDigits {n : Nat} {c : Char} (h : c ∈ Nat.toDigits 10 n) : c.isDigit :=
  Nat.isDigit_of_mem_toDigits (by decide) (by decide) h

theorem isDigit_zeros {k n : Nat} {c : Char} (h : c ∈ List.replicate k '0' ++ Nat.toDigits 10 n) :
    c.isDigit := by
  rcases List.mem_append.1 h with h | h
  · rw [List.eq_of_mem_replicate h]
    rfl
  · exact isDigit_toDigits h

namespace Decimal

variable {negative : Bool} {s t : List Char}

theorem readDigits_of_isDigit (h : ∀ c ∈ s, c.isDigit) :
    readDigits s = some (Nat.ofDigitChars 10 s 0) :=
  if_pos (List.all_eq_true.2 h)

theorem readDigits_zeros (k n : Nat) :
    readDigits (List.replicate k '0' ++ Nat.toDigits 10 n) = some n := by
  rw [readDigits_of_isDigit fun c => isDigit_zeros, Nat.ofDigitChars_append,
    Nat.ofDigitChars_replicate_zero, Nat.mul_zero, Nat.ofDigitChars_ten_toDigits]

theorem readDigits_toDigits (n : Nat) : readDigits (Nat.toDigits 10 n) = some n := by
  simpa using readDigits_zeros 0 n

theorem point_not_digit {c : Char} (h : c.isDigit) : c ≠ '.' := by
  rintro rfl
  cases h

/-- Digits with a point among them. -/
theorem readCoeff_point (hs : ∀ c ∈ s, c.isDigit) (some_digit : s ++ t ≠ []) :
    readCoeff (s ++ '.' :: t) = (readDigits (s ++ t)).map fun n => (n, t.length) := by
  have whole : (s ++ '.' :: t).takeWhile (· ≠ '.') = s := by
    rw [List.takeWhile_append_of_pos fun c hc => by simpa using point_not_digit (hs c hc)]
    simp
  have rest : (s ++ '.' :: t).dropWhile (· ≠ '.') = '.' :: t := by
    rw [List.dropWhile_append_of_pos fun c hc => by simpa using point_not_digit (hs c hc)]
    simp
  rw [readCoeff, whole, rest]
  exact if_neg some_digit

theorem readCoeff_digits (hs : ∀ c ∈ s, c.isDigit) (some_digit : s ≠ []) :
    readCoeff s = (readDigits s).map fun n => (n, 0) := by
  have whole : s.takeWhile (· ≠ '.') = s :=
    List.takeWhile_eq_self_iff.2 fun c hc => by simpa using point_not_digit (hs c hc)
  have rest : s.dropWhile (· ≠ '.') = [] :=
    List.dropWhile_eq_nil_iff.2 fun c hc => by simpa using point_not_digit (hs c hc)
  rw [readCoeff, whole, rest]
  simp [some_digit]

/-- A digit string with a point behind its first `place` digits. -/
theorem readCoeff_place {c : Nat} {place : Int} (inside : place ≤ numDigits c) :
    readCoeff (Dec.point (Nat.toDigits 10 c) place) = some (c, (numDigits c - place).toNat) := by
  have digits : ∀ d ∈ Nat.toDigits 10 c, d.isDigit := fun d => isDigit_toDigits
  have positive := numDigits_pos c
  have length : (Nat.toDigits 10 c).length = numDigits c := rfl
  rw [Dec.point]
  split_ifs with small large
  · have zeros := readCoeff_point (s := ['0'])
      (t := List.replicate (-place).toNat '0' ++ Nat.toDigits 10 c) (by simp)
      (by simp)
    rw [List.cons_append, List.nil_append] at zeros
    rw [zeros, show ['0'] ++ (List.replicate (-place).toNat '0' ++ Nat.toDigits 10 c) =
      List.replicate ((-place).toNat + 1) '0' ++
        Nat.toDigits 10 c from rfl, readDigits_zeros, List.length_append,
      List.length_replicate, length, Option.map_some]
    congr 2
    omega
  · have all_ : place = numDigits c := by omega
    have none : (numDigits c - numDigits c : Int).toNat = 0 := by omega
    rw [all_, length, none, List.replicate_zero, List.append_nil,
      readCoeff_digits digits Nat.toDigits_ne_nil, readDigits_toDigits]
    rfl
  · rw [readCoeff_point (fun d hd => digits d (List.mem_of_mem_take hd))
      (by rw [List.take_append_drop]; exact Nat.toDigits_ne_nil),
      List.take_append_drop, readDigits_toDigits, List.length_drop, length, Option.map_some]
    congr 2
    omega

theorem readExponent_scale (n : Nat) (sign : Bool) :
    readExponent ((if sign then '-' else '+') :: Nat.toDigits 10 n) =
      some (if sign then -(n : Int) else n) := by
  cases sign <;> simp [readExponent, readSign, readDigits_toDigits]

theorem readScale_scaleText (scale : Int) : readScale (Dec.scaleText scale) = some scale := by
  rw [Dec.scaleText]
  split_ifs with zero negative
  · rw [zero]
    rfl
  · exact (readExponent_scale scale.natAbs true).trans (congrArg some (by rw [if_pos rfl]; omega))
  · exact (readExponent_scale scale.natAbs false).trans
      (congrArg some (by rw [if_neg Bool.false_ne_true]; omega))

/-- What `point` writes are digits, with at most a point among them. -/
theorem mem_point {c : Nat} {place : Int} {x : Char} (h : x ∈ Dec.point (Nat.toDigits 10 c) place) :
    x.isDigit ∨ x = '.' := by
  rw [Dec.point] at h
  split_ifs at h
  · simp only [List.mem_cons] at h
    rcases h with rfl | rfl | h
    · exact .inl rfl
    · exact .inr rfl
    · exact .inl (isDigit_zeros h)
  · rcases List.mem_append.1 h with h | h
    · exact .inl (isDigit_toDigits h)
    · exact .inl (List.eq_of_mem_replicate h ▸ rfl)
  · simp only [List.mem_append, List.mem_cons] at h
    rcases h with h | rfl | h
    · exact .inl (isDigit_toDigits (List.mem_of_mem_take h))
    · exact .inr rfl
    · exact .inl (isDigit_toDigits (List.mem_of_mem_drop h))

theorem not_isExponentMark {x : Char} (h : x.isDigit ∨ x = '.') : (!isExponentMark x) = true := by
  rcases h with h | rfl
  · have marks : ¬ (x = 'e' ∨ x = 'E') := by
      rintro (rfl | rfl) <;> cases h
    simpa [isExponentMark] using marks
  · rfl

theorem readNumber_point {c : Nat} {place scale : Int} (inside : place ≤ numDigits c)
    (fits : (⟨negative, c, scale - (numDigits c - place)⟩ : Dec).representable) :
    readNumber negative (Dec.point (Nat.toDigits 10 c) place ++ Dec.scaleText scale) =
      some (.finite ⟨negative, c, scale - (numDigits c - place)⟩) := by
  have coeff : (Dec.point (Nat.toDigits 10 c) place ++ Dec.scaleText scale).takeWhile
      (fun x => !isExponentMark x) =
      Dec.point (Nat.toDigits 10 c) place := by
    rw [List.takeWhile_append_of_pos fun x hx => not_isExponentMark (mem_point hx), Dec.scaleText]
    split <;> simp [isExponentMark]
  have rest : (Dec.point (Nat.toDigits 10 c) place ++ Dec.scaleText scale).dropWhile
      (fun x => !isExponentMark x) =
      Dec.scaleText scale := by
    rw [List.dropWhile_append_of_pos fun x hx => not_isExponentMark (mem_point hx), Dec.scaleText]
    split <;> simp [isExponentMark]
  have places : ((numDigits c - place).toNat : Int) = numDigits c - place := by omega
  rw [readNumber, coeff, rest, readCoeff_place inside, readScale_scaleText]
  simp only [Option.bind_eq_bind, Option.bind_some, places]
  exact if_pos fits

theorem toLower_digit {x : Char} (h : x.isDigit) : x.toLower = x := by
  simp only [Char.isDigit, Bool.and_eq_true, decide_eq_true_eq] at h
  have lower : ¬ (x.val ≥ 'A'.val ∧ x.val ≤ 'Z'.val) := by
    rintro ⟨upper, -⟩
    have bounds : 'A'.val.toNat = 65 ∧ '9'.val.toNat = 57 := ⟨rfl, rfl⟩
    simp only [ge_iff_le, UInt32.le_iff_toNat_le] at h upper
    omega
  exact dif_neg lower

/-- A text that starts with a digit is no special number. -/
theorem readSpecial_digit {x : Char} (h : x.isDigit) : readSpecial negative (x :: s) = none := by
  have letter : x ≠ 'i' ∧ x ≠ 'n' ∧ x ≠ 's' := by
    refine ⟨?_, ?_, ?_⟩ <;> rintro rfl <;> cases h
  rw [readSpecial]
  simp [toLower_digit h, letter, letter.2.1.symm, letter.2.2.symm]

theorem readSign_digit {x : Char} (h : x.isDigit) : readSign (x :: s) = (false, x :: s) := by
  have minus : x ≠ '-' := by
    rintro rfl
    cases h
  have plus : x ≠ '+' := by
    rintro rfl
    cases h
  unfold readSign
  split
  next same => exact absurd (List.cons.inj same).1 minus
  next same => exact absurd (List.cons.inj same).1 plus
  next => rfl

/-- A sign and a text that starts with a digit. -/
theorem read_signed {x : Char} (h : x.isDigit) :
    read (Dec.signText negative ++ x :: s) = readNumber negative (x :: s) := by
  cases negative with
  | true => simp [read, Dec.signText, readSign, readSpecial_digit h]
  | false => simp [read, Dec.signText, readSign_digit h, readSpecial_digit h]

theorem exists_head {c : Nat} (place : Int) :
    ∃ x s, Dec.point (Nat.toDigits 10 c) place = x :: s ∧ x.isDigit := by
  obtain ⟨x, s, digits⟩ := List.exists_cons_of_ne_nil (Nat.toDigits_ne_nil (n := c) (b := 10))
  have head : x.isDigit := isDigit_toDigits (digits ▸ List.mem_cons_self)
  rw [Dec.point]
  split_ifs with small
  · exact ⟨_, _, rfl, rfl⟩
  · exact ⟨x, _, by rw [digits, List.cons_append], head⟩
  · obtain ⟨k, hk⟩ : ∃ k, place.toNat = k + 1 := ⟨place.toNat - 1, by omega⟩
    exact ⟨x, _, by rw [digits, hk, List.take_succ_cons, List.cons_append], head⟩

/-- The characters of a number that is written out. -/
def isPlain (c : Char) : Bool := c.isAlphanum || c = '.' || c = '+' || c = '-'

theorem plain_bounds {c : Char} (h : isPlain c) : 43 ≤ c.toNat ∧ c.toNat ≤ 122 ∧ c.toNat ≠ 95 := by
  have upper : 'A'.val.toNat = 65 ∧ 'Z'.val.toNat = 90 := ⟨rfl, rfl⟩
  have lower : 'a'.val.toNat = 97 ∧ 'z'.val.toNat = 122 := ⟨rfl, rfl⟩
  have digit : '0'.val.toNat = 48 ∧ '9'.val.toNat = 57 := ⟨rfl, rfl⟩
  have text : c.val.toNat = c.toNat := rfl
  delta isPlain Char.isAlphanum Char.isAlpha Char.isUpper Char.isLower Char.isDigit at h
  simp only [Bool.or_eq_true, Bool.and_eq_true, decide_eq_true_eq, ge_iff_le,
    UInt32.le_iff_toNat_le, text] at h
  rcases h with ((((h | h) | h) | rfl) | rfl) | rfl
  · omega
  · omega
  · omega
  · decide
  · decide
  · decide

theorem isSpace_plain [PyText] {c : Char} (h : isPlain c) : PyText.isSpace c = false := by
  have bounds := plain_bounds h
  have blank : c ≠ ' ' := by
    rintro rfl
    exact absurd bounds.1 (by decide)
  have tab : ¬ c ≤ '\r' := by
    intro le
    have le : c.toNat ≤ 13 := le
    omega
  rw [PyText.isSpace_ascii c (by omega), asciiSpace]
  simp only [blank, tab, decide_false, Bool.and_false, Bool.or_false, Bool.false_or,
    Bool.and_eq_false_iff, decide_eq_false_iff_not]
  omega

theorem numericText_of_plain [PyText] (h : ∀ c ∈ s, isPlain c) :
    numericText (String.ofList s) = some s := by
  have kept : s.filter (· ≠ '_') = s := by
    refine List.filter_eq_self.2 fun c hc => decide_eq_true ?_
    rintro rfl
    exact (plain_bounds (h _ hc)).2.2 rfl
  rw [numericText, String.toList_ofList,
    Text.stripBy_of_forall_not fun c hc => isSpace_plain (h c hc), kept]
  clear kept
  induction s with
  | nil => rfl
  | cons c s ih =>
    have bounds := plain_bounds (h c List.mem_cons_self)
    have same : numericChar c = some c := if_pos (by omega)
    rw [List.mapM_cons, same, ih fun d hd => h d (List.mem_cons_of_mem c hd)]
    rfl

theorem parse_of_plain [PyText] (h : ∀ c ∈ s, isPlain c) : parse (String.ofList s) = read s := by
  rw [parse, numericText_of_plain h, Option.bind_some]

theorem isPlain_of_isDigit {c : Char} (h : c.isDigit) : isPlain c := by
  have alphanum : c.isAlphanum := Bool.or_eq_true_iff.2 (.inr h)
  simp [isPlain, alphanum]

theorem isPlain_toDigits {n : Nat} {c : Char} (h : c ∈ Nat.toDigits 10 n) : isPlain c :=
  isPlain_of_isDigit (isDigit_toDigits h)

theorem isPlain_point {n : Nat} {place : Int} {c : Char}
    (h : c ∈ Dec.point (Nat.toDigits 10 n) place) : isPlain c := by
  rcases mem_point h with h | rfl
  · exact isPlain_of_isDigit h
  · rfl

theorem isPlain_signText {c : Char} (h : c ∈ Dec.signText negative) : isPlain c := by
  cases negative with
  | true =>
    obtain rfl := List.mem_singleton.1 h
    rfl
  | false => cases h

theorem isPlain_scaleText {scale : Int} {c : Char} (h : c ∈ Dec.scaleText scale) : isPlain c := by
  rw [Dec.scaleText] at h
  split_ifs at h
  · cases h
  · simp only [List.mem_cons] at h
    rcases h with rfl | rfl | h
    · rfl
    · rfl
    · exact isPlain_toDigits h
  · simp only [List.mem_cons] at h
    rcases h with rfl | rfl | h
    · rfl
    · rfl
    · exact isPlain_toDigits h

/-- A number that is written with a point and a scale. -/
theorem parse_point [PyText] {c : Nat} {place scale : Int} (inside : place ≤ numDigits c)
    (fits : (⟨negative, c, scale - (numDigits c - place)⟩ : Dec).representable) :
    parse (String.ofList
      (Dec.signText negative ++ Dec.point (Nat.toDigits 10 c) place ++ Dec.scaleText scale)) =
      some (.finite ⟨negative, c, scale - (numDigits c - place)⟩) := by
  rw [parse_of_plain, List.append_assoc]
  · obtain ⟨x, s, head, digit⟩ := exists_head (c := c) place
    rw [← readNumber_point inside fits, head, List.cons_append, read_signed digit]
  · intro x hx
    rcases List.mem_append.1 hx with hx | hx
    · exact (List.mem_append.1 hx).elim isPlain_signText isPlain_point
    · exact isPlain_scaleText hx

/-- `Decimal(str(d)) == d`. -/
theorem parse_str [PyText] {d : Dec} (h : d.representable) : parse d.str = some (.finite d) := by
  have length : (Nat.toDigits 10 d.coeff).length = numDigits d.coeff := rfl
  have positive := numDigits_pos d.coeff
  obtain ⟨negative, coeff, exp⟩ := d
  rw [Dec.str]
  dsimp only at length positive ⊢
  rw [length]
  generalize hp :
    (if exp ≤ 0 ∧ -6 < exp + numDigits coeff then exp + numDigits coeff else 1 : Int) = place
  have inside : place ≤ numDigits coeff := by
    split_ifs at hp <;> omega
  have same : exp + numDigits coeff - place - (numDigits coeff - place) = exp := by omega
  rw [parse_point inside] <;> rw [same]
  exact h

/-- `str(n)` of an integer is that of the decimal with exponent 0. -/
theorem toString_int (n : Int) : toString n = (⟨n < 0, n.natAbs, 0⟩ : Dec).str := by
  have digits : ∀ m : Nat, Dec.point (Nat.toDigits 10 m) (numDigits m) = Nat.toDigits 10 m := by
    intro m
    have positive := numDigits_pos m
    have length : (Nat.toDigits 10 m).length = numDigits m := rfl
    rw [Dec.point, if_neg (by omega), if_pos (by rw [length]), length, Int.sub_self]
    simp
  have text : ∀ (negative : Bool) (m : Nat), (⟨negative, m, 0⟩ : Dec).str =
      String.ofList (Dec.signText negative ++ Nat.toDigits 10 m) := by
    intro negative m
    have length : (Nat.toDigits 10 m).length = numDigits m := rfl
    rw [Dec.str]
    dsimp only
    rw [length, zero_add, if_pos (by omega), digits, Int.sub_self, Dec.scaleText, if_pos rfl,
      List.append_nil]
  rw [text]
  apply String.toList_inj.1
  rw [String.toList_ofList]
  cases n with
  | ofNat n => exact Nat.toList_repr
  | negSucc n =>
    rw [Text.toList_toString_negSucc, Nat.toList_repr, decide_eq_true (Int.negSucc_lt_zero n)]
    rfl

def representable : Decimal → Bool
  | finite d => d.representable
  | infinity _ => true
  | nan _ _ payload => numDigits payload ≤ maxPrec

theorem readPayload_text {signaling : Bool} {payload : Nat} (h : numDigits payload ≤ maxPrec) :
    readPayload negative signaling (if payload = 0 then [] else Nat.toDigits 10 payload) =
      some (.nan negative signaling payload) := by
  have digits : readDigits (if payload = 0 then [] else Nat.toDigits 10 payload) =
      some payload := by
    split
    next zero => rw [zero]; rfl
    next => exact readDigits_toDigits payload
  rw [readPayload, digits, Option.bind_eq_bind, Option.bind_some, if_pos h]

theorem map_toLower_payload (payload : Nat) :
    (if payload = 0 then [] else Nat.toDigits 10 payload).map Char.toLower =
      if payload = 0 then [] else Nat.toDigits 10 payload := by
  split
  · rfl
  · exact (List.map_congr_left fun c hc => toLower_digit (isDigit_toDigits hc)).trans
      (List.map_id _)

/-- What `str` writes of a number is read back. -/
theorem parse_decimal_str [PyText] {x : Decimal} (h : x.representable) : parse x.str = some x := by
  cases x with
  | finite d => exact parse_str h
  | infinity negative =>
    have plain : (Dec.signText negative ++ "Infinity".toList).all isPlain := by
      cases negative <;> rfl
    rw [str, parse_of_plain (List.all_eq_true.1 plain)]
    cases negative <;> decide
  | nan negative signaling payload =>
    have h : numDigits payload ≤ maxPrec := by simpa [representable] using h
    have back := @readPayload_text negative signaling payload h
    have lower := map_toLower_payload payload
    rw [str, parse_of_plain]
    · generalize (if payload = 0 then [] else Nat.toDigits 10 payload) = digits at back lower
      cases negative <;> cases signaling <;>
        simp [read, readSign, Dec.signText, readSpecial, lower, back]
    · intro c hc
      rcases List.mem_append.1 hc with hc | hc
      · have mark : (if signaling then "sNaN" else "NaN").toList.all isPlain := by
          cases signaling <;> rfl
        exact (List.mem_append.1 hc).elim isPlain_signText (List.all_eq_true.1 mark c)
      · split at hc
        · cases hc
        · exact isPlain_toDigits hc

end Decimal

end RecoverAI
