import RecoverAI.Text.Python
import Mathlib.Tactic.Ring

/-!
# UUIDs

`str` writes the canonical 36 characters. `parse` is the constructor `UUID(hex)`: it also accepts
the `urn:uuid:` prefix, braces, any hyphens and every spelling of 32 characters that `int(_, 16)`
reads.
-/
namespace RecoverAI

structure Uuid where
  bits : BitVec 128
deriving DecidableEq

namespace Uuid

instance : Inhabited Uuid := ⟨⟨0⟩⟩

/-- The UUID with the given 128-bit value. -/
def ofNat (n : Nat) : Uuid := ⟨BitVec.ofNat 128 n⟩

/-! ## Writing -/

def hexDigit (d : Nat) : Char := if d < 10 then Char.ofNat (48 + d) else Char.ofNat (87 + d)

/-- The last `width` hexadecimal digits of `n`. -/
def hex : Nat → Nat → List Char
  | 0, _ => []
  | width + 1, n => hex width (n / 16) ++ [hexDigit (n % 16)]

def chars (u : Uuid) : List Char :=
  let h := hex 32 u.bits.toNat
  h.take 8 ++ '-' :: (h.drop 8).take 4 ++ '-' :: (h.drop 12).take 4 ++
    '-' :: (h.drop 16).take 4 ++ '-' :: h.drop 20

/-- `str(u)`. -/
def str (u : Uuid) : String := String.ofList u.chars

/-! ## Reading -/

def digitValue (c : Char) : Option Nat :=
  if '0' ≤ c ∧ c ≤ '9' then some (c.toNat - 48)
  else if 'a' ≤ c ∧ c ≤ 'f' then some (c.toNat - 87)
  else if 'A' ≤ c ∧ c ≤ 'F' then some (c.toNat - 55)
  else none

/-- Digits with single underscores between them. -/
def digits (acc : Nat) (underscore : Bool) : List Char → Option Nat
  | [] => if underscore then none else some acc
  | c :: s =>
    if c = '_' then if underscore then none else digits acc true s
    else (digitValue c).bind fun d => digits (16 * acc + d) false s

/-- Other scripts' spaces and digits as ASCII, any other character as one that no number has. -/
def toAscii [PyText] (c : Char) : Char :=
  if c.toNat < 128 then c
  else if PyText.isSpace c then ' '
  else match PyText.decimal c with
    | some d => Char.ofNat (48 + d)
    | none => '?'

def dropSign : List Char → List Char
  | '+' :: s => s
  | s => s

def dropBase : List Char → List Char
  | '0' :: 'x' :: '_' :: s | '0' :: 'X' :: '_' :: s | '0' :: 'x' :: s | '0' :: 'X' :: s => s
  | s => s

/-- `int(s, 16)` of a text without minus sign. -/
def intBase16 [PyText] (s : List Char) : Option Nat :=
  digits 0 true (dropBase (dropSign (Text.stripBy asciiSpace (s.map toAscii))))

/-- `UUID(s)`; `none` where it raises `ValueError`. -/
def parse [PyText] (s : String) : Option Uuid :=
  let h := Text.erase "uuid:" (Text.erase "urn:" s.toList)
  let h := (Text.stripBy (fun c => c = '{' || c = '}') h).filter (· ≠ '-')
  if h.length = 32 then
    (intBase16 h).bind fun n => if n < 2 ^ 128 then some (ofNat n) else none
  else none

/-! ## Reading what was written -/

/-- What `hex` and `chars` are made of. -/
def IsHex (c : Char) : Prop := ∃ d < 16, c = hexDigit d

theorem IsHex.forall {F : Char → Prop} (h : ∀ d : Fin 16, F (hexDigit d)) {c : Char}
    (hc : IsHex c) : F c := by
  obtain ⟨d, hd, rfl⟩ := hc
  exact h ⟨d, hd⟩

theorem digitValue_hexDigit {d : Nat} (h : d < 16) : digitValue (hexDigit d) = some d := by
  have : ∀ d : Fin 16, digitValue (hexDigit d) = some d.val := by decide
  exact this ⟨d, h⟩

theorem isHex_hex (width n : Nat) : ∀ c ∈ hex width n, IsHex c := by
  induction width generalizing n with
  | zero => simp [hex]
  | succ width ih =>
    intro c hc
    rcases List.mem_append.1 hc with hc | hc
    · exact ih _ c hc
    · exact ⟨n % 16, Nat.mod_lt _ (by omega), List.mem_singleton.1 hc⟩

@[simp] theorem length_hex (width n : Nat) : (hex width n).length = width := by
  induction width generalizing n with
  | zero => rfl
  | succ width ih => simp [hex, ih]

theorem mem_chars {u : Uuid} {c : Char} (h : c ∈ u.chars) : c = '-' ∨ IsHex c := by
  have key : c = '-' ∨ c ∈ hex 32 u.bits.toNat := by
    simp only [chars, List.mem_append, List.mem_cons] at h
    grind [List.mem_of_mem_take, List.mem_of_mem_drop]
  exact key.imp_right (isHex_hex _ _ c)

@[simp] theorem length_str (u : Uuid) : u.str.length = 36 := by
  simp only [str, chars, String.length_ofList, List.length_append, List.length_cons,
    List.length_take, List.length_drop, length_hex]
  rfl

theorem filter_chars (u : Uuid) : u.chars.filter (· ≠ '-') = hex 32 u.bits.toNat := by
  have keep : ∀ s ⊆ hex 32 u.bits.toNat, s.filter (· ≠ '-') = s := by
    intro s hs
    refine List.filter_eq_self.2 fun c hc => ?_
    exact IsHex.forall (F := fun c => decide (c ≠ '-') = true) (by decide) (isHex_hex _ _ c (hs hc))
  have block : ∀ i j, ((hex 32 u.bits.toNat).drop i).take j ⊆ hex 32 u.bits.toNat := fun i j =>
    List.Subset.trans (List.take_subset _ _) (List.drop_subset _ _)
  have last : ∀ i, (hex 32 u.bits.toNat).drop i ⊆ hex 32 u.bits.toNat := fun i =>
    List.drop_subset _ _
  have first : (hex 32 u.bits.toNat).take 8 ⊆ hex 32 u.bits.toNat := List.take_subset _ _
  simp only [chars, List.filter_append, List.filter_cons_of_neg, keep _ first, keep _ (block _ _),
    keep _ (last _), ne_eq, not_true_eq_false, decide_false, Bool.false_eq_true, not_false_eq_true]
  have join := fun i j => List.take_append_drop j ((hex 32 u.bits.toNat).drop i)
  simp only [List.drop_drop] at join
  simp [List.append_assoc, join]

/-- Reading the digits of `n` shifts them into the accumulator. -/
theorem digits_hex (width n acc : Nat) (underscore : Bool) (s : List Char) (h : n < 16 ^ width) :
    digits acc underscore (hex width n ++ s) =
      digits (acc * 16 ^ width + n) (underscore && width = 0) s := by
  induction width generalizing n s with
  | zero =>
    obtain rfl : n = 0 := by simpa using h
    simp [hex]
  | succ width ih =>
    have hd : n % 16 < 16 := Nat.mod_lt _ (by omega)
    have notUnderscore : hexDigit (n % 16) ≠ '_' :=
      IsHex.forall (F := (· ≠ '_')) (by decide) ⟨_, hd, rfl⟩
    have shift : 16 * (acc * 16 ^ width + n / 16) + n % 16 = acc * 16 ^ (width + 1) + n := by
      rw [pow_succ]
      ring_nf
      omega
    rw [hex, List.append_assoc, ih (n / 16) _ (by rw [pow_succ] at h; omega), List.singleton_append,
      digits, if_neg notUnderscore, digitValue_hexDigit hd, Option.bind_some, shift]
    simp

theorem intBase16_of_isHex [PyText] {s : List Char} (h : ∀ c ∈ s, IsHex c) :
    intBase16 s = digits 0 true s := by
  have plain : ∀ c ∈ s, c.toNat < 128 ∧ asciiSpace c = false ∧ c ≠ '+' ∧ c ≠ 'x' ∧ c ≠ 'X' :=
    fun c hc => (h c hc).forall
      (F := fun c => c.toNat < 128 ∧ asciiSpace c = false ∧ c ≠ '+' ∧ c ≠ 'x' ∧ c ≠ 'X') (by decide)
  have same : s.map toAscii = s :=
    (List.map_congr_left fun c hc => if_pos (plain c hc).1).trans (List.map_id s)
  have spaces : Text.stripBy asciiSpace s = s :=
    Text.stripBy_of_forall_not fun c hc => (plain c hc).2.1
  have sign : dropSign s = s := by
    unfold dropSign
    split
    · exact absurd rfl (plain '+' (by simp)).2.2.1
    · rfl
  have base : dropBase s = s := by
    unfold dropBase
    split
    · exact absurd rfl (plain 'x' (by simp)).2.2.2.1
    · exact absurd rfl (plain 'X' (by simp)).2.2.2.2
    · exact absurd rfl (plain 'x' (by simp)).2.2.2.1
    · exact absurd rfl (plain 'X' (by simp)).2.2.2.2
    · rfl
  rw [intBase16, same, spaces, sign, base]

theorem parse_str [PyText] (u : Uuid) : parse u.str = some u := by
  have plain : ∀ c ∈ u.chars, c ≠ 'u' ∧ c ≠ '{' ∧ c ≠ '}' := by
    intro c hc
    rcases mem_chars hc with rfl | hc
    · decide
    · exact hc.forall (F := fun c => c ≠ 'u' ∧ c ≠ '{' ∧ c ≠ '}') (by decide)
  have text : Text.erase "uuid:" (Text.erase "urn:" u.str.toList) = u.chars := by
    rw [str, String.toList_ofList, Text.erase, Text.erase]
    have noU : 'u' ∉ u.chars := fun h => (plain _ h).1 rfl
    exact (congrArg _ (Text.eraseFrom_eq_self noU)).trans (Text.eraseFrom_eq_self noU)
  have braces : Text.stripBy (fun c => c = '{' || c = '}') u.chars = u.chars :=
    Text.stripBy_of_forall_not fun c hc => by simp [plain c hc]
  have value : intBase16 (hex 32 u.bits.toNat) = some u.bits.toNat := by
    have read := digits_hex 32 u.bits.toNat 0 true [] u.bits.isLt
    rw [intBase16_of_isHex (isHex_hex _ _)]
    simpa [digits] using read
  simp only [parse, text, braces, filter_chars, length_hex, if_true, value, Option.bind_some,
    u.bits.isLt]
  simp [ofNat]

theorem str_injective : Function.Injective str := by
  intro u v h
  have back := @parse_str .ascii
  exact Option.some.inj (((back u).symm.trans (congrArg _ h)).trans (back v))

@[simp] theorem str_inj {u v : Uuid} : u.str = v.str ↔ u = v := str_injective.eq_iff

end Uuid

end RecoverAI
