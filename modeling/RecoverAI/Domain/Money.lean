import RecoverAI.Text.Python

/-!
# Money

Validation of amounts and currencies; an error is the message of `MoneyError`.
-/
namespace RecoverAI

def normalizeCurrency [PyText] (currency : String) : Except String String :=
  let normalized := PyText.upper (Text.strip currency)
  if normalized.length ≠ 3 then .error "currency must be exactly 3 characters"
  else if !Text.isAlpha normalized then .error "currency must contain only letters"
  else .ok normalized

theorem normalizeCurrency_eq_ok [PyText] {currency code : String} :
    normalizeCurrency currency = .ok code ↔
    PyText.upper (Text.strip currency) = code ∧ code.length = 3 ∧ Text.isAlpha code = true := by
  rw [normalizeCurrency]
  generalize PyText.upper (Text.strip currency) = normalized
  constructor
  · intro h
    split_ifs at h with length letters
    obtain rfl := Except.ok.inj h
    exact ⟨rfl, not_not.1 length, by simpa using letters⟩
  · rintro ⟨rfl, length, letters⟩
    simp [length, letters]

def validateAmountMinor (amountMinor : Int) : Except String Int :=
  if amountMinor < 0 then .error "amount_minor cannot be negative" else .ok amountMinor

theorem validateAmountMinor_of_nonneg {n : Int} (h : 0 ≤ n) : validateAmountMinor n = .ok n :=
  if_neg (by omega)

end RecoverAI
