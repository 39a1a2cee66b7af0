import StructuredText.Proofs.Grammar.Reaction

/-!
# Durations without a part

A duration is looked at in two ways: its production asks for a digit and then for any of its parts,
so it also matches where the digits are followed by no unit. Such a match stops in front of the
digit, and whatever could be written behind a duration blocks there. So the text around it is not
accepted, unless the match is the last thing the rule reads: the rule is *stranded* in front of the
digit.

* `Rule.strands` — the rules that can be stranded; a whole file is none of them.
* `Rule.contained` — behind an expression that can be stranded nothing opens at a digit.
-/

namespace StructuredText.Grammar

/-- The digits of the decimal system. -/
def decimalDigits : List Char := ['0', '1', '2', '3', '4', '5', '6', '7', '8', '9']

theorem mem_decimalDigits {c : Char} (h : c.isDigit = true) : c ∈ decimalDigits := by
  have hbounds : 48 ≤ c.toNat ∧ c.toNat ≤ 57 := by
    simp only [Char.isDigit, Bool.and_eq_true, decide_eq_true_eq] at h
    exact h
  have hc : c = Char.ofNat c.toNat := (Char.ofNat_toNat c).symm
  obtain ⟨hlow, hhigh⟩ := hbounds
  rw [hc]
  generalize c.toNat = n at *
  have : n = 48 ∨ n = 49 ∨ n = 50 ∨ n = 51 ∨ n = 52 ∨ n = 53 ∨ n = 54 ∨ n = 55 ∨ n = 56 ∨ n = 57 := by
    omega
  rcases this with rfl | rfl | rfl | rfl | rfl | rfl | rfl | rfl | rfl | rfl <;> decide

/-- The reaction to digits; rules call each other less deeply than this in front of what they
read. -/
def Expr.atDigit (e : Expr) : Reaction := e.reaction decimalDigits (Rule.reaction decimalDigits 14)

/-- A match of the rule may end in front of a digit behind a duration without a part. -/
def Rule.strands : Rule → Bool
  | .duration | .constant | .expression | .xorExpression | .andExpression | .comparisonExpression
  | .equalityExpression | .addExpression | .expressionTerm | .powerExpression | .unaryExpression
  | .primaryExpression | .paramAssignment | .parameter | .parameterList | .subrange | .arraySubrange
  | .arrayInitialElement | .subrangeSpecInit | .enumeratedValue | .enumeratedSpecInit
  | .simpleSpecInit | .structureElementInitialization | .subrangeTypeDeclaration
  | .enumeratedTypeDeclaration | .simpleTypeDeclaration | .var1InitDecl | .caseList => true
  | _ => false

/-- A match of the expression may end in front of a digit behind a duration without a part. -/
def Expr.strands : Expr → Bool
  | .lexeme _ | .ahead _ => false
  | .rule r => r.strands
  | .seq a b => b.strands || (a.strands && b.atDigit != .blocks)
  | .alt a b => a.strands || b.strands
  | .star a => a.strands

/-- Behind a part that may be stranded, no part opens at a digit. -/
def Expr.contained : Expr → Bool
  | .lexeme _ | .ahead _ | .rule _ => true
  | .seq a b => a.contained && b.contained && (!a.strands || b.atDigit != .opens)
  | .alt a b => a.contained && b.contained
  | .star a => a.contained && (!a.strands || a.atDigit != .opens)

/-- The table of the rules that can be stranded is closed under the productions. -/
theorem Rule.strands_of_production (r : Rule) (h : r.production.body.strands = true) :
    r.strands = true := by
  have hall : (Rule.inOrder.all fun r => !r.production.body.strands || r.strands) = true := by
    decide +kernel
  have hr := Rule.of_all hall r
  simpa [h] using hr

/-- No production goes on reading at a digit where it may be stranded. -/
theorem Rule.contained (r : Rule) : r.production.body.contained = true := by
  have hall : (Rule.inOrder.all fun r => r.production.body.contained) = true := by
    decide +kernel
  exact Rule.of_all hall r

end StructuredText.Grammar
