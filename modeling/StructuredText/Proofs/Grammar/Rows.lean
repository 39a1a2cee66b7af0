import StructuredText.Proofs.Grammar.Search

/-!
# Nodes in a row

The nodes that a derivation leaves stand one behind the other between its cursors, and the children
of a node stand in the same way between the cursors of the node. What lies between two neighbours is
text that no node was made of.

* `Row` — nodes in a row, with their children, between two cursors.
* `Expr.Derives.row` — the nodes of a derivation are in a row.
* `Row.of_mem` — where a node of a row stands.
-/

namespace StructuredText.Grammar

/-- The nodes stand one behind the other between the cursors, and so do the children of each. -/
inductive Row : Cursor → List Node → Cursor → Prop where
  | nil {s s' : Cursor} {t : Text} (h : s.Reads t s') : Row s [] s'
  | cons {s s' : Cursor} {t : Text} {n : Node} {ns : List Node} (h : s.Reads t n.start)
      (hparts : Row n.start n.children n.stop) (hbehind : Row n.stop ns s') : Row s (n :: ns) s'

namespace Row

variable {s s₁ s' : Cursor} {ns ms : List Node} {t : Text}

/-- The text in front of the first node may be longer. -/
theorem before (ht : s.Reads t s₁) (h : Row s₁ ns s') : Row s ns s' := by
  cases h with
  | nil h => exact .nil (ht.trans h)
  | cons h hparts hbehind => exact .cons (ht.trans h) hparts hbehind

theorem append (h : Row s ns s₁) (h' : Row s₁ ms s') : Row s (ns ++ ms) s' := by
  induction h with
  | nil h => exact h'.before h
  | cons h hparts _ _ ih => exact .cons h hparts (ih h')

/-- A row reads the text between its cursors. -/
theorem reads (h : Row s ns s') : ∃ t, s.Reads t s' := by
  induction h with
  | nil h => exact ⟨_, h⟩
  | cons h _ _ ihparts ihbehind =>
      obtain ⟨u, hu⟩ := ihparts
      obtain ⟨v, hv⟩ := ihbehind
      exact ⟨_, (h.trans hu).trans hv⟩

/-- A node of a row stands behind the start and in front of the end of the row. -/
theorem of_mem (h : Row s ns s') {n : Node} (hn : n ∈ ns) :
    (∃ t, s.Reads t n.start) ∧ Row n.start n.children n.stop ∧ ∃ t, n.stop.Reads t s' := by
  induction h with
  | nil => cases hn
  | cons h hparts hbehind _ ih =>
      rcases List.mem_cons.mp hn with rfl | hn
      · exact ⟨⟨_, h⟩, hparts, hbehind.reads⟩
      · obtain ⟨⟨u, hu⟩, hrow, hstop⟩ := ih hn
        obtain ⟨v, hv⟩ := hparts.reads
        exact ⟨⟨_, (h.trans hv).trans hu⟩, hrow, hstop⟩

end Row

/-- The nodes of a derivation are in a row between its cursors. -/
theorem Expr.Derives.row {e : Expr} {s s' : Cursor} {ns : List Node} (h : e.Derives s ns s') :
    Row s ns s' := by
  induction h with
  | lexeme h =>
      obtain ⟨t, ht, -⟩ := Pattern.run_spells h
      exact .nil ht
  | token _ h =>
      obtain ⟨t, ht, -⟩ := Pattern.run_spells h
      exact .cons (.refl _) (.nil ht) (.nil (.refl _))
  | node _ _ ih => exact .cons (.refl _) ih (.nil (.refl _))
  | silent _ _ ih | left _ ih | right _ ih => exact ih
  | seq _ _ iha ihb | round _ _ iha ihb => exact iha.append ihb
  | done | ahead => exact .nil (.refl _)

end StructuredText.Grammar
