import StructuredText.Grammar.Derivation

/-!
# Why a text is refused

A failed search says most by the furthest place at which a rule was tried, and by the rules that
were tried there. The rules are collected while the search runs. A rule stands for the rules it
calls at the place where it starts itself, unless exactly one of these was tried there: then that
one says more, and is kept instead.

* `Furthest.note` — what one failed attempt adds.
* `furthest` — the furthest place of a search, and the rules expected there in the order of the
  grammar.
-/

namespace StructuredText.Grammar

/-- The furthest place at which a rule failed so far, and the rules that failed there, the latest
first. -/
structure Furthest where
  offset : Nat := 0
  expected : List Rule := []

namespace Furthest

/-- How many rules are known to have failed at a place. -/
def countAt (f : Furthest) (offset : Nat) : Nat :=
  if offset = f.offset then f.expected.length else 0

/-- Takes in that a rule failed which was tried at `offset`; `before` is what was known when it was
tried, `after` when it failed. -/
def note (r : Rule) (offset : Nat) (before after : Furthest) : Furthest :=
  let kept := before.countAt offset
  if after.countAt offset = kept + 1 then after
  else if offset = after.offset then
    { after with expected := r :: after.expected.drop (after.expected.length - kept) }
  else if after.offset < offset then ⟨offset, [r]⟩
  else after

/-- Watches an attempt to match a rule. -/
def observe (r : Rule) (offset : Nat) (attempt : StateM Furthest Outcome) :
    StateM Furthest Outcome := do
  let before ← get
  let outcome ← attempt
  if let .failed := outcome then modify (note r offset before)
  pure outcome

end Furthest

/-- The furthest place at which matching a rule at the start of a text failed, and the rules that
were expected there. -/
def furthest (r : Rule) (t : Text) : Furthest :=
  let last := (Rule.run Furthest.observe (callDepth t) r t.cursor |>.run {}).2
  { last with expected := Rule.inOrder.filter last.expected.contains }

end StructuredText.Grammar
