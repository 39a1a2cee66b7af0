import StructuredText.Grammar.Productions

/-!
# Derivations

Matching a rule from the grammar. A rule is matched by its production, in which rules are matched in
the same way; how deep rule calls may nest is bounded by a number. No rule of the grammar comes back
to itself without reading a character, so a chain of nested calls at one place of the text is no
longer than the list of rules, and `callDepth` bounds every search on a text.

* `Rule.run` — matching a rule, with an observer around every call that would leave a node.
* `derive` — the outcome of matching a rule at the start of a text.
-/

namespace StructuredText.Grammar

/-- Matches a rule at a cursor with rule calls nested at most `depth` deep. `observe` sees every call
of a rule that leaves a node: the rule, where it is tried, and the attempt. -/
@[specialize] def Rule.run {m : Type → Type} [Monad m]
    (observe : Rule → Nat → m Outcome → m Outcome) : (depth : Nat) → Rule → Cursor → m Outcome
  | 0, _, _ => pure .exhausted
  | depth + 1, r, s =>
    match r.production with
    | .silent e => e.run (Rule.run observe depth) s
    | .token p =>
      observe r s.offset <| pure <|
        match p.run s with
        | some s' => .matched [⟨r, s, s', []⟩] s'
        | none => .failed
    | .node e =>
      observe r s.offset do
        match ← e.run (Rule.run observe depth) s with
        | .matched nodes s' => pure (.matched [⟨r, s, s', nodes⟩] s')
        | .failed => pure .failed
        | .exhausted => pure .exhausted

/-- A depth of rule calls that no search on the text exceeds. -/
def callDepth (t : Text) : Nat := (t.length + 1) * (Rule.inOrder.length + 1)

/-- The outcome of matching a rule at the start of a text. What follows the match is left unread. -/
def derive (r : Rule) (t : Text) : Outcome :=
  Id.run (Rule.run (fun _ _ attempt => attempt) (callDepth t) r t.cursor)

end StructuredText.Grammar
