import StructuredText.SourceFile.Basic

/-!
# Comments and their owners

A comment belongs to the first node written after it that can own comments. The walk over a file
hands the comments out in document order: a node takes the comments that start on its own line or
above. A construct that is kept as it was written takes what stands before it and still holds what is
written inside it, so those comments are given to nobody. What is left at the end has no owner.

* `SourceFile.adopt` — a file with its comments, and the comments left over.
-/

namespace StructuredText

/-- Takes comments off the pending ones for as long as they pass the test. -/
def Comment.handOut (mine : Comment → Bool) : StateM (List Comment) (List Comment) := fun pending =>
  (pending.takeWhile mine, pending.dropWhile mine)

/-- Gives an anchor its share of the pending comments. -/
def Anchor.adopt (owner : Owner) (a : Anchor) : StateM (List Comment) Anchor := do
  match owner with
  | .node =>
    let mine ← Comment.handOut (·.line ≤ a.line)
    pure { a with comments := a.comments ++ mine }
  | .verbatim =>
    let mine ← Comment.handOut (·.span.start < a.span.start)
    let _ ← Comment.handOut (·.span.start < a.span.stop)
    pure { a with comments := a.comments ++ mine }

/-- Hands out comments to the nodes of a file; the comments that nobody took come back with it. -/
def SourceFile.adopt (f : SourceFile) (comments : List Comment) : SourceFile × List Comment :=
  (f.mapAnchors Anchor.adopt).run comments

end StructuredText
