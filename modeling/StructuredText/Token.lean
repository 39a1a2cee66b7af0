import StructuredText.Json

/-!
# Tokens and anchors

The leaves of a tree are tokens: a piece of the source with the line it was found on. The nodes that
may own comments carry an anchor: where they stand in the source, and the comments that belong to
them.

Trees are compared by what they say and not by where it was written, so the equality of tokens,
comments and anchors leaves lines and spans out.
-/

namespace StructuredText

/-- A piece of the source and the line it starts on. -/
structure Token where
  text : Text
  line : Nat := 1

/-- Tokens are equal when their texts are. -/
instance : BEq Token := ⟨fun a b => a.text == b.text⟩

instance : JsonForm Token := ⟨fun t => .object [("text", json t.text), ("line", json t.line)]⟩

/-- Whether a token is a given word, up to the case of ASCII letters. -/
def Token.is (t : Token) (word : Text) : Bool := t.text.sameWord word

/-- The text of a token as a string. -/
def Token.string (t : Token) : String := String.ofList t.text

/-! ## Comments -/

/-- What is written outside the grammar. -/
inductive Comment.Kind where
  /-- A remark: two slashes up to the end of the line, or text between `(*` and `*)`. -/
  | comment
  /-- An instruction to a tool, in braces. -/
  | pragma
  deriving DecidableEq, Repr

/-- A comment or pragma: its text without the margin of its first line, and where it was found. -/
structure Comment where
  kind : Comment.Kind
  text : Text
  line : Nat
  span : Span

/-- Comments are equal when they are of one kind and say the same. -/
instance : BEq Comment := ⟨fun a b => a.kind == b.kind && a.text == b.text⟩

def Comment.isPragma (c : Comment) : Bool := c.kind == .pragma

instance : JsonForm Comment.Kind where
  json
    | .comment => .string "comment"
    | .pragma => .string "pragma"

instance : JsonForm Comment where
  json c := .object
    [("kind", json c.kind), ("text", json c.text), ("line", json c.line), ("span", json c.span)]

/-! ## Anchors -/

/-- Where a node stands in the source, and the comments it owns, in source order. -/
structure Anchor where
  line : Nat := 0
  span : Span := {}
  comments : List Comment := []

/-- Anchors are equal when they own the same comments. -/
instance : BEq Anchor := ⟨fun a b => a.comments == b.comments⟩

instance : JsonForm Anchor where
  json a := .object [("line", json a.line), ("span", json a.span), ("comments", json a.comments)]

namespace Anchor

/-- The text a node was made from. -/
def sourceText (a : Anchor) (source : Text) : Text := a.span.text source

/-- The pragmas among the comments. -/
def pragmas (a : Anchor) : List Comment := a.comments.filter Comment.isPragma

end Anchor

end StructuredText
