import StructuredText.Build.Table
import StructuredText.Grammar.Derivation
import StructuredText.Text.Blank
import StructuredText.Text.LineIndex

/-!
# From derivation to tree

The nodes of a derivation become elements from the leaves up. A node without children is a token;
keywords only mark the structure of a construct, so no element is made from them. Where a rule has a
builder, it turns the elements of the children, or the token, into the element of the node.

* `ownEnd` — where the own text of a node without a builder stops.
* `element` — the element of a node.
* `sourceFile` — the tree of a whole file.
-/

namespace StructuredText.Build

open Grammar (Node)

/-- Where the own text of a raw node stops. The node was matched on `text`, from the offset `start`
on, and its last child stops at the offset `last`. What the node was matched on behind the child are
blanks and comments, of which only a semicolon right behind the child, or behind white space, is part
of the construct. -/
def ownEnd (text : Text) (start last : Nat) : Nat :=
  let behind := (text.dropBytes? (last - start)).getD []
  if behind.trimStart.head? = some ';' then
    last + Text.byteLength (behind.takeWhile isBlank) + 1
  else
    last

mutual

/-- The element of a node. -/
def element (lines : LineIndex) : Node → Except ConstructionError Element
  | ⟨rule, start, stop, children⟩ => do
    let line := lines.lineOf start.offset
    let span : Span := ⟨start.offset, stop.offset⟩
    let elements ← elements lines children
    match children.getLast?, builder? rule with
    | none, none => pure (.token rule ⟨start.upTo stop, line⟩)
    | none, some b => b.build (.ofList rule line span [.token rule ⟨start.upTo stop, line⟩])
    | some _, some b => b.build (.ofList rule line span elements)
    | some last, none =>
      let text := start.upTo stop
      let own := ownEnd text start.offset last.stop.offset
      pure (.raw
        { rule, line, children := elements, span := ⟨start.offset, own⟩
          text := (text.takeBytes? (own - start.offset)).getD [] })

/-- The elements of the nodes that are no keywords. -/
def elements (lines : LineIndex) : List Node → Except ConstructionError (List Element)
  | [] => pure []
  | n :: ns => do
    if n.rule.isKeyword then
      elements lines ns
    else
      let e ← element lines n
      let es ← elements lines ns
      pure (e :: es)

end

/-- The tree of a file, for the node of its derivation. -/
def sourceFile (lines : LineIndex) (root : Node) : Except ConstructionError SourceFile := do
  let e ← element lines root
  match e with
  | .file f => pure f
  | e =>
    throw
      { rule := root.rule, line := lines.lineOf root.start.offset, received := 1
        expected := .child "SourceCode" (some e.kind) }

end StructuredText.Build
