import StructuredText.Grammar.Lexicon
import StructuredText.Text.LineIndex
import StructuredText.Text.Lines
import StructuredText.Token

/-!
# The comments of a text

Comments and pragmas may stand between any two tokens, so they are no part of a derivation. They are
found by a scan of the text on its own: from left to right, string literals and comments are stepped
over whole, anything else character by character. A mark of a comment inside a string is therefore
none, and a quote inside a comment opens no string. Text that is not an instance of the grammar is
scanned all the same.

* `Text.comments` — the comments and pragmas of a text, in order.
-/

namespace StructuredText

open Grammar

/-- The comment written at a cursor, up to a later cursor. -/
def Comment.between (lines : LineIndex) (start stop : Cursor) : Comment where
  kind := if start.rest.head? = some '\x7b' then .pragma else .comment
  text := Text.dedent (lines.columnOf start.offset) (start.upTo stop)
  line := lines.lineOf start.offset
  span := ⟨start.offset, stop.offset⟩

/-- One step of the scan: the cursor behind the string literal, comment or character at the cursor,
and the comment if it is one; none at the end of the text. -/
def Comment.step? (lines : LineIndex) (s : Cursor) : Option (Cursor × Option Comment) :=
  match Lexicon.stringLiteral.run s with
  | some stop => some (stop, none)
  | none =>
    match Lexicon.comment.run s with
    | some stop => some (stop, some (.between lines s stop))
    | none =>
      match s with
      | ⟨offset, c :: cs⟩ => some (⟨offset + c.utf8Size, cs⟩, none)
      | ⟨_, []⟩ => none

/-- The comments from a cursor on. Each step reads a character, so the characters of `bound` count
the steps. -/
def Comment.scan (lines : LineIndex) : (bound : Text) → Cursor → List Comment
  | [], _ => []
  | _ :: bound, s =>
    match Comment.step? lines s with
    | none => []
    | some (s, none) => scan lines bound s
    | some (s, some c) => c :: scan lines bound s

/-- The comments and pragmas of a text, in order. -/
def Text.comments (t : Text) : List Comment := Comment.scan (.ofText t) t t.cursor

end StructuredText
