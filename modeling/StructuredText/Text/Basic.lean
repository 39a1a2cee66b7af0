/-!
# Texts

A text is a list of characters: the matcher, the comment scanner and the layout functions are
structural recursions on it. Offsets into a text count bytes of its UTF-8 form, so that they agree
with the offsets an editor reports.

* `Text.byteLength` — how many bytes a text takes.
* `Text.slice?` — the characters between two byte offsets, if both fall between characters.
* `Text.sameWord` — equality up to the case of ASCII letters, as keywords and names are compared.
-/

namespace StructuredText

/-- A piece of source or of output, character by character. -/
abbrev Text := List Char

instance : Coe String Text := ⟨String.toList⟩

namespace Text

/-- The number of bytes of the UTF-8 form. -/
def byteLength (t : Text) : Nat := t.foldr (fun c bytes => c.utf8Size + bytes) 0

/-- Capital letters for the ASCII letters; every other character stays. -/
def upperCase (t : Text) : Text := t.map Char.toUpper

/-- Equality up to the case of ASCII letters. -/
def sameWord (s t : Text) : Bool := s.upperCase == t.upperCase

/-- The texts one after the other, with `separator` between neighbours. -/
def joinWith (separator : Text) (ts : List Text) : Text := separator.intercalate ts

/-- The text of something that may be missing. -/
def optional {α : Type} (text : α → Text) : Option α → Text
  | some a => text a
  | none => []

/-! ## Byte offsets -/

/-- What follows the first `n` bytes; none if the text is shorter or a character would be cut. -/
def dropBytes? (n : Nat) : Text → Option Text
  | [] => if n = 0 then some [] else none
  | c :: cs =>
    if n = 0 then some (c :: cs)
    else if c.utf8Size ≤ n then dropBytes? (n - c.utf8Size) cs
    else none

/-- The first `n` bytes; none if the text is shorter or a character would be cut. -/
def takeBytes? (n : Nat) : Text → Option Text
  | [] => if n = 0 then some [] else none
  | c :: cs =>
    if n = 0 then some []
    else if c.utf8Size ≤ n then (takeBytes? (n - c.utf8Size) cs).map (c :: ·)
    else none

/-- The text from byte `start` up to byte `stop`; none if the offsets are reversed, lie outside the
text or cut a character. -/
def slice? (t : Text) (start stop : Nat) : Option Text :=
  if start ≤ stop then (t.dropBytes? start).bind (takeBytes? (stop - start)) else none

end Text

/-- A range of byte offsets: from `start` up to, but not including, `stop`. -/
structure Span where
  start : Nat := 0
  stop : Nat := 0
  deriving DecidableEq, Repr

/-- The text a span covers, empty when the span does not fit the text. -/
def Span.text (s : Span) (source : Text) : Text := (source.slice? s.start s.stop).getD []

/-! ## Cursors -/

/-- A place in a text: the byte offset reached and the characters still ahead. -/
structure Cursor where
  offset : Nat
  rest : Text
  deriving DecidableEq, Repr

/-- The cursor before the first character. -/
def Text.cursor (t : Text) : Cursor := ⟨0, t⟩

/-- The text between a cursor and a later one on the same text. -/
def Cursor.upTo (a b : Cursor) : Text := (a.rest.takeBytes? (b.offset - a.offset)).getD []

end StructuredText
