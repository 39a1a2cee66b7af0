import StructuredText.Text.Basic
import StructuredText.Text.Unprintable

/-!
# Quoted texts

A text as it is quoted in a message: between double quotes, on one line, and with every character
visible.
-/

namespace StructuredText

/-- How a character is written in a quoted text: after a backslash where it is a quote, a backslash
or a common control, and by its code point where it is unprintable. -/
def quotedChar (c : Char) : String :=
  match c with
  | '"' => "\\\""
  | '\\' => "\\\\"
  | '\t' => "\\t"
  | '\r' => "\\r"
  | '\n' => "\\n"
  | '\x00' => "\\0"
  | c =>
    if isUnprintable c then
      "\\u\x7b" ++ String.ofList (Nat.toDigits 16 c.toNat) ++ "\x7d"
    else c.toString

/-- The text in quotes. -/
def Text.quoted (t : Text) : String := "\"" ++ String.join (t.map quotedChar) ++ "\""

end StructuredText
