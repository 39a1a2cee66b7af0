import StructuredText.Text.Basic

/-!
# White space

The characters with the Unicode property `White_Space`, and what is done with them: trimming a
text and splitting it into words. The grammar's own blanks are fewer and are defined with it.
-/

namespace StructuredText

/-- The inclusive code point ranges of the Unicode property `White_Space`. -/
def blankRanges : List (Nat × Nat) :=
  [(0x09, 0x0D), (0x20, 0x20), (0x85, 0x85), (0xA0, 0xA0), (0x1680, 0x1680), (0x2000, 0x200A),
   (0x2028, 0x2029), (0x202F, 0x202F), (0x205F, 0x205F), (0x3000, 0x3000)]

/-- White space in the sense of Unicode. -/
def isBlank (c : Char) : Bool :=
  blankRanges.any fun (low, high) => low ≤ c.toNat && c.toNat ≤ high

namespace Text

/-- Without the white space in front. -/
def trimStart (t : Text) : Text := t.dropWhile isBlank

/-- Without the white space at the end. -/
def trimEnd (t : Text) : Text := (t.reverse.dropWhile isBlank).reverse

/-- Without the white space at either end. -/
def trim (t : Text) : Text := t.trimStart.trimEnd

/-- The words of a text: its longest runs without white space, in order. -/
def words (t : Text) : List Text :=
  (t.foldr split [[]]).filter (!·.isEmpty)
where
  /-- Puts one more character in front of a list of words. -/
  split (c : Char) : List Text → List Text
    | [] => if isBlank c then [[]] else [[c]]
    | w :: ws => if isBlank c then [] :: w :: ws else (c :: w) :: ws

end Text

end StructuredText
