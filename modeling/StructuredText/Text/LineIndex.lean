import StructuredText.Text.Basic

/-!
# Line index

The byte offsets at which the lines of a text start, kept so that the line of any offset is found by
halving the range of candidate lines. Lines are counted from one, columns from zero and in bytes.
Only a line feed ends a line.
-/

namespace StructuredText

/-- Halves the range from `low` to `high` until it holds one number: the first for which `p` fails,
when `p` holds up to some number of the range and fails from there on. `fuel` bounds the rounds;
the width of the range is enough. -/
def bisect (p : Nat → Bool) : (fuel low high : Nat) → Nat
  | 0, low, _ => low
  | fuel + 1, low, high =>
    if low < high then
      let middle := (low + high) / 2
      if p middle then bisect p fuel (middle + 1) high else bisect p fuel low middle
    else low

/-- The offsets at which the lines of a text start. -/
structure LineIndex where
  starts : Array Nat

namespace LineIndex

/-- The offsets right after each line feed, for a text that starts at `offset`. -/
def startsAfter (offset : Nat) : Text → List Nat
  | [] => []
  | c :: cs =>
    if c = '\n' then (offset + 1) :: startsAfter (offset + 1) cs
    else startsAfter (offset + c.utf8Size) cs

/-- The line index of a text. -/
def ofText (t : Text) : LineIndex := ⟨(0 :: startsAfter 0 t).toArray⟩

/-- The number of lines. -/
def lineCount (ix : LineIndex) : Nat := ix.starts.size

/-- The line that holds an offset: the number of lines that start at or before it. -/
def lineOf (ix : LineIndex) (offset : Nat) : Nat :=
  bisect (fun i => ix.starts.getD i 0 ≤ offset) ix.starts.size 0 ix.starts.size

/-- The number of bytes between the start of its line and an offset. -/
def columnOf (ix : LineIndex) (offset : Nat) : Nat :=
  offset - ix.starts.getD (ix.lineOf offset - 1) 0

end LineIndex

end StructuredText
