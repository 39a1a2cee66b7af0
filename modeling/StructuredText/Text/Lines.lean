import StructuredText.Text.Basic

/-!
# Lines

Output is made of lines, and nested output is indented line by line; a comment that runs over
several lines loses the indentation it was found with. Both work on the lines of a text, which are
what a line feed separates: a text always has at least one, and `joinLines` puts them back.
-/

namespace StructuredText.Text

/-- The lines of a text, without the line feeds that end them. -/
def lines (t : Text) : List Text :=
  t.foldr step [[]]
where
  /-- Puts one more character in front of a list of lines. -/
  step (c : Char) : List Text → List Text
    | [] => if c = '\n' then [[], []] else [[c]]
    | l :: ls => if c = '\n' then [] :: l :: ls else (c :: l) :: ls

/-- The lines in one text, a line feed between neighbours. -/
def joinLines (ls : List Text) : Text := joinWith ['\n'] ls

/-- One level of indentation. -/
def indentation : Text := "    "

/-- Puts one level of indentation before every line that is not empty. -/
def indent (t : Text) : Text :=
  joinLines (t.lines.map fun l => if l.isEmpty then l else indentation ++ l)

/-- Drops at most `n` blanks or tabs from the front. -/
def dropMargin : Nat → Text → Text
  | n + 1, c :: cs => if c = ' ' || c = '\t' then dropMargin n cs else c :: cs
  | _, t => t

/-- Drops the carriage returns at the end. -/
def dropReturns (t : Text) : Text := (t.reverse.dropWhile (· = '\r')).reverse

/-- Takes a margin of `column` blanks or tabs off every line but the first, and the carriage returns
off the end of each line. -/
def dedent (column : Nat) (t : Text) : Text :=
  match t.lines with
  | [] => []
  | l :: ls => joinLines (dropReturns l :: ls.map fun k => dropReturns (dropMargin column k))

end StructuredText.Text
