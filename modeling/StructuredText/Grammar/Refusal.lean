import StructuredText.Grammar.Furthest

/-!
# The report on a refused text

A refusal tells where the search for a match got to and what was expected there. It is shown as the
line of the text with a caret below the place:

     --> main.st:2:6
      |
    2 | x := ;
      |      ^---
      |
      = expected identifier, direct_variable, or unary_expression
-/

namespace StructuredText.Grammar

/-- Where a text stops being an instance of a rule. -/
structure Refusal where
  /-- The line, from one. A line feed ends a line, alone or after a carriage return. -/
  line : Nat
  /-- The number of the character in its line, from one. -/
  column : Nat
  /-- The line of the place, as it is shown. -/
  shown : Text
  /-- The rules expected at the place, in the order of the grammar. -/
  expected : List Rule

namespace Refusal

/-- The line and column reached after `offset` bytes of a text that starts at a given place. A
carriage return and the line feed after it count as one, at the carriage return. -/
def placeAfter (offset line column : Nat) : Text → Nat × Nat
  | '\r' :: '\n' :: cs =>
    if offset = 0 then (line, column) else placeAfter (offset - 2) (line + 1) 1 cs
  | c :: cs =>
    if offset = 0 then (line, column)
    else if c = '\n' then placeAfter (offset - 1) (line + 1) 1 cs
    else placeAfter (offset - c.utf8Size) line (column + 1) cs
  | [] => (line, column)

/-- The line around a place, between the texts before and behind it. Its ends of line are left out,
unless the place is at one: then they are shown as symbols. -/
def shownLine (before behind : Text) : Text :=
  let line := (before.reverse.takeWhile (· ≠ '\n')).reverse ++ behind.takeWhile (· ≠ '\n') ++
    (behind.dropWhile (· ≠ '\n')).take 1
  match behind with
  | '\r' :: _ | '\n' :: _ =>
    line.map fun c => if c = '\r' then '\u240D' else if c = '\n' then '\u240A' else c
  | _ => line.filter fun c => c ≠ '\r' && c ≠ '\n'

/-- The refusal of a text at the furthest place of the search. -/
def ofFurthest (t : Text) (f : Furthest) : Refusal :=
  let (line, column) := placeAfter f.offset 1 1 t
  { line, column, expected := f.expected
    shown := shownLine ((t.takeBytes? f.offset).getD []) ((t.dropBytes? f.offset).getD []) }

/-- An enumeration: `a`, `a or b`, `a, b, or c`. -/
def enumeration : List String → String
  | [] => ""
  | [a] => a
  | [a, b] => a ++ " or " ++ b
  | names => ", ".intercalate names.dropLast ++ ", or " ++ names.getLastD ""

/-- What was expected at the place. -/
def reason (r : Refusal) : String :=
  if r.expected.isEmpty then "unknown parsing error"
  else "expected " ++ enumeration (r.expected.map Rule.name)

/-- Blanks up to the place, or tabs where the line has tabs, and a caret. -/
def underline (r : Refusal) : String :=
  String.ofList ((r.shown.take (r.column - 1)).map fun c => if c = '\t' then c else ' ') ++ "^---"

/-- The report, for a text known by a file name. -/
def report (r : Refusal) (filename : String) : String :=
  let number := toString r.line
  let margin := String.ofList (List.replicate number.length ' ')
  "\n".intercalate
    [margin ++ "--> " ++ filename ++ ":" ++ number ++ ":" ++ toString r.column,
     margin ++ " |",
     number ++ " | " ++ String.ofList r.shown,
     margin ++ " | " ++ r.underline,
     margin ++ " |",
     margin ++ " = " ++ r.reason]

end Refusal

/-- The refusal of a text that is no instance of a rule. -/
def refusal (r : Rule) (t : Text) : Refusal := .ofFurthest t (furthest r t)

end StructuredText.Grammar
