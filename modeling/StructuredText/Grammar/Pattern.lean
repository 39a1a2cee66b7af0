import StructuredText.Text.Basic

/-!
# Lexical patterns

A pattern says how a token is spelled, character by character. Matching is greedy and ordered: a
choice takes its first alternative that matches, a repetition takes as many rounds as it can, and
neither is reconsidered. A pattern never calls a rule, so matching is a structural recursion on the
pattern and every match ends.

* `Pattern.run` — the cursor after the match, if there is one.
* `Pattern.text`, `Pattern.word` — a fixed spelling, exact or up to the case of ASCII letters.
-/

namespace StructuredText.Grammar

/-- How a piece of text is spelled. -/
inductive Pattern where
  /-- Matches without reading anything. -/
  | empty
  /-- Reads one character that passes the test. -/
  | char (test : Char → Bool)
  /-- Reads the first pattern, then the second. -/
  | seq (first second : Pattern)
  /-- Reads the first pattern, or the second where the first does not match. -/
  | alt (first second : Pattern)
  /-- Reads the pattern as often as it matches. -/
  | star (body : Pattern)
  /-- Reads nothing, and matches where the pattern does not. -/
  | notAhead (body : Pattern)

namespace Pattern

/-- Takes steps until one fails. The characters of `bound` count the steps: one that reads nothing
would be repeated for ever, and one that reads something can be taken at most once a character. -/
def repeatedly (step : Cursor → Option Cursor) : (bound : Text) → Cursor → Cursor
  | [], s => s
  | _ :: bound, s =>
    match step s with
    | some s' => repeatedly step bound s'
    | none => s

/-- Matches a pattern at a cursor. -/
def run : Pattern → Cursor → Option Cursor
  | .empty, s => some s
  | .char _, ⟨_, []⟩ => none
  | .char test, ⟨offset, c :: cs⟩ => if test c then some ⟨offset + c.utf8Size, cs⟩ else none
  | .seq p q, s => (p.run s).bind q.run
  | .alt p q, s => (p.run s).or (q.run s)
  | .star p, s => some (repeatedly p.run s.rest s)
  | .notAhead p, s => if (p.run s).isSome then none else some s

/-! ## Derived patterns -/

/-- The patterns one after the other. -/
def all : List Pattern → Pattern
  | [] => .empty
  | [p] => p
  | p :: ps => .seq p (all ps)

/-- The first of the patterns that matches. -/
def oneOf : List Pattern → Pattern
  | [] => .notAhead .empty
  | [p] => p
  | p :: ps => .alt p (oneOf ps)

/-- The pattern, or nothing. -/
def opt (p : Pattern) : Pattern := .alt p .empty

/-- The pattern once or more often. -/
def plus (p : Pattern) : Pattern := .seq p (.star p)

/-- One given character. -/
def only (c : Char) : Pattern := .char (· == c)

/-- Any one character. -/
def any : Pattern := .char fun _ => true

/-- A fixed spelling. -/
def text (t : Text) : Pattern := all (t.map only)

/-- A fixed spelling in which the case of ASCII letters does not matter. -/
def word (t : Text) : Pattern := all (t.map fun c => .char (·.toUpper == c.toUpper))

/-- The end of the text. -/
def ended : Pattern := .notAhead any

instance : Coe String Pattern := ⟨fun s => text s⟩

end Pattern

end StructuredText.Grammar
