import StructuredText.Grammar.Lexicon

/-!
# Grammar expressions

The right-hand sides of the rules, and how they are matched when it is known how rules are. As in
a pattern, a choice takes its first alternative that matches and a repetition all the rounds it can.
What is matched is a list of nodes, one for each rule called on the way that makes one.

Blanks and comments are skipped only where an expression says so: `Expr.spaced` puts `Lexicon.trivia`
between its parts, and `Expr.glued` does not. What was skipped before a part that matches without
reading anything stays read.

* `Outcome` — a match with its nodes, a failure, or a search that was cut short.
* `Expr.run` — matching, for any way to call a rule. It is written for an arbitrary monad, so that
  one definition serves both to parse and to record why a parse failed.
-/

namespace StructuredText.Grammar

/-- The right-hand side of a rule. -/
inductive Expr where
  /-- Reads a token that leaves no node. -/
  | lexeme (p : Pattern)
  /-- Calls a rule. -/
  | rule (r : Rule)
  /-- Matches the first expression, then the second right behind it. -/
  | seq (first second : Expr)
  /-- Matches the first expression, or the second where the first fails. -/
  | alt (first second : Expr)
  /-- Matches the expression as often as it can be. -/
  | star (body : Expr)
  /-- Matches where the expression does, without reading anything. -/
  | ahead (body : Expr)

/-- What a rule matched: the rule, the cursors around the match, and the nodes of the rules called
inside. -/
structure Node where
  rule : Rule
  start : Cursor
  stop : Cursor
  children : List Node

/-- The text a node was matched on. -/
def Node.text (n : Node) : Text := n.start.upTo n.stop

/-- The range of byte offsets a node was matched on. -/
def Node.span (n : Node) : Span := ⟨n.start.offset, n.stop.offset⟩

/-- The end of a search for a match. -/
inductive Outcome where
  /-- The nodes made on the way, and the cursor reached. -/
  | matched (nodes : List Node) (stop : Cursor)
  /-- There is no match. -/
  | failed
  /-- The search was given too few rule calls to decide. -/
  | exhausted

namespace Expr

section Matching

variable {m : Type → Type} [Monad m]

/-- Takes steps until one fails, and collects the nodes of all. As in `Pattern.repeatedly` the
characters of `bound` count the steps; the last one is allowed at the end of the text. -/
@[specialize] def repeatedly (step : Cursor → m Outcome) (bound : Text) (made : List (List Node))
    (s : Cursor) : m Outcome := do
  match ← step s with
  | .failed => pure (.matched made.reverse.flatten s)
  | .exhausted => pure .exhausted
  | .matched nodes s' =>
    match bound with
    | [] => pure (.matched (nodes :: made).reverse.flatten s')
    | _ :: bound => repeatedly step bound (nodes :: made) s'

/-- Matches an expression at a cursor, where `call` matches a rule. -/
@[specialize] def run (call : Rule → Cursor → m Outcome) : Expr → Cursor → m Outcome
  | .lexeme p, s =>
    match p.run s with
    | some s' => pure (.matched [] s')
    | none => pure .failed
  | .rule r, s => call r s
  | .seq a b, s => do
    match ← a.run call s with
    | .matched nodes s' =>
      match ← b.run call s' with
      | .matched more s'' => pure (.matched (nodes ++ more) s'')
      | .failed => pure .failed
      | .exhausted => pure .exhausted
    | .failed => pure .failed
    | .exhausted => pure .exhausted
  | .alt a b, s => do
    match ← a.run call s with
    | .matched nodes s' => pure (.matched nodes s')
    | .failed => b.run call s
    | .exhausted => pure .exhausted
  | .star a, s => repeatedly (a.run call) s.rest [] s
  | .ahead a, s => do
    match ← a.run call s with
    | .matched _ _ => pure (.matched [] s)
    | .failed => pure .failed
    | .exhausted => pure .exhausted

end Matching

/-! ## Derived expressions -/

instance : Coe Rule Expr := ⟨.rule⟩
instance : Coe Keyword Expr := ⟨fun k => .rule (.keyword k)⟩
instance : Coe Pattern Expr := ⟨.lexeme⟩
instance : Coe String Expr := ⟨fun s => .lexeme (Pattern.text s)⟩

/-- Blanks and comments, or none. -/
def trivia : Expr := .lexeme Lexicon.trivia

/-- Reads nothing. -/
def nothing : Expr := .lexeme .empty

/-- The expression, or nothing. -/
def opt (e : Expr) : Expr := .alt e nothing

/-- The first of the expressions that matches. -/
def oneOf : List Expr → Expr
  | [] => .lexeme (.oneOf [])
  | [e] => e
  | e :: es => .alt e (oneOf es)

/-- The expressions right behind each other. -/
def glued : List Expr → Expr
  | [] => nothing
  | [e] => e
  | e :: es => .seq e (glued es)

/-- The expressions with blanks and comments between them. -/
def spaced : List Expr → Expr
  | [] => nothing
  | [e] => e
  | e :: es => .seq e (.seq trivia (spaced es))

/-- The expression as often as it matches, with blanks and comments between the rounds. -/
def many (e : Expr) : Expr := opt (.seq e (.star (.seq trivia e)))

/-- The expression at least once, with blanks and comments between the rounds. -/
def many1 (e : Expr) : Expr := spaced [e, many e]

/-- The expression at least once, with commas between the rounds. -/
def commaList (e : Expr) : Expr := spaced [e, many (spaced [",", e])]

end Expr

end StructuredText.Grammar
