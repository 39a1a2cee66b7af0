import StructuredText.Element.Basic

/-!
# The children of a construct

A builder makes the element of a construct from the elements of its children. It takes them one by
one, mostly from the front, asks for each what it must serve as, and fails when a child does not fit
or is left over.

* `Children` — the elements not yet taken, and the construct they belong to.
* `Builder` — a computation on children. A failure keeps what was taken before it.
* `ConstructionError` — why a construct could not be built, with the rule and line of the construct
  and the number of children it was given.
-/

namespace StructuredText

/-- What a builder wanted in place of what it found. -/
inductive Expectation where
  /-- A child of one kind in place of another kind, or of none. -/
  | child (wanted : String) (found : Option String)
  /-- A single child. -/
  | exactlyOne
  /-- No further child. -/
  | nothingMore (found : String)
  /-- A list that is not empty. -/
  | atLeastOne (what : String)
  /-- One thing in place of another. -/
  | instead (wanted found : String)
  /-- Something else, in words. -/
  | stated (words : String)
  deriving DecidableEq

def Expectation.message : Expectation → String
  | .child wanted (some found) => "expected " ++ wanted ++ ", found " ++ found
  | .child wanted none => "expected " ++ wanted ++ ", found nothing"
  | .exactlyOne => "exactly one child"
  | .nothingMore found => "nothing more, found " ++ found
  | .atLeastOne what => "at least one " ++ what
  | .instead wanted found => wanted ++ ", found " ++ found
  | .stated words => words

/-- Why a construct could not be built. -/
structure ConstructionError where
  rule : Grammar.Rule
  line : Nat
  /-- The number of children given at first. -/
  received : Nat
  expected : Expectation
  deriving DecidableEq

def ConstructionError.message (e : ConstructionError) : String :=
  "cannot build `" ++ e.rule.name ++ "` (line " ++ toString e.line ++ ") from " ++
    toString e.received ++ " children: " ++ e.expected.message

/-- The children of a construct that are not taken yet. -/
structure Children where
  rule : Grammar.Rule
  line : Nat
  span : Span
  /-- The number of children given at first. -/
  received : Nat
  rest : List Element

namespace Children

/-- The children of a construct before any is taken. -/
def ofList (rule : Grammar.Rule) (line : Nat) (span : Span) (elements : List Element) : Children :=
  { rule, line, span, received := elements.length, rest := elements }

/-- A fresh anchor for what is built from the children. -/
def anchor (c : Children) : Anchor := { line := c.line, span := c.span }

/-- The error about the construct. -/
def error (c : Children) (expected : Expectation) : ConstructionError :=
  { rule := c.rule, line := c.line, received := c.received, expected }

end Children

/-- A computation that takes children. -/
abbrev Builder (α : Type) := ExceptT ConstructionError (StateM Children) α

namespace Builder

open Grammar (Rule)

/-- The result of a builder on given children. -/
def build {α : Type} (b : Builder α) (c : Children) : Except ConstructionError α := (b.run c).1

/-- Gives up. -/
def fail {α : Type} (expected : Expectation) : Builder α := do throw ((← get).error expected)

/-- A fresh anchor for the construct. -/
def anchor : Builder Anchor := do pure (← get).anchor

/-- Drops the first child, and gives a result. -/
def tookFirst {α : Type} (a : α) : Builder α := do
  modify fun c => { c with rest := c.rest.tail }
  pure a

/-- Drops the last child, and gives a result. -/
def tookLast {α : Type} (a : α) : Builder α := do
  modify fun c => { c with rest := c.rest.dropLast }
  pure a

/-- Puts an element in front of the children. -/
def putFirst (e : Element) : Builder Unit := modify fun c => { c with rest := e :: c.rest }

/-- Puts an element behind the children. -/
def putLast (e : Element) : Builder Unit := modify fun c => { c with rest := c.rest ++ [e] }

/-- The value of a child that must serve as a value of a type. -/
def require {α : Type} [OfElement α] : Option Element → Builder α
  | none => fail (.child (wanted α) none)
  | some e =>
    match ofElement e with
    | .ok a => pure a
    | .error e => fail (.child (wanted α) (some e.kind))

/-- Takes the first child, which must serve as a value of the type. -/
def take (α : Type) [OfElement α] : Builder α := do
  let child := (← get).rest.head?
  tookFirst ()
  require child

/-- Takes the last child, which must serve as a value of the type. -/
def takeLast (α : Type) [OfElement α] : Builder α := do
  let child := (← get).rest.getLast?
  tookLast ()
  require child

/-- The value of a child that was taken, if it serves as a value of the type. What is handed back is
put where the child was. -/
def acceptOr (α : Type) [OfElement α] (putBack : Element → Builder Unit) (child : Element) :
    Builder (Option α) :=
  match ofElement child with
  | .ok a => pure (some a)
  | .error e => do
    putBack e
    pure none

/-- Takes the first child if it serves as a value of the type. -/
def takeIf (α : Type) [OfElement α] : Builder (Option α) := do
  match (← get).rest.head? with
  | none => pure none
  | some e =>
    tookFirst ()
    acceptOr α putFirst e

/-- Takes the last child if it serves as a value of the type. -/
def takeLastIf (α : Type) [OfElement α] : Builder (Option α) := do
  match (← get).rest.getLast? with
  | none => pure none
  | some e =>
    tookLast ()
    acceptOr α putLast e

/-- The elements in front that serve as values of the type, and what is left. -/
def splitWhile (α : Type) [OfElement α] : List Element → List α × List Element
  | [] => ([], [])
  | e :: es =>
    match ofElement e with
    | .ok a => let (as, rest) := splitWhile α es; (a :: as, rest)
    | .error e => ([], e :: es)

/-- Takes children for as long as they serve as values of the type. -/
def takeWhile (α : Type) [OfElement α] : Builder (List α) := do
  let (as, rest) := splitWhile α (← get).rest
  modify fun c => { c with rest }
  pure as

/-- Takes the first child if it is a token of the rule. -/
def tokenIf (r : Rule) : Builder (Option Token) := do
  match (← get).rest with
  | .token r' t :: _ => if r' = r then tookFirst (some t) else pure none
  | _ => pure none

/-- Takes the first child if it is a token list of the rule. -/
def tokenListIf (r : Rule) : Builder (Option (List Token)) := do
  match (← get).rest with
  | .tokens r' ts :: _ => if r' = r then tookFirst (some ts) else pure none
  | _ => pure none

/-- The value, or a failure that names the rule that was wanted and the first child. -/
def orMismatch {α : Type} (r : Rule) : Option α → Builder α
  | some a => pure a
  | none => do fail (.child r.name ((← get).rest.head?.map Element.kind))

/-- Takes the first child, which must be a token of the rule. -/
def token (r : Rule) : Builder Token := do orMismatch r (← tokenIf r)

/-- Takes the first child, which must be a token list of the rule. -/
def tokenList (r : Rule) : Builder (List Token) := do orMismatch r (← tokenListIf r)

/-- The only child, as it is. -/
def single : Builder Element := do
  match (← get).rest with
  | [e] => pure e
  | _ => fail .exactlyOne

/-- Fails if a child is left. -/
def finish : Builder Unit := do
  match (← get).rest with
  | [] => pure ()
  | e :: _ => fail (.nothingMore e.kind)

/-- The list, which must not be empty. -/
def nonEmpty {α : Type} (what : String) (as : List α) : Builder (List α) :=
  if as.isEmpty then fail (.atLeastOne what) else pure as

end Builder

end StructuredText
