import StructuredText.Build.Children

/-!
# Building variables, expressions and calls

A level of operators with a single operand adds nothing to it: the operand is passed on as it is, so
an expression without operators stays the literal or variable that it is. A chain of operators is
folded to the left.
-/

namespace StructuredText.Build

open Grammar Builder

/-! ## Variables -/

def variableName : Builder Element := do
  let name ← token .identifier
  let mark ← tokenIf .deref
  finish
  pure (.place (.symbolic { name, dereferenced := mark.isSome }))

def fieldSelector : Builder Element := do
  let mark ← tokenIf .deref
  let name ← take Token
  finish
  pure (.selector (.field name mark.isSome))

def subscriptList : Builder Element := do
  let indices ← takeWhile Expression
  let mark ← tokenIf .deref
  let indices ← nonEmpty "subscript" indices
  finish
  pure (.selector (.subscript indices mark.isSome))

def multiElementVariable : Builder Element := do
  let name ← take SymbolicVariable
  let selectors ← takeWhile Selector
  finish
  pure (.place (if selectors.isEmpty then .symbolic name else .multiElement name selectors))

/-! ## Addresses -/

/-- The area named by a letter. -/
def areaOf? (letter : Text) : Option AddressArea :=
  [AddressArea.I, .Q, .M].find? fun a =>
    letter == match a with | .I => ['I'] | .Q => ['Q'] | .M => ['M']

/-- The size named by a letter. -/
def sizeOf? (letter : Text) : Option AddressSize :=
  [AddressSize.X, .B, .W, .D, .L].find? fun s =>
    letter == match s with | .X => ['X'] | .B => ['B'] | .W => ['W'] | .D => ['D'] | .L => ['L']

/-- The value that a letter stands for, in any case. -/
def letterOf {α : Type} (what : String) (value? : Text → Option α) (t : Token) : Builder α :=
  match value? t.text.upperCase with
  | some a => pure a
  | none => fail (.instead what (String.ofList t.text.upperCase))

/-- The tokens of a rule in front, and what is left. -/
def splitTokens (r : Rule) : List Element → List Token × List Element
  | .token r' t :: es =>
    if r' = r then let (ts, rest) := splitTokens r es; (t :: ts, rest) else ([], .token r' t :: es)
  | es => ([], es)

/-- Takes children for as long as they are tokens of the rule. -/
def takeTokens (r : Rule) : Builder (List Token) := do
  let (ts, rest) := splitTokens r (← get).rest
  modify fun c => { c with rest }
  pure ts

/-- A missing size stands for single bits. -/
def directVariable : Builder Element := do
  let area ← letterOf "a location prefix" areaOf? (← token .locationPrefix)
  let size ← match ← tokenIf .sizePrefix with
    | none => pure AddressSize.X
    | some t => letterOf "a size prefix" sizeOf? t
  let location ← token .directLocation
  let bits ← takeTokens .directBit
  finish
  pure (.place (.direct { area, size, location, bits }))

def location : Builder Element := do
  let address ← take DirectVariable
  finish
  pure (.location { address })

def incompleteLocation : Builder Element := do
  let address ← token .incompleteAddress
  finish
  pure (.incompleteLocation { address })

/-! ## Operators -/

/-- Takes operators and operands by turns until nothing is left, and adds them to the left operand.
The elements of `bound` count the rounds. -/
def chainOnto (left : Expression) (bound : List Element) : Builder Expression := do
  if (← get).rest.isEmpty then pure left
  else
    match bound with
    | [] => pure left
    | _ :: bound =>
      let op ← take Token
      let right ← take Expression
      chainOnto (.binary left op right) bound

/-- A level of binary operators. -/
def binaryChain : Builder Element := do
  match (← get).rest with
  | [_] => single
  | children =>
    let left ← take Expression
    let e ← chainOnto left children
    pure (.expression e)

def unaryExpression : Builder Element := do
  match ← tokenIf .unaryOperator with
  | none => single
  | some op =>
    let operand ← take Expression
    finish
    pure (.expression (.unary op operand))

def parenthesizedExpression : Builder Element := do
  let inner ← take Expression
  finish
  pure (.expression (.parenthesized inner))

def qualifiedEnumeratedValue : Builder Element := do
  let typeName ← token .typeName
  let name ← token .identifier
  finish
  pure (.enumeratedValue ⟨some typeName, name, none⟩)

/-! ## Calls -/

def paramAssignment : Builder Element := do
  let name ← tokenIf .identifier
  let value ← take Expression
  finish
  pure (.parameter (.input name value))

def outputParameterAssignment : Builder Element := do
  let inverter ← tokenIf .outputInverter
  let name ← token .identifier
  let target ← takeIf Variable
  finish
  pure (.parameter (.output inverter.isSome name target))

/-- A variable and its parameters. -/
def callOf : Builder Call := do
  let callee ← take Variable
  let parameters ← takeWhile Parameter
  finish
  pure ⟨callee, parameters⟩

def functionCall : Builder Element := do pure (.expression (.call (← callOf)))

def fbInvocation : Builder Element := do pure (.invocation (← callOf))

end StructuredText.Build
