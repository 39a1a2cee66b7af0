import StructuredText.Build.Children

/-!
# Building statements

The value of an assignment is taken from the back, since a variable would serve as a further target;
so is the last clause of an `IF` or `CASE`.
-/

namespace StructuredText.Build

open Grammar Builder

/-- Takes the statements of a body, if there is one. -/
def takeBody : Builder (List Statement) := do pure ((← takeIf (List Statement)).getD [])

/-- A simple statement at the anchor of the construct. -/
def simpleOf (statement : Builder SimpleStatement) : Builder Element := do
  let anchor ← anchor
  let s ← statement
  finish
  pure (.statement (.simple anchor s))

def assignmentStatement : Builder Element :=
  simpleOf do
    let value ← takeLast Expression
    let targets ← nonEmpty "assignment target" (← takeWhile Variable)
    pure (.assignment targets value)

/-- An assignment to one target. -/
def targetedStatement (op : TargetOperator) : Builder Element :=
  simpleOf do
    let target ← take Variable
    let value ← take Expression
    pure (.targeted op target value)

def methodStatement : Builder Element := simpleOf do pure (.methodCall (← take Variable))

def fbInvocationStatement : Builder Element := simpleOf do pure (.invocation (← take Call))

def noOpStatement : Builder Element := simpleOf do pure (.noOp (← take Variable))

def jumpStatement (jump : Jump) : Builder Element := simpleOf (pure (.jump jump))

def elseIfClause : Builder Element := do
  let anchor ← anchor
  let condition ← take Expression
  let body ← takeBody
  finish
  pure (.elseIf ⟨anchor, condition, body⟩)

def elseClause : Builder Element := do
  let anchor ← anchor
  let body ← takeBody
  finish
  pure (.otherwise ⟨anchor, body⟩)

def ifStatement : Builder Element := do
  let anchor ← anchor
  let otherwise ← takeLastIf Else
  let condition ← take Expression
  let body ← takeBody
  let elseIfs ← takeWhile ElseIf
  finish
  pure (.statement (.ifThen anchor condition body elseIfs otherwise))

/-- The label that an element is. -/
def caseLabel (e : Element) : Builder CaseLabel :=
  match ofElement? e with
  | some label => pure label
  | none => fail (.instead "a case label" e.kind)

/-- The labels of a case are the children of one raw node. -/
def caseElement : Builder Element := do
  let anchor ← anchor
  let list ← take (RawNode Element)
  if list.rule ≠ .caseList then fail (.instead "a case list" list.rule.name)
  let labels ← list.children.mapM caseLabel
  let body ← takeBody
  finish
  pure (.case ⟨anchor, labels, body⟩)

def caseStatement : Builder Element := do
  let anchor ← anchor
  let otherwise ← takeLastIf Else
  let selector ← take Expression
  let cases ← takeWhile Case
  finish
  pure (.statement (.caseOf anchor selector cases otherwise))

def forStatement : Builder Element := do
  let anchor ← anchor
  let control ← take SymbolicVariable
  let first ← take Expression
  let last ← take Expression
  let step ← takeIf Expression
  let body ← takeBody
  finish
  pure (.statement (.forTo anchor control first last step body))

def whileStatement : Builder Element := do
  let anchor ← anchor
  let condition ← take Expression
  let body ← takeBody
  finish
  pure (.statement (.whileDo anchor condition body))

def repeatStatement : Builder Element := do
  let anchor ← anchor
  let body ← takeBody
  let condition ← take Expression
  finish
  pure (.statement (.repeatUntil anchor body condition))

/-- Empty statements leave nothing behind; a list of nothing else is a token of its own rule. -/
def statementList : Builder Element := do
  let _ ← tokenIf .statementList
  let statements ← takeWhile Statement
  finish
  pure (.statements statements)

end StructuredText.Build
