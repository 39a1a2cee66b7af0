import StructuredText.Build.Children

/-!
# Building literals

A literal is built from its tokens. The type in front of an integer comes before the integer, which
is built already; the parts of a duration are raw nodes that hold a number each.
-/

namespace StructuredText.Build

open Grammar Builder

/-- An integer from the digits of one base. -/
def integerOf (digitsOf : Rule) (base : NumberBase) : Builder Element := do
  let value ← token digitsOf
  finish
  pure (.literal (.integer { value, base }))

def integerLiteral : Builder Element := do
  let typeName ← tokenIf .integerTypeName
  let i ← take Integer
  finish
  pure (.literal (.integer { i with typeName }))

def realLiteral : Builder Element := do
  let typeName ← tokenIf .realTypeName
  let value ← token .realValue
  finish
  pure (.literal (.real { value, typeName }))

/-- A bit string from the digits of one base. -/
def bitStringOf (digitsOf : Rule) (base : NumberBase) : Builder Element := do
  let typeName ← token .bitStringTypeName
  let value ← token digitsOf
  finish
  pure (.literal (.bitString { typeName, value, base }))

/-- A truth value from the token of its rule. -/
def booleanOf (rule : Rule) (value : Bool) : Builder Element := do
  let _ ← token rule
  finish
  pure (.literal (.boolean value))

/-- A duration with the part of one unit set; none if the rule is no unit. -/
def setPart? (d : Duration) (number : Token) : Rule → Option Duration
  | .days => some { d with days := some number }
  | .hours => some { d with hours := some number }
  | .minutes => some { d with minutes := some number }
  | .seconds => some { d with seconds := some number }
  | .milliseconds => some { d with milliseconds := some number }
  | _ => none

/-- Adds one part to a duration. -/
def addPart (d : Duration) (part : RawNode Element) : Builder Duration :=
  match part.token? with
  | none => fail (.stated ("a number in " ++ part.rule.name))
  | some number =>
    match setPart? d number part.rule with
    | none => fail (.instead "a duration part" part.rule.name)
    | some d => pure d

def duration : Builder Element := do
  let parts ← takeWhile (RawNode Element)
  if !(← get).rest.isEmpty || parts.isEmpty then fail (.stated "one or more duration parts")
  let d ← parts.foldlM addPart {}
  pure (.literal (.duration d))

/-- Takes hour, minute and second. -/
def takeTime : Builder TimeOfDay := do
  let hour ← token .dayHour
  let minute ← token .dayMinute
  let second ← token .daySecond
  pure { hour, minute, second }

/-- Takes year, month and day. -/
def takeDate : Builder Date := do
  let year ← token .year
  let month ← token .month
  let day ← token .day
  pure { year, month, day }

def timeOfDay : Builder Element := do
  let time ← takeTime
  finish
  pure (.literal (.timeOfDay time))

def date : Builder Element := do
  let date ← takeDate
  finish
  pure (.literal (.date date))

def dateAndTime : Builder Element := do
  let date ← takeDate
  let time ← takeTime
  finish
  pure (.literal (.dateTime { date, time }))

def stringLiteral : Builder Element := do
  let value ← token .stringLiteral
  finish
  pure (.literal (.string { value }))

end StructuredText.Build
