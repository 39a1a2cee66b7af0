import StructuredText.Statement.Basic
import StructuredText.Declaration.Json

/-!
# Statements as JSON

A body is the list of its statements, or null if it has none.
-/

namespace StructuredText

def TargetOperator.tag : TargetOperator → String
  | .set => "set"
  | .reset => "reset"
  | .refer => "reference_assignment"

def Jump.tag : Jump → String
  | .exit => "exit"
  | .continue => "continue"
  | .return => "return"

/-- A simple statement with the anchor it stands at. -/
def SimpleStatement.toJson (a : Anchor) : SimpleStatement → Json
  | .assignment vs e =>
    .tagged "assignment" (a.object [("targets", json vs), ("value", json e)])
  | .targeted op v e => .tagged op.tag (a.object [("target", json v), ("value", json e)])
  | .methodCall v => .tagged "method_call" (a.object [("method", json v)])
  | .invocation c => .tagged "invocation" (a.object [("invocation", json c)])
  | .noOp v => .tagged "no_op" (a.object [("variable", json v)])
  | .jump j => .tagged j.tag (json a)

instance : JsonForm CaseLabel where
  json
    | .value e => .tagged "value" (json e)
    | .range r => .tagged "subrange" (json r)

/-- A list of statements as a value of its own. -/
def statementsObject (statements : List Json) : Json := .object [("statements", .array statements)]

/-- The body of a statement or clause. -/
def bodyJson (statements : List Json) : Json :=
  if statements.isEmpty then .null else statementsObject statements

mutual

def Statement.toJson : Statement → Json
  | .simple a s => s.toJson a
  | .ifThen a c ss es o =>
    .tagged "if" (a.object
      [("condition", json c), ("statements", bodyJson (Statement.toJsons ss)),
       ("else_ifs", .array (ElseIf.toJsons es)), ("else_clause", Else.optionToJson o)])
  | .caseOf a e cs o =>
    .tagged "case" (a.object
      [("expression", json e), ("cases", .array (Case.toJsons cs)),
       ("else_clause", Else.optionToJson o)])
  | .forTo a v e f s ss =>
    .tagged "for" (a.object
      [("control", json v), ("from", json e), ("to", json f), ("step", json s),
       ("statements", bodyJson (Statement.toJsons ss))])
  | .whileDo a c ss =>
    .tagged "while" (a.object
      [("condition", json c), ("statements", bodyJson (Statement.toJsons ss))])
  | .repeatUntil a ss c =>
    .tagged "repeat" (a.object
      [("statements", bodyJson (Statement.toJsons ss)), ("until", json c)])

def Statement.toJsons : List Statement → List Json
  | [] => []
  | s :: ss => s.toJson :: Statement.toJsons ss

def ElseIf.toJson : ElseIf → Json
  | ⟨a, c, ss⟩ =>
    a.object [("condition", json c), ("statements", bodyJson (Statement.toJsons ss))]

def Else.toJson : Else → Json
  | ⟨a, ss⟩ => a.object [("statements", bodyJson (Statement.toJsons ss))]

def Case.toJson : Case → Json
  | ⟨a, ls, ss⟩ =>
    a.object [("matches", json ls), ("statements", bodyJson (Statement.toJsons ss))]

def ElseIf.toJsons : List ElseIf → List Json
  | [] => []
  | e :: es => e.toJson :: ElseIf.toJsons es

def Else.optionToJson : Option Else → Json
  | none => .null
  | some e => e.toJson

def Case.toJsons : List Case → List Json
  | [] => []
  | c :: cs => c.toJson :: Case.toJsons cs

end

instance : JsonForm Statement := ⟨Statement.toJson⟩
instance : JsonForm ElseIf := ⟨ElseIf.toJson⟩
instance : JsonForm Else := ⟨Else.toJson⟩
instance : JsonForm Case := ⟨Case.toJson⟩

end StructuredText
