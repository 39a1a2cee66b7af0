import StructuredText.Statement.Basic
import StructuredText.Declaration.Layout

/-!
# Statements as text

One statement a line, bodies one level in. The cases of a `CASE` stand one level in as well, its
`ELSE` does not.
-/

namespace StructuredText

def TargetOperator.render : TargetOperator → Text
  | .set => "S="
  | .reset => "R="
  | .refer => "REF="

def Jump.render : Jump → Text
  | .exit => "EXIT"
  | .continue => "CONTINUE"
  | .return => "RETURN"

def SimpleStatement.render : SimpleStatement → Text
  | .assignment vs e => Text.joinWith " := " (vs.map Variable.render) ++ " := " ++ e.render ++ ";"
  | .targeted op v e => v.render ++ " " ++ op.render ++ " " ++ e.render ++ ";"
  | .methodCall v => v.render ++ "();"
  | .invocation c => c.render ++ ";"
  | .noOp v => v.render ++ ";"
  | .jump j => j.render ++ ";"

def CaseLabel.render : CaseLabel → Text
  | .value e => e.render
  | .range r => r.render

/-- A body as lines of what it stands in: none if it is empty, else its text one level in. -/
def bodyLines (body : Text) : List Text := if body.isEmpty then [] else [body.indent]

mutual

def Statement.render : Statement → Text
  | .simple a s => a.above s.render
  | .ifThen a c ss es o =>
    a.above <| Text.joinLines <|
      ["IF " ++ c.render ++ " THEN"] ++ bodyLines (Statement.renderAll ss) ++
        ElseIf.renderAll es ++ Else.renderOption o ++ [("END_IF" : Text)]
  | .caseOf a e cs o =>
    a.above <| Text.joinLines <|
      ["CASE " ++ e.render ++ " OF"] ++ Case.renderAll cs ++ Else.renderOption o ++
        [("END_CASE" : Text)]
  | .forTo a v e f s ss =>
    a.above <| Text.joinLines <|
      ["FOR " ++ v.render ++ " := " ++ e.render ++ " TO " ++ f.render ++
        Text.optional (fun s => " BY " ++ s.render) s ++ " DO"] ++
        bodyLines (Statement.renderAll ss) ++ [("END_FOR" : Text)]
  | .whileDo a c ss =>
    a.above <| Text.joinLines <|
      ["WHILE " ++ c.render ++ " DO"] ++ bodyLines (Statement.renderAll ss) ++
        [("END_WHILE" : Text)]
  | .repeatUntil a ss c =>
    a.above <| Text.joinLines <|
      [("REPEAT" : Text)] ++ bodyLines (Statement.renderAll ss) ++
        ["UNTIL " ++ c.render, ("END_REPEAT" : Text)]

/-- The statements of a list, one below the other. -/
def Statement.renderAll : List Statement → Text
  | [] => []
  | [s] => s.render
  | s :: ss => s.render ++ "\n" ++ Statement.renderAll ss

def ElseIf.render : ElseIf → Text
  | ⟨a, c, ss⟩ =>
    a.above <| Text.joinLines <|
      ["ELSIF " ++ c.render ++ " THEN"] ++ bodyLines (Statement.renderAll ss)

def Else.render : Else → Text
  | ⟨a, ss⟩ => a.above (Text.joinLines ([("ELSE" : Text)] ++ bodyLines (Statement.renderAll ss)))

def Case.render : Case → Text
  | ⟨a, ls, ss⟩ =>
    a.above <| Text.joinLines <|
      [Text.joinWith ", " (ls.map CaseLabel.render) ++ ":"] ++ bodyLines (Statement.renderAll ss)

def ElseIf.renderAll : List ElseIf → List Text
  | [] => []
  | e :: es => e.render :: ElseIf.renderAll es

def Else.renderOption : Option Else → List Text
  | none => []
  | some e => [e.render]

/-- The cases of a `CASE`, one level in. -/
def Case.renderAll : List Case → List Text
  | [] => []
  | c :: cs => c.render.indent :: Case.renderAll cs

end

end StructuredText
