import StructuredText.SourceFile.Basic
import StructuredText.DataType.Json
import StructuredText.Statement.Json

/-!
# Source files as JSON
-/

namespace StructuredText

instance : JsonForm Body where
  json b := b.anchor.object [("statements", statementsObject (Statement.toJsons b.statements))]

/-- The name of the kind of a unit. -/
def UnitKind.tag : UnitKind → String
  | .function _ => "function"
  | .functionBlock .. => "function_block"
  | .program => "program"
  | .method .. => "method"

/-- The fields of the heading of a unit. -/
def UnitKind.fields (name : Token) : UnitKind → List (String × Json)
  | .function t => [("name", json name), ("return_type", json t)]
  | .functionBlock isAbstract e is =>
    [("name", json name), ("is_abstract", json isAbstract), ("extends", json e),
     ("implements", json is)]
  | .program => [("name", json name)]
  | .method access t => [("access", json access), ("name", json name), ("return_type", json t)]

instance : JsonForm ProgramUnit where
  json u := .tagged u.kind.tag <| u.anchor.object <|
    u.kind.fields u.name ++ [("declarations", json u.declarations), ("body", json u.body)]

instance : JsonForm ActionKind where
  json
    | .named name => .tagged "named" (json name)
    | .entry => .string "entry"
    | .exit => .string "exit"

instance : JsonForm Action where
  json a := a.anchor.object [("kind", json a.kind), ("body", json a.body)]

instance : JsonForm VerbatimItem where
  json v := v.anchor.object [("rule", .string v.rule.name), ("text", json v.text)]

instance : JsonForm Item where
  json
    | .types b => .tagged "data_type" (json b)
    | .unit u => json u
    | .action a => .tagged "action" (json a)
    | .globals b => .tagged "global_variables" (json (DeclarationBlock.global b))
    | .verbatim v => .tagged "unknown" (json v)

instance : JsonForm SourceFile where
  json f := .object [("items", json f.items)]

end StructuredText
