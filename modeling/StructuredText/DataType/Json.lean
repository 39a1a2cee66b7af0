import StructuredText.DataType.Basic
import StructuredText.Declaration.Json

/-!
# Type declarations as JSON
-/

namespace StructuredText

instance : JsonForm (Anchored Member) where
  json m := m.anchor.object
    [("name", json m.body.name), ("location", json m.body.location), ("init", json m.body.init)]

/-- The name of the kind of a type declaration. -/
def TypeDefinition.tag : TypeDefinition → String
  | .spec (.struct _) => "initialized_structure"
  | .spec init => init.tag
  | .struct .. => "structure"

instance : JsonForm TypeDeclaration where
  json t := .tagged t.definition.tag <| t.anchor.object <|
    [("name", json t.name), ("extends", json t.extends?)] ++
      match t.definition with
      | .spec init => [("init", init.content)]
      | .struct indirection members =>
        [("indirection", json indirection), ("elements", json members)]

instance : JsonForm TypeBlock where
  json b := b.anchor.object [("items", json b.items)]

end StructuredText
