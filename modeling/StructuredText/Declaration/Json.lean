import StructuredText.Declaration.Basic
import StructuredText.TypeSpec.Json

/-!
# Variable declarations as JSON

An anchor is the first field of the object it belongs to.
-/

namespace StructuredText

instance : JsonForm Location where
  json l := .object [("variable", json l.address)]

instance : JsonForm IncompleteLocation where
  json l := .object [("address", json l.address)]

instance : JsonForm DeclaredVariable where
  json v := .object [("name", json v.name), ("location", json v.location)]

instance : JsonForm Edge where
  json
    | .rising => .string "rising"
    | .falling => .string "falling"

instance : JsonForm AccessDirection where
  json
    | .readWrite => .string "read_write"
    | .readOnly => .string "read_only"

/-- An object whose first field is an anchor. -/
def Anchor.object (a : Anchor) (fields : List (String × Json)) : Json :=
  .object (("meta", json a) :: fields)

instance : JsonForm (Anchored VariableDeclaration) where
  json d :=
    match d.body with
    | .init vs i => .tagged "init" (d.anchor.object [("variables", json vs), ("init", json i)])
    | .edge vs e => .tagged "edge" (d.anchor.object [("variables", json vs), ("edge", json e)])
    | .fbInstance ns t i =>
      .tagged "instance"
        (d.anchor.object [("names", json ns), ("type_name", json t), ("init", json i)])
    | .invocation ns c =>
      .tagged "invocation" (d.anchor.object [("names", json ns), ("invocation", json c)])

instance : JsonForm GlobalNames where
  json
    | .located n l => .tagged "located" (.object [("name", json n), ("location", json l)])
    | .incomplete n l => .tagged "incomplete" (.object [("name", json n), ("location", json l)])
    | .names ns => .tagged "names" (json ns)

instance : JsonForm GlobalInit where
  json
    | .spec i => .tagged "spec" (json i)
    | .invocation c => .tagged "invocation" (json c)

instance : JsonForm (Anchored GlobalDeclaration) where
  json d := d.anchor.object [("spec", json d.body.names), ("init", json d.body.init)]

instance : JsonForm (Anchored LocatedDeclaration) where
  json d := d.anchor.object
    [("name", json d.body.name), ("location", json d.body.location), ("init", json d.body.init)]

instance : JsonForm (Anchored ExternalDeclaration) where
  json d := d.anchor.object [("name", json d.body.name), ("spec", json d.body.type)]

instance : JsonForm (Anchored AccessDeclaration) where
  json d := d.anchor.object
    [("name", json d.body.name), ("variable", json d.body.place),
     ("data_type", json d.body.type), ("direction", json d.body.direction)]

instance {α : Type} [JsonForm (Anchored α)] : JsonForm (Block α) where
  json b := b.anchor.object [("attributes", json b.attributes), ("items", json b.items)]

/-- The name of the kind of a block. -/
def BlockKind.tag : BlockKind → String
  | .plain .var => "var"
  | .plain .temp => "temp"
  | .plain .input => "input"
  | .plain .output => "output"
  | .plain .inOut => "in_out"
  | .plain .inst => "instance"
  | .located => "located"
  | .global => "global"
  | .external => "external"
  | .access => "access"

instance : JsonForm DeclarationBlock where
  json b := .tagged b.kind.tag <|
    match b with
    | .plain _ b => json b
    | .located b => json b
    | .global b => json b
    | .external b => json b
    | .access b => json b

end StructuredText
