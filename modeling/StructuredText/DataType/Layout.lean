import StructuredText.DataType.Basic
import StructuredText.Declaration.Layout

/-!
# Type declarations as text

A declaration stands one level inside the `TYPE` block, but one that stands alone in its block and
owns no comments shares the line of the keyword. A structure ends itself; any other declaration
needs a semicolon.
-/

namespace StructuredText

def Member.render (m : Member) : Text := nameAt m.name m.location ++ " : " ++ m.init.render

def TypeDeclaration.render (t : TypeDeclaration) : Text :=
  let head := t.name.text ++ Text.optional (fun b => " EXTENDS " ++ b.text) t.extends?
  t.anchor.above <|
    match t.definition with
    | .spec init => head ++ " : " ++ init.render
    | .struct indirection members =>
      Text.joinLines <|
        [head ++ " :" ++ Text.optional (fun i => " " ++ i.render) indirection, ("STRUCT" : Text)] ++
        members.map (fun m => Text.indent (m.render Member.render ++ ";")) ++
        [("END_STRUCT" : Text)]

/-- A declaration with what ends it. -/
def TypeDeclaration.terminated (t : TypeDeclaration) : Text :=
  match t.definition with
  | .struct .. => t.render
  | .spec _ => t.render ++ ";"

def TypeBlock.render (b : TypeBlock) : Text :=
  let spread :=
    Text.joinLines <|
      [("TYPE" : Text)] ++ b.items.map (fun t => Text.indent t.terminated) ++ [("END_TYPE" : Text)]
  b.anchor.above <|
    match b.items with
    | [t] => if t.anchor.comments.isEmpty then "TYPE " ++ t.terminated ++ "\nEND_TYPE" else spread
    | _ => spread

end StructuredText
