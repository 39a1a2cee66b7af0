import StructuredText.Declaration.Basic
import StructuredText.TypeSpec.Layout
import StructuredText.Text.Lines

/-!
# Variable declarations as text

The comments of an anchor stand above what it belongs to, one below the other. The declarations of a
block stand one level in, each ended by a semicolon.
-/

namespace StructuredText

/-- A text below the comments of its anchor. -/
def Anchor.above (a : Anchor) (body : Text) : Text :=
  Text.joinLines (a.comments.map Comment.text ++ if body.isEmpty then [] else [body])

def Location.render (l : Location) : Text := "AT " ++ l.address.render

def IncompleteLocation.render (l : IncompleteLocation) : Text := "AT " ++ l.address.text

/-- A name with the address it is to be given, if it has one. -/
def nameAt (name : Token) (location : Option IncompleteLocation) : Text :=
  name.text ++ Text.optional (fun l => " " ++ l.render) location

def DeclaredVariable.render (v : DeclaredVariable) : Text := nameAt v.name v.location

def Edge.render : Edge → Text
  | .rising => "R_EDGE"
  | .falling => "F_EDGE"

def AccessDirection.render : AccessDirection → Text
  | .readWrite => "READ_WRITE"
  | .readOnly => "READ_ONLY"

/-- Names with commas between them. -/
def renderNames (names : List Token) : Text := Text.joinWith ", " (names.map Token.text)

def VariableDeclaration.render : VariableDeclaration → Text
  | .init vs i => Text.joinWith ", " (vs.map DeclaredVariable.render) ++ " : " ++ i.render
  | .edge vs e => Text.joinWith ", " (vs.map DeclaredVariable.render) ++ " : BOOL " ++ e.render
  | .fbInstance ns t i => renderNames ns ++ " : " ++ t.text ++ " := " ++ i.render
  | .invocation ns c => renderNames ns ++ " : " ++ c.render

def GlobalNames.render : GlobalNames → Text
  | .located name l => name.text ++ " " ++ l.render
  | .incomplete name l => name.text ++ " " ++ l.render
  | .names ns => renderNames ns

def GlobalInit.render : GlobalInit → Text
  | .spec i => i.render
  | .invocation c => c.render

def GlobalDeclaration.render (d : GlobalDeclaration) : Text :=
  d.names.render ++ " : " ++ d.init.render

def LocatedDeclaration.render (d : LocatedDeclaration) : Text :=
  Text.optional (fun n => n.text ++ " ") d.name ++ d.location.render ++ " : " ++ d.init.render

def ExternalDeclaration.render (d : ExternalDeclaration) : Text :=
  d.name.text ++ " : " ++ d.type.render

def AccessDeclaration.render (d : AccessDeclaration) : Text :=
  d.name.text ++ " : " ++ d.place.render ++ " : " ++ d.type.render ++
    Text.optional (fun w => " " ++ w.render) d.direction

/-- Something with an anchor, below its comments. -/
def Anchored.render {α : Type} (render : α → Text) (x : Anchored α) : Text :=
  x.anchor.above (render x.body)

/-- A block between its keyword and its end. -/
def Block.render {α : Type} (render : α → Text) (keyword : Text) (b : Block α) : Text :=
  let opening := if b.attributes.isEmpty then keyword else keyword ++ " " ++ b.attributes.render
  b.anchor.above <| Text.joinLines <|
    [opening] ++ b.items.map (fun item => Text.indent (item.render render ++ ";")) ++
      [("END_VAR" : Text)]

def DeclarationBlock.render (b : DeclarationBlock) : Text :=
  let keyword : Text := b.kind.keyword
  match b with
  | .plain _ b => b.render VariableDeclaration.render keyword
  | .located b => b.render LocatedDeclaration.render keyword
  | .global b => b.render GlobalDeclaration.render keyword
  | .external b => b.render ExternalDeclaration.render keyword
  | .access b => b.render AccessDeclaration.render keyword

end StructuredText
