import StructuredText.SourceFile.Basic
import StructuredText.DataType.Layout
import StructuredText.Statement.Layout

/-!
# Source files as text

The blocks and the body of a unit stand one level inside it. Items are separated by an empty line.
-/

namespace StructuredText

def Body.render (b : Body) : Text := b.anchor.above (Statement.renderAll b.statements)

/-- The return type in a heading. -/
def returnMark : Option TypeSpecification → Text := Text.optional fun t => " : " ++ t.render

/-- The heading of a unit. -/
def UnitKind.heading (name : Token) : UnitKind → Text
  | .function t => "FUNCTION " ++ name.text ++ returnMark t
  | .functionBlock isAbstract e is =>
    let opening : Text := if isAbstract then "FUNCTION_BLOCK ABSTRACT " else "FUNCTION_BLOCK "
    let listed : Text := if is.isEmpty then "" else " IMPLEMENTS "
    opening ++ name.text ++ Text.optional (fun b => " EXTENDS " ++ b.text) e ++ listed ++
      renderNames is
  | .program => "PROGRAM " ++ name.text
  | .method access t =>
    let opening : Text := if access.isEmpty then "METHOD " else "METHOD " ++ access.render ++ " "
    opening ++ name.text ++ returnMark t

/-- The keyword that ends a unit. -/
def UnitKind.ending : UnitKind → Text
  | .function _ => "END_FUNCTION"
  | .functionBlock .. => "END_FUNCTION_BLOCK"
  | .program => "END_PROGRAM"
  | .method .. => "END_METHOD"

/-- Something with blocks and a body between its heading and its end. -/
def renderUnit (anchor : Anchor) (heading : Text) (blocks : List DeclarationBlock)
    (body : Option Body) (ending : Text) : Text :=
  anchor.above <| Text.joinLines <|
    [heading] ++ blocks.map (fun b => b.render.indent) ++
      bodyLines (Text.optional Body.render body) ++ [ending]

def ProgramUnit.render (u : ProgramUnit) : Text :=
  renderUnit u.anchor (u.kind.heading u.name) u.declarations u.body u.kind.ending

def ActionKind.heading : ActionKind → Text
  | .named name => "ACTION " ++ name.text ++ ":"
  | .entry => "ENTRY_ACTION"
  | .exit => "EXIT_ACTION"

def Action.render (a : Action) : Text := renderUnit a.anchor a.kind.heading [] a.body "END_ACTION"

def VerbatimItem.render (v : VerbatimItem) : Text := v.anchor.above v.text

def Item.render : Item → Text
  | .types b => b.render
  | .unit u => u.render
  | .action a => a.render
  | .globals b => (DeclarationBlock.global b).render
  | .verbatim v => v.render

def SourceFile.render (f : SourceFile) : Text := Text.joinWith "\n\n" (f.items.map Item.render)

end StructuredText
