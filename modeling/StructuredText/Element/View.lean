import StructuredText.Element.Basic
import StructuredText.SourceFile.Layout
import StructuredText.SourceFile.Json

/-!
# Elements as JSON and as text

The value of an element that is a node of the tree.
-/

namespace StructuredText.Element

/-- The JSON form of a node of the tree; tokens and raw nodes have none. -/
def value? : Element → Option Json
  | .token .. | .tokens .. | .raw _ => none
  | .literal v => some (json v)
  | .expression v => some (json v)
  | .place v => some (json v)
  | .selector v => some (json v)
  | .location v => some (json v)
  | .incompleteLocation v => some (json v)
  | .enumeratedValue v => some (json v)
  | .parameter v => some (json v)
  | .invocation v => some (json v)
  | .indirection v => some (json v)
  | .dataType v => some (json v)
  | .stringType v => some (json v)
  | .subrange v => some (json v)
  | .subrangeType v => some (json v)
  | .enumeratedType v => some (json v)
  | .arrayType v => some (json v)
  | .arrayInitialElement v => some (json v)
  | .arrayInitialization v => some (json v)
  | .structureElementInitialization v => some (json v)
  | .structureInitialization v => some (json v)
  | .initializedStructure v => some (json v)
  | .specInit v => some (json v)
  | .declaredVariable v => some (json v)
  | .declaredVariables v => some (json v)
  | .attributes v => some (json v)
  | .access v => some (json v)
  | .edge v => some (json v)
  | .accessDirection v => some (json v)
  | .declaration v => some (json v)
  | .globalNames v => some (json v)
  | .globalDeclaration v => some (json v)
  | .locatedDeclaration v => some (json v)
  | .externalDeclaration v => some (json v)
  | .accessDeclaration v => some (json v)
  | .member v => some (json v)
  | .typeDeclaration v => some (json v)
  | .block v => some (json v)
  | .statement v => some (json v)
  | .statements v => some (statementsObject (v.map json))
  | .elseIf v => some (json v)
  | .otherwise v => some (json v)
  | .case v => some (json v)
  | .body v => some (json v)
  | .item v => some (json v)
  | .file v => some (json v)

/-- The text of a node of the tree; tokens, raw nodes and lists of variables have none. -/
def render? : Element → Option Text
  | .token .. | .tokens .. | .raw _ | .declaredVariables _ => none
  | .literal v => some v.render
  | .expression v => some v.render
  | .place v => some v.render
  | .selector v => some v.render
  | .location v => some v.render
  | .incompleteLocation v => some v.render
  | .enumeratedValue v => some v.render
  | .parameter v => some v.render
  | .invocation v => some v.render
  | .indirection v => some v.render
  | .dataType v => some v.render
  | .stringType v => some v.render
  | .subrange v => some v.render
  | .subrangeType v => some v.render
  | .enumeratedType v => some v.render
  | .arrayType v => some v.render
  | .arrayInitialElement v => some v.render
  | .arrayInitialization v => some v.render
  | .structureElementInitialization v => some v.render
  | .structureInitialization v => some v.render
  | .initializedStructure v => some v.render
  | .specInit v => some v.render
  | .declaredVariable v => some v.render
  | .attributes v => some v.render
  | .access v => some v.render
  | .edge v => some v.render
  | .accessDirection v => some v.render
  | .declaration v => some (v.render VariableDeclaration.render)
  | .globalNames v => some v.render
  | .globalDeclaration v => some (v.render GlobalDeclaration.render)
  | .locatedDeclaration v => some (v.render LocatedDeclaration.render)
  | .externalDeclaration v => some (v.render ExternalDeclaration.render)
  | .accessDeclaration v => some (v.render AccessDeclaration.render)
  | .member v => some (v.render Member.render)
  | .typeDeclaration v => some v.render
  | .block v => some v.render
  | .statement v => some v.render
  | .statements v => some (Statement.renderAll v)
  | .elseIf v => some v.render
  | .otherwise v => some v.render
  | .case v => some v.render
  | .body v => some v.render
  | .item v => some v.render
  | .file v => some v.render

end StructuredText.Element
