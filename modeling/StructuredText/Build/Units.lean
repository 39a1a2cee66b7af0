import StructuredText.Build.Children

/-!
# Building units and files

A body without statements is dropped from its unit.
-/

namespace StructuredText.Build

open Grammar Builder

def functionBlockBody : Builder Element := do
  let anchor ← anchor
  let statements ← take (List Statement)
  finish
  pure (.body { anchor, statements })

/-- Takes the body of a unit, if there is one that holds a statement. -/
def takeUnitBody : Builder (Option Body) := do
  pure ((← takeIf Body).filter fun b => !b.statements.isEmpty)

/-- A unit: its heading, its blocks and its body. -/
def unitOf (heading : Builder (UnitKind × Token)) : Builder Element := do
  let anchor ← anchor
  let (kind, name) ← heading
  let declarations ← takeWhile DeclarationBlock
  let body ← takeUnitBody
  finish
  pure (.item (.unit { anchor, kind, name, declarations, body }))

def functionBlockTypeDeclaration : Builder Element :=
  unitOf do
    let qualifier ← tokenIf .abstractQualifier
    let name ← token .identifier
    let extends? ← tokenIf .extendsClause
    let implements ← tokenListIf .implementsClause
    pure (.functionBlock qualifier.isSome extends? (implements.getD []), name)

def functionDeclaration : Builder Element :=
  unitOf do
    let name ← token .identifier
    let returnType ← takeIf TypeSpecification
    pure (.function returnType, name)

def programDeclaration : Builder Element :=
  unitOf do pure (.program, ← token .identifier)

/-- The set of access specifiers with one more. -/
def addSpecifier (access : Flags AccessSpecifier) (t : Token) : Builder (Flags AccessSpecifier) :=
  match Flags.ofKeyword? t.text with
  | some flag => pure (access.union flag)
  | none => fail (.instead "an access specifier" t.string)

def methodAccess : Builder Element := do
  let access ← (← takeWhile Token).foldlM addSpecifier {}
  finish
  pure (.access access)

def functionBlockMethodDeclaration : Builder Element :=
  unitOf do
    let access ← takeIf (Flags AccessSpecifier)
    let name ← token .identifier
    let returnType ← takeIf TypeSpecification
    pure (.method (access.getD {}) returnType, name)

/-- An action of a kind. -/
def actionOf (kind : Builder ActionKind) : Builder Element := do
  let anchor ← anchor
  let kind ← kind
  let body ← takeUnitBody
  finish
  pure (.item (.action { anchor, kind, body }))

def iecSource : Builder Element := do
  let items ← takeWhile Item
  finish
  pure (.file { items })

end StructuredText.Build
