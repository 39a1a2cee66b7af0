import StructuredText.Build.Children

/-!
# Building declarations

The name of a base type is a token of the rule that introduces it, so that it is told apart from the
declared name; names in a list are tokens of the rule of the list.
-/

namespace StructuredText.Build

open Grammar Builder

/-! ## Names -/

def extendsClause : Builder Element := do
  let base ← token .typeName
  finish
  pure (.token .extendsClause base)

/-- A list of names, under the rule that lists them. -/
def nameList : Builder Element := do
  let names ← nonEmpty "name" (← takeWhile Token)
  finish
  pure (.tokens (← get).rule names)

def var1 : Builder Element := do
  let name ← token .identifier
  let location ← takeIf IncompleteLocation
  finish
  pure (.declaredVariable { name, location })

def var1List : Builder Element := do
  let declared ← nonEmpty "variable" (← takeWhile DeclaredVariable)
  finish
  pure (.declaredVariables declared)

/-! ## Declarations in plain blocks -/

def initDeclaration : Builder Element := do
  let anchor ← anchor
  let declared ← take (List DeclaredVariable)
  let init ← take SpecInit
  finish
  pure (.declaration ⟨anchor, .init declared init⟩)

def edge : Builder Element := do
  let t ← token .edge
  let edge ←
    if t.is "R_EDGE" then pure Edge.rising
    else if t.is "F_EDGE" then pure .falling
    else fail (.instead "R_EDGE or F_EDGE" t.string)
  finish
  pure (.edge edge)

def edgeDeclaration : Builder Element := do
  let anchor ← anchor
  let declared ← take (List DeclaredVariable)
  let edge ← take Edge
  finish
  pure (.declaration ⟨anchor, .edge declared edge⟩)

def fbNameDecl : Builder Element := do
  let anchor ← anchor
  let names ← tokenList .fbDeclNameList
  let typeName ← token .typeName
  let init ← take StructureInitialization
  finish
  pure (.declaration ⟨anchor, .fbInstance names typeName init⟩)

def fbInvocationDecl : Builder Element := do
  let anchor ← anchor
  let names ← tokenList .fbDeclNameList
  let call ← take Call
  finish
  pure (.declaration ⟨anchor, .invocation names call⟩)

/-! ## Declarations in other blocks -/

def locatedVarDecl : Builder Element := do
  let anchor ← anchor
  let name ← tokenIf .identifier
  let location ← take Location
  let init ← take SpecInit
  finish
  pure (.locatedDeclaration ⟨anchor, { name, location, init }⟩)

def externalDeclaration : Builder Element := do
  let anchor ← anchor
  let name ← token .identifier
  let type ← take TypeSpecification
  finish
  pure (.externalDeclaration ⟨anchor, { name, type }⟩)

def accessDirection : Builder Element := do
  let t ← token .accessDirection
  let direction ←
    if t.is "READ_WRITE" then pure AccessDirection.readWrite
    else if t.is "READ_ONLY" then pure .readOnly
    else fail (.instead "READ_WRITE or READ_ONLY" t.string)
  finish
  pure (.accessDirection direction)

def programAccessDecl : Builder Element := do
  let anchor ← anchor
  let name ← token .identifier
  let place ← take Variable
  let type ← take DataType
  let direction ← takeIf AccessDirection
  finish
  pure (.accessDeclaration ⟨anchor, { name, place, type, direction }⟩)

/-- A name with its address, complete or not. -/
def globalAddress (name : Token) : Builder GlobalNames := do
  match ← takeIf Location with
  | some location => pure (.located name location)
  | none => do pure (.incomplete name (← take IncompleteLocation))

def globalVarSpec : Builder Element := do
  let names ← match ← tokenListIf .globalVarList with
    | some names => pure (.names names)
    | none => do globalAddress (← token .identifier)
  finish
  pure (.globalNames names)

/-- The right-hand side of a global declaration. -/
def globalInit : Builder GlobalInit := do
  match ← takeIf Call with
  | some call => pure (.invocation call)
  | none => do pure (.spec (← take SpecInit))

def globalVarDecl : Builder Element := do
  let anchor ← anchor
  let names ← take GlobalNames
  let init ← globalInit
  finish
  pure (.globalDeclaration ⟨anchor, { names, init }⟩)

/-! ## Blocks -/

def variableAttribute : Builder Element := do
  let t ← token .variableAttribute
  match Flags.ofKeyword? t.text with
  | none => fail (.instead "a variable attribute" t.string)
  | some flag =>
    finish
    pure (.attributes flag)

/-- A block of declarations, its attributes in one set. -/
def blockOf (α : Type) [OfElement (Anchored α)] : Builder (Block α) := do
  let anchor ← anchor
  let attributes ← takeWhile (Flags VariableAttribute)
  let items ← takeWhile (Anchored α)
  finish
  pure { anchor, attributes := attributes.foldl Flags.union {}, items }

def plainBlock (kind : PlainKind) : Builder Element := do
  pure (.block (.plain kind (← blockOf VariableDeclaration)))

def locatedBlock : Builder Element := do pure (.block (.located (← blockOf LocatedDeclaration)))

def globalBlock : Builder Element := do pure (.block (.global (← blockOf GlobalDeclaration)))

def externalBlock : Builder Element := do pure (.block (.external (← blockOf ExternalDeclaration)))

def accessBlock : Builder Element := do pure (.block (.access (← blockOf AccessDeclaration)))

/-! ## Type declarations -/

def structureElementDeclaration : Builder Element := do
  let anchor ← anchor
  let name ← token .identifier
  let location ← takeIf IncompleteLocation
  let init ← take SpecInit
  finish
  pure (.member ⟨anchor, { name, location, init }⟩)

def structureTypeDeclaration : Builder Element := do
  let anchor ← anchor
  let name ← token .identifier
  let extends? ← tokenIf .extendsClause
  let indirection ← takeIf Indirection
  let members ← takeWhile (Anchored Member)
  finish
  pure (.typeDeclaration { anchor, name, extends?, definition := .struct indirection members })

/-- A type given by a specification of the kind that the construct promises. -/
def namedType (what : String) (fits : SpecInit → Bool) : Builder Element := do
  let anchor ← anchor
  let name ← token .identifier
  let extends? ← tokenIf .extendsClause
  let init ← take SpecInit
  if !fits init then fail (.stated (what ++ " initialization"))
  finish
  pure (.typeDeclaration { anchor, name, extends?, definition := .spec init })

def arrayTypeDeclaration : Builder Element :=
  namedType "an array" fun | .array .. => true | _ => false

def stringTypeDeclaration : Builder Element :=
  namedType "a string" fun | .string .. => true | _ => false

def subrangeTypeDeclaration : Builder Element :=
  namedType "a subrange" fun | .subrange .. => true | _ => false

def enumeratedTypeDeclaration : Builder Element :=
  namedType "an enumerated" fun | .enumerated .. => true | _ => false

def initializedStructureTypeDeclaration : Builder Element :=
  namedType "a structure" fun | .struct _ => true | _ => false

def simpleTypeDeclaration : Builder Element :=
  namedType "a simple" fun | .simple .. => true | _ => false

def dataTypeDeclaration : Builder Element := do
  let anchor ← anchor
  let items ← nonEmpty "type declaration" (← takeWhile TypeDeclaration)
  finish
  pure (.item (.types { anchor, items }))

end StructuredText.Build
