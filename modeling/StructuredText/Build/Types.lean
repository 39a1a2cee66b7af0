import StructuredText.Build.Children
import StructuredText.Text.Blank

/-!
# Building types and first values
-/

namespace StructuredText.Build

open Grammar Builder

/-! ## Types -/

/-- The indirection named by words, whatever stands between them. -/
def indirectionType : Builder Element := do
  let t ← token .indirectionType
  let words := Text.joinWith [' '] (t.text.words.map Text.upperCase)
  let indirection ←
    if words == ("POINTER TO" : Text) then pure Indirection.pointer
    else if words == ("REFERENCE TO" : Text) then pure .reference
    else if words == ("REF_TO" : Text) then pure .refTo
    else fail (.instead "an indirection" (String.ofList words))
  finish
  pure (.indirection indirection)

def nonGenericTypeName : Builder Element := do
  let indirection ← takeIf Indirection
  let typeName ← token .typeName
  finish
  pure (.dataType { indirection, typeName })

def stringTypeSpecification : Builder Element := do
  let name ← token .stringType
  let length ← tokenIf .stringLength
  finish
  pure (.stringType { name, length })

def fullSubrange : Builder Element := do
  let _ ← token .fullSubrange
  finish
  pure (.subrange .full)

def subrange : Builder Element := do
  let low ← take Expression
  let high ← take Expression
  finish
  pure (.subrange (.limits low high))

def arraySpecification : Builder Element := do
  let dimensions ← nonEmpty "array dimension" (← takeWhile Subrange)
  let elementType ← take TypeSpecification
  finish
  pure (.arrayType ⟨dimensions, elementType⟩)

def subrangeSpecification : Builder Element := do
  let typeName ← token .typeName
  let range ← take Subrange
  finish
  pure (.subrangeType { typeName, range })

def enumeratedValue : Builder Element := do
  let typeName ← tokenIf .typeName
  let name ← token .identifier
  let value ← takeIf Expression
  finish
  pure (.enumeratedValue ⟨typeName, name, value⟩)

def enumeratedSpecification : Builder Element := do
  let values ← nonEmpty "enumerated value" (← takeWhile EnumeratedValue)
  let baseType ← tokenIf .typeName
  finish
  pure (.enumeratedType { values, baseType })

/-! ## First values -/

/-- An element of an array: a repeated one, or a value. -/
def arrayElement : Builder ArrayInitialElement := do
  match ← takeIf ArrayInitialElement with
  | some e => pure e
  | none => do pure (.single (← take Initializer))

/-- Takes the elements of an array until nothing is left. The elements of `bound` count the
rounds. -/
def arrayElements (bound : List Element) : Builder (List ArrayInitialElement) := do
  if (← get).rest.isEmpty then pure []
  else
    match bound with
    | [] => pure []
    | _ :: bound =>
      let e ← arrayElement
      let es ← arrayElements bound
      pure (e :: es)

def arrayInitialization : Builder Element := do
  let es ← nonEmpty "array element" (← arrayElements (← get).rest)
  pure (.arrayInitialization ⟨es⟩)

/-- A number of equal elements; the number is an integer literal. -/
def arrayInitialElementCount : Builder Element := do
  let count ← take Integer
  let element ← takeIf Initializer
  finish
  pure (.arrayInitialElement (.repeated count element))

def structureElementInitialization : Builder Element := do
  let name ← tokenIf .identifier
  let value ← take Initializer
  finish
  pure (.structureElementInitialization ⟨name, value⟩)

def structureInitialization : Builder Element := do
  let es ← nonEmpty "structure element" (← takeWhile StructureElementInitialization)
  finish
  pure (.structureInitialization ⟨es⟩)

def initializedStructure : Builder Element := do
  let typeName ← token .typeName
  let value ← take StructureInitialization
  finish
  pure (.initializedStructure { typeName, value })

/-! ## Types with first values -/

def stringSpecInit : Builder Element := do
  let type ← take StringType
  let value ← takeIf StringLiteral
  finish
  pure (.specInit (.string type value))

def arraySpecInit : Builder Element := do
  let indirection ← takeIf Indirection
  let type ← take ArrayType
  let value ← takeIf ArrayInitialization
  finish
  pure (.specInit (.array indirection type value))

def subrangeSpecInit : Builder Element := do
  let indirection ← takeIf Indirection
  let type ← take SubrangeType
  let value ← takeIf Expression
  finish
  pure (.specInit (.subrange indirection type value))

def enumeratedSpecInit : Builder Element := do
  let indirection ← takeIf Indirection
  let type ← take EnumeratedType
  let value ← takeIf Expression
  finish
  pure (.specInit (.enumerated indirection type value))

def simpleSpecInit : Builder Element := do
  let indirection ← takeIf Indirection
  let typeName ← token .typeName
  let value ← takeIf Expression
  finish
  pure (.specInit (.simple { indirection, typeName } value))

end StructuredText.Build
