import StructuredText.TypeSpec.Basic
import StructuredText.Expression.Layout

/-!
# Types and first values as text
-/

namespace StructuredText

def Indirection.render : Indirection → Text
  | .pointer => "POINTER TO"
  | .reference => "REFERENCE TO"
  | .refTo => "REF_TO"

/-- The words in front of a type, with the blank after them. -/
def indirectionMark : Option Indirection → Text := Text.optional fun i => i.render ++ " "

def DataType.render (t : DataType) : Text := indirectionMark t.indirection ++ t.typeName.text

def StringType.render (t : StringType) : Text :=
  t.name.text ++ Text.optional Token.text t.length

def Subrange.render : Subrange → Text
  | .full => ['*']
  | .limits low high => low.render ++ ".." ++ high.render

def SubrangeType.render (t : SubrangeType) : Text := t.typeName.text ++ " (" ++ t.range.render ++ ")"

def EnumeratedType.render (t : EnumeratedType) : Text :=
  "(" ++ Text.joinWith ", " (t.values.map EnumeratedValue.render) ++ ")" ++
    Text.optional (fun b => " " ++ b.text) t.baseType

mutual

def ArrayType.render : ArrayType → Text
  | ⟨ds, t⟩ => "ARRAY[" ++ Text.joinWith ", " (ds.map Subrange.render) ++ "] OF " ++ t.render

def TypeSpecification.render : TypeSpecification → Text
  | .data t => t.render
  | .string t => t.render
  | .array t => t.render
  | .subrange t => t.render
  | .enumerated t => t.render

end

mutual

def Initializer.render : Initializer → Text
  | .expression e => e.render
  | .array a => a.render
  | .struct s => s.render

def ArrayInitialization.render : ArrayInitialization → Text
  | ⟨es⟩ => "[" ++ Text.joinWith ", " (ArrayInitialElement.renderAll es) ++ "]"

def ArrayInitialElement.render : ArrayInitialElement → Text
  | .single v => v.render
  | .repeated n v => n.render ++ "(" ++ Initializer.renderOption v ++ ")"

def StructureInitialization.render : StructureInitialization → Text
  | ⟨es⟩ => "(" ++ Text.joinWith ", " (StructureElementInitialization.renderAll es) ++ ")"

def StructureElementInitialization.render : StructureElementInitialization → Text
  | ⟨some a, v⟩ => a.text ++ " := " ++ v.render
  | ⟨none, v⟩ => v.render

def Initializer.renderOption : Option Initializer → Text
  | some v => v.render
  | none => []

def ArrayInitialElement.renderAll : List ArrayInitialElement → List Text
  | [] => []
  | e :: es => e.render :: ArrayInitialElement.renderAll es

def StructureElementInitialization.renderAll : List StructureElementInitialization → List Text
  | [] => []
  | e :: es => e.render :: StructureElementInitialization.renderAll es

end

def InitializedStructure.render (s : InitializedStructure) : Text :=
  s.typeName.text ++ " := " ++ s.value.render

def SpecInit.render : SpecInit → Text
  | .simple t v => t.render ++ Expression.renderValue v
  | .subrange i t v => indirectionMark i ++ t.render ++ Expression.renderValue v
  | .enumerated i t v => indirectionMark i ++ t.render ++ Expression.renderValue v
  | .array i t v =>
    indirectionMark i ++ t.render ++ Text.optional (fun a => " := " ++ a.render) v
  | .string t v => t.render ++ Text.optional (fun s => " := " ++ s.render) v
  | .struct v => v.render

end StructuredText
