import StructuredText.TypeSpec.Basic
import StructuredText.Expression.Json

/-!
# Types and first values as JSON
-/

namespace StructuredText

instance : JsonForm Indirection where
  json
    | .pointer => .string "pointer"
    | .reference => .string "reference"
    | .refTo => .string "ref_to"

instance : JsonForm DataType where
  json t := .object [("indirection", json t.indirection), ("type_name", json t.typeName)]

instance : JsonForm StringType where
  json t := .object [("string_type", json t.name), ("length", json t.length)]

instance : JsonForm Subrange where
  json
    | .full => .string "full"
    | .limits low high => .tagged "partial" (.object [("start", json low), ("stop", json high)])

instance : JsonForm SubrangeType where
  json t := .object [("type_name", json t.typeName), ("subrange", json t.range)]

instance : JsonForm EnumeratedType where
  json t := .object [("values", json t.values), ("base_type", json t.baseType)]

mutual

def ArrayType.toJson : ArrayType → Json
  | ⟨ds, t⟩ => .object [("subranges", json ds), ("element_type", t.toJson)]

def TypeSpecification.toJson : TypeSpecification → Json
  | .data t => .tagged "data" (json t)
  | .string t => .tagged "string" (json t)
  | .array t => .tagged "array" t.toJson
  | .subrange t => .tagged "subrange" (json t)
  | .enumerated t => .tagged "enumerated" (json t)

end

instance : JsonForm ArrayType := ⟨ArrayType.toJson⟩
instance : JsonForm TypeSpecification := ⟨TypeSpecification.toJson⟩

mutual

def Initializer.toJson : Initializer → Json
  | .expression e => .tagged "expression" (json e)
  | .array a => .tagged "array" a.toJson
  | .struct s => .tagged "structure" s.toJson

def ArrayInitialization.toJson : ArrayInitialization → Json
  | ⟨es⟩ => .object [("elements", .array (ArrayInitialElement.toJsons es))]

def ArrayInitialElement.toJson : ArrayInitialElement → Json
  | .single v => .tagged "single" v.toJson
  | .repeated n v =>
    .tagged "repeated" (.object [("count", json n), ("element", Initializer.optionToJson v)])

def StructureInitialization.toJson : StructureInitialization → Json
  | ⟨es⟩ => .object [("elements", .array (StructureElementInitialization.toJsons es))]

def StructureElementInitialization.toJson : StructureElementInitialization → Json
  | ⟨a, v⟩ => .object [("name", json a), ("value", v.toJson)]

def Initializer.optionToJson : Option Initializer → Json
  | some v => v.toJson
  | none => .null

def ArrayInitialElement.toJsons : List ArrayInitialElement → List Json
  | [] => []
  | e :: es => e.toJson :: ArrayInitialElement.toJsons es

def StructureElementInitialization.toJsons : List StructureElementInitialization → List Json
  | [] => []
  | e :: es => e.toJson :: StructureElementInitialization.toJsons es

end

instance : JsonForm Initializer := ⟨Initializer.toJson⟩
instance : JsonForm ArrayInitialization := ⟨ArrayInitialization.toJson⟩
instance : JsonForm ArrayInitialElement := ⟨ArrayInitialElement.toJson⟩
instance : JsonForm StructureInitialization := ⟨StructureInitialization.toJson⟩
instance : JsonForm StructureElementInitialization := ⟨StructureElementInitialization.toJson⟩

instance : JsonForm InitializedStructure where
  json s := .object [("type_name", json s.typeName), ("value", json s.value)]

/-- The fields of a type with its first value, without the name of its kind. -/
def SpecInit.content : SpecInit → Json
  | .simple t v => .object [("spec", json t), ("value", json v)]
  | .subrange i t v => .object [("indirection", json i), ("spec", json t), ("value", json v)]
  | .enumerated i t v => .object [("indirection", json i), ("spec", json t), ("value", json v)]
  | .array i t v => .object [("indirection", json i), ("spec", json t), ("value", json v)]
  | .string t v => .object [("spec", json t), ("value", json v)]
  | .struct v => json v

/-- The name of the kind. -/
def SpecInit.tag : SpecInit → String
  | .simple .. => "simple"
  | .subrange .. => "subrange"
  | .enumerated .. => "enumerated"
  | .array .. => "array"
  | .string .. => "string"
  | .struct _ => "structure"

instance : JsonForm SpecInit := ⟨fun s => .tagged s.tag s.content⟩

end StructuredText
