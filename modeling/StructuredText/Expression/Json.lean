import StructuredText.Expression.Basic
import StructuredText.Literal.Json

/-!
# Expressions as JSON
-/

namespace StructuredText

instance : JsonForm SymbolicVariable where
  json v := .object [("name", json v.name), ("dereferenced", json v.dereferenced)]

instance : JsonForm AddressArea where
  json
    | .I => .string "I"
    | .Q => .string "Q"
    | .M => .string "M"

instance : JsonForm AddressSize where
  json
    | .X => .string "X"
    | .B => .string "B"
    | .W => .string "W"
    | .D => .string "D"
    | .L => .string "L"

instance : JsonForm DirectVariable where
  json v := .object
    [("location_prefix", json v.area), ("size_prefix", json v.size),
     ("location", json v.location), ("bits", json v.bits)]

mutual

def Expression.toJson : Expression → Json
  | .literal v => .tagged "literal" (json v)
  | .reference v => .tagged "variable" v.toJson
  | .enumerated v => .tagged "enumerated_value" v.toJson
  | .unary op e => .tagged "unary" (.object [("op", json op), ("expr", e.toJson)])
  | .binary a op b =>
    .tagged "binary" (.object [("left", a.toJson), ("op", json op), ("right", b.toJson)])
  | .parenthesized e => .tagged "parenthesized" e.toJson
  | .call c => .tagged "function_call" c.toJson

def Variable.toJson : Variable → Json
  | .symbolic v => .tagged "symbolic" (json v)
  | .multiElement v ss =>
    .tagged "multi_element" (.object
      [("name", json v), ("elements", .array (Selector.toJsons ss))])
  | .direct v => .tagged "direct" (json v)

def Selector.toJson : Selector → Json
  | .subscript es d =>
    .tagged "subscript" (.object
      [("subscripts", .array (Expression.toJsons es)), ("dereferenced", json d)])
  | .field a d => .tagged "field" (.object [("field", json a), ("dereferenced", json d)])

def EnumeratedValue.toJson : EnumeratedValue → Json
  | ⟨t, a, v⟩ =>
    .object [("type_name", json t), ("name", json a), ("value", Expression.optionToJson v)]

def Parameter.toJson : Parameter → Json
  | .input a e => .tagged "input" (.object [("name", json a), ("value", e.toJson)])
  | .output i a v =>
    .tagged "output" (.object
      [("inverted", json i), ("name", json a), ("target", Variable.optionToJson v)])

def Call.toJson : Call → Json
  | ⟨f, ps⟩ => .object [("name", f.toJson), ("parameters", .array (Parameter.toJsons ps))]

def Expression.toJsons : List Expression → List Json
  | [] => []
  | e :: es => e.toJson :: Expression.toJsons es

def Selector.toJsons : List Selector → List Json
  | [] => []
  | s :: ss => s.toJson :: Selector.toJsons ss

def Parameter.toJsons : List Parameter → List Json
  | [] => []
  | p :: ps => p.toJson :: Parameter.toJsons ps

def Expression.optionToJson : Option Expression → Json
  | some e => e.toJson
  | none => .null

def Variable.optionToJson : Option Variable → Json
  | some v => v.toJson
  | none => .null

end

instance : JsonForm Expression := ⟨Expression.toJson⟩
instance : JsonForm Variable := ⟨Variable.toJson⟩
instance : JsonForm Selector := ⟨Selector.toJson⟩
instance : JsonForm EnumeratedValue := ⟨EnumeratedValue.toJson⟩
instance : JsonForm Parameter := ⟨Parameter.toJson⟩
instance : JsonForm Call := ⟨Call.toJson⟩

end StructuredText
