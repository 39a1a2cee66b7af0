import StructuredText.Text.Basic

/-!
# JSON

JSON values and how they are written. Objects keep the order of their fields.

* `Json.pretty` — two blanks a level, one value a line, and empty arrays and objects on one line.
* `Json.compact` — everything on one line.
* `JsonForm` — the types that have a JSON form.
-/

namespace StructuredText

/-- A JSON value. All numbers are counts or offsets. -/
inductive Json where
  | null
  | bool (b : Bool)
  | number (n : Nat)
  | string (s : String)
  | array (items : List Json)
  | object (fields : List (String × Json))
  deriving Inhabited

namespace Json

/-- How a character is written between the quotes of a string. -/
def escape (c : Char) : String :=
  match c with
  | '"' => "\\\""
  | '\\' => "\\\\"
  | '\n' => "\\n"
  | '\r' => "\\r"
  | '\t' => "\\t"
  | '\x08' => "\\b"
  | '\x0c' => "\\f"
  | c =>
    if c.toNat < 0x20 then
      "\\u00" ++ String.ofList [Nat.digitChar (c.toNat / 16), Nat.digitChar (c.toNat % 16)]
    else c.toString

/-- A text as a JSON string. -/
def quote (s : String) : String := "\"" ++ String.join (s.toList.map escape) ++ "\""

/-- A new line with two blanks a level. -/
def newLine (level : Nat) : String := "\n" ++ String.ofList (List.replicate (2 * level) ' ')

mutual

/-- The indented form of a value that stands `level` levels deep. -/
def pretty (level : Nat) : Json → String
  | .null => "null"
  | .bool b => if b then "true" else "false"
  | .number n => toString n
  | .string s => quote s
  | .array [] => "[]"
  | .array (item :: items) =>
    "[" ++ newLine (level + 1) ++ item.pretty (level + 1) ++ prettyItems (level + 1) items ++
      newLine level ++ "]"
  | .object [] => "\x7b\x7d"
  | .object ((key, value) :: fields) =>
    "\x7b" ++ newLine (level + 1) ++ quote key ++ ": " ++ value.pretty (level + 1) ++
      prettyFields (level + 1) fields ++ newLine level ++ "\x7d"

/-- The items of an array after the first. -/
def prettyItems (level : Nat) : List Json → String
  | [] => ""
  | item :: items => "," ++ newLine level ++ item.pretty level ++ prettyItems level items

/-- The fields of an object after the first. -/
def prettyFields (level : Nat) : List (String × Json) → String
  | [] => ""
  | (key, value) :: fields =>
    "," ++ newLine level ++ quote key ++ ": " ++ value.pretty level ++ prettyFields level fields

end

mutual

/-- The value on one line, without blanks. -/
def compact : Json → String
  | .null => "null"
  | .bool b => if b then "true" else "false"
  | .number n => toString n
  | .string s => quote s
  | .array [] => "[]"
  | .array (item :: items) => "[" ++ item.compact ++ compactItems items ++ "]"
  | .object [] => "\x7b\x7d"
  | .object ((key, value) :: fields) =>
    "\x7b" ++ quote key ++ ":" ++ value.compact ++ compactFields fields ++ "\x7d"

/-- The items of an array after the first, on one line. -/
def compactItems : List Json → String
  | [] => ""
  | item :: items => "," ++ item.compact ++ compactItems items

/-- The fields of an object after the first, on one line. -/
def compactFields : List (String × Json) → String
  | [] => ""
  | (key, value) :: fields => "," ++ quote key ++ ":" ++ value.compact ++ compactFields fields

end

end Json

/-- Types whose values have a JSON form. -/
class JsonForm (α : Type) where
  json : α → Json

export JsonForm (json)

instance : JsonForm Bool := ⟨.bool⟩
instance : JsonForm Nat := ⟨.number⟩
instance : JsonForm Text := ⟨fun t => .string (String.ofList t)⟩
instance {α : Type} [JsonForm α] : JsonForm (Option α) := ⟨fun | some a => json a | none => .null⟩
instance {α : Type} [JsonForm α] : JsonForm (List α) := ⟨fun as => .array (as.map json)⟩
instance : JsonForm Span := ⟨fun s => .object [("start", json s.start), ("end", json s.stop)]⟩

/-- A value under the name of its case. -/
def Json.tagged (tag : String) (value : Json) : Json := .object [(tag, value)]

end StructuredText
