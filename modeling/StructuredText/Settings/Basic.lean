import StructuredText.Decimal.Shortest
import StructuredText.Json
import StructuredText.Text.Quoted

/-!
# Settings

What can be chosen about a run, and what can be wrong with the text it is read from. Every fault has
a place in that text.
-/

namespace StructuredText

/-- What can be chosen about a run. -/
structure Settings where
  /-- Comments and pragmas are given to the nodes that follow them. -/
  attachComments : Bool := true
  /-- The sources of a batch that were read are kept though others failed. -/
  keepPartial : Bool := false
  deriving DecidableEq, Repr

namespace Settings

/-- The names of the settings. -/
inductive Field where
  | attachComments
  | keepPartial
  deriving DecidableEq, Repr

/-- The name a setting is written with. -/
def Field.name : Field → String
  | .attachComments => "attach_comments"
  | .keepPartial => "keep_partial"

/-- The setting with a given name. -/
def Field.ofName? (name : Text) : Option Field :=
  [Field.attachComments, .keepPartial].find? fun f => (f.name : Text) == name

instance : JsonForm Settings where
  json s := .object
    [(Field.attachComments.name, json s.attachComments),
     (Field.keepPartial.name, json s.keepPartial)]

/-- The settings from the values that are given for some of them. -/
def ofValues (attachComments keepPartial : Option Bool) : Settings where
  attachComments := attachComments.getD true
  keepPartial := keepPartial.getD false

/-- An example of a settings text, which has the defaults. -/
def sampleText : String :=
  "\x7b\n  \"attach_comments\": true,\n  \"keep_partial\": false\n\x7d"

/-! ## Faults -/

/-- A value where another one is wanted. -/
inductive Misplaced where
  | null
  | boolean (b : Bool)
  | integer (n : Int)
  | float (x : Float)
  | string (t : Text)
  | sequence
  | map

def Misplaced.message : Misplaced → String
  | .null => "null"
  | .boolean b => if b then "boolean `true`" else "boolean `false`"
  | .integer n => "integer `" ++ toString n ++ "`"
  | .float x => "floating point `" ++ signedDecimal x ++ "`"
  | .string t => "string " ++ t.quoted
  | .sequence => "sequence"
  | .map => "map"

/-- Why a text gives no settings. -/
inductive Cause where
  | endInList
  | endInObject
  | endInString
  | endInValue
  | colonMissing
  | listCommaMissing
  | objectCommaMissing
  | misspelledWord
  | noValue
  | invalidEscape
  | invalidNumber
  | numberOutOfRange
  | controlCharacter
  | keyNotString
  | loneSurrogate
  | halfSurrogatePair
  | trailingComma
  | trailingCharacters
  | misplaced (value : Misplaced) (wanted : String)
  | unknownField (name : Text)
  | duplicateField (field : Field)

def Cause.message : Cause → String
  | .endInList => "EOF while parsing a list"
  | .endInObject => "EOF while parsing an object"
  | .endInString => "EOF while parsing a string"
  | .endInValue => "EOF while parsing a value"
  | .colonMissing => "expected `:`"
  | .listCommaMissing => "expected `,` or `]`"
  | .objectCommaMissing => "expected `,` or `\x7d`"
  | .misspelledWord => "expected ident"
  | .noValue => "expected value"
  | .invalidEscape => "invalid escape"
  | .invalidNumber => "invalid number"
  | .numberOutOfRange => "number out of range"
  | .controlCharacter => "control character (\\u0000-\\u001F) found while parsing a string"
  | .keyNotString => "key must be a string"
  | .loneSurrogate => "lone leading surrogate in hex escape"
  | .halfSurrogatePair => "unexpected end of hex escape"
  | .trailingComma => "trailing comma"
  | .trailingCharacters => "trailing characters"
  | .misplaced value wanted => "invalid type: " ++ value.message ++ ", expected " ++ wanted
  | .unknownField name =>
    "unknown field `" ++ String.ofList name ++ "`, expected `" ++ Field.attachComments.name ++
      "` or `" ++ Field.keepPartial.name ++ "`"
  | .duplicateField field => "duplicate field `" ++ field.name ++ "`"

/-- Why a text gives no settings, and where: the line, and the number of bytes read in it. -/
structure Fault where
  cause : Cause
  line : Nat
  column : Nat

def Fault.message (f : Fault) : String :=
  f.cause.message ++ " at line " ++ toString f.line ++ " column " ++ toString f.column

end Settings

end StructuredText
