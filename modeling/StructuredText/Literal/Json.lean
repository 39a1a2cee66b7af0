import StructuredText.Literal.Basic

/-!
# Literals as JSON
-/

namespace StructuredText

instance : JsonForm NumberBase where
  json
    | .binary => .string "binary"
    | .octal => .string "octal"
    | .decimal => .string "decimal"
    | .hexadecimal => .string "hexadecimal"

instance : JsonForm Integer where
  json i := .object
    [("value", json i.value), ("type_name", json i.typeName), ("base", json i.base)]

instance : JsonForm Real where
  json r := .object [("value", json r.value), ("type_name", json r.typeName)]

instance : JsonForm BitString where
  json b := .object
    [("type_name", json b.typeName), ("value", json b.value), ("base", json b.base)]

instance : JsonForm Duration where
  json d := .object
    [("days", json d.days), ("hours", json d.hours), ("minutes", json d.minutes),
     ("seconds", json d.seconds), ("milliseconds", json d.milliseconds)]

instance : JsonForm TimeOfDay where
  json t := .object [("hour", json t.hour), ("minute", json t.minute), ("second", json t.second)]

instance : JsonForm Date where
  json d := .object [("year", json d.year), ("month", json d.month), ("day", json d.day)]

instance : JsonForm DateTime where
  json d := .object [("date", json d.date), ("time", json d.time)]

instance : JsonForm StringLiteral where
  json s := .object [("value", json s.value)]

instance : JsonForm Literal where
  json
    | .integer v => .tagged "integer" (json v)
    | .real v => .tagged "real" (json v)
    | .bitString v => .tagged "bit_string" (json v)
    | .boolean v => .tagged "boolean" (.object [("value", json v)])
    | .duration v => .tagged "duration" (json v)
    | .timeOfDay v => .tagged "time_of_day" (json v)
    | .date v => .tagged "date" (json v)
    | .dateTime v => .tagged "date_time" (json v)
    | .string v => .tagged "string" (json v)

end StructuredText
