import StructuredText.Settings.Reader
import StructuredText.SourceFile.Layout
import StructuredText.SourceFile.Parse

/-!
# Formatting a text

The service an editor asks for: settings and a source are given as texts, and a report says how the
source is written in its regular form, or why it has none.

* `format` — the report.
-/

namespace StructuredText

/-- The result of a request to format a source. -/
inductive FormatReport where
  | done (formatted : Text)
  | failed (error : Error)

/-- The settings a text gives, with a fault as an error. -/
def Settings.read (text : Text) : Except Error Settings := (Settings.ofText text).mapError .settings

/-- The regular form of a source, under settings given by a text. Bad settings are reported before
the source is looked at. -/
def format (source settingsText : Text) (filename : String) : FormatReport :=
  let result : Except Error SourceFile := do
    let settings ← Settings.read settingsText
    SourceFile.parse settings source filename
  match result with
  | .ok f => .done f.render
  | .error e => .failed e

instance : JsonForm FormatReport where
  json
    | .done formatted => .object [("status", .string "OK"), ("formatted", json formatted)]
    | .failed e => .object <|
      [("status", .string "ERROR"), ("error", .string e.message), ("kind", .string e.kind)] ++
        (e.line?.map fun line => ("line", json line)).toList

end StructuredText
