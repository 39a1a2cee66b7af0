/-!
# Usage

What the program tells about its own use, in two widths. The brief form has each option and its
meaning on one line, with the meanings in one column; the full form opens with examples and gives
each meaning a line of its own.

* `Usage.brief`, `Usage.full` — the two texts.
-/

namespace StructuredText

namespace Usage

/-- What may stand on the command line, and what it means. -/
structure Entry where
  form : String
  meaning : String
  deriving DecidableEq, Repr

/-- The text of `n` blanks. -/
def blanks (n : Nat) : String := String.ofList (List.replicate n ' ')

/-- The number of columns before a meaning, for a list of entries. -/
def width (entries : List Entry) : Nat := (entries.map (·.form.length)).foldl max 0

/-- The entries on one line each, the meanings in one column. -/
def columns (entries : List Entry) : String :=
  String.join (entries.map fun e =>
    "  " ++ e.form ++ blanks (width entries - e.form.length + 2) ++ e.meaning ++ "\n")

/-- The entries with their meanings below them, and an empty line between two of them. -/
def paragraphs (entries : List Entry) : String :=
  "\n".intercalate (entries.map fun e => "  " ++ e.form ++ "\n" ++ blanks 10 ++ e.meaning ++ "\n")

/-- How arguments are put together. -/
def synopsis : String := "Usage: plc_st_ast [OPTIONS] <FILES>...\n"

/-- What the program does. -/
def purpose : String := "Parse IEC 61131-3 Structured Text and print it back formatted"

/-- What the program does, with examples. -/
def introduction : String :=
  purpose ++ ".\n" ++
  "Every file is parsed on its own; a failing file is reported and the\n" ++
  "others are still processed.\n\n" ++
  "Example usage:\n" ++
  "plc_st_ast main.st                 # Print formatted source\n" ++
  "plc_st_ast *.st --json             # Print the syntax trees as JSON\n" ++
  "plc_st_ast *.st --debug            # Keep successful files when one fails\n" ++
  "plc_st_ast main.st -vv             # Debug logging\n"

/-- The arguments that are no options. -/
def positionals : List Entry := [⟨"<FILES>...", "Structured Text files to parse"⟩]

/-- The options. The one that asks for the usage tells of the other form of the text. -/
def options (elsewhere : String) : List Entry :=
  [⟨"-v, --verbose...", "Increase log verbosity (-v info, -vv debug, -vvv trace)"⟩,
   ⟨"    --debug", "Keep the results of successful files even if another file failed"⟩,
   ⟨"    --json", "Print the syntax tree as JSON instead of formatted source"⟩,
   ⟨"    --settings <FILE>", "Settings JSON file"⟩,
   ⟨"-h, --help", "Print help (" ++ elsewhere ++ ")"⟩,
   ⟨"-V, --version", "Print version"⟩]

/-- The brief form. -/
def brief : String :=
  purpose ++ "\n\n" ++ synopsis ++ "\nArguments:\n" ++ columns positionals ++
    "\nOptions:\n" ++ columns (options "see more with '--help'")

/-- The full form. -/
def full : String :=
  introduction ++ "\n" ++ synopsis ++ "\nArguments:\n" ++ paragraphs positionals ++
    "\nOptions:\n" ++ paragraphs (options "see a summary with '-h'")

end Usage

end StructuredText
