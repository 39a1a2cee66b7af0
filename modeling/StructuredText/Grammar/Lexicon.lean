import StructuredText.Grammar.Pattern
import StructuredText.Grammar.Rule

/-!
# The spelling of tokens

The patterns of names, keywords, numbers, strings and operators, and of what may stand between two
tokens: blanks and comments (`trivia`).

Longer spellings stand before their own beginnings wherever a boundary check follows a choice: the
check does not make the choice try again.
-/

namespace StructuredText.Grammar.Lexicon

open Pattern

/-! ## Between tokens -/

/-- The blanks of the language; a byte order mark counts as one. -/
def blank : Pattern :=
  char fun c => c == ' ' || c == '\t' || c == '\r' || c == '\n' || c == '\uFEFF'

/-- From two slashes up to the end of the line. -/
def lineComment : Pattern := seq "//" (star (char fun c => c != '\r' && c != '\n'))

/-- From `(*` up to the next `*)`. -/
def blockComment : Pattern := all ["(*", star (seq (notAhead "*)") any), "*)"]

/-- From an opening brace up to the next closing one. -/
def pragma : Pattern := all [only '\x7b', star (char (· != '\x7d')), only '\x7d']

/-- Comments and pragmas. -/
def comment : Pattern := oneOf [lineComment, blockComment, pragma]

/-- Everything the grammar skips between two tokens. -/
def trivia : Pattern := seq (star blank) (star (seq comment (star blank)))

/-! ## Names and keywords -/

/-- Characters of a name: ASCII letters, digits and the underscore. -/
def identChar : Pattern := char fun c => c.isAlphanum || c == '_'

/-- Characters that may start a name. -/
def identStart : Pattern := char fun c => c.isAlpha || c == '_'

/-- The end of a word: no character of a name follows. -/
def boundary : Pattern := notAhead identChar

/-- One of the words, ended by a boundary. -/
def wholeWord (words : List String) : Pattern := seq (oneOf (words.map fun (w : String) => word w)) boundary

/-- The words that are no names. -/
def reservedWords : List String :=
  ["END_FUNCTION_BLOCK", "END_FUNCTION", "END_PROGRAM", "END_METHOD", "END_ACTION",
   "END_INTERFACE", "END_TYPE", "END_STRUCT", "END_VAR", "END_IF", "END_CASE", "END_FOR",
   "END_WHILE", "END_REPEAT", "FUNCTION_BLOCK", "FUNCTION", "PROGRAM", "METHOD", "ACTION",
   "ENTRY_ACTION", "EXIT_ACTION", "INTERFACE", "TYPE", "STRUCT", "ARRAY", "OF",
   "VAR_INPUT", "VAR_OUTPUT", "VAR_IN_OUT", "VAR_TEMP", "VAR_INST", "VAR_GLOBAL", "VAR_EXTERNAL",
   "VAR_ACCESS", "VAR", "IF", "THEN", "ELSIF", "ELSE", "CASE", "FOR", "TO", "BY", "DO", "WHILE",
   "REPEAT", "UNTIL", "EXIT", "CONTINUE", "RETURN", "AND_THEN", "AND", "OR_ELSE", "OR", "XOR",
   "NOT", "MOD", "TRUE", "FALSE", "AT", "EXTENDS", "IMPLEMENTS"]

/-- A reserved word. -/
def reserved : Pattern := wholeWord reservedWords

/-- A name that is not reserved. -/
def identifier : Pattern := all [notAhead reserved, identStart, star identChar]

/-- The name of a type: names joined by points, of which only the first is checked. -/
def typeName : Pattern :=
  all [notAhead reserved, identStart, star identChar, star (all [".", identStart, star identChar])]

/-! ## Numbers -/

def digit : Pattern := char Char.isDigit

/-- Digits with single underscores between them. -/
def grouped (digit : Pattern) : Pattern := seq digit (star (seq (opt "_") digit))

def sign : Pattern := oneOf ["+", "-"]

def digits : Pattern := grouped digit

def binaryDigit : Pattern := char fun c => c == '0' || c == '1'

def octalDigit : Pattern := char fun c => '0' ≤ c && c ≤ '7'

def hexDigit : Pattern :=
  char fun c => c.isDigit || ('a' ≤ c && c ≤ 'f') || ('A' ≤ c && c ≤ 'F')

def integerValue : Pattern := seq (opt sign) digits

def exponent : Pattern := all [word "E", opt sign, digits]

def realValue : Pattern :=
  all [opt sign, digits, oneOf [all [".", digits, opt exponent], exponent]]

/-- One or two digits. -/
def twoDigits : Pattern := seq digit (opt digit)

/-- Digits with an optional fraction, both without underscores. -/
def decimal : Pattern := seq (plus digit) (opt (seq "." (plus digit)))

def trueValue : Pattern :=
  oneOf [seq (word "BOOL#1") boundary, all [opt (word "BOOL#"), word "TRUE", boundary]]

def falseValue : Pattern :=
  oneOf [seq (word "BOOL#0") boundary, all [opt (word "BOOL#"), word "FALSE", boundary]]

/-! ## Strings -/

/-- A string between two quotes; a dollar sign keeps the character after it from ending it. -/
def quoted (quote : Char) : Pattern :=
  all [only quote, star (oneOf [seq "$" any, char (· != quote)]), only quote]

def stringLiteral : Pattern := oneOf [quoted '\'', quoted '"']

/-- Everything from an opening bracket up to the next closing one, which is not the first
character. -/
def enclosed (opening closing : Char) : Pattern :=
  all [only opening, plus (char (· != closing)), only closing]

/-- A length in square brackets or in parentheses, whatever is written there. -/
def stringLength : Pattern := oneOf [enclosed '[' ']', enclosed '(' ')']

/-! ## Types -/

/-- Two words with blanks or tabs between them. -/
def twoWords (first second : Text) : Pattern :=
  all [word first, plus (char fun c => c == ' ' || c == '\t'), word second]

def indirection : Pattern :=
  seq (oneOf [twoWords "POINTER" "TO", twoWords "REFERENCE" "TO", word "REF_TO"]) boundary

end StructuredText.Grammar.Lexicon
