import StructuredText.Settings.Number
import StructuredText.Text.Blank
import StructuredText.Text.LineIndex

/-!
# Reading settings

Settings are written in JSON: as an object that names each setting at most once, or as a list of
values in the order of the settings. A setting that is not given has its default, and a text of
white space alone gives all defaults. The text is read from left to right, and the first fault ends
the reading.

* `Settings.ofText` — the settings a text gives, or the fault.
-/

namespace StructuredText.Settings

/-- A fault found at a byte offset. -/
structure FaultAt where
  cause : Cause
  offset : Nat

/-- A computation that reads the text ahead. -/
abbrev Reader (α : Type) := StateT Cursor (Except FaultAt) α

namespace Reader

/-! ## Characters -/

/-- Fails at the place reached. -/
def fail {α : Type} (cause : Cause) : Reader α := do throw ⟨cause, (← get).offset⟩

/-- Fails at the byte ahead, or at the place reached where the text ends. -/
def failAhead {α : Type} (cause : Cause) : Reader α := do
  let s ← get
  throw ⟨cause, if s.rest.isEmpty then s.offset else s.offset + 1⟩

/-- The character ahead. -/
def peek : Reader (Option Char) := do pure (← get).rest.head?

/-- Reads one character. -/
def skip : Reader Unit := modify fun s =>
  match s.rest with
  | c :: cs => ⟨s.offset + c.utf8Size, cs⟩
  | [] => s

/-- Reads the characters ahead that pass the test. -/
def skipWhile (test : Char → Bool) : Reader (List Char) := fun s =>
  let read := s.rest.takeWhile test
  pure (read, ⟨s.offset + Text.byteLength read, s.rest.dropWhile test⟩)

/-- Reads blanks, and gives the character behind them. -/
def peekBehindBlanks : Reader (Option Char) := do
  let _ ← skipWhile fun c => c == ' ' || c == '\n' || c == '\t' || c == '\r'
  peek

/-- Reads the characters of a word. -/
def spelled : (word : List Char) → Reader Unit
  | [] => pure ()
  | c :: cs => do
    match ← peek with
    | none => fail .endInValue
    | some d => if d = c then do skip; spelled cs else failAhead .misspelledWord

/-! ## Strings -/

/-- The value of four hexadecimal digits. -/
def hexValue? (cs : List Char) : Option Nat :=
  if cs.all fun c => c.isDigit || ('a' ≤ c && c ≤ 'f') || ('A' ≤ c && c ≤ 'F') then
    some (cs.foldl (fun n c => 16 * n + (if c.isDigit then c.toNat - 48 else c.toNat % 32 + 9)) 0)
  else none

/-- Reads four hexadecimal digits. -/
def hexDigits : Reader Nat := do
  let s ← get
  if Text.byteLength s.rest < 4 then
    throw ⟨.endInString, s.offset + Text.byteLength s.rest⟩
  else
    match hexValue? (s.rest.take 4) with
    | some n =>
      set (⟨s.offset + 4, s.rest.drop 4⟩ : Cursor)
      pure n
    | none => throw ⟨.invalidEscape, s.offset + 4⟩

/-- Reads a character that must follow inside a string. -/
def spelledInString (c : Char) : Reader Unit := do
  match ← peek with
  | none => fail .endInString
  | some d => if d = c then skip else failAhead .halfSurrogatePair

/-- Whether a code unit is the second of a surrogate pair. -/
def isSecondSurrogate (n : Nat) : Bool := 0xDC00 ≤ n && n ≤ 0xDFFF

/-- Reads a character written by its code units, behind the first backslash and `u`. -/
def codeUnits : Reader Char := do
  let first ← hexDigits
  if isSecondSurrogate first then fail .loneSurrogate
  else if first < 0xD800 || 0xDFFF < first then pure (Char.ofNat first)
  else do
    spelledInString '\\'
    spelledInString 'u'
    let second ← hexDigits
    if isSecondSurrogate second then
      pure (Char.ofNat (0x10000 + (first - 0xD800) * 0x400 + (second - 0xDC00)))
    else fail .loneSurrogate

/-- Reads an escaped character, behind the backslash. -/
def escaped : Reader Char := do
  match ← peek with
  | none => fail .endInString
  | some '"' => do skip; pure '"'
  | some '\\' => do skip; pure '\\'
  | some '/' => do skip; pure '/'
  | some 'b' => do skip; pure '\x08'
  | some 'f' => do skip; pure '\x0c'
  | some 'n' => do skip; pure '\n'
  | some 'r' => do skip; pure '\r'
  | some 't' => do skip; pure '\t'
  | some 'u' => do skip; codeUnits
  | some _ => failAhead .invalidEscape

/-- Reads a string up to its closing quote, behind what was read of it before. Each character of
the string takes one of the text, so the characters of `bound` count the rounds. -/
def stringTail : (bound : Text) → (read : List Char) → Reader Text
  | [], _ => fail .endInString
  | _ :: bound, read => do
    match ← peek with
    | none => fail .endInString
    | some '"' => do
      skip
      pure read.reverse
    | some '\\' => do
      skip
      let c ← escaped
      stringTail bound (c :: read)
    | some c =>
      if c.toNat < 0x20 then failAhead .controlCharacter
      else do
        skip
        stringTail bound (c :: read)

/-- Reads a string. -/
def string : Reader Text := do
  skip
  stringTail (← get).rest []

/-! ## Numbers -/

/-- Reads the digits of an exponent into a number. One that is too large for any number but zero is
noticed at the digit that makes it so. -/
def exponentDigits (forZero : Bool) : (bound : Text) → Nat → Reader Nat
  | [], n => pure n
  | _ :: bound, n => do
    match ← peek with
    | some c =>
      if c.isDigit then do
        skip
        let n' := 10 * n + (c.toNat - '0'.toNat)
        if 2 ^ 31 ≤ n' && !forZero then fail .numberOutOfRange
        else exponentDigits forZero bound n'
      else pure n
    | none => pure n

/-- Reads an exponent, if there is one. `isZero` says that the digits before it are all zero. -/
def exponent (isZero : Bool) : Reader (Option Int) := do
  match ← peek with
  | some 'e' | some 'E' => do
    skip
    let mark ← peek
    if mark == some '+' || mark == some '-' then skip
    let negative := mark == some '-'
    match ← peek with
    | none => fail .endInValue
    | some c =>
      if c.isDigit then do
        let n ← exponentDigits (isZero || negative) (← get).rest 0
        pure (some (if negative then -n else n))
      else failAhead .invalidNumber
  | _ => pure none

/-- Reads the digits behind a point, if there is one. -/
def fraction : Reader (List Char) := do
  match ← peek with
  | some '.' => do
    skip
    let digits ← skipWhile Char.isDigit
    if digits.isEmpty then
      if (← peek).isNone then fail .endInValue else failAhead .invalidNumber
    else pure digits
  | _ => pure []

/-- Reads the digits of a number before its point. A zero stands alone. -/
def wholeDigits : Reader (List Char) := do
  match ← peek with
  | none => fail .endInValue
  | some '0' => do
    skip
    if (← peek).any Char.isDigit then failAhead .invalidNumber else pure ['0']
  | some c => if c.isDigit then skipWhile Char.isDigit else failAhead .invalidNumber

/-- Reads a number, behind its sign. -/
def number (negative : Bool) : Reader Misplaced := do
  let whole ← wholeDigits
  let fraction ← fraction
  let exponent ← exponent ((whole ++ fraction).all (· == '0'))
  match Numeral.value? { negative, whole, fraction, exponent } with
  | some v => pure v
  | none => fail .numberOutOfRange

/-! ## Values -/

/-- Reads what is written where another value is wanted. Of a list or an object nothing is read. -/
def misplaced : Reader Misplaced := do
  match ← peek with
  | some 'n' => do spelled "null".toList; pure .null
  | some 't' => do spelled "true".toList; pure (.boolean true)
  | some 'f' => do spelled "false".toList; pure (.boolean false)
  | some '-' => do skip; number true
  | some '"' => do pure (.string (← string))
  | some '[' => pure .sequence
  | some '\x7b' => pure .map
  | some c => if c.isDigit then number false else failAhead .noValue
  | none => failAhead .noValue

/-- Fails over the value ahead. -/
def failOver {α : Type} (wanted : String) : Reader α := do fail (.misplaced (← misplaced) wanted)

/-- Reads a truth value. -/
def boolean : Reader Bool := do
  match ← peekBehindBlanks with
  | none => fail .endInValue
  | some 't' => do spelled "true".toList; pure true
  | some 'f' => do spelled "false".toList; pure false
  | some _ => failOver "a boolean"

/-! ## Objects -/

/-- Goes to the next key of an object; false if the object ends. -/
def atKey (isFirst : Bool) : Reader Bool := do
  match ← peekBehindBlanks with
  | none => fail .endInObject
  | some '\x7d' => pure false
  | some c =>
    if isFirst then
      if c = '"' then pure true else failAhead .keyNotString
    else if c = ',' then do
      skip
      match ← peekBehindBlanks with
      | none => fail .endInValue
      | some '"' => pure true
      | some '\x7d' => failAhead .trailingComma
      | some _ => failAhead .keyNotString
    else failAhead .objectCommaMissing

/-- Reads the colon between a key and its value. -/
def colon : Reader Unit := do
  match ← peekBehindBlanks with
  | none => fail .endInObject
  | some ':' => skip
  | some _ => failAhead .colonMissing

/-- Fails over a key that was read. The place is behind the blanks that follow, and behind the
closing brace if the object ends there. -/
def failOverKey {α : Type} (cause : Cause) : Reader α := do
  if (← peekBehindBlanks) == some '\x7d' then skip
  fail cause

/-- Reads the rest of an object, where some settings are known. Each round reads a key, so the
characters of `bound` count the rounds. -/
def objectTail : (bound : Text) → (isFirst : Bool) → (attachComments keepPartial : Option Bool) →
    Reader Settings
  | [], _, _, _ => fail .endInObject
  | _ :: bound, isFirst, attachComments, keepPartial => do
    if ← atKey isFirst then
      let name ← string
      match Field.ofName? name with
      | none => failOverKey (.unknownField name)
      | some .attachComments =>
        if attachComments.isSome then failOverKey (.duplicateField .attachComments)
        else do
          colon
          let b ← boolean
          objectTail bound false (some b) keepPartial
      | some .keepPartial =>
        if keepPartial.isSome then failOverKey (.duplicateField .keepPartial)
        else do
          colon
          let b ← boolean
          objectTail bound false attachComments (some b)
    else do
      skip
      pure (ofValues attachComments keepPartial)

/-! ## Lists -/

/-- Reads the next value of a list; none if the list ends. -/
def item? (isFirst : Bool) : Reader (Option Bool) := do
  match ← peekBehindBlanks with
  | none => fail .endInList
  | some ']' => pure none
  | some c =>
    if isFirst then do pure (some (← boolean))
    else if c = ',' then do
      skip
      match ← peekBehindBlanks with
      | none => fail .endInValue
      | some ']' => failAhead .trailingComma
      | some _ => do pure (some (← boolean))
    else failAhead .listCommaMissing

/-- Reads the end of a list that has a value for each setting. -/
def endOfList : Reader Unit := do
  match ← peekBehindBlanks with
  | none => fail .endInList
  | some ']' => skip
  | some ',' => do
    skip
    if (← peekBehindBlanks) == some ']' then failAhead .trailingComma
    else failAhead .trailingCharacters
  | some _ => failAhead .trailingCharacters

/-- Reads a list of values. -/
def listTail : Reader Settings := do
  let attachComments ← item? true
  let keepPartial ← item? false
  endOfList
  pure (ofValues attachComments keepPartial)

/-- Reads settings and nothing else. -/
def settings : Reader Settings := do
  let result ←
    match ← peekBehindBlanks with
    | none => fail .endInValue
    | some '[' => do skip; listTail
    | some '\x7b' => do skip; objectTail (← get).rest true none none
    | some _ => failOver "struct Settings"
  match ← peekBehindBlanks with
  | none => pure result
  | some _ => failAhead .trailingCharacters

end Reader

/-- The settings a text gives. White space around it does not count. -/
def ofText (t : Text) : Except Fault Settings :=
  let text := t.trim
  if text.isEmpty then pure {}
  else
    match Reader.settings.run text.cursor with
    | .ok (s, _) => pure s
    | .error e =>
      let lines := LineIndex.ofText text
      throw ⟨e.cause, lines.lineOf e.offset, lines.columnOf e.offset⟩

end StructuredText.Settings
