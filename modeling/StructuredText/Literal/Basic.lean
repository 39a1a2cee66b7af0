import StructuredText.Token

/-!
# Literals

The nine kinds of constants. Their parts are kept as they were written, so `16#FF` and `16#ff` are
different literals; only the spelling that a kind leaves open (`BOOL#1`, `t#1s`) is not kept.

* `Integer.value?` — the number an integer denotes, where it fits 128 bits.
-/

namespace StructuredText

/-- The bases in which integers and bit strings are written. -/
inductive NumberBase where
  | binary | octal | decimal | hexadecimal
  deriving DecidableEq, Repr

/-- The number of digits of a base. -/
def NumberBase.radix : NumberBase → Nat
  | .binary => 2
  | .octal => 8
  | .decimal => 10
  | .hexadecimal => 16

/-- `42`, `16#FF`, `INT#-5` -/
structure Integer where
  value : Token
  typeName : Option Token := none
  base : NumberBase
  deriving BEq

/-- `1.5`, `LREAL#1E-3` -/
structure Real where
  value : Token
  typeName : Option Token
  deriving BEq

/-- `WORD#16#FFFF`; the type is always named. -/
structure BitString where
  typeName : Token
  value : Token
  base : NumberBase
  deriving BEq

/-- `T#1d2h3m4s5ms`: the number of each part that is present. -/
structure Duration where
  days : Option Token := none
  hours : Option Token := none
  minutes : Option Token := none
  seconds : Option Token := none
  milliseconds : Option Token := none
  deriving BEq

/-- `TOD#12:30:05.5` -/
structure TimeOfDay where
  hour : Token
  minute : Token
  second : Token
  deriving BEq

/-- `D#2024-01-31` -/
structure Date where
  year : Token
  month : Token
  day : Token
  deriving BEq

/-- `DT#2024-01-31-12:30:05` -/
structure DateTime where
  date : Date
  time : TimeOfDay
  deriving BEq

/-- A string with its quotes and its escapes. -/
structure StringLiteral where
  value : Token
  deriving BEq

/-- Whether a string is written in double quotes, and so has wide characters. -/
def StringLiteral.isWide (s : StringLiteral) : Bool := s.value.text.head? == some '"'

/-- A constant. -/
inductive Literal where
  | integer (value : Integer)
  | real (value : Real)
  | bitString (value : BitString)
  | boolean (value : Bool)
  | duration (value : Duration)
  | timeOfDay (value : TimeOfDay)
  | date (value : Date)
  | dateTime (value : DateTime)
  | string (value : StringLiteral)
  deriving BEq

/-! ## The number of an integer -/

/-- The value of a digit in bases up to sixteen. -/
def digitValue? (c : Char) : Option Nat :=
  if '0' ≤ c ∧ c ≤ '9' then some (c.toNat - '0'.toNat)
  else if 'a' ≤ c ∧ c ≤ 'f' then some (c.toNat - 'a'.toNat + 10)
  else if 'A' ≤ c ∧ c ≤ 'F' then some (c.toNat - 'A'.toNat + 10)
  else none

/-- The number that digits of a base go on to denote after `high`; none if one is no digit of it. -/
def positional? (radix : Nat) : (high : Nat) → Text → Option Nat
  | high, [] => some high
  | high, c :: cs =>
    match digitValue? c with
    | some d => if d < radix then positional? radix (high * radix + d) cs else none
    | none => none

/-- The number that a non-empty row of digits denotes. -/
def natural? (radix : Nat) (digits : Text) : Option Nat :=
  if digits.isEmpty then none else positional? radix 0 digits

/-- The number that an optional sign and a row of digits denote. -/
def signed? (radix : Nat) : Text → Option Int
  | '+' :: cs => (natural? radix cs).map Int.ofNat
  | '-' :: cs => (natural? radix cs).map fun n => -Int.ofNat n
  | cs => (natural? radix cs).map Int.ofNat

/-- Whether a number fits a signed word of 128 bits. -/
def fits128 (n : Int) : Bool := -Int.pow 2 127 ≤ n && n < Int.pow 2 127

/-- The number an integer denotes, underscores left out; none if it is no row of digits of its base
or does not fit 128 bits. -/
def Integer.value? (i : Integer) : Option Int :=
  (signed? i.base.radix (i.value.text.filter (· ≠ '_'))).filter fits128

end StructuredText
