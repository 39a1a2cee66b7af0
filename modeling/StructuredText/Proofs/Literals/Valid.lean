import StructuredText.Literal.Basic
import StructuredText.Proofs.Grammar.Quotations

/-!
# Literals that can be written

A literal keeps its parts as texts, and not every text can stand for a part. A literal is valid when
each of its texts is spelled as its place in the literal asks for: the digits are those of its base,
the type is known, the fields of a date have their widths, and so on.

* `NumberBase.Grouped` — digits of a base with single underscores between them.
* `IsSigned`, `IsReal`, `IsDecimal`, `IsField` — the numbers in literals.
* `Literal.Valid` — every text of the literal can stand in its place.
-/

namespace StructuredText

/-! ## Digits -/

/-- A digit of a base. -/
def NumberBase.IsDigit (base : NumberBase) (c : Char) : Prop :=
  ∃ d < base.radix, digitValue? c = some d

/-- Digits of a base, with single underscores between them. -/
inductive NumberBase.Grouped (base : NumberBase) : Text → Prop where
  | one {c : Char} (hc : base.IsDigit c) : base.Grouped [c]
  | next {c : Char} {t : Text} (hc : base.IsDigit c) (ht : base.Grouped t) : base.Grouped (c :: t)
  | underscored {c : Char} {t : Text} (hc : base.IsDigit c) (ht : base.Grouped t) :
      base.Grouped (c :: '_' :: t)

/-- Decimal digits and nothing between them. -/
def IsRun (t : Text) : Prop := t ≠ [] ∧ ∀ c ∈ t, NumberBase.decimal.IsDigit c

/-- Decimal digits, as many as a field of a date or of a time may have. -/
def IsField (least most : Nat) (t : Text) : Prop :=
  least ≤ t.length ∧ t.length ≤ most ∧ ∀ c ∈ t, NumberBase.decimal.IsDigit c

/-! ## Numbers -/

/-- A sign, or none. -/
def IsSign (t : Text) : Prop := t = [] ∨ t = ['+'] ∨ t = ['-']

/-- Decimal digits with a sign or without. -/
def IsSigned (t : Text) : Prop :=
  ∃ sign digits, IsSign sign ∧ NumberBase.decimal.Grouped digits ∧ t = sign ++ digits

/-- The letter for a power of ten, and the power. -/
def IsExponent (t : Text) : Prop :=
  ∃ mark power, (mark = 'E' ∨ mark = 'e') ∧ IsSigned power ∧ t = mark :: power

/-- A signed number with a fraction, an exponent or both. -/
def IsReal (t : Text) : Prop :=
  ∃ whole tail, IsSigned whole ∧ t = whole ++ tail ∧
    (IsExponent tail ∨ ∃ fraction exponent, NumberBase.decimal.Grouped fraction ∧
      (exponent = [] ∨ IsExponent exponent) ∧ tail = '.' :: (fraction ++ exponent))

/-- Digits with a fraction or without. -/
def IsDecimal (t : Text) : Prop :=
  IsRun t ∨ ∃ whole fraction, IsRun whole ∧ IsRun fraction ∧ t = whole ++ '.' :: fraction

/-- The seconds of a time: a field with a fraction or without. -/
def IsSecond (t : Text) : Prop :=
  IsField 1 2 t ∨
    ∃ whole fraction, IsField 1 2 whole ∧ IsRun fraction ∧ t = whole ++ '.' :: fraction

/-! ## Literals -/

/-- The types of integers. -/
def integerTypes : List String :=
  ["ULINT", "UDINT", "UINT", "USINT", "LINT", "DINT", "SINT", "INT"]

/-- The types of real numbers. -/
def realTypes : List String := ["LREAL", "REAL"]

/-- The types of bit strings. -/
def bitStringTypes : List String := ["LWORD", "DWORD", "WORD", "BYTE"]

/-- The token is one of the words, in any case. -/
def Token.IsOneOf (words : List String) (t : Token) : Prop := ∃ w ∈ words, t.is w = true

/-- Only decimal integers have a sign. -/
def Integer.Valid (i : Integer) : Prop :=
  (∀ name ∈ i.typeName, name.IsOneOf integerTypes) ∧
    match i.base with
    | .decimal => IsSigned i.value.text
    | base => base.Grouped i.value.text

def Real.Valid (r : Real) : Prop :=
  (∀ name ∈ r.typeName, name.IsOneOf realTypes) ∧ IsReal r.value.text

def BitString.Valid (b : BitString) : Prop :=
  b.typeName.IsOneOf bitStringTypes ∧ b.base.Grouped b.value.text

/-- The numbers of the parts that are present. -/
def Duration.numbers (d : Duration) : List Token :=
  d.days.toList ++ d.hours.toList ++ d.minutes.toList ++ d.seconds.toList ++
    d.milliseconds.toList

/-- There is a part, and the number of each part is a decimal without a sign. -/
def Duration.Valid (d : Duration) : Prop :=
  d.numbers ≠ [] ∧ ∀ number ∈ d.numbers, IsDecimal number.text

def TimeOfDay.Valid (t : TimeOfDay) : Prop :=
  IsField 1 2 t.hour.text ∧ IsField 1 2 t.minute.text ∧ IsSecond t.second.text

def Date.Valid (d : Date) : Prop :=
  IsField 4 4 d.year.text ∧ IsField 1 2 d.month.text ∧ IsField 1 2 d.day.text

def DateTime.Valid (d : DateTime) : Prop := d.date.Valid ∧ d.time.Valid

def StringLiteral.Valid (s : StringLiteral) : Prop := Grammar.IsString s.value.text

/-- Every text of the literal can stand in its place. -/
def Literal.Valid : Literal → Prop
  | .integer v => v.Valid
  | .real v => v.Valid
  | .bitString v => v.Valid
  | .boolean _ => True
  | .duration v => v.Valid
  | .timeOfDay v => v.Valid
  | .date v => v.Valid
  | .dateTime v => v.Valid
  | .string v => v.Valid

end StructuredText
