import StructuredText.Literal.Basic

/-!
# Literals as text

Each kind of literal has one written form. Where a kind may be written with one of several words in
front, the form uses the same one always, in capital letters.
-/

namespace StructuredText

/-- The name of a type in front of a literal. -/
def typeMark : Option Token → Text
  | some name => name.text ++ "#"
  | none => []

/-- The mark of a base in front of digits; decimal digits have none. -/
def NumberBase.mark : NumberBase → Text
  | .binary => "2#"
  | .octal => "8#"
  | .decimal => []
  | .hexadecimal => "16#"

def Integer.render (i : Integer) : Text := typeMark i.typeName ++ i.base.mark ++ i.value.text

def Real.render (r : Real) : Text := typeMark r.typeName ++ r.value.text

def BitString.render (b : BitString) : Text :=
  typeMark (some b.typeName) ++ b.base.mark ++ b.value.text

/-- One part of a duration with its unit. -/
def Duration.part (unit : Text) : Option Token → Text
  | some number => number.text ++ unit
  | none => []

def Duration.render (d : Duration) : Text :=
  "TIME#" ++ part "D" d.days ++ part "H" d.hours ++ part "M" d.minutes ++ part "S" d.seconds ++
    part "MS" d.milliseconds

/-- Hours, minutes and seconds with colons between them. -/
def TimeOfDay.clock (t : TimeOfDay) : Text :=
  t.hour.text ++ ":" ++ t.minute.text ++ ":" ++ t.second.text

/-- Year, month and day with hyphens between them. -/
def Date.calendar (d : Date) : Text := d.year.text ++ "-" ++ d.month.text ++ "-" ++ d.day.text

def TimeOfDay.render (t : TimeOfDay) : Text := "TIME_OF_DAY#" ++ t.clock

def Date.render (d : Date) : Text := "DATE#" ++ d.calendar

def DateTime.render (d : DateTime) : Text := "DT#" ++ d.date.calendar ++ "-" ++ d.time.clock

def StringLiteral.render (s : StringLiteral) : Text := s.value.text

def Literal.render : Literal → Text
  | .integer v => v.render
  | .real v => v.render
  | .bitString v => v.render
  | .boolean v => if v then "TRUE" else "FALSE"
  | .duration v => v.render
  | .timeOfDay v => v.render
  | .date v => v.render
  | .dateTime v => v.render
  | .string v => v.render

end StructuredText
