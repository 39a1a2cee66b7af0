import StructuredText.Build.Literals
import StructuredText.Proofs.Build.Children

/-!
# What literals are built from

The literal that each builder makes of the tokens it accepts. A duration is built from any row of
parts; each part sets one of its numbers, and the last part of a unit wins.
-/

namespace StructuredText.Build

open Grammar (Rule)
open Builder

variable {c : Children}

theorem integerOf_gives (digitsOf : Rule) (base : NumberBase) (t : Token) :
    (integerOf digitsOf base).Gives (c.holding [.token digitsOf t])
      (.literal (.integer { value := t, base })) (c.holding []) :=
  token_gives.bind (finish_gives.bind pure_gives)

/-- A type in front replaces the type of the integer, also by none. -/
theorem integerLiteral_gives (typeName : Option Token) (i : Integer) :
    integerLiteral.Gives
      (c.holding (typeName.toList.map (.token .integerTypeName) ++ [.literal (.integer i)]))
      (.literal (.integer { i with typeName })) (c.holding []) := by
  refine (tokenIf_gives ?_).bind ((take_gives rfl).bind (finish_gives.bind pure_gives))
  simp [StopsToken]

theorem realLiteral_gives (typeName : Option Token) (value : Token) :
    realLiteral.Gives
      (c.holding (typeName.toList.map (.token .realTypeName) ++ [.token .realValue value]))
      (.literal (.real { value, typeName })) (c.holding []) := by
  refine (tokenIf_gives ?_).bind (token_gives.bind (finish_gives.bind pure_gives))
  simp [StopsToken]

theorem bitStringOf_gives (digitsOf : Rule) (base : NumberBase) (typeName value : Token) :
    (bitStringOf digitsOf base).Gives
      (c.holding [.token .bitStringTypeName typeName, .token digitsOf value])
      (.literal (.bitString { typeName, value, base })) (c.holding []) :=
  token_gives.bind (token_gives.bind (finish_gives.bind pure_gives))

theorem booleanOf_gives (rule : Rule) (value : Bool) (t : Token) :
    (booleanOf rule value).Gives (c.holding [.token rule t]) (.literal (.boolean value))
      (c.holding []) :=
  token_gives.bind (finish_gives.bind pure_gives)

/-! ## Durations -/

/-- The part of a duration that a raw node holds: a number, and a rule that is a unit. -/
def IsPart (part : RawNode Element) : Prop :=
  ∃ number, part.token? = some number ∧ ∀ d, (setPart? d number part.rule).isSome

/-- A part sets the number of its unit. -/
theorem addPart_gives_set {part : RawNode Element} {number : Token} {d d' : Duration}
    (hn : part.token? = some number) (hset : setPart? d number part.rule = some d') :
    (addPart d part).Gives c d' c := by
  simp only [addPart, hn, hset]
  exact pure_gives

theorem addPart_gives {part : RawNode Element} (h : IsPart part) (d : Duration) :
    ∃ d', (addPart d part).Gives c d' c := by
  obtain ⟨number, hn, hset⟩ := h
  obtain ⟨d', hd'⟩ := Option.isSome_iff_exists.mp (hset d)
  exact ⟨d', addPart_gives_set hn hd'⟩

theorem foldlM_addPart_gives {parts : List (RawNode Element)} (h : ∀ p ∈ parts, IsPart p)
    (d : Duration) : ∃ d', (parts.foldlM addPart d).Gives c d' c := by
  induction parts generalizing d with
  | nil => exact ⟨d, pure_gives⟩
  | cons p ps ih =>
      obtain ⟨d₁, h₁⟩ := addPart_gives (c := c) (h p (by simp)) d
      obtain ⟨d₂, h₂⟩ := ih (fun q hq => h q (by simp [hq])) d₁
      exact ⟨d₂, by simpa [List.foldlM_cons] using h₁.bind h₂⟩

/-- A row of parts makes the duration that its parts set, unless it is empty. -/
theorem duration_gives_set {es : List Element} {parts : List (RawNode Element)} {d : Duration}
    (hes : Serve es parts) (hne : parts ≠ [])
    (hd : (parts.foldlM addPart {}).Gives (c.holding []) d (c.holding [])) :
    duration.Gives (c.holding es) (.literal (.duration d)) (c.holding []) := by
  refine (takeWhile_gives_all hes).bind (get_gives.bind ?_)
  have hempty : parts.isEmpty = false := by simpa using hne
  simp only [Children.holding_rest, List.isEmpty_nil, hempty]
  exact hd.bind pure_gives

/-- A row of parts makes a duration, unless it is empty. -/
theorem duration_gives {es : List Element} {parts : List (RawNode Element)} (hes : Serve es parts)
    (hparts : ∀ p ∈ parts, IsPart p) (hne : parts ≠ []) :
    ∃ d, duration.Gives (c.holding es) (.literal (.duration d)) (c.holding []) := by
  obtain ⟨d, hd⟩ := foldlM_addPart_gives (c := c.holding []) hparts {}
  exact ⟨d, duration_gives_set hes hne hd⟩

/-! ## Times and dates -/

theorem takeTime_gives (hour minute second : Token) {rest : List Element} :
    takeTime.Gives
      (c.holding (.token .dayHour hour :: .token .dayMinute minute :: .token .daySecond second ::
        rest))
      { hour, minute, second } (c.holding rest) :=
  token_gives.bind (token_gives.bind (token_gives.bind pure_gives))

theorem takeDate_gives (year month day : Token) {rest : List Element} :
    takeDate.Gives
      (c.holding (.token .year year :: .token .month month :: .token .day day :: rest))
      { year, month, day } (c.holding rest) :=
  token_gives.bind (token_gives.bind (token_gives.bind pure_gives))

theorem timeOfDay_gives (hour minute second : Token) :
    timeOfDay.Gives
      (c.holding [.token .dayHour hour, .token .dayMinute minute, .token .daySecond second])
      (.literal (.timeOfDay { hour, minute, second })) (c.holding []) :=
  (takeTime_gives hour minute second).bind (finish_gives.bind pure_gives)

theorem date_gives (year month day : Token) :
    date.Gives (c.holding [.token .year year, .token .month month, .token .day day])
      (.literal (.date { year, month, day })) (c.holding []) :=
  (takeDate_gives year month day).bind (finish_gives.bind pure_gives)

theorem dateAndTime_gives (year month day hour minute second : Token) :
    dateAndTime.Gives
      (c.holding [.token .year year, .token .month month, .token .day day, .token .dayHour hour,
        .token .dayMinute minute, .token .daySecond second])
      (.literal (.dateTime ⟨{ year, month, day }, { hour, minute, second }⟩)) (c.holding []) :=
  (takeDate_gives year month day).bind
    ((takeTime_gives hour minute second).bind (finish_gives.bind pure_gives))

theorem stringLiteral_gives (value : Token) :
    stringLiteral.Gives (c.holding [.token .stringLiteral value]) (.literal (.string { value }))
      (c.holding []) :=
  token_gives.bind (finish_gives.bind pure_gives)

end StructuredText.Build
