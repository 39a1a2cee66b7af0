import StructuredText.Proofs.Literals.Durations

/-!
# The kinds of literals

For each kind, the text of a valid literal is decoded to that literal by the rule of its kind. The
type in front of a number may be left out; a base is told by its mark, which no number begins with.

* `type_decodes` — a type in front of a number, or none.
* `date_decodes`, `integerLiteral_decodes`, … — one kind after the other.
-/

namespace StructuredText.Grammar

open StructuredText.Grammar.Expr Build

variable {words : List String} {t u w rest : Text} {r : Rule} {es : List Expr}
  {Ps : List (Element → Prop)}

/-- A single character. -/
theorem decodes_character (c : Char) : (lexeme (Pattern.text [c])).Decodes [c] rest [] :=
  decodes_lexeme (Pattern.takes_text [c] rest)

/-- A word and a number sign in front. -/
theorem decodes_marked (hwords : Choosable words) {v : String} (hv : v ∈ words)
    (hw : Text.sameWord w v = true) (h : (glued es).Decodes u rest Ps) :
    (glued (lexeme (Pattern.oneOfWords words) :: lexeme (Pattern.text ['#']) :: es)).Decodes
      (w ++ (['#'] ++ u)) rest Ps := by
  have hword : (Pattern.oneOfWords words).Takes w (['#'] ++ u ++ rest) :=
    hwords.takes hv hw (bounded_mark _)
  exact (decodes_lexeme hword).glued_cons ((decodes_character '#').glued_cons h)

/-! ## Dates and times -/

/-- The fields of a date, whatever follows that is no digit. -/
theorem calendar_decodes {d : Date} (hd : d.Valid) (hhalts : Halts (u ++ rest))
    (h : (glued es).Decodes u rest Ps) :
    (glued (Rule.year :: "-" :: Rule.month :: "-" :: Rule.day :: es)).Decodes (d.calendar ++ u) rest
      (IsToken .year d.year.text :: IsToken .month d.month.text ::
        IsToken .day d.day.text :: Ps) := by
  obtain ⟨hyear, hmonth, hday⟩ := hd
  -- From the last field to the first, since each field ends in front of the next.
  have hday' : Decodes Rule.day d.day.text (u ++ rest) [IsToken .day d.day.text] :=
    decodes_token rfl rfl rfl (twoDigits_takes hday hhalts)
  have hmonth' : Decodes Rule.month d.month.text (['-'] ++ (d.day.text ++ u) ++ rest)
      [IsToken .month d.month.text] :=
    decodes_token rfl rfl rfl (twoDigits_takes hmonth (halts_cons (by decide) _))
  have hyear' : Decodes Rule.year d.year.text
      (['-'] ++ (d.month.text ++ (['-'] ++ (d.day.text ++ u))) ++ rest)
      [IsToken .year d.year.text] :=
    decodes_token rfl rfl rfl (field_takes hyear)
  have hrow := hyear'.glued_cons ((decodes_character '-').glued_cons
    (hmonth'.glued_cons ((decodes_character '-').glued_cons (hday'.glued_cons h))))
  have htext : d.calendar ++ u =
      d.year.text ++ (['-'] ++ (d.month.text ++ (['-'] ++ (d.day.text ++ u)))) := by
    simp [Date.calendar]
  rw [htext]
  exact hrow

/-- The fields of a time of day, at the end of the text. -/
theorem clock_decodes {d : TimeOfDay} (hd : d.Valid) :
    (glued [Rule.dayHour, ":", Rule.dayMinute, ":", Rule.daySecond]).Decodes d.clock []
      [IsToken .dayHour d.hour.text, IsToken .dayMinute d.minute.text,
        IsToken .daySecond d.second.text] := by
  obtain ⟨hhour, hminute, hsecond⟩ := hd
  have hsecond' : Decodes Rule.daySecond d.second.text [] [IsToken .daySecond d.second.text] :=
    decodes_token rfl rfl rfl (second_takes hsecond)
  have hminute' : Decodes Rule.dayMinute d.minute.text ([':'] ++ d.second.text ++ [])
      [IsToken .dayMinute d.minute.text] :=
    decodes_token rfl rfl rfl (twoDigits_takes hminute (halts_cons (by decide) _))
  have hhour' : Decodes Rule.dayHour d.hour.text
      ([':'] ++ (d.minute.text ++ ([':'] ++ d.second.text)) ++ []) [IsToken .dayHour d.hour.text] :=
    decodes_token rfl rfl rfl (twoDigits_takes hhour (halts_cons (by decide) _))
  have hrow := hhour'.seq ((decodes_character ':').seq
    (hminute'.seq ((decodes_character ':').seq hsecond')))
  have htext : d.clock = d.hour.text ++ ([':'] ++ (d.minute.text ++ ([':'] ++ d.second.text))) := by
    simp [TimeOfDay.clock]
  rw [htext]
  exact hrow

/-- From the three tokens of a date the builder makes the date. -/
theorem exists_date {d : Date} {es : List Element}
    (h : List.Forall₂ (fun P x => P x)
      [IsToken .year d.year.text, IsToken .month d.month.text, IsToken .day d.day.text] es)
    (c : Children) :
    ∃ x, Build.date.Gives (c.holding es) x (c.holding []) ∧ IsLiteral (.date d) x := by
  obtain ⟨_, _, rfl, hmonth⟩ := exists_token h
  obtain ⟨_, _, rfl, hday⟩ := exists_token hmonth
  obtain ⟨_, _, rfl, hnil⟩ := exists_token hday
  cases hnil
  exact ⟨_, date_gives _ _ _, _, rfl, (beq_iff_wording _ _).mpr rfl⟩

/-- A valid date is read back from its text. -/
theorem date_decodes {d : Date} (h : d.Valid) :
    Decodes Rule.date d.render [] [IsLiteral (.date d)] := by
  have hcalendar : (glued [Rule.year, "-", Rule.month, "-", Rule.day]).Decodes (d.calendar ++ []) []
      [IsToken .year d.year.text, IsToken .month d.month.text, IsToken .day d.day.text] :=
    calendar_decodes h halts_nil (decodes_lexeme Pattern.takes_empty)
  have hbody := decodes_marked (w := ['D', 'A', 'T', 'E']) choosable_dateWords (.head _) (by decide)
    hcalendar
  have htext : d.render = ['D', 'A', 'T', 'E'] ++ (['#'] ++ (d.calendar ++ [])) := by
    rw [List.append_nil]
    rfl
  rw [htext]
  exact hbody.construct rfl rfl rfl (by simp) fun es hes c => exists_date hes c

/-- From the three tokens of a time the builder makes the time. -/
theorem exists_timeOfDay {d : TimeOfDay} {es : List Element}
    (h : List.Forall₂ (fun P x => P x) [IsToken .dayHour d.hour.text,
      IsToken .dayMinute d.minute.text, IsToken .daySecond d.second.text] es) (c : Children) :
    ∃ x, Build.timeOfDay.Gives (c.holding es) x (c.holding []) ∧ IsLiteral (.timeOfDay d) x := by
  obtain ⟨_, _, rfl, hminute⟩ := exists_token h
  obtain ⟨_, _, rfl, hsecond⟩ := exists_token hminute
  obtain ⟨_, _, rfl, hnil⟩ := exists_token hsecond
  cases hnil
  exact ⟨_, timeOfDay_gives _ _ _, _, rfl, (beq_iff_wording _ _).mpr rfl⟩

/-- A valid time is read back from its text. -/
theorem timeOfDay_decodes {d : TimeOfDay} (h : d.Valid) :
    Decodes Rule.timeOfDay d.render [] [IsLiteral (.timeOfDay d)] := by
  have hbody := decodes_marked (w := ['T', 'I', 'M', 'E', '_', 'O', 'F', '_', 'D', 'A', 'Y'])
    choosable_timeOfDayWords (.head _) (by decide) (clock_decodes h)
  exact hbody.construct rfl rfl rfl (by simp) fun es hes c => exists_timeOfDay hes c

/-- From the six tokens of a date with a time the builder makes both. -/
theorem exists_dateTime {d : DateTime} {es : List Element}
    (h : List.Forall₂ (fun P x => P x) [IsToken .year d.date.year.text,
      IsToken .month d.date.month.text, IsToken .day d.date.day.text,
      IsToken .dayHour d.time.hour.text, IsToken .dayMinute d.time.minute.text,
      IsToken .daySecond d.time.second.text] es) (c : Children) :
    ∃ x, Build.dateAndTime.Gives (c.holding es) x (c.holding []) ∧ IsLiteral (.dateTime d) x := by
  obtain ⟨_, _, rfl, hmonth⟩ := exists_token h
  obtain ⟨_, _, rfl, hday⟩ := exists_token hmonth
  obtain ⟨_, _, rfl, hhour⟩ := exists_token hday
  obtain ⟨_, _, rfl, hminute⟩ := exists_token hhour
  obtain ⟨_, _, rfl, hsecond⟩ := exists_token hminute
  obtain ⟨_, _, rfl, hnil⟩ := exists_token hsecond
  cases hnil
  exact ⟨_, dateAndTime_gives _ _ _ _ _ _, _, rfl, (beq_iff_wording _ _).mpr rfl⟩

/-- A valid date with a time is read back from its text. -/
theorem dateAndTime_decodes {d : DateTime} (h : d.Valid) :
    Decodes Rule.dateAndTime d.render [] [IsLiteral (.dateTime d)] := by
  have hclock : (glued ["-", Rule.dayHour, ":", Rule.dayMinute, ":", Rule.daySecond]).Decodes
      (['-'] ++ d.time.clock) [] _ := (decodes_character '-').seq (clock_decodes h.2)
  have hcalendar := calendar_decodes h.1 (halts_cons (by decide) _) hclock
  have hbody := decodes_marked (w := ['D', 'T']) choosable_dateAndTimeWords (.tail _ (.head _))
    (by decide) hcalendar
  have htext : d.render =
      ['D', 'T'] ++ (['#'] ++ (d.date.calendar ++ (['-'] ++ d.time.clock))) := by
    simp [DateTime.render]
  rw [htext]
  exact hbody.construct rfl rfl rfl (by simp) fun es hes c => exists_dateTime hes c

/-! ## Types in front of numbers -/

/-- A type in front of a number is read, and where there is none, none is read. -/
theorem type_decodes (hr : r.production = .token (Pattern.oneOfWords words))
    (hb : builder? r = none) (hk : r.isKeyword = false) (hwords : Choosable words)
    {name : Option Token} (hname : ∀ n ∈ name, n.IsOneOf words)
    (hrest : name = none → Foreign words rest) :
    (opt (glued [r, "#"])).Decodes (typeMark name) rest
      (name.toList.map fun n => IsToken r n.text) := by
  cases name with
  | none =>
      have hfails : (glued [r, "#"]).Fails rest :=
        (hrest rfl).fails hwords (follows_token hr) fun _ ht => mark_fails ht
      exact hfails.opt
  | some n =>
      obtain ⟨v, hv, hn⟩ := hname n rfl
      have hword : (rule r).Decodes n.text (['#'] ++ rest) [IsToken r n.text] :=
        decodes_token hr hb hk (hwords.takes hv hn (bounded_mark rest))
      exact (hword.seq (decodes_character '#')).left

/-- A text with a type of a number in front, or a number alone, does not begin with other words. -/
theorem foreign_typed {others : List String} (hwords : words ∈ literalWords)
    (hothers : others ∈ literalWords) (hne : words ≠ others) {name : Option Token}
    (hname : ∀ n ∈ name, n.IsOneOf words) (ht : ∀ c ∈ t.head?, startsName c = false) :
    Foreign others (typeMark name ++ t) := by
  cases name with
  | none => exact foreign_of_head (choosable_of_mem others hothers) ht
  | some n =>
      obtain ⟨v, hv, hn⟩ := hname n rfl
      have htext : typeMark (some n) ++ t = n.text ++ '#' :: t := by simp [typeMark]
      rw [htext]
      exact foreign_of_mark hwords hothers hne hv hn t

/-! ## Real numbers -/

/-- A real number is built of its digits and the name of its type, if there is one. -/
theorem exists_real {v : Real} {es : List Element}
    (h : List.Forall₂ (fun P x => P x)
      ((v.typeName.toList.map fun n => IsToken .realTypeName n.text) ++
        [IsToken .realValue v.value.text]) es) (c : Children) :
    ∃ x, Build.realLiteral.Gives (c.holding es) x (c.holding []) ∧ IsLiteral (.real v) x := by
  obtain ⟨value, name⟩ := v
  cases name with
  | none =>
      obtain ⟨_, _, rfl, hnil⟩ := exists_token h
      cases hnil
      exact ⟨_, realLiteral_gives none _, _, rfl, (beq_iff_wording _ _).mpr rfl⟩
  | some n =>
      obtain ⟨line, _, rfl, hvalue⟩ := exists_token h
      obtain ⟨_, _, rfl, hnil⟩ := exists_token hvalue
      cases hnil
      exact ⟨_, realLiteral_gives (some ⟨n.text, line⟩) _, _, rfl, (beq_iff_wording _ _).mpr rfl⟩

/-- A valid real number is read back from its text. -/
theorem realLiteral_decodes {v : Real} (h : v.Valid) :
    Decodes Rule.realLiteral v.render [] [IsLiteral (.real v)] := by
  obtain ⟨hname, hvalue⟩ := h
  have hvalue' : Decodes Rule.realValue v.value.text [] [IsToken .realValue v.value.text] :=
    decodes_token rfl rfl rfl (realValue_takes hvalue)
  have htype : (opt (glued [Rule.realTypeName, "#"])).Decodes (typeMark v.typeName)
      (v.value.text ++ []) (v.typeName.toList.map fun n => IsToken .realTypeName n.text) := by
    refine type_decodes rfl rfl rfl choosable_realTypes hname fun _ => ?_
    rw [List.append_nil]
    exact foreign_of_head choosable_realTypes hvalue.head
  exact (htype.seq hvalue').construct rfl rfl rfl (by simp) fun es hes c => exists_real hes c

/-! ## Bases -/

variable {base other : NumberBase}

/-- The digits of a base, as a token. -/
def digitsRule : NumberBase → Rule
  | .binary => .binaryDigits
  | .octal => .octalDigits
  | .decimal => .decimalDigits
  | .hexadecimal => .hexDigits

/-- Digits are read as the token of their base. -/
theorem digits_decode (h : base.Grouped t) :
    Decodes (digitsRule base) t [] [IsToken (digitsRule base) t] := by
  have htakes := grouped_takes h base.ends_nil
  cases base <;> exact decodes_token rfl rfl rfl htakes

/-- The mark of a base and its digits. -/
def based (base : NumberBase) : Expr := seq (lexeme (Pattern.text base.mark)) (digitsRule base)

/-- So they are behind the mark of their base. -/
theorem based_decodes (h : base.Grouped t) :
    (based base).Decodes (base.mark ++ t) [] [IsToken (digitsRule base) t] :=
  (decodes_lexeme (Pattern.takes_text base.mark (t ++ []))).seq (digits_decode h)

/-- The sign behind a base or a type is not among the digits. -/
theorem mark_not_mem (h : base.Grouped t) : '#' ∉ t := by
  intro hmem
  rcases h.test_of_mem hmem with htest | heq
  · cases base <;> simp [NumberBase.test] at htest
  · cases heq

/-- A number of one base does not begin with the mark of another. -/
theorem based_fails (hne : other ≠ base) (hother : other ≠ .decimal) (ht : '#' ∉ t) :
    (based other).Fails (base.mark ++ t) := by
  refine (fails_lexeme (Pattern.refuses_text ?_)).seq
  cases base with
  | decimal =>
      rintro ⟨rest, (rfl : other.mark ++ rest = t)⟩
      have hmark : '#' ∈ other.mark := by cases other <;> simp [NumberBase.mark] at hother ⊢
      exact ht (List.mem_append_left rest hmark)
  | binary | octal | hexadecimal =>
      cases other <;> simp [NumberBase.mark] at hne hother ⊢

/-- Behind its type, a number of any base does not begin with a letter. -/
theorem head_of_mark (h : base = .decimal → ∀ c ∈ (t ++ rest).head?, startsName c = false) :
    ∀ c ∈ (base.mark ++ t ++ rest).head?, startsName c = false := by
  cases base with
  | decimal => exact h rfl
  | binary | octal | hexadecimal => simp [NumberBase.mark, startsName]

/-! ## Integers -/

/-- An integer in a base is built of its digits. -/
theorem exists_based {digitsOf : Rule} {es : List Element}
    (h : List.Forall₂ (fun P x => P x) [IsToken digitsOf t] es) (line : Nat) (c : Children) :
    ∃ x, (integerOf digitsOf base).Gives (c.holding es) x (c.holding []) ∧
      IsLiteral (.integer { value := ⟨t, line⟩, base }) x := by
  obtain ⟨_, _, rfl, hnil⟩ := exists_token h
  cases hnil
  exact ⟨_, integerOf_gives digitsOf base _, _, rfl, (beq_iff_wording _ _).mpr rfl⟩

/-- The rule of integers of a base, without a type. -/
def integerRule : NumberBase → Rule
  | .binary => .binaryInteger
  | .octal => .octalInteger
  | .decimal => .signedInteger
  | .hexadecimal => .hexInteger

/-- In front of digits in one base the rule of another base fails: the mark that it looks for is not
there. -/
theorem integerRule_fails (hne : other ≠ base) (hother : other ≠ .decimal) (ht : '#' ∉ t) :
    Fails (integerRule other) (base.mark ++ t) := by
  have hfails := based_fails hne hother ht
  cases other with
  | decimal => exact absurd rfl hother
  | binary | octal | hexadecimal => exact .node rfl hfails

/-- Digits behind the mark of their base are read as an integer. -/
theorem integerRule_decodes (hbase : base ≠ .decimal) (h : base.Grouped t) (line : Nat) :
    Decodes (integerRule base) (base.mark ++ t) []
      [IsLiteral (.integer { value := ⟨t, line⟩, base })] := by
  have hbased := based_decodes h
  -- three rules of one form
  cases base with
  | decimal => exact absurd rfl hbase
  | binary | octal | hexadecimal =>
      exact hbased.construct rfl rfl rfl (by simp) fun es hes c => exists_based hes line c

/-- Digits without a mark are an integer to the base ten, with a sign or without. -/
theorem signedInteger_decodes (h : IsSigned t) (line : Nat) :
    Decodes Rule.signedInteger t []
      [IsLiteral (.integer { value := ⟨t, line⟩, base := .decimal })] := by
  have hvalue : Decodes Rule.integerValue t [] [IsToken .integerValue t] :=
    decodes_token rfl rfl rfl (integerValue_takes h NumberBase.decimal.ends_nil)
  exact hvalue.construct rfl rfl rfl (by simp) fun es hes c => exists_based hes line c

/-- A signed number holds no sign of a base. -/
theorem IsSigned.not_mem (h : IsSigned t) : '#' ∉ t := by
  obtain ⟨s, ds, hs, hds, rfl⟩ := h
  rw [List.mem_append, not_or]
  refine ⟨?_, mark_not_mem hds⟩
  rcases hs with rfl | rfl | rfl <;> simp

/-- The rules of integers, in their order: those with a mark before the decimal ones. -/
theorem integerRules_decode {i : Integer} (h : i.Valid) :
    (oneOf [Rule.binaryInteger, Rule.octalInteger, Rule.hexInteger, Rule.signedInteger]).Decodes
      (i.base.mark ++ i.value.text) [] [IsLiteral (.integer { i with typeName := none })] := by
  obtain ⟨value, name, base⟩ := i
  obtain ⟨-, hvalue⟩ := h
  have hfails (other : NumberBase) (hne : other ≠ base) (hother : other ≠ .decimal)
      (ht : '#' ∉ value.text) : Fails (integerRule other) (base.mark ++ value.text ++ []) := by
    rw [List.append_nil]
    exact integerRule_fails hne hother ht
  have hdecodes (hbase : base ≠ .decimal) (ht : base.Grouped value.text) :=
    integerRule_decodes hbase ht value.line
  -- in each case the rules in front fail, and the first one that is left reads the digits
  cases base with
  | binary => exact (hdecodes (by decide) hvalue).oneOf_head
  | octal =>
      have ht := mark_not_mem hvalue
      exact (hdecodes (by decide) hvalue).oneOf_head.oneOf_tail
        (hfails .binary (by decide) (by decide) ht)
  | hexadecimal =>
      have ht := mark_not_mem hvalue
      exact ((hdecodes (by decide) hvalue).oneOf_head.oneOf_tail
        (hfails .octal (by decide) (by decide) ht)).oneOf_tail
        (hfails .binary (by decide) (by decide) ht)
  | decimal =>
      have ht := IsSigned.not_mem hvalue
      exact (((signedInteger_decodes hvalue _).oneOf_head.oneOf_tail
        (hfails .hexadecimal (by decide) (by decide) ht)).oneOf_tail
        (hfails .octal (by decide) (by decide) ht)).oneOf_tail
        (hfails .binary (by decide) (by decide) ht)

/-- An integer is built of a number and the name of its type, if there is one. -/
theorem exists_integer {i : Integer} {es : List Element}
    (h : List.Forall₂ (fun P x => P x)
      ((i.typeName.toList.map fun n => IsToken .integerTypeName n.text) ++
        [IsLiteral (.integer { i with typeName := none })]) es) (c : Children) :
    ∃ x, Build.integerLiteral.Gives (c.holding es) x (c.holding []) ∧ IsLiteral (.integer i) x := by
  -- the number comes without a type, and the token in front of it gives one
  have hinteger {x : Element} (hx : IsLiteral (.integer { i with typeName := none }) x)
      (name : Option Token) (hname : name.map Token.wording = i.typeName.map Token.wording) :
      ∃ j : Integer, x = .literal (.integer j) ∧
        IsLiteral (.integer i) (.literal (.integer { j with typeName := name })) := by
    obtain ⟨l, rfl, hl⟩ := hx
    rw [beq_iff_wording] at hl
    cases l with
    | integer j =>
        have hj : j.wording = Integer.wording { i with typeName := none } := Literal.integer.inj hl
        simp only [Integer.wording, Integer.mk.injEq] at hj
        refine ⟨j, rfl, _, rfl, (beq_iff_wording _ _).mpr (congrArg Literal.integer ?_)⟩
        simp only [Integer.wording, Integer.mk.injEq]
        exact ⟨hj.1, hname, hj.2.2⟩
    | _ => cases hl
  obtain ⟨value, name, base⟩ := i
  cases name with
  | none =>
      obtain ⟨_, _, hx, hnil, rfl⟩ := List.forall₂_cons_left_iff.mp h
      cases hnil
      obtain ⟨j, rfl, hj⟩ := hinteger hx none rfl
      exact ⟨_, integerLiteral_gives none j, hj⟩
  | some n =>
      obtain ⟨line, _, rfl, hvalue⟩ := exists_token h
      obtain ⟨_, _, hx, hnil, rfl⟩ := List.forall₂_cons_left_iff.mp hvalue
      cases hnil
      obtain ⟨j, rfl, hj⟩ := hinteger hx (some ⟨n.text, line⟩) rfl
      exact ⟨_, integerLiteral_gives (some ⟨n.text, line⟩) j, hj⟩

/-- No integer begins like the name of a type. -/
theorem integer_head {i : Integer} (h : i.Valid) :
    ∀ c ∈ (i.base.mark ++ i.value.text ++ rest).head?, startsName c = false := by
  refine head_of_mark fun hbase => ?_
  obtain ⟨value, name, base⟩ := i
  obtain rfl : base = .decimal := hbase
  exact IsSigned.head h.2

/-- A valid integer in any base is read back from its text. -/
theorem integerLiteral_decodes {i : Integer} (h : i.Valid) :
    Decodes Rule.integerLiteral i.render [] [IsLiteral (.integer i)] := by
  have htype : (opt (glued [Rule.integerTypeName, "#"])).Decodes (typeMark i.typeName)
      (i.base.mark ++ i.value.text ++ [])
      (i.typeName.toList.map fun n => IsToken .integerTypeName n.text) :=
    type_decodes rfl rfl rfl choosable_integerTypes h.1 fun _ =>
      foreign_of_head choosable_integerTypes (integer_head h)
  have hbody := htype.seq (integerRules_decode h)
  rw [← List.append_assoc] at hbody
  exact hbody.construct rfl rfl rfl (by simp) fun es hes c => exists_integer hes c

/-! ## Bit strings -/

/-- The rule of bit strings of a base. -/
def bitStringRule : NumberBase → Rule
  | .binary => .binaryBitStringLiteral
  | .octal => .octalBitStringLiteral
  | .decimal => .bitStringLiteral
  | .hexadecimal => .hexBitStringLiteral

/-- What stands behind the type of a bit string: decimal digits have no mark. -/
def bitsOf : NumberBase → Expr
  | .decimal => Rule.decimalDigits
  | base => based base

/-- The rules for bit strings differ in their base only. -/
theorem production_bitStringRule (base : NumberBase) : (bitStringRule base).production =
    .node (seq Rule.bitStringTypeName (seq (lexeme (Pattern.text ['#'])) (bitsOf base))) := by
  cases base <;> rfl

/-- So do their builders. -/
theorem builder?_bitStringRule (base : NumberBase) :
    builder? (bitStringRule base) = some (bitStringOf (digitsRule base) base) := by
  cases base <;> rfl

/-- The digits of a bit string are read with the mark of their base. -/
theorem bitsOf_decodes (h : base.Grouped t) :
    (bitsOf base).Decodes (base.mark ++ t) [] [IsToken (digitsRule base) t] := by
  cases base with
  | decimal => exact digits_decode h
  | binary | octal | hexadecimal => exact based_decodes h

/-- They are not read as digits in another base. -/
theorem bitsOf_fails (hne : other ≠ base) (hother : other ≠ .decimal) (ht : '#' ∉ t) :
    (bitsOf other).Fails (base.mark ++ t) := by
  have hfails := based_fails hne hother ht
  cases other with
  | decimal => exact absurd rfl hother
  | binary | octal | hexadecimal => exact hfails

/-- A bit string is built of the name of its type and its digits. -/
theorem exists_bitString {b : BitString} {es : List Element}
    (h : List.Forall₂ (fun P x => P x)
      [IsToken .bitStringTypeName b.typeName.text, IsToken (digitsRule b.base) b.value.text] es)
    (c : Children) :
    ∃ x, (bitStringOf (digitsRule b.base) b.base).Gives (c.holding es) x (c.holding []) ∧
      IsLiteral (.bitString b) x := by
  obtain ⟨_, _, rfl, hvalue⟩ := exists_token h
  obtain ⟨_, _, rfl, hnil⟩ := exists_token hvalue
  cases hnil
  exact ⟨_, bitStringOf_gives _ _ _ _, _, rfl, (beq_iff_wording _ _).mpr rfl⟩

/-- The type of a bit string, which is never left out, and the number sign behind it. -/
theorem bitStringType_decodes {name : Token} (hname : name.IsOneOf bitStringTypes) :
    Decodes Rule.bitStringTypeName name.text (['#'] ++ rest)
      [IsToken .bitStringTypeName name.text] := by
  obtain ⟨v, hv, hn⟩ := hname
  exact decodes_token rfl rfl rfl (choosable_bitStringTypes.takes hv hn (bounded_mark rest))

/-- The rules of bit strings, in their order: those with a mark before the decimal one. -/
theorem bitStringConstant_decodes {b : BitString} (h : b.Valid) :
    Decodes Rule.bitStringConstant b.render [] [IsLiteral (.bitString b)] := by
  obtain ⟨hname, hvalue⟩ := h
  have htext : b.render = b.typeName.text ++ (['#'] ++ (b.base.mark ++ b.value.text)) := by
    simp [BitString.render, typeMark]
  have hbody : Decodes (bitStringRule b.base) b.render [] [IsLiteral (.bitString b)] := by
    have hbits := (decodes_character '#').seq (bitsOf_decodes hvalue)
    have htype : Decodes Rule.bitStringTypeName b.typeName.text
        (['#'] ++ (b.base.mark ++ b.value.text) ++ []) _ := bitStringType_decodes hname
    rw [htext]
    have hkeyword : (bitStringRule b.base).isKeyword = false := by cases b.base <;> rfl
    exact (htype.seq hbits).construct (production_bitStringRule b.base)
      (builder?_bitStringRule b.base) hkeyword (by simp) fun es hes c => exists_bitString hes c
  -- The rule of another base reads the type and the number sign and fails at its mark.
  have hfails (other : NumberBase) (hne : other ≠ b.base) (hother : other ≠ .decimal) :
      Fails (bitStringRule other) (b.render ++ []) := by
    rw [List.append_nil, htext]
    refine .node (production_bitStringRule other) ((bitStringType_decodes hname).seq_fails ?_)
    exact (decodes_character '#').seq_fails (bitsOf_fails hne hother (mark_not_mem hvalue))
  refine .silent rfl ?_
  obtain ⟨name, value, base⟩ := b
  cases base with
  | binary => exact hbody.oneOf_head
  | octal => exact hbody.oneOf_head.oneOf_tail (hfails .binary (by simp) (by decide))
  | hexadecimal =>
      exact (hbody.oneOf_head.oneOf_tail (hfails .octal (by simp) (by decide))).oneOf_tail
        (hfails .binary (by simp) (by decide))
  | decimal =>
      exact ((hbody.oneOf_head.oneOf_tail (hfails .hexadecimal (by simp) (by decide))).oneOf_tail
        (hfails .octal (by simp) (by decide))).oneOf_tail (hfails .binary (by simp) (by decide))

/-- The digits of a bit string do not begin like a name. -/
theorem bitString_head {b : BitString} (h : b.Valid) :
    ∀ c ∈ (b.base.mark ++ b.value.text ++ rest).head?, startsName c = false := by
  refine head_of_mark fun hbase => ?_
  have hvalue : IsSigned b.value.text := ⟨[], b.value.text, .inl rfl, hbase ▸ h.2, rfl⟩
  exact hvalue.head

/-! ## Truth values and strings -/

/-- `TRUE` is read back as the truth value. -/
theorem trueValue_decodes : Decodes Rule.trueValue ['T', 'R', 'U', 'E'] []
    [IsLiteral (.boolean true)] := by
  have htrue : Lexicon.trueValue.Takes ['T', 'R', 'U', 'E'] [] := fun _ => rfl
  refine decodes_builtToken rfl rfl rfl htrue fun line c => ?_
  exact ⟨_, booleanOf_gives .trueValue true _, _, rfl, rfl⟩

theorem falseValue_decodes : Decodes Rule.falseValue ['F', 'A', 'L', 'S', 'E'] []
    [IsLiteral (.boolean false)] := by
  have hfalse : Lexicon.falseValue.Takes ['F', 'A', 'L', 'S', 'E'] [] := fun _ => rfl
  refine decodes_builtToken rfl rfl rfl hfalse fun line c => ?_
  exact ⟨_, booleanOf_gives .falseValue false _, _, rfl, rfl⟩

/-- A valid string is read back from its text, quotes included. -/
theorem stringLiteral_decodes {v : StringLiteral} (h : v.Valid) :
    Decodes Rule.stringLiteral v.render [] [IsLiteral (.string v)] := by
  refine decodes_builtToken rfl rfl rfl (Lexicon.stringLiteral_takes h) fun line c => ?_
  exact ⟨_, stringLiteral_gives _, _, rfl, (beq_iff_wording _ _).mpr rfl⟩

end StructuredText.Grammar
