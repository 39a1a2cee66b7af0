import StructuredText.Proofs.Literals.Kinds

/-!
# Literals are decoded to themselves

The rule of constants tries the kinds of literals one after the other. The text of a valid literal
is read by the rule of its kind, and every rule in front of that one fails: those that want a word
because the first word is another one, that of real numbers because there is no point and no
exponent, and the others already at the first character.

* `constant_decodes` — the text of a valid literal is decoded to an equal literal.
* `Literal.decoded_render` — so valid literals with the same text are equal.
-/

namespace StructuredText

namespace Grammar

open StructuredText.Grammar.Expr

variable {t rest : Text} {words : List String} {Ps : List (Element → Prop)}

/-! ## The words of dates and times -/

/-- No word of a date or of a time stands in front of the text. -/
def Timeless (t : Text) : Prop := ∀ others ∈ timeWords, Foreign others t

instance (t : Text) : Decidable (Timeless t) :=
  inferInstanceAs (Decidable (∀ others ∈ timeWords, Foreign others t))

theorem mem_literalWords_of_mem (h : words ∈ timeWords) : words ∈ literalWords :=
  List.mem_append_left _ h

theorem timeless_of_head (h : ∀ c ∈ t.head?, startsName c = false) : Timeless t :=
  fun _ hothers =>
    foreign_of_head (choosable_of_mem _ (mem_literalWords_of_mem hothers)) h

/-- A number is timeless, with its type in front or without. -/
theorem timeless_typed (hwords : words ∈ literalWords) (htime : words ∉ timeWords)
    {name : Option Token} (hname : ∀ n ∈ name, n.IsOneOf words)
    (ht : ∀ c ∈ t.head?, startsName c = false) : Timeless (typeMark name ++ t) :=
  fun _ hothers => foreign_typed hwords (mem_literalWords_of_mem hothers)
    (fun heq => htime (heq ▸ hothers)) hname ht

/-- A timeless text is read by the rules behind those of dates and times. -/
theorem constant_of_timeless (ht : Timeless t)
    (h : (oneOf [Rule.realLiteral, Rule.bitStringConstant, Rule.integerLiteral, Rule.stringLiteral,
      Rule.trueValue, Rule.falseValue]).Decodes t [] Ps) : Decodes Rule.constant t [] Ps := by
  rw [← List.append_nil t] at ht
  have hduration := duration_fails (ht durationWords (by simp [timeWords]))
  have htimeOfDay := timeOfDay_fails (ht timeOfDayWords (by simp [timeWords]))
  have hdate := date_fails (ht dateWords (by simp [timeWords]))
  have hdateAndTime := dateAndTime_fails (ht dateAndTimeWords (by simp [timeWords]))
  exact .silent rfl ((((h.oneOf_tail hduration).oneOf_tail htimeOfDay).oneOf_tail
    hdate).oneOf_tail hdateAndTime)

def numberRules : List Rule := [.realLiteral, .bitStringConstant, .integerLiteral]

/-- First characters of strings and truth values, with the rules in front of theirs that fail
there. -/
def blocking : List (List Char × List Rule) :=
  [(['\'', '"'], numberRules), (['T'], numberRules ++ [.stringLiteral]),
    (['F'], numberRules ++ [.stringLiteral, .trueValue])]

theorem blocks_of_mem :
    ∀ row ∈ blocking, ∀ r ∈ row.2, r.reaction row.1 5 = .blocks := by decide +kernel

theorem fails_of_blocking {row : List Char × List Rule} (hrow : row ∈ blocking)
    (hc : ∃ c ∈ row.1, t.head? = some c) : ∀ r ∈ row.2, Fails r t :=
  fun r hr offset => fails_of_blocks (s := ⟨offset, t⟩) hc 5 (blocks_of_mem row hrow r hr)

/-- Where no number begins, a timeless text is read by the rules behind those of numbers. -/
theorem constant_of_numberless (ht : Timeless t)
    (hnumbers : ∀ r ∈ numberRules, Fails r (t ++ []))
    (h : (oneOf [Rule.stringLiteral, Rule.trueValue, Rule.falseValue]).Decodes t [] Ps) :
    Decodes Rule.constant t [] Ps :=
  constant_of_timeless ht (((h.oneOf_tail (hnumbers _ (by simp [numberRules]))).oneOf_tail
    (hnumbers _ (by simp [numberRules]))).oneOf_tail (hnumbers _ (by simp [numberRules])))

/-! ## The kinds -/

theorem constant_of_dateTime {d : DateTime} (h : d.Valid) :
    Decodes Rule.constant d.render [] [IsLiteral (.dateTime d)] :=
  .silent rfl (dateAndTime_decodes h).oneOf_head

theorem constant_of_date {d : Date} (h : d.Valid) :
    Decodes Rule.constant d.render [] [IsLiteral (.date d)] := by
  have hforeign {others : List String} (hothers : others ∈ timeWords) (hne : dateWords ≠ others) :
      Foreign others (d.render ++ []) :=
    foreign_of_mark (by simp [literalWords, timeWords]) (mem_literalWords_of_mem hothers) hne
      (.head _) (w := ['D', 'A', 'T', 'E']) (by decide) _
  have hdateAndTime := dateAndTime_fails (hforeign (by simp [timeWords]) (by decide))
  exact .silent rfl ((date_decodes h).oneOf_head.oneOf_tail hdateAndTime)

theorem constant_of_timeOfDay {d : TimeOfDay} (h : d.Valid) :
    Decodes Rule.constant d.render [] [IsLiteral (.timeOfDay d)] := by
  have hforeign {others : List String} (hothers : others ∈ timeWords)
      (hne : timeOfDayWords ≠ others) : Foreign others (d.render ++ []) :=
    foreign_of_mark (by simp [literalWords, timeWords]) (mem_literalWords_of_mem hothers) hne
      (.head _) (w := ['T', 'I', 'M', 'E', '_', 'O', 'F', '_', 'D', 'A', 'Y']) (by decide) _
  have hdate := date_fails (hforeign (by simp [timeWords]) (by decide))
  have hdateAndTime := dateAndTime_fails (hforeign (by simp [timeWords]) (by decide))
  exact .silent rfl (((timeOfDay_decodes h).oneOf_head.oneOf_tail hdate).oneOf_tail hdateAndTime)

theorem constant_of_duration {d : Duration} (h : d.Valid) :
    Decodes Rule.constant d.render [] [IsLiteral (.duration d)] := by
  have hforeign {others : List String} (hothers : others ∈ timeWords)
      (hne : durationWords ≠ others) : Foreign others (d.render ++ []) := by
    rw [render_duration]
    exact foreign_of_mark (by simp [literalWords, timeWords]) (mem_literalWords_of_mem hothers) hne
      (.head _) (w := ['T', 'I', 'M', 'E']) (by decide) _
  have htimeOfDay := timeOfDay_fails (hforeign (by simp [timeWords]) (by decide))
  have hdate := date_fails (hforeign (by simp [timeWords]) (by decide))
  have hdateAndTime := dateAndTime_fails (hforeign (by simp [timeWords]) (by decide))
  exact .silent rfl ((((duration_decodes h).oneOf_head.oneOf_tail htimeOfDay).oneOf_tail
    hdate).oneOf_tail hdateAndTime)

theorem constant_of_real {v : Real} (h : v.Valid) :
    Decodes Rule.constant v.render [] [IsLiteral (.real v)] :=
  constant_of_timeless
    (timeless_typed (by simp [literalWords]) (by decide) h.1 h.2.head)
    (realLiteral_decodes h).oneOf_head

/-- A type in front of a number begins with a letter. -/
theorem head_of_type (hwords : Choosable words) {name : Token} (hname : name.IsOneOf words) :
    ∀ c ∈ (typeMark (some name) ++ rest).head?, startsName c = true := by
  obtain ⟨v, hv, hn⟩ := hname
  have hstarts := hwords.starts_append hv hn (['#'] ++ rest)
  rw [← List.append_assoc] at hstarts
  intro c hc
  have hhead : (name.text ++ ['#'] ++ rest).head? = some c := hc
  rwa [hhead] at hstarts

theorem constant_of_bitString {b : BitString} (h : b.Valid) :
    Decodes Rule.constant b.render [] [IsLiteral (.bitString b)] := by
  have hwords : bitStringTypes ∈ literalWords := by simp [literalWords]
  have hname : ∀ n ∈ some b.typeName, n.IsOneOf bitStringTypes := fun n hn =>
    Option.some.inj hn ▸ h.1
  have hhead : ∀ c ∈ (b.base.mark ++ b.value.text ++ []).head?, startsName c = false :=
    bitString_head h
  have htext : b.render = typeMark (some b.typeName) ++ (b.base.mark ++ b.value.text ++ []) := by
    simp [BitString.render]
  -- Everything that is tried earlier begins with another word, and a real number without a word
  -- begins with no letter.
  have hreal : Fails Rule.realLiteral b.render := by
    rw [htext]
    exact realLiteral_fails
      (foreign_typed hwords (by simp [literalWords]) (by decide) hname hhead)
      (realValue_refuses_word (head_of_type choosable_bitStringTypes h.1))
  have htimeless : Timeless b.render := by
    rw [htext]
    exact timeless_typed hwords (by decide) hname hhead
  refine constant_of_timeless htimeless ?_
  rw [← List.append_nil b.render] at hreal
  exact (bitStringConstant_decodes h).oneOf_head.oneOf_tail hreal

/-- An integer is no real number: with a type it begins with a letter, and without one a number sign
or the end of the text follows the first digits. -/
theorem realValue_refuses_integer {i : Integer} (h : i.Valid) :
    Lexicon.realValue.Refuses i.render := by
  obtain ⟨value, name, base⟩ := i
  obtain ⟨hname, hvalue⟩ := h
  cases name with
  | some n =>
      rw [Integer.render, List.append_assoc]
      exact realValue_refuses_word (head_of_type choosable_integerTypes (hname n rfl))
  | none =>
      -- In front of a number sign stands the base, which is a number without a point.
      have hmark {ds : Text} (hds : NumberBase.decimal.Grouped ds) :
          Lexicon.realValue.Refuses (ds ++ '#' :: value.text) :=
        realValue_refuses_signed ⟨[], ds, .inl rfl, hds, rfl⟩ (by simp)
      cases base with
      | decimal =>
          have hrefuses : Lexicon.realValue.Refuses (value.text ++ []) :=
            realValue_refuses_signed hvalue (by simp)
          simpa [Integer.render, typeMark, NumberBase.mark] using hrefuses
      | binary => exact hmark (.one ⟨2, by decide, rfl⟩)
      | octal => exact hmark (.one ⟨8, by decide, rfl⟩)
      | hexadecimal => exact hmark (.next ⟨1, by decide, rfl⟩ (.one ⟨6, by decide, rfl⟩))

theorem constant_of_integer {i : Integer} (h : i.Valid) :
    Decodes Rule.constant i.render [] [IsLiteral (.integer i)] := by
  have hhead : ∀ c ∈ (i.base.mark ++ i.value.text ++ []).head?, startsName c = false :=
    integer_head h
  have hwords : integerTypes ∈ literalWords := by simp [literalWords]
  have htext : i.render = typeMark i.typeName ++ (i.base.mark ++ i.value.text ++ []) := by
    simp [Integer.render]
  -- The words of reals and of bit strings are tried earlier, and are others.
  have hreal : Fails Rule.realLiteral i.render := by
    refine realLiteral_fails ?_ (realValue_refuses_integer h)
    rw [htext]
    exact foreign_typed hwords (by simp [literalWords]) (by decide) h.1 hhead
  have hbits : Fails Rule.bitStringConstant i.render := by
    rw [htext]
    exact bitStringConstant_fails
      (foreign_typed hwords (by simp [literalWords]) (by decide) h.1 hhead)
  have htimeless : Timeless i.render := by
    rw [htext]
    exact timeless_typed hwords (by decide) h.1 hhead
  refine constant_of_timeless htimeless ?_
  rw [← List.append_nil i.render] at hreal hbits
  exact ((integerLiteral_decodes h).oneOf_head.oneOf_tail hbits).oneOf_tail hreal

theorem constant_of_string {v : StringLiteral} (h : v.Valid) :
    Decodes Rule.constant v.render [] [IsLiteral (.string v)] := by
  have hquote : ∃ c ∈ ['\'', '"'], (v.render ++ []).head? = some c := IsString.head h
  have htimeless : Timeless v.render := by
    refine timeless_of_head fun c hc => ?_
    obtain ⟨d, hd, hhead⟩ := hquote
    rw [List.append_nil] at hhead
    obtain rfl : d = c := Option.some.inj (hhead.symm.trans hc)
    rcases List.mem_pair.mp hd with rfl | rfl <;> decide
  exact constant_of_numberless htimeless (fails_of_blocking (.head _) hquote)
    (stringLiteral_decodes h).oneOf_head

theorem constant_of_boolean (v : Bool) :
    Decodes Rule.constant (Literal.boolean v).render [] [IsLiteral (.boolean v)] := by
  cases v with
  -- No number begins with either letter, not even with its type, so only the words in front of
  -- times are looked at.
  | true =>
      have hhead : ∃ c ∈ ['T'], (['T', 'R', 'U', 'E'] ++ ([] : Text)).head? = some c :=
        ⟨'T', by simp⟩
      obtain ⟨hnumbers, hstring⟩ := List.forall_mem_append.mp
        (fails_of_blocking (.tail _ (.head _)) hhead)
      have htimeless : Timeless ['T', 'R', 'U', 'E'] := by decide +kernel
      exact constant_of_numberless htimeless hnumbers
        (trueValue_decodes.oneOf_head.oneOf_tail (hstring _ (by simp)))
  | false =>
      have hhead : ∃ c ∈ ['F'], (['F', 'A', 'L', 'S', 'E'] ++ ([] : Text)).head? = some c :=
        ⟨'F', by simp⟩
      obtain ⟨hnumbers, hothers⟩ := List.forall_mem_append.mp
        (fails_of_blocking (.tail _ (.tail _ (.head _))) hhead)
      have htimeless : Timeless ['F', 'A', 'L', 'S', 'E'] := by decide +kernel
      exact constant_of_numberless htimeless hnumbers
        ((falseValue_decodes.oneOf_head.oneOf_tail (hothers _ (by simp))).oneOf_tail
          (hothers _ (by simp)))

/-- The text of a valid literal is decoded to an equal literal. -/
theorem constant_decodes {l : Literal} (h : l.Valid) :
    Decodes Rule.constant l.render [] [IsLiteral l] := by
  cases l with
  | integer => exact constant_of_integer h
  | real => exact constant_of_real h
  | bitString => exact constant_of_bitString h
  | boolean v => exact constant_of_boolean v
  | duration => exact constant_of_duration h
  | timeOfDay => exact constant_of_timeOfDay h
  | date => exact constant_of_date h
  | dateTime => exact constant_of_dateTime h
  | string => exact constant_of_string h

end Grammar

open Grammar

/-- The node of a valid literal, which is the only one that its text has. -/
theorem Literal.exists_node {l : Literal} (h : l.Valid) :
    ∃ node, derive .constant l.render = .matched [node] ⟨l.render.byteLength, []⟩ ∧
      ∀ lines, ∃ l', Build.element lines node = .ok (.literal l') ∧ (l' == l) = true := by
  obtain ⟨node, hderive, hbuilt⟩ := (constant_decodes h).exists_node
  refine ⟨node, hderive, fun lines => ?_⟩
  obtain ⟨_, hx, l', rfl, hl'⟩ := hbuilt lines
  exact ⟨l', hx, hl'⟩

/-- Running the rule of constants on the text of a valid literal reads the whole text, and an equal
literal is built from the match. So two valid literals with the same text are equal. -/
theorem Literal.decoded_render {l : Literal} (h : l.Valid) :
    (∃ node, derive .constant l.render = .matched [node] ⟨l.render.byteLength, []⟩ ∧
      ∀ lines, ∃ l', Build.element lines node = .ok (.literal l') ∧ (l' == l) = true) ∧
    ∀ m : Literal, m.Valid → m.render = l.render → (m == l) = true := by
  refine ⟨Literal.exists_node h, fun m hm hrender => ?_⟩
  obtain ⟨node, hnode, hl⟩ := Literal.exists_node h
  obtain ⟨node', hnode', hm'⟩ := Literal.exists_node hm
  rw [hrender, hnode] at hnode'
  cases hnode'
  obtain ⟨l', hbuilt, hl'⟩ := hl ⟨#[]⟩
  obtain ⟨m', hbuilt', hm''⟩ := hm' ⟨#[]⟩
  rw [hbuilt] at hbuilt'
  cases hbuilt'
  exact BEq.trans (BEq.symm hm'') hl'

/-- A day and milliseconds: the hours, the minutes and the seconds all meet the number of the
milliseconds, and the minutes the first letter behind it as well. -/
theorem Literal.decoded_render_dayAndMilliseconds :
    let l : Literal :=
      .duration { days := some ⟨['1'], 1⟩, milliseconds := some ⟨['5', '.', '5'], 1⟩ }
    (l.Valid ∧ l.render = "TIME#1D5.5MS".toList) ∧
      (∃ node, derive .constant l.render = .matched [node] ⟨12, []⟩ ∧
        ∀ lines, ∃ l', Build.element lines node = .ok (.literal l') ∧ (l' == l) = true) ∧
      ∀ m : Literal, m.Valid → m.render = l.render → (m == l) = true := by
  intro l
  have hone : IsRun ['1'] := ⟨by simp, by simpa using ⟨1, by decide, rfl⟩⟩
  have hfive : IsRun ['5'] := ⟨by simp, by simpa using ⟨5, by decide, rfl⟩⟩
  have hvalid : l.Valid := by
    refine ⟨by simp [Duration.numbers], fun number hnumber => ?_⟩
    rcases List.mem_pair.mp hnumber with rfl | rfl
    · exact .inl hone
    · exact .inr ⟨['5'], ['5'], hfive, hfive, rfl⟩
  exact ⟨⟨hvalid, rfl⟩, Literal.decoded_render hvalid⟩

end StructuredText
