import StructuredText.Literal.Layout
import StructuredText.Proofs.Build.Literals
import StructuredText.Proofs.Equality.Expressions
import StructuredText.Proofs.Literals.Words

/-!
# Durations

Every part of a duration may be left out. So where a part is missing, its rule meets the number of a
later part, and has to fail on the letters of that unit; the minutes look behind their letter for
this, as it begins the letters of the milliseconds.

* `DurationUnit`, `durationUnits` — the units, from the greatest to the smallest.
* `slots_decode` — a row of parts is decoded part by part.
* `exists_duration` — the numbers of a duration are those of its parts.
* `duration_decodes` — a valid duration is decoded to itself.
-/

namespace StructuredText.Grammar

open StructuredText.Grammar.Expr Build

/-- A unit of durations: its rule, its letters, and what its rule reads behind the number. -/
structure DurationUnit where
  rule : Rule
  letters : Text
  ending : Expr

/-- The units, from the greatest to the smallest. -/
def durationUnits : List DurationUnit :=
  [⟨.days, "D", Pattern.word "D"⟩, ⟨.hours, "H", Pattern.word "H"⟩,
    ⟨.minutes, "M", seq (Pattern.word "M") (lexeme (Pattern.notAhead (Pattern.word "S")))⟩,
    ⟨.seconds, "S", Pattern.word "S"⟩, ⟨.milliseconds, "MS", Pattern.word "MS"⟩]

variable {u v : DurationUnit} {t rest : Text}

/-- The rule of a unit reads a number and what ends it, and leaves a raw node. -/
theorem production_of_mem (h : u ∈ durationUnits) :
    u.rule.production = .node (seq Rule.durationNumber u.ending) ∧ builder? u.rule = none ∧
      u.rule.isKeyword = false := by
  simp only [durationUnits, List.mem_cons, List.not_mem_nil, or_false] at h
  rcases h with rfl | rfl | rfl | rfl | rfl <;> exact ⟨rfl, rfl, rfl⟩

/-- A number ends in front of the letters of a unit. -/
theorem halts_of_mem (h : u ∈ durationUnits) (rest : Text) :
    Halts (u.letters ++ rest) ∧ (u.letters ++ rest).head? ≠ some '.' := by
  simp only [durationUnits, List.mem_cons, List.not_mem_nil, or_false] at h
  rcases h with rfl | rfl | rfl | rfl | rfl <;> exact ⟨halts_cons (by decide) _, by simp⟩

theorem toUpper_ne_of_isDigit {c : Char} (hc : c.isDigit = true) {d : Char}
    (hd : startsName d = true) : c.toUpper ≠ d := by
  rintro rfl
  rw [startsName_toUpper, startsName_iff] at hd
  rw [isDigit_iff] at hc
  omega

/-- The letters of a unit are read where another number follows, or nothing. -/
theorem ending_decodes (h : u ∈ durationUnits) (hrest : ∀ c ∈ rest.head?, c.isDigit = true) :
    u.ending.Decodes u.letters rest [] := by
  simp only [durationUnits, List.mem_cons, List.not_mem_nil, or_false] at h
  rcases h with rfl | rfl | rfl | rfl | rfl
  case inr.inr.inl =>
    have hs : (Pattern.word "S").Refuses rest := by
      cases rest with
      | nil => exact Pattern.refuses_all_cons Pattern.refuses_char_nil
      | cons c rest =>
          exact Pattern.refuses_word_cons (toUpper_ne_of_isDigit (hrest c rfl) (by decide)) rest
    have hm : Pattern.Takes (Pattern.word "M") ['M'] ([] ++ rest) := Pattern.takes_word rfl
    exact (decodes_lexeme hm).seq (decodes_lexeme hs.notAhead)
  all_goals exact decodes_lexeme (Pattern.takes_word rfl)

/-- Where a smaller unit stands, no unit is read. -/
theorem pairwise_durationUnits :
    durationUnits.Pairwise fun u v => ∀ rest, u.ending.Fails (v.letters ++ rest) := by
  have hstops {c d : Char} (h : d.toUpper ≠ c.toUpper) {w : Text} (rest : Text) :
      Fails (Pattern.word [c]) (d :: w ++ rest) :=
    fails_lexeme (Pattern.refuses_word_cons h (w ++ rest))
  have hminutes (rest : Text) :
      Fails (seq (Pattern.word "M") (lexeme (Pattern.notAhead (Pattern.word "S"))))
        ('M' :: 'S' :: rest) := by
    have hm : Pattern.Takes (Pattern.word "M") ['M'] ('S' :: rest) := Pattern.takes_word rfl
    have hs : Pattern.Takes (Pattern.word "S") ['S'] rest := Pattern.takes_word rfl
    exact (decodes_lexeme hm).seq_fails (fails_lexeme hs.notAhead)
  simp only [durationUnits, List.pairwise_cons, List.forall_mem_cons]
  exact ⟨⟨hstops (by decide), hstops (by decide), hstops (by decide), hstops (by decide), by simp⟩,
    ⟨hstops (by decide), hstops (by decide), hstops (by decide), by simp⟩,
    ⟨fun rest => (hstops (by decide) rest).seq, hminutes, by simp⟩,
    ⟨hstops (by decide), by simp⟩, by simp, .nil⟩

/-! ## Rows of parts -/

/-- The units with the numbers of a duration. -/
def slotsOf (d : Duration) : List (DurationUnit × Option Token) :=
  durationUnits.zip [d.days, d.hours, d.minutes, d.seconds, d.milliseconds]

/-- The parts that are present, as text. -/
def slotsText (slots : List (DurationUnit × Option Token)) : Text :=
  slots.flatMap fun s => Duration.part s.1.letters s.2

/-- The numbers that are present, with the rules of their units. -/
def slotsEntries (slots : List (DurationUnit × Option Token)) : List (Rule × Token) :=
  slots.flatMap fun s => s.2.toList.map fun number => (s.1.rule, number)

/-- The raw node of a part. -/
def IsPartOf (entry : Rule × Token) : Element → Prop :=
  IsRaw entry.1 [IsToken .durationNumber entry.2.text]

theorem exists_digit_of_isDecimal (h : IsDecimal t) : ∃ c u, t = c :: u ∧ c.isDigit = true := by
  have hrun {t : Text} (h : IsRun t) : ∃ c u, t = c :: u ∧ c.isDigit = true := by
    obtain ⟨c, u, rfl⟩ := List.exists_cons_of_ne_nil h.1
    exact ⟨c, u, rfl, isDigit_of_isDigit (h.2 c (by simp))⟩
  rcases h with h | ⟨whole, fraction, hwhole, -, rfl⟩
  · exact hrun h
  · obtain ⟨c, u, rfl, hc⟩ := hrun hwhole
    exact ⟨c, u ++ '.' :: fraction, rfl, hc⟩

theorem number_decodes (ht : IsDecimal t) (hu : u ∈ durationUnits) :
    Decodes Rule.durationNumber t (u.letters ++ rest) [IsToken .durationNumber t] :=
  decodes_token rfl rfl rfl (decimal_takes ht (halts_of_mem hu rest).1 (halts_of_mem hu rest).2)

section Slots

variable {slots : List (DurationUnit × Option Token)} (hunits : ∀ s ∈ slots, s.1 ∈ durationUnits)
  (hnumbers : ∀ s ∈ slots, ∀ number ∈ s.2, IsDecimal number.text)

include hunits hnumbers

theorem isDigit_of_slots : ∀ c ∈ (slotsText slots).head?, c.isDigit = true := by
  induction slots with
  | nil => simp [slotsText]
  | cons s slots ih =>
      obtain ⟨unit, number⟩ := s
      cases number with
      | none =>
          exact ih (fun s hs => hunits s (by simp [hs])) (fun s hs => hnumbers s (by simp [hs]))
      | some number =>
          obtain ⟨c, t, ht, hc⟩ := exists_digit_of_isDecimal (hnumbers _ (.head _) number rfl)
          intro d hd
          obtain rfl : c = d := by simpa [slotsText, Duration.part, ht] using hd
          exact hc

omit hunits in
theorem slotsText_ne_nil (hne : slotsEntries slots ≠ []) : slotsText slots ≠ [] := by
  intro hnil
  apply hne
  rw [slotsEntries, List.flatMap_eq_nil_iff]
  rintro ⟨unit, number⟩ hs
  cases number with
  | none => rfl
  | some number =>
      obtain ⟨c, t, ht, -⟩ := exists_digit_of_isDecimal (hnumbers _ hs number rfl)
      have hpart := List.flatMap_eq_nil_iff.mp hnil _ hs
      simp [Duration.part, ht] at hpart

/-- A unit fails in front of a row of smaller ones. -/
theorem fails_of_slots (hu : u ∈ durationUnits)
    (hsmaller : ∀ s ∈ slots, ∀ rest, u.ending.Fails (s.1.letters ++ rest)) :
    Fails u.rule (slotsText slots) := by
  refine .node (production_of_mem hu).1 ?_
  induction slots with
  | nil =>
      have hdigit : Lexicon.digit.Refuses [] := Pattern.refuses_char_nil
      have hnumber : Lexicon.decimal.Refuses [] := hdigit.seq.seq
      exact (fails_token rfl hnumber).seq
  | cons s slots ih =>
      obtain ⟨unit, number⟩ := s
      -- A part that is missing leaves the parts behind it in front of the unit.
      cases number with
      | none =>
          exact ih (fun s hs => hunits s (by simp [hs])) (fun s hs => hnumbers s (by simp [hs]))
            fun s hs => hsmaller s (by simp [hs])
      | some number =>
          have hnumber : Decodes Rule.durationNumber number.text
              (unit.letters ++ slotsText slots) _ :=
            number_decodes (hnumbers _ (.head _) number rfl) (hunits _ (.head _))
          have hfails := hnumber.seq_fails (hsmaller _ (.head _) (slotsText slots))
          simpa [slotsText, Duration.part] using hfails

/-- A row of parts is decoded part by part. -/
theorem slots_decode
    (hpairwise : slots.Pairwise fun s s' => ∀ rest, s.1.ending.Fails (s'.1.letters ++ rest)) :
    (glued (slots.map fun s => opt s.1.rule)).Decodes (slotsText slots) []
      ((slotsEntries slots).map IsPartOf) := by
  -- A unit that is missing is passed over, since it fails in front of what follows.
  induction slots with
  | nil => exact decodes_lexeme Pattern.takes_empty
  | cons s slots ih =>
      obtain ⟨unit, number⟩ := s
      obtain ⟨hsmaller, hpairwise⟩ := List.pairwise_cons.mp hpairwise
      have hunits' : ∀ s ∈ slots, s.1 ∈ durationUnits := fun s hs => hunits s (by simp [hs])
      have hnumbers' : ∀ s ∈ slots, ∀ number ∈ s.2, IsDecimal number.text :=
        fun s hs => hnumbers s (by simp [hs])
      have hunit : unit ∈ durationUnits := hunits _ (.head _)
      obtain ⟨hproduction, hbuilder, hkeyword⟩ := production_of_mem hunit
      have hrest := ih hunits' hnumbers' hpairwise
      cases number with
      | none =>
          have hnone : (opt unit.rule).Decodes [] (slotsText slots ++ []) [] := by
            rw [List.append_nil]
            exact (fails_of_slots hunits' hnumbers' hunit hsmaller).opt
          exact hnone.glued_cons hrest
      | some number =>
          have hending : unit.ending.Decodes unit.letters (slotsText slots ++ []) [] := by
            rw [List.append_nil]
            exact ending_decodes hunit (isDigit_of_slots hunits' hnumbers')
          have hnumber := (number_decodes (hnumbers _ (.head _) number rfl) hunit).seq hending
          have hpart := (hnumber.raw hproduction hbuilder hkeyword (by simp)).left (b := nothing)
          exact hpart.glued_cons hrest

end Slots

/-! ## The numbers of a duration -/

/-- The raw node is made of the number of its unit. -/
def Holds (entry : Rule × Token) (part : RawNode Element) : Prop :=
  part.rule = entry.1 ∧ ∃ line, part.token? = some ⟨entry.2.text, line⟩

theorem exists_parts {entries : List (Rule × Token)} {es : List Element}
    (h : List.Forall₂ (fun P x => P x) (entries.map IsPartOf) es) :
    ∃ parts : List (RawNode Element), Serve es parts ∧ List.Forall₂ Holds entries parts := by
  induction entries generalizing es with
  | nil =>
      cases h
      exact ⟨[], .nil, .nil⟩
  | cons entry entries ih =>
      cases h with
      | cons hx hes =>
          obtain ⟨parts, hserve, hholds⟩ := ih hes
          obtain ⟨n, rfl, hrule, hchildren⟩ := hx
          obtain ⟨line, _, htoken, hnil⟩ := exists_token hchildren
          cases hnil
          have hnumber : n.token? = some ⟨entry.2.text, line⟩ := by rw [RawNode.token?, htoken]
          exact ⟨n :: parts, .cons rfl hserve, .cons ⟨hrule, line, hnumber⟩ hholds⟩

/-- Setting a number does not look at lines. -/
theorem setPart?_wording {d d' d₁ : Duration} {number : Token} {r : Rule} (line : Nat)
    (hd : d.wording = d'.wording) (h : setPart? d number r = some d₁) :
    ∃ d₁', setPart? d' ⟨number.text, line⟩ r = some d₁' ∧ d₁.wording = d₁'.wording := by
  unfold setPart? at h ⊢
  split at h
  case h_6 => cases h
  all_goals
    obtain rfl := Option.some.inj h
    refine ⟨_, rfl, ?_⟩
    simp_all [Duration.wording, Token.wording]

/-- The parts set the numbers that they are made of. -/
theorem foldlM_addPart_gives_set {entries : List (Rule × Token)} {parts : List (RawNode Element)}
    (h : List.Forall₂ Holds entries parts) {c : Children} {d d' d₁ : Duration}
    (hd : d.wording = d'.wording)
    (hset : entries.foldlM (fun d entry => setPart? d entry.2 entry.1) d = some d₁) :
    ∃ d₁', (parts.foldlM addPart d').Gives c d₁' c ∧ d₁.wording = d₁'.wording := by
  induction h generalizing d d' with
  | nil =>
      obtain rfl := Option.some.inj hset
      exact ⟨d', Builder.pure_gives, hd⟩
  | @cons entry part entries parts hpart _ ih =>
      obtain ⟨hrule, line, htoken⟩ := hpart
      rw [List.foldlM_cons] at hset
      obtain ⟨d₂, hd₂, hset⟩ := Option.bind_eq_some_iff.mp hset
      obtain ⟨d₂', hd₂', hwording⟩ := setPart?_wording line hd hd₂
      obtain ⟨d₁', hgives, hd₁⟩ := ih hwording hset
      rw [← hrule] at hd₂'
      refine ⟨d₁', ?_, hd₁⟩
      simpa [List.foldlM_cons] using (addPart_gives_set htoken hd₂').bind hgives

/-- Set one after the other, the numbers of a duration make it up. -/
theorem foldlM_setPart (d : Duration) :
    (slotsEntries (slotsOf d)).foldlM (fun d entry => setPart? d entry.2 entry.1) {} = some d := by
  obtain ⟨_ | _, _ | _, _ | _, _ | _, _ | _⟩ := d <;> rfl

theorem exists_duration {d : Duration} (hne : slotsEntries (slotsOf d) ≠ []) {es : List Element}
    (h : List.Forall₂ (fun P x => P x) ((slotsEntries (slotsOf d)).map IsPartOf) es)
    (c : Children) :
    ∃ x, Build.duration.Gives (c.holding es) x (c.holding []) ∧ IsLiteral (.duration d) x := by
  obtain ⟨parts, hserve, hholds⟩ := exists_parts h
  obtain ⟨d', hd', hwording⟩ :=
    foldlM_addPart_gives_set (c := c.holding []) hholds rfl (foldlM_setPart d)
  have hparts : parts ≠ [] := by
    rintro rfl
    exact hne (List.forall₂_nil_right_iff.mp hholds)
  refine ⟨_, duration_gives_set hserve hparts hd', _, rfl, ?_⟩
  rw [beq_iff_wording]
  exact congrArg Literal.duration hwording.symm

/-! ## Whole durations -/

theorem render_duration (d : Duration) :
    d.render = ['T', 'I', 'M', 'E'] ++ (['#'] ++ ([] ++ slotsText (slotsOf d))) := by
  have hrender : d.render = ['T', 'I', 'M', 'E', '#'] ++ Duration.part "D" d.days ++
      Duration.part "H" d.hours ++ Duration.part "M" d.minutes ++ Duration.part "S" d.seconds ++
      Duration.part "MS" d.milliseconds := rfl
  have hslots : slotsText (slotsOf d) = Duration.part "D" d.days ++ (Duration.part "H" d.hours ++
      (Duration.part "M" d.minutes ++ (Duration.part "S" d.seconds ++
      (Duration.part "MS" d.milliseconds ++ [])))) := rfl
  simp [hrender, hslots]

theorem map_snd_slotsEntries (d : Duration) :
    (slotsEntries (slotsOf d)).map Prod.snd = d.numbers := by
  simp [slotsEntries, slotsOf, durationUnits, Duration.numbers, Function.comp_def]

theorem mem_numbers {d : Duration} {s : DurationUnit × Option Token} (hs : s ∈ slotsOf d)
    {number : Token} (hnumber : number ∈ s.2) : number ∈ d.numbers := by
  rw [← map_snd_slotsEntries, slotsEntries, List.mem_map]
  refine ⟨(s.1.rule, number), List.mem_flatMap.mpr ⟨s, hs, ?_⟩, rfl⟩
  exact List.mem_map.mpr ⟨number, Option.mem_toList.mpr hnumber, rfl⟩

/-- A valid duration is decoded to itself. -/
theorem duration_decodes {d : Duration} (h : d.Valid) :
    Decodes Rule.duration d.render [] [IsLiteral (.duration d)] := by
  obtain ⟨hne, hdecimal⟩ := h
  have hunits : ∀ s ∈ slotsOf d, s.1 ∈ durationUnits := fun s hs => (List.of_mem_zip hs).1
  have hnumbers : ∀ s ∈ slotsOf d, ∀ number ∈ s.2, IsDecimal number.text :=
    fun s hs number hnumber => hdecimal number (mem_numbers hs hnumber)
  have hentries : slotsEntries (slotsOf d) ≠ [] := by
    intro hnil
    rw [← map_snd_slotsEntries, hnil] at hne
    exact hne rfl
  have hpairwise : (slotsOf d).Pairwise fun s s' =>
      ∀ rest, s.1.ending.Fails (s'.1.letters ++ rest) :=
    List.pairwise_map.mp (show ((slotsOf d).map Prod.fst).Pairwise _ from pairwise_durationUnits)
  have hslots := slots_decode hunits hnumbers hpairwise
  -- At least one part is there, and it begins with a digit.
  have hdigit : (ahead Lexicon.digit).Decodes [] (slotsText (slotsOf d) ++ []) [] := by
    obtain ⟨c, t, ht⟩ := List.exists_cons_of_ne_nil (slotsText_ne_nil hnumbers hentries)
    have hc : c.isDigit = true := isDigit_of_slots hunits hnumbers c (by simp [ht])
    rw [ht]
    exact (decodes_lexeme (Pattern.takes_char (c := c) hc)).ahead
  have hmark : Pattern.Takes "#" ['#'] ([] ++ slotsText (slotsOf d) ++ []) :=
    Pattern.takes_text ['#'] _
  have hword : (Pattern.oneOfWords durationWords).Takes ['T', 'I', 'M', 'E']
      (['#'] ++ ([] ++ slotsText (slotsOf d)) ++ []) :=
    choosable_durationWords.takes (r := "TIME") (by decide) (by decide) (bounded_mark _)
  have hbody := (decodes_lexeme hword).seq ((decodes_lexeme hmark).seq (hdigit.seq hslots))
  rw [render_duration]
  refine hbody.construct rfl rfl rfl ?_ fun es hes c => exists_duration hentries hes c
  simpa using hentries

end StructuredText.Grammar
