import StructuredText.Proofs.Build.Derivation
import StructuredText.Proofs.Grammar.Guards
import StructuredText.Proofs.Grammar.Names
import StructuredText.Proofs.Grammar.Quotations

/-!
# The text of a string type

A string type with an optional first value is a word, a length in brackets if it has one, and a
literal behind a sign of assignment if there is a first value, with blanks and comments anywhere
between them. Which node is made of it and what is built of the node depends on this text alone: the
same text is read in the same way in another file and at another place.

There is one thing to look out for. A length in parentheses that begins with a star looks like a
comment that is not closed, and it is one in a file where a closing follows.

* `StringAt` — a string type with an optional first value stands at a cursor.
* `StringText` — how such a string is written, up to the semicolon behind it.
* `StringAt.exists_text` — where a string stands, it is written like that.
* `StringText.exists_stringAt` — what is written like that is a string, wherever it stands, and has
  the name, the length and the first value of its text.
-/

namespace StructuredText

namespace Grammar

open StructuredText.Grammar.Expr

variable {s s₁ s₂ s' : Cursor} {n : Node} {ns : List Node}

/-- A string type with an optional first value stands at the cursor, and a semicolon behind it. -/
def StringAt (s : Cursor) (n : Node) (s' : Cursor) : Prop :=
  (terminated Rule.stringSpecInit).Parses s (some ([n], s'))

namespace StringAt

theorem parts (h : StringAt s n s') :
    (rule .stringSpecInit).Parses s (some ([n], n.stop)) ∧
      (seq trivia (ahead ";")).Parses n.stop (some ([], s')) := by
  obtain ⟨_, ls, s₁, hns, hspec, hend⟩ := parses_seq_iff.mp h
  obtain ⟨_, rfl, hbody⟩ := (parses_node_iff rfl).mp hspec
  obtain ⟨rfl, rfl⟩ := List.cons.inj hns
  exact ⟨.node rfl hbody, hend⟩

theorem rule_eq (h : StringAt s n s') : n.rule = .stringSpecInit := by
  obtain ⟨_, hn, -⟩ := (parses_node_iff rfl).mp h.parts.1
  rw [List.singleton_inj.mp hn]

end StringAt

/-! ## Texts -/

/-- A first value and what is skipped behind it, in front of the text `rest`. -/
inductive ValueText (rest : Text) : (t : Text) → (value : Option Text) → Prop where
  | absent : ValueText rest [] none
  | present {gap value gap' : Text} (hgap : IsGap gap (value ++ (gap' ++ rest)))
      (hvalue : IsString value) (hgap' : IsGap gap' rest) :
      ValueText rest ([':', '='] ++ (gap ++ (value ++ gap'))) (some value)

/-- A length and a first value behind it. A length that looks like a comment is not closed like one
before the text ends. -/
inductive LengthText (rest : Text) : (t : Text) → (length value : Option Text) → Prop where
  | absent {t : Text} {value : Option Text} (hvalue : ValueText rest t value) :
      LengthText rest t none value
  | present {length gap t : Text} {value : Option Text} (hlength : IsLength length)
      (hopen : ['(', '*'] <+: length → ¬ ['*', ')'] <:+: length.drop 2 ++ (gap ++ t))
      (hgap : IsGap gap (t ++ rest)) (hvalue : ValueText rest t value) :
      LengthText rest (length ++ (gap ++ t)) (some length) value

/-- The words for string types. -/
def stringTypes : List String := ["WSTRING", "STRING"]

/-- A whole string: the word for its type, its length and its first value. -/
inductive StringText (rest : Text) : (t name : Text) → (length value : Option Text) → Prop where
  | mk {name gap t : Text} {length value : Option Text}
      (hname : ∃ w ∈ stringTypes, Text.sameWord name w = true)
      (hend : Bounded (gap ++ (t ++ rest))) (hgap : IsGap gap (t ++ rest))
      (hlength : LengthText rest t length value) :
      StringText rest (name ++ (gap ++ t)) name length value

/-! Of what stands behind such a text only the first character matters. -/

section Heads

variable {rest rest' t name : Text} {length value : Option Text}

theorem ValueText.of_head (h : ValueText rest t value) (hrest : rest'.head? = rest.head?) :
    ValueText rest' t value := by
  cases h with
  | absent => exact .absent
  | present hgap hvalue hgap' =>
      refine .present (hgap.of_head ?_) hvalue (hgap'.of_head hrest)
      simp only [List.head?_append, hrest]

theorem LengthText.of_head (h : LengthText rest t length value)
    (hrest : rest'.head? = rest.head?) : LengthText rest' t length value := by
  cases h with
  | absent hvalue => exact .absent (hvalue.of_head hrest)
  | present hlength hopen hgap hvalue =>
      refine .present hlength hopen (hgap.of_head ?_) (hvalue.of_head hrest)
      simp only [List.head?_append, hrest]

theorem StringText.of_head (h : StringText rest t name length value)
    (hrest : rest'.head? = rest.head?) : StringText rest' t name length value := by
  cases h with
  | mk hname hend hgap hlength =>
      refine .mk hname ?_ (hgap.of_head ?_) (hlength.of_head hrest)
      · simp only [Bounded, List.head?_append, hrest] at hend ⊢
        exact hend
      · simp only [List.head?_append, hrest]

end Heads

/-- A length that looks like a comment is not closed like one in the text `rest`. -/
def LeavesOpen (length : Option Text) (rest : Text) : Prop :=
  ∀ l ∈ length, ['(', '*'] <+: l → ¬ ['*', ')'] <:+: rest

/-! ## From the string to its text -/

theorem exists_valueText (h : (opt (spaced [":=", Rule.stringLiteral])).Parses s (some (ns, s₁)))
    (hs : Lexicon.trivia.run s = some s) (hgap : Lexicon.trivia.run s₁ = some s') :
    ∃ t value, s.Reads t s' ∧ ValueText s'.rest t value := by
  -- Without a value the cursor stays where it is.
  cases h with
  | right _ hnothing =>
      obtain ⟨rfl, hrun⟩ := parses_lexeme_iff.mp hnothing
      obtain rfl : s = s₁ := Option.some.inj hrun
      obtain rfl : s = s' := Option.some.inj (hs.symm.trans hgap)
      exact ⟨[], none, .refl s, .absent⟩
  | left h =>
      simp only [spaced, trivia, parses_seq_iff, parses_lexeme_iff] at h
      obtain ⟨_, _, s₂, -, ⟨rfl, hassign⟩, _, _, s₃, -, ⟨rfl, hgap₂⟩, hliteral⟩ := h
      obtain ⟨-, hliteral⟩ := (parses_token_iff rfl).mp hliteral
      have hassign := Pattern.reads_of_run_text hassign
      obtain ⟨gap, hreads₂, hgap₂⟩ := (gap_of_trivia hgap₂).exists_isGap
      obtain ⟨value, hreads₃, hvalue⟩ := Lexicon.isString_of_run hliteral
      obtain ⟨gap', hreads', hgap'⟩ := (gap_of_trivia hgap).exists_isGap
      rw [hreads₃.rest, hreads'.rest] at hgap₂
      exact ⟨_, some value, hassign.trans (hreads₂.trans (hreads₃.trans hreads')),
        .present hgap₂ hvalue hgap'⟩

/-- A word without the character that the second text begins with stands in one of two texts, if it
stands in both together. -/
theorem infix_of_infix_append {w t rest : Text} {c : Char} (hc : c ∉ w) (hrest : rest.head? = some c)
    (h : w <:+: t ++ rest) : w <:+: t ∨ w <:+: rest := by
  induction t with
  | nil => exact .inr h
  | cons d t ih =>
      rcases List.infix_cons_iff.mp h with hprefix | hinfix
      · have hfront : d :: t <+: d :: t ++ rest := ⟨rest, rfl⟩
        rcases Nat.le_total w.length (d :: t).length with hle | hle
        · exact .inl (List.prefix_of_prefix_length_le hprefix hfront hle).isInfix
        · obtain ⟨u, rfl⟩ := List.prefix_of_prefix_length_le hfront hprefix hle
          cases u with
          | nil => exact .inl (by simp)
          | cons e u =>
              obtain ⟨v, hv⟩ := (List.prefix_append_right_inj (d :: t)).mp hprefix
              rw [← hv] at hrest
              obtain rfl := Option.some.inj hrest
              exact absurd (by simp) hc
      · exact (ih hinfix).imp (List.IsInfix.trans · (List.suffix_cons d t).isInfix) id

theorem exists_lengthText (h : (opt Rule.stringLength).Parses s (some (ns, s₁)))
    (hs : Lexicon.trivia.run s = some s) (hgap : Lexicon.trivia.run s₁ = some s₂) {t : Text}
    {value : Option Text} (hreads : s₂.Reads t s') (hvalue : ValueText s'.rest t value) :
    ∃ u length, s.Reads u s' ∧ LengthText s'.rest u length value ∧ LeavesOpen length s'.rest := by
  cases h with
  | right _ hnothing =>
      obtain ⟨rfl, hrun⟩ := parses_lexeme_iff.mp hnothing
      obtain rfl : s = s₁ := Option.some.inj hrun
      obtain rfl : s = s₂ := Option.some.inj (hs.symm.trans hgap)
      exact ⟨t, none, hreads, .absent hvalue, by simp [LeavesOpen]⟩
  | left h =>
      obtain ⟨-, hrun⟩ := (parses_token_iff rfl).mp h
      obtain ⟨length, hfirst, hlength⟩ := Lexicon.isLength_of_run hrun
      obtain ⟨gap, hskipped, hgap⟩ := (gap_of_trivia hgap).exists_isGap
      have hwhole := hfirst.trans (hskipped.trans hreads)
      -- A length that begins like a comment would be skipped as one if it were closed further
      -- behind.
      have hopen (hstar : ['(', '*'] <+: length) :
          ¬ ['*', ')'] <:+: length.drop 2 ++ (gap ++ t) ++ s'.rest := by
        intro hclosed
        obtain ⟨body, rfl⟩ := hstar
        refine Lexicon.not_opens_of_run (ends_of_trivia hs).2 ?_ (.block hclosed)
        simp [hwhole.rest]
      rw [hreads.rest] at hgap
      refine ⟨_, some length, hwhole, .present hlength ?_ hgap hvalue, ?_⟩
      · exact fun hstar hinside => hopen hstar (hinside.trans ⟨[], s'.rest, by simp⟩)
      · rintro _ ⟨⟩ hstar hbehind
        exact hopen hstar (hbehind.trans (List.suffix_append _ _).isInfix)

/-- The word for the type is one of the two, and no other word begins with it. -/
theorem exists_stringType (h : (rule .stringType).Parses s (some (ns, s'))) :
    ∃ name, s.Reads name s' ∧ (∃ w ∈ stringTypes, Text.sameWord name w = true) ∧
      Bounded s'.rest := by
  obtain ⟨-, hrun⟩ := (parses_token_iff rfl).mp h
  obtain ⟨s₁, hword, hboundary⟩ := Option.bind_eq_some_iff.mp hrun
  have hbounded : Bounded s₁.rest := bounded_of_boundary hboundary
  obtain ⟨-, rfl⟩ : _ ∧ s₁ = s' := by simpa [Pattern.run, Lexicon.boundary] using hboundary
  obtain ⟨name, hreads, hspells⟩ := Pattern.run_spells hword
  have hname : (Pattern.oneOfWords stringTypes).Spells name := hspells
  obtain ⟨w, hw, hname⟩ := Pattern.oneOfWords_spells (by decide) hname
  exact ⟨name, hreads, ⟨w, hw, beq_iff_eq.mpr hname⟩, hbounded⟩

/-- Where a string stands, it is written like one, and a semicolon stands behind it. -/
theorem StringAt.exists_text (h : StringAt s n s') :
    ∃ t name length value, s.Reads t s' ∧ StringText s'.rest t name length value ∧
      LeavesOpen length s'.rest ∧ s'.At [';'] := by
  obtain ⟨hspec, hend⟩ := h.parts
  obtain ⟨-, -, hbody⟩ := parses_of_node rfl hspec
  simp only [spaced, trivia, parses_seq_iff, parses_lexeme_iff] at hbody hend
  obtain ⟨_, _, _, -, htype, _, _, s₄, -, ⟨rfl, hgap₃⟩, hvalue⟩ := hbody
  obtain ⟨_, -, htype⟩ := (parses_node_iff rfl).mp htype
  simp only [spaced, trivia, parses_seq_iff, parses_lexeme_iff] at htype
  obtain ⟨_, _, s₁, -, hname, _, _, s₂, -, ⟨rfl, hgap₁⟩, hlength⟩ := htype
  obtain ⟨name, hreads₁, hname, hbounded⟩ := exists_stringType hname
  obtain ⟨_, _, s₅, hns, ⟨rfl, hgap₄⟩, hsemicolon⟩ := hend
  -- From the end to the front, for a gap is one only in front of what follows it.
  obtain ⟨u, value, hreads₃, hvalue⟩ := exists_valueText hvalue (trivia_run_run hgap₃) hgap₄
  obtain ⟨t, length, hreads₂, hlength, hopen⟩ :=
    exists_lengthText hlength (trivia_run_run hgap₁) hgap₃ hreads₃ hvalue
  obtain ⟨gap, hskipped, hgap⟩ := (gap_of_trivia hgap₁).exists_isGap
  rw [hskipped.rest, hreads₂.rest] at hbounded
  rw [hreads₂.rest] at hgap
  obtain ⟨rfl, hat⟩ : s₅ = s' ∧ s₅.At [';'] := by
    cases hsemicolon with
    | ahead hsemicolon =>
        obtain ⟨-, hrun⟩ := parses_lexeme_iff.mp hsemicolon
        exact ⟨rfl, Cursor.at_of_run_text hrun⟩
  exact ⟨_, name, length, value, hreads₁.trans (hskipped.trans hreads₂),
    .mk hname hbounded hgap hlength, hopen, hat⟩

/-! ## From the text to the string -/

theorem choosable_stringTypes : Choosable stringTypes := by decide +kernel

theorem head_of_at {c : Char} (hs : s.At [c]) : s.rest.head? = some c := by
  obtain ⟨d, hd, hhead⟩ := hs
  rwa [List.mem_singleton.mp hd] at hhead

/-- Where a character stands that begins neither a blank nor a comment, nothing is skipped. -/
theorem trivia_run_of_at {cs : List Char} (hs : s.At cs)
    (hblank : Lexicon.blank.reaction cs = .blocks)
    (hcomment : Lexicon.comment.reaction cs = .blocks) : Lexicon.trivia.run s = some s :=
  trivia_run_of_none (Pattern.run_eq_none_of_blocks hs hblank)
    (Pattern.run_eq_none_of_blocks hs hcomment)

end Grammar

namespace Build

open Grammar

/-- What is built of a string literal. -/
theorem element_stringLiteral (lines : LineIndex) (s s' : Cursor) :
    element lines ⟨.stringLiteral, s, s', []⟩ =
      .ok (.literal (.string ⟨⟨s.upTo s', lines.lineOf s.offset⟩⟩)) := by
  have hgives := stringLiteral_gives
    (c := construct lines .stringLiteral s s' [leafToken lines .stringLiteral s s'])
    ⟨s.upTo s', lines.lineOf s.offset⟩
  exact element_built_leaf rfl hgives.build

/-- What is built of a string type, given its length. -/
theorem element_stringTypeSpecification {lines : LineIndex} {ns : List Node} {length : Option Token}
    (hns : elements lines ns = .ok (length.toList.map (.token .stringLength))) (s s₁ s' : Cursor) :
    element lines ⟨.stringTypeSpecification, s, s', ⟨.stringType, s, s₁, []⟩ :: ns⟩ =
      .ok (.stringType ⟨⟨s.upTo s₁, lines.lineOf s.offset⟩, length⟩) := by
  let name : Token := ⟨s.upTo s₁, lines.lineOf s.offset⟩
  have hname : elements lines [⟨.stringType, s, s₁, []⟩] = .ok [.token .stringType name] :=
    elements_one rfl (element_leaf rfl)
  have hgives := stringTypeSpecification_gives
    (c := construct lines .stringTypeSpecification s s'
      (.token .stringType name :: length.toList.map (.token .stringLength))) name length
  exact element_built rfl (by simp) (elements_append hname hns) hgives.build

/-- What is built of a string type with an optional first value. -/
theorem element_stringSpecInit {lines : LineIndex} {m : Node} {ns : List Node} {type : StringType}
    {value : Option StringLiteral} (hm : m.rule.isKeyword = false)
    (htype : element lines m = .ok (.stringType type))
    (hns : elements lines ns = .ok (value.toList.map fun v => .literal (.string v)))
    (s s' : Cursor) :
    element lines ⟨.stringSpecInit, s, s', m :: ns⟩ = .ok (.specInit (.string type value)) := by
  let es : List Element := value.toList.map fun v => .literal (.string v)
  have hes : Serve es value.toList := by cases value <;> rfl
  have hgives := stringSpecInit_gives
    (c := construct lines .stringSpecInit s s' (.stringType type :: es)) type hes
  exact element_built rfl (by simp) (elements_append (elements_one hm htype) hns) hgives.build

end Build

namespace Grammar

open StructuredText.Grammar.Expr

variable {s s' : Cursor} {t name : Text} {length value : Option Text}

/-- A first value begins with a sign of assignment, and where there is none the semicolon is next. -/
theorem ValueText.at (h : ValueText s'.rest t value) (hreads : s.Reads t s') (hs' : s'.At [';']) :
    s.At [':', ';'] := by
  rw [Cursor.At, hreads.rest]
  cases h with
  | absent =>
      obtain ⟨c, hc, hhead⟩ := hs'
      exact ⟨c, List.mem_cons_of_mem _ hc, hhead⟩
  | present => exact ⟨':', by decide, rfl⟩

/-- A first value is read, and what is built of it has its text. -/
theorem ValueText.parses (h : ValueText s'.rest t value) (hreads : s.Reads t s')
    (hs' : s'.At [';']) :
    ∃ ns s₁, (opt (spaced [":=", Rule.stringLiteral])).Parses s (some (ns, s₁)) ∧
      Lexicon.trivia.run s₁ = some s' ∧
      ∀ lines, ∃ v : Option StringLiteral, v.map (·.value.text) = value ∧
        Build.elements lines ns = .ok (v.toList.map fun v => .literal (.string v)) := by
  have hend : Lexicon.trivia.run s' = some s' :=
    trivia_run_of_at hs' (by decide +kernel) (by decide +kernel)
  cases h with
  | absent =>
      obtain rfl := hreads.eq_of_nil
      refine ⟨[], s, .right ?_ (.lexeme rfl), hend, fun lines => ⟨none, rfl, Build.elements_nil⟩⟩
      exact .seqStops (.lexemeFails (Pattern.run_eq_none_of_blocks hs' (by decide +kernel)))
  | @present gap value gap' hgap hvalue hgap' =>
      obtain ⟨s₁, hassign, hreads⟩ := hreads.split [':', '=']
      obtain ⟨s₂, hskipped, hreads⟩ := hreads.split gap
      obtain ⟨s₃, hliteral, hreads⟩ := hreads.split value
      rw [← hreads.rest, ← hliteral.rest] at hgap
      -- The gap ends where the string begins, for nothing is skipped in front of a quotation mark.
      have hquote : s₂.At ['\'', '"'] := by
        obtain ⟨c, hc, hhead⟩ : ∃ c ∈ ['\'', '"'], (value ++ s₃.rest).head? = some c := hvalue.head
        exact ⟨c, hc, hliteral.rest ▸ hhead⟩
      have hstart : Lexicon.trivia.run s₂ = some s₂ :=
        trivia_run_of_at hquote (by decide +kernel) (by decide +kernel)
      have hparses : (spaced [":=", Rule.stringLiteral]).Parses s
          (some ([⟨.stringLiteral, s₂, s₃, []⟩], s₃)) :=
        .seq (.lexeme ((Pattern.takes_text [':', '='] _).run_of_reads hassign))
          (.seq (.lexeme (hgap.trivia_run hskipped hstart))
            (.token rfl ((Lexicon.stringLiteral_takes hvalue).run_of_reads hliteral)))
      refine ⟨_, s₃, .left hparses, hgap'.trivia_run hreads hend, fun lines => ?_⟩
      refine ⟨some ⟨⟨s₂.upTo s₃, lines.lineOf s₂.offset⟩⟩, ?_, ?_⟩
      · simp [hliteral.upTo]
      · exact Build.elements_one rfl (Build.element_stringLiteral lines s₂ s₃)

/-- A length begins with a bracket, and where there is none the sign of assignment or the semicolon
is next. Nothing in front of it is skipped. -/
theorem LengthText.trivia_run (h : LengthText s'.rest t length value) (hreads : s.Reads t s')
    (hs' : s'.At [';']) (hopen : LeavesOpen length s'.rest) :
    Lexicon.trivia.run s = some s := by
  cases h with
  | absent hvalue =>
      exact trivia_run_of_at (hvalue.at hreads hs') (by decide +kernel) (by decide +kernel)
  | @present length gap t _ hlength hinside =>
      cases hlength with
      | square =>
          have hat : s.At ['['] := ⟨'[', by decide, hreads.rest ▸ rfl⟩
          exact trivia_run_of_at hat (by decide +kernel) (by decide +kernel)
      | @round body hne =>
          have hat : s.At ['('] := ⟨'(', by decide, hreads.rest ▸ rfl⟩
          refine trivia_run_of_none (Pattern.run_eq_none_of_blocks hat (by decide +kernel)) ?_
          refine Pattern.Refuses.run (Lexicon.comment_refuses fun opening rest hrest hopens => ?_)
          rw [hreads.rest] at hrest
          cases hopens with
          | line | pragma => cases hrest
          | block hclosed =>
              -- a length is not empty, so the star is its first character
              obtain ⟨d, body, rfl⟩ := List.exists_cons_of_ne_nil hne
              obtain ⟨-, hrest⟩ := List.cons.inj hrest
              obtain ⟨rfl, rfl⟩ := List.cons.inj hrest
              have hstar : ['(', '*'] <+: '(' :: ('*' :: body ++ [')']) := ⟨body ++ [')'], rfl⟩
              rcases infix_of_infix_append (by decide) (head_of_at hs') hclosed with hin | hbehind
              · exact hinside hstar hin
              · exact hopen _ rfl hstar hbehind

/-- A length and the first value behind it are read, and what is built of them has their texts. -/
theorem LengthText.parses (h : LengthText s'.rest t length value) (hreads : s.Reads t s')
    (hs' : s'.At [';']) :
    ∃ ns s₁ s₂ u, (opt Rule.stringLength).Parses s (some (ns, s₁)) ∧
      Lexicon.trivia.run s₁ = some s₂ ∧ s₂.Reads u s' ∧ ValueText s'.rest u value ∧
      ∀ lines, ∃ l : Option Token, l.map (·.text) = length ∧
        Build.elements lines ns = .ok (l.toList.map (.token .stringLength)) := by
  cases h with
  | absent hvalue =>
      have hat : s.At [':', ';'] := hvalue.at hreads hs'
      refine ⟨[], s, s, t, .right ?_ (.lexeme rfl), ?_, hreads, hvalue,
        fun lines => ⟨none, rfl, Build.elements_nil⟩⟩
      · exact .tokenFails rfl (Pattern.run_eq_none_of_blocks hat (by decide +kernel))
      · exact trivia_run_of_at hat (by decide +kernel) (by decide +kernel)
  | @present length gap t _ hlength hinside hgap hvalue =>
      obtain ⟨s₁, hfirst, hreads⟩ := hreads.split length
      obtain ⟨s₂, hskipped, hreads⟩ := hreads.split gap
      rw [← hreads.rest] at hgap
      -- Behind the length stands an assignment or the semicolon, and neither is skipped.
      have hstart : Lexicon.trivia.run s₂ = some s₂ :=
        trivia_run_of_at (hvalue.at hreads hs') (by decide +kernel) (by decide +kernel)
      have htoken : (rule .stringLength).Parses s (some ([⟨.stringLength, s, s₁, []⟩], s₁)) :=
        .token rfl ((Lexicon.stringLength_takes hlength).run_of_reads hfirst)
      refine ⟨_, s₁, s₂, t, .left htoken, hgap.trivia_run hskipped hstart, hreads, hvalue,
        fun lines => ⟨some ⟨s.upTo s₁, lines.lineOf s.offset⟩, ?_, ?_⟩⟩
      · simp [hfirst.upTo]
      · exact Build.elements_one rfl (Build.element_leaf rfl)

/-- What is written like a string is one, wherever it stands: it has the name, the length and the
first value of its text. -/
theorem StringText.exists_stringAt (h : StringText s'.rest t name length value)
    (hreads : s.Reads t s') (hs' : s'.At [';']) (hopen : LeavesOpen length s'.rest) :
    ∃ n, StringAt s n s' ∧ ∀ lines, ∃ (type : StringType) (first : Option StringLiteral),
      Build.element lines n = .ok (.specInit (.string type first)) ∧ type.name.text = name ∧
        type.length.map (·.text) = length ∧ first.map (·.value.text) = value := by
  cases h with
  | @mk name gap t length value hname hend hgap hlength =>
      obtain ⟨s₁, hfirst, hreads⟩ := hreads.split name
      obtain ⟨s₂, hskipped, hreads⟩ := hreads.split gap
      rw [← hreads.rest] at hgap hend
      rw [← hskipped.rest] at hend
      have hgap : Lexicon.trivia.run s₁ = some s₂ :=
        hgap.trivia_run hskipped (hlength.trivia_run hreads hs' hopen)
      obtain ⟨ls, s₃, s₄, u, hlengths, hgap₄, hvalues, hvalue, hbuilt⟩ := hlength.parses hreads hs'
      obtain ⟨vs, s₅, hassigns, hgap₅, hbuilt'⟩ := hvalue.parses hvalues hs'
      have hword : (rule .stringType).Parses s (some ([⟨.stringType, s, s₁, []⟩], s₁)) := by
        refine .token rfl (Pattern.Takes.run_of_reads ?_ hfirst)
        obtain ⟨w, hw, hname⟩ := hname
        have hboundary : Lexicon.boundary.Takes [] s₁.rest := (identChar_refuses hend).notAhead
        have hboth := (choosable_stringTypes.takes hw hname hend).seq (u := []) hboundary
        rwa [List.append_nil] at hboth
      have htype : (rule .stringTypeSpecification).Parses s
          (some ([⟨.stringTypeSpecification, s, s₃, ⟨.stringType, s, s₁, []⟩ :: ls⟩], s₃)) :=
        .node rfl (.seq hword (.seq (.lexeme hgap) hlengths))
      -- The semicolon is looked at and not read.
      obtain ⟨rest, hrest⟩ := List.head?_eq_some_iff.mp (head_of_at hs')
      have hsemicolon : (lexeme ";").Parses s' (some ([], ⟨_, rest⟩)) :=
        .lexeme ((Pattern.takes_text [';'] rest).run hrest)
      refine ⟨_, .seq (.node rfl (.seq htype (.seq (.lexeme hgap₄) hassigns)))
        (.seq (.lexeme hgap₅) (.ahead hsemicolon)), fun lines => ?_⟩
      obtain ⟨l, hl, hls⟩ := hbuilt lines
      obtain ⟨v, hv, hvs⟩ := hbuilt' lines
      exact ⟨_, v, Build.element_stringSpecInit rfl
        (Build.element_stringTypeSpecification hls s s₁ s₃) hvs s s₅, hfirst.upTo, hl, hv⟩

end Grammar

end StructuredText
