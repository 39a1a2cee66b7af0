import StructuredText.Proofs.Build.Decoding
import StructuredText.Proofs.Literals.Spelling

/-!
# Words in front of literals

Most literals begin with a word and a number sign, and are told apart by that word alone. Where the
first word of a text is none of the words of a literal, the text is no such literal, even if it
begins with one of them: no number sign follows then.

* `literalWords`, `differ_of_ne` — the words of literals; no two kinds of literals share one.
* `Foreign` — the first word of a text is none of the words.
* `Foreign.fails` — what asks for one of the words and a number sign fails.
* `dateAndTime_fails`, `date_fails`, … — the rules of the literals with a word in front.
-/

namespace StructuredText.Grammar

open StructuredText.Grammar.Expr

/-! ## Words -/

/-- The words in front of dates with a time. -/
def dateAndTimeWords : List String := ["DATE_AND_TIME", "DT"]

/-- The words in front of dates. -/
def dateWords : List String := ["DATE", "D"]

/-- The words in front of times of day. -/
def timeOfDayWords : List String := ["TIME_OF_DAY", "TOD"]

/-- The words in front of durations. -/
def durationWords : List String := ["TIME", "T"]

/-- The words in front of dates and times, kind by kind. -/
def timeWords : List (List String) := [dateAndTimeWords, dateWords, timeOfDayWords, durationWords]

/-- The words in front of literals, kind by kind. -/
def literalWords : List (List String) := timeWords ++ [realTypes, bitStringTypes, integerTypes]

/-- The words of each kind of literal can be chosen from in the order they are listed in. -/
theorem choosable_of_mem : ∀ words ∈ literalWords, Choosable words := by decide +kernel

/-- No word stands in front of literals of two kinds. -/
theorem differ_of_ne : ∀ words ∈ literalWords, ∀ others ∈ literalWords, words ≠ others →
    ∀ v ∈ words, ∀ o ∈ others, Text.sameWord v o = false := by decide +kernel

theorem choosable_dateAndTimeWords : Choosable dateAndTimeWords :=
  choosable_of_mem _ (by simp [literalWords, timeWords])

theorem choosable_dateWords : Choosable dateWords :=
  choosable_of_mem _ (by simp [literalWords, timeWords])

theorem choosable_timeOfDayWords : Choosable timeOfDayWords :=
  choosable_of_mem _ (by simp [literalWords, timeWords])

theorem choosable_durationWords : Choosable durationWords :=
  choosable_of_mem _ (by simp [literalWords, timeWords])

theorem choosable_realTypes : Choosable realTypes := choosable_of_mem _ (by simp [literalWords])

theorem choosable_bitStringTypes : Choosable bitStringTypes :=
  choosable_of_mem _ (by simp [literalWords])

theorem choosable_integerTypes : Choosable integerTypes :=
  choosable_of_mem _ (by simp [literalWords])

variable {words others : List String} {w t rest : Text} {first e : Expr} {p : Pattern} {r : Rule}

/-- A number sign ends a word. -/
theorem bounded_mark (rest : Text) : Bounded ('#' :: rest) := by
  intro c hc
  obtain rfl : '#' = c := by simpa using hc
  decide

/-! ## Other words -/

/-- The first word of the text is none of the words. -/
def Foreign (words : List String) (t : Text) : Prop :=
  ∀ v ∈ words, Text.sameWord (firstWord t) v = false

instance (words : List String) (t : Text) : Decidable (Foreign words t) :=
  inferInstanceAs (Decidable (∀ v ∈ words, Text.sameWord (firstWord t) v = false))

/-- A text that begins with no letter has a foreign first word. -/
theorem foreign_of_head (h : Choosable words) (ht : ∀ c ∈ t.head?, startsName c = false) :
    Foreign words t := by
  intro v hv
  cases hw : Text.sameWord (firstWord t) v with
  | false => rfl
  | true =>
      obtain ⟨rest, hrest, -⟩ := exists_bounded_rest t
      have hstarts := h.starts_append hv hw rest
      rw [← hrest] at hstarts
      cases t with
      | nil => cases hstarts
      | cons c t => simp [ht c rfl] at hstarts

/-- A word in front of a literal of one kind is foreign to the words of the other kinds. -/
theorem foreign_of_mark (hwords : words ∈ literalWords) (hothers : others ∈ literalWords)
    (hne : words ≠ others) {v : String} (hv : v ∈ words) (hw : Text.sameWord w v = true)
    (rest : Text) : Foreign others (w ++ '#' :: rest) := by
  intro o ho
  have hword : Wordlike w := (choosable_of_mem words hwords).wordlike_of_sameWord hv hw
  have hupper : w.upperCase = Text.upperCase v := eq_of_beq hw
  rw [firstWord_append hword (bounded_mark rest), Text.sameWord, hupper]
  exact differ_of_ne words hwords others hothers hne v hv o ho

/-! ## Failures -/

/-- The expression matches as the pattern does. -/
def Expr.Follows (e : Expr) (p : Pattern) : Prop :=
  ∀ s, ∃ o, e.Parses s o ∧ o.map Prod.snd = p.run s

/-- A mark matches as its pattern. -/
theorem follows_lexeme (p : Pattern) : (lexeme p).Follows p := by
  intro s
  cases h : p.run s with
  | none => exact ⟨none, .lexemeFails h, rfl⟩
  | some s' => exact ⟨some ([], s'), .lexeme h, rfl⟩

/-- A token matches as its pattern. -/
theorem follows_token (hr : r.production = .token p) : (rule r).Follows p := by
  intro s
  cases h : p.run s with
  | none => exact ⟨none, .tokenFails hr h, rfl⟩
  | some s' => exact ⟨_, .token hr h, rfl⟩

/-- Without a number sign there is none. -/
theorem mark_fails (h : t.head? ≠ some '#') : Fails "#" t := by
  refine fails_lexeme (Pattern.refuses_text ?_)
  rintro ⟨_, rfl⟩
  exact h rfl

/-- Where the first word is foreign, none of the words stands in front of a number sign. -/
theorem Foreign.fails (h : Foreign words t) (hwords : Choosable words)
    (hfirst : first.Follows (Pattern.oneOfWords words))
    (he : ∀ t : Text, t.head? ≠ some '#' → e.Fails t) : (seq first e).Fails t := by
  intro offset
  obtain ⟨o, ho, hrun⟩ := hfirst ⟨offset, t⟩
  cases o with
  | none => exact .seqStops ho
  | some x =>
      obtain ⟨ns, s₁⟩ := x
      refine .seqFails ho (he s₁.rest ?_ s₁.offset)
      intro hmark
      obtain ⟨rest, hrest⟩ := List.head?_eq_some_iff.mp hmark
      have hbounded : Bounded s₁.rest := hrest ▸ bounded_mark rest
      obtain ⟨v, hv, hw⟩ := hwords.of_run hrun.symm hbounded
      rw [h v hv] at hw
      cases hw

/-! ## The literals with a word in front -/

/-- Without one of its words in front, a text is no date with a time. -/
theorem dateAndTime_fails (h : Foreign dateAndTimeWords t) : Fails Rule.dateAndTime t :=
  .node rfl (h.fails choosable_dateAndTimeWords (follows_lexeme _) fun _ ht => (mark_fails ht).seq)

/-- Without one of its words in front, a text is no date. -/
theorem date_fails (h : Foreign dateWords t) : Fails Rule.date t :=
  .node rfl (h.fails choosable_dateWords (follows_lexeme _) fun _ ht => (mark_fails ht).seq)

/-- Without one of its words in front, a text is no time of day. -/
theorem timeOfDay_fails (h : Foreign timeOfDayWords t) : Fails Rule.timeOfDay t :=
  .node rfl (h.fails choosable_timeOfDayWords (follows_lexeme _) fun _ ht => (mark_fails ht).seq)

/-- Without one of its words in front, a text is no duration. -/
theorem duration_fails (h : Foreign durationWords t) : Fails Rule.duration t :=
  .node rfl (h.fails choosable_durationWords (follows_lexeme _) fun _ ht => (mark_fails ht).seq)

/-- A type that is foreign is left out in front of a real number. -/
theorem realLiteral_fails (h : Foreign realTypes t) (hvalue : Lexicon.realValue.Refuses t) :
    Fails Rule.realLiteral t := by
  have htype : Fails (glued [Rule.realTypeName, "#"]) t :=
    h.fails choosable_realTypes (follows_token rfl) fun _ ht => mark_fails ht
  exact .node rfl (htype.opt.seq_fails (fails_token rfl hvalue))

/-- All four kinds of bit strings need their type, so each fails without it. -/
theorem bitStringConstant_fails (h : Foreign bitStringTypes t) :
    Fails Rule.bitStringConstant t := by
  have htype {e : Expr} : Fails (seq Rule.bitStringTypeName (seq "#" e)) t :=
    h.fails choosable_bitStringTypes (follows_token rfl) fun _ ht => (mark_fails ht).seq
  exact .silent rfl ((htype.node rfl).alt ((htype.node rfl).alt ((htype.node rfl).alt
    (htype.node rfl))))

end StructuredText.Grammar
