import StructuredText.Proofs.Blanking.Patterns
import StructuredText.Proofs.Grammar.Parses

/-!
# Tokens and blank comments

Strings are marks of their own, so they are read as they are. What is skipped between two tokens ends
at the same place with blanks for the comments. A length in brackets holds whatever is written in it,
and the two words of an indirection have only blanks between them: these two are read in the same
way where no comment is written inside.

* `trivia_blanked` — what is skipped between two tokens.
* `steady_stringLiteral`, `steady_stringLength`, `steady_indirection` — the tokens that may hold
  blanks.
-/

namespace StructuredText.Grammar

open Comment Pattern

variable {source : Text} {s s₁ s' : Cursor} {t : Text}

/-! ## Between two tokens -/

theorem plain_of_isBlank {c : Char} (hc : isBlank c = true) (rest : Text) : Plain (c :: rest) := by
  refine plain_of_not_mem ?_ rest
  simp only [isBlank, Bool.or_eq_true, beq_iff_eq, or_assoc] at hc
  rcases hc with rfl | rfl | rfl | rfl | rfl <;> decide

theorem isBlank_of_mem_blanks {c : Char} (hc : c ∈ t.blanks) : isBlank c = true := by
  obtain ⟨d, -, rfl⟩ := List.mem_map.mp hc
  split
  · rename_i hd
    rw [hd]
    rfl
  · rfl

/-- Where no comment begins, none begins with blanks for the comments behind. -/
theorem Settled.blanked (h : Settled s) : Lexicon.comment.run (s.blanked source) = none := by
  have hrefuses : Lexicon.comment.Refuses s.rest.blanked := by
    rcases exists_mark s with hrest | ⟨k, t, s₁, hreads, hfits⟩
    · rw [hrest, Text.blanked_nil]
      exact fun _ => rfl
    rw [hreads.rest]
    cases k with
    | comment => exact absurd h (not_settled_of_comment hreads hfits)
    | string =>
        rw [Text.blanked_of_fits hfits]
        exact Lexicon.comment_refuses fun opening rest heq hopens =>
          not_isString_of_opens hopens heq.symm hfits
    | ordinary =>
        rw [Text.blanked_of_fits hfits]
        obtain ⟨c, rfl, hplain⟩ := hfits
        exact Lexicon.comment_refuses hplain.blanked.comment
  exact hrefuses.run

/-- Between two cursors with nothing but blanks and comments between them there are nothing but
blanks. -/
theorem Gap.blanked (h : Gap s s') (hs : source.Edge s) :
    s.Passes true s' ∧
      ∃ t, (s.blanked source).Reads t (s'.blanked source) ∧ ∀ c ∈ t, isBlank c = true := by
  induction h with
  | refl s => exact ⟨.refl s, [], .refl _, by simp⟩
  | @blank s s₁ s' hblank _ ih =>
      obtain ⟨t, hreads, c, hc, rfl⟩ := run_spells hblank
      have hfits : MarkKind.ordinary.Fits [c] s₁.rest := ⟨c, rfl, plain_of_isBlank hc _⟩
      have hpasses : s.Passes true s₁ := .one (by simp) hreads hfits
      obtain ⟨hpasses', t, hreads', ht⟩ := ih (hs.passes hpasses)
      refine ⟨hpasses.trans hpasses', [c] ++ t, (hs.reads_mark hreads hfits).trans hreads', ?_⟩
      exact List.forall_mem_cons.mpr ⟨hc, ht⟩
  | @comment u s s₁ s' hreads hu _ ih =>
      have hfits : MarkKind.comment.Fits u s₁.rest := hu
      have hpasses : s.Passes true s₁ := .one (fun _ => rfl) hreads hfits
      obtain ⟨hpasses', t, hreads', ht⟩ := ih (hs.passes hpasses)
      refine ⟨hpasses.trans hpasses', u.blanks ++ t, (hs.reads_mark hreads hfits).trans hreads', ?_⟩
      exact List.forall_mem_append.mpr ⟨fun c => isBlank_of_mem_blanks, ht⟩

/-- Blanks are skipped up to something else. -/
theorem trivia_run_of_blanks (hreads : s.Reads t s') (ht : ∀ c ∈ t, isBlank c = true)
    (hblank : Lexicon.blank.run s' = none) (hcomment : Lexicon.comment.run s' = none) :
    Lexicon.trivia.run s = some s' := by
  have hblanks : (star Lexicon.blank).run s = some s' :=
    (takes_run ht (head_of_run_eq_none hblank)).run_of_reads hreads
  have hrounds := trivia_run_of_none hblank hcomment
  rw [Lexicon.trivia, run, run_star_of_none hblank, Option.bind_some] at hrounds
  rw [Lexicon.trivia, run, hblanks, Option.bind_some]
  exact hrounds

/-- What is skipped between two tokens ends at the same place. -/
theorem trivia_blanked (hs : source.Edge s) :
    ∃ s', Lexicon.trivia.run s = some s' ∧
      Lexicon.trivia.run (s.blanked source) = some (s'.blanked source) ∧
      s.Passes true s' ∧ Settled s' := by
  obtain ⟨s', hrun⟩ := exists_trivia s
  obtain ⟨hblank, hcomment⟩ := ends_of_trivia hrun
  obtain ⟨hpasses, t, hreads, ht⟩ := (gap_of_trivia hrun).blanked hs
  have hsteady : Lexicon.blank.Steady source s' :=
    steady_of_check true (by decide +kernel) (fun _ => hcomment) (hs.passes hpasses)
  -- a comment would look like a blank here, but none begins where the skipping ends
  have hblank' : Lexicon.blank.run (s'.blanked source) = none := by
    have hsome := hsteady.isSome
    rw [hblank] at hsome
    simpa using hsome
  exact ⟨s', hrun, trivia_run_of_blanks hreads ht hblank' (Settled.blanked hcomment), hpasses,
    hcomment⟩

/-! ## Strings -/

theorem stringLiteral_run_of_head (h : ∀ c ∈ s.rest.head?, c ∉ ['\'', '"']) :
    Lexicon.stringLiteral.run s = none := by
  refine (Lexicon.stringLiteral_refuses fun u rest heq hu => ?_).run
  obtain ⟨c, hc, hhead⟩ : ∃ c ∈ ['\'', '"'], (u ++ rest).head? = some c := hu.head
  exact h c (heq ▸ hhead) hc

/-- A string is a mark of its own. -/
theorem steady_stringLiteral (hs : source.Edge s) : Lexicon.stringLiteral.Steady source s := by
  rcases exists_mark s with hrest | ⟨k, t, s₁, hreads, hfits⟩
  · refine .inl ⟨stringLiteral_run_of_head (by simp [hrest]), stringLiteral_run_of_head ?_⟩
    simp [Cursor.blanked, hrest]
  -- Only a string mark is read as a string: a comment has blanks instead, and an ordinary character
  -- opens none, even if it is a quotation mark.
  cases k with
  | comment =>
      obtain ⟨c, hc, hhead, hhead'⟩ := head_of_comment hfits
      rw [← hreads.rest] at hhead hhead'
      refine .inl ⟨stringLiteral_run_of_head ?_, stringLiteral_run_of_head ?_⟩
      · rw [hhead]
        rintro _ ⟨⟩
        simp only [List.mem_cons, List.not_mem_nil, or_false] at hc
        rcases hc with rfl | rfl | rfl <;> decide
      · show ∀ c ∈ s.rest.blanked.head?, c ∉ ['\'', '"']
        rw [hhead']
        rintro _ ⟨⟩
        decide
  | string =>
      have htakes (rest : Text) : Lexicon.stringLiteral.Takes t rest :=
        Lexicon.stringLiteral_takes hfits
      exact .inr ⟨s₁, (htakes _).run_of_reads hreads,
        (htakes _).run_of_reads (hs.reads_mark hreads hfits), .one (by simp) hreads hfits⟩
  | ordinary =>
      have hblanked := (hs.reads_mark hreads hfits).rest
      obtain ⟨c, rfl, hplain⟩ := hfits
      refine .inl ⟨?_, ?_⟩
      · have hrefuses := Lexicon.stringLiteral_refuses hplain.string
        rw [← List.singleton_append, ← hreads.rest] at hrefuses
        exact hrefuses.run
      · have hrefuses := Lexicon.stringLiteral_refuses hplain.blanked.string
        rw [← List.singleton_append] at hrefuses
        rw [MarkKind.shown] at hblanked
        refine Refuses.run ?_
        rw [hblanked]
        exact hrefuses

/-! ## Lengths in brackets -/

/-- What holds no mark but single characters is passed without a comment. -/
theorem passes_of_plain (hreads : s.Reads t s')
    (ht : ∀ before c after, t = before ++ c :: after → Plain (c :: (after ++ s'.rest))) :
    s.Passes false s' := by
  induction t generalizing s with
  | nil =>
      obtain rfl := hreads.eq_of_nil
      exact .refl _
  | cons c t ih =>
      obtain ⟨s₁, hfirst, hbehind⟩ := hreads.split [c]
      have hplain := ht [] c t rfl
      rw [← hbehind.rest] at hplain
      refine .mark (k := .ordinary) (by simp) hfirst ⟨c, rfl, hplain⟩ (ih hbehind ?_)
      rintro before d after rfl
      exact ht (c :: before) d after rfl

/-- What opens a string or a comment. -/
def markOpenings : List Text := [['\''], ['"'], ['/', '/'], ['(', '*'], ['\x7b']]

/-- In a text without openings that ends in a closing bracket, no character begins a mark, whatever
stands behind the text. -/
theorem plain_of_no_opening (before : Text) {c closing : Char} {after rest : Text}
    (h : ∀ w ∈ markOpenings, ¬ w <:+: before ++ c :: (after ++ [closing]))
    (hclosing : closing = ']' ∨ closing = ')') : Plain (c :: (after ++ [closing] ++ rest)) := by
  have hnot (w : Text) (hw : w ∈ markOpenings) (u : Text) : c :: (after ++ [closing]) ≠ w ++ u := by
    intro heq
    exact h w hw ⟨before, u, by rw [heq, List.append_assoc]⟩
  -- An opening of two characters lies inside the text, for its second character is not the closing
  -- bracket.
  have hpair {d : Char} {v : Text} (hw : [c, d] ∈ markOpenings) (hd : closing ≠ d) :
      after ++ [closing] ++ rest ≠ d :: v := by
    intro heq
    cases after with
    | nil => exact hd (List.cons.inj heq).1
    | cons e after =>
        obtain rfl : e = d := (List.cons.inj heq).1
        exact hnot [c, e] hw (after ++ [closing]) rfl
  constructor
  · intro u v heq hu
    obtain ⟨d, hd, hhead⟩ : ∃ d ∈ ['\'', '"'], (u ++ v).head? = some d := hu.head
    rw [← heq] at hhead
    obtain rfl : c = d := Option.some.inj hhead
    refine hnot [c] ?_ _ rfl
    simp only [List.mem_cons, List.not_mem_nil, or_false] at hd
    rcases hd with rfl | rfl <;> simp [markOpenings]
  · intro opening v heq hopens
    cases hopens with
    | line =>
        obtain ⟨rfl, hrest⟩ := List.cons.inj heq
        exact hpair (by simp [markOpenings]) (by rcases hclosing with rfl | rfl <;> decide) hrest
    | block =>
        obtain ⟨rfl, hrest⟩ := List.cons.inj heq
        exact hpair (by simp [markOpenings]) (by rcases hclosing with rfl | rfl <;> decide) hrest
    | pragma =>
        obtain ⟨rfl, -⟩ := List.cons.inj heq
        exact hnot ['\x7b'] (by simp [markOpenings]) _ rfl

/-- What closes a bracket begins no mark. -/
theorem plain_of_closing {closing : Char} (hclosing : closing = ']' ∨ closing = ')') (rest : Text) :
    Plain (closing :: rest) :=
  plain_of_not_mem (by rcases hclosing with rfl | rfl <;> decide) rest

/-- In brackets that hold no opening of a mark there are only single characters. -/
theorem passes_of_no_opening {closing : Char} (hclosing : closing = ']' ∨ closing = ')')
    (hreads : s.Reads (t ++ [closing]) s') (h : ∀ w ∈ markOpenings, ¬ w <:+: t ++ [closing]) :
    s.Passes false s' := by
  refine passes_of_plain hreads fun before c after heq => ?_
  rcases List.eq_nil_or_concat after with rfl | ⟨after, last, rfl⟩
  · obtain ⟨-, hc⟩ := List.append_inj' heq rfl
    obtain rfl : closing = c := (List.cons.inj hc).1
    exact plain_of_closing hclosing _
  · rw [List.concat_eq_append] at heq ⊢
    rw [← List.cons_append, ← List.append_assoc] at heq
    obtain ⟨rfl, hlast⟩ := List.append_inj' heq rfl
    obtain rfl : closing = last := (List.cons.inj hlast).1
    refine plain_of_no_opening before ?_ hclosing
    rwa [← List.cons_append, ← List.append_assoc]

variable {opening closing : Char} {body rest : Text}

/-- Brackets that are empty or not closed are so with blanks for the comments. -/
theorem enclosed_refuses_blanked (hopening : opening ∉ ['\'', '"'])
    (hclosing : closing = ']' ∨ closing = ')') (hsettled : Settled s)
    (h : ∀ body rest, body ≠ [] → closing ∉ body → s.rest ≠ opening :: (body ++ closing :: rest)) :
    (Lexicon.enclosed opening closing).Refuses s.rest.blanked := by
  refine Lexicon.enclosed_refuses fun body' rest' hne' hbody' heq' => ?_
  rcases exists_mark s with hrest | ⟨k, t, s₁, hreads, hfits⟩
  · rw [hrest, Text.blanked_nil] at heq'
    cases heq'
  rw [hreads.rest] at h heq'
  cases k with
  | comment => exact not_settled_of_comment hreads hfits hsettled
  | string =>
      obtain ⟨c, hc, -, hhead⟩ := head_of_string hfits s₁.rest
      rw [heq'] at hhead
      obtain rfl : opening = c := Option.some.inj hhead
      exact hopening hc
  | ordinary =>
      rw [Text.blanked_of_fits hfits] at heq'
      obtain ⟨c, rfl, -⟩ := hfits
      obtain ⟨rfl, hblanked⟩ : c = opening ∧ s₁.rest.blanked = body' ++ closing :: rest' :=
        List.cons.inj heq'
      -- the closing bracket that is found among the blanks stands in the text, too
      have hmem : closing ∈ s₁.rest :=
        Text.mem_of_mem_blanked (by rcases hclosing with rfl | rfl <;> decide) (by simp [hblanked])
      obtain ⟨body, rest, hsplit, hbody⟩ := List.eq_append_cons_of_mem hmem
      by_cases hne : body = []
      · have hempty : closing :: Text.blanked rest = body' ++ closing :: rest' := by
          have hfits : MarkKind.ordinary.Fits [closing] rest :=
            ⟨closing, rfl, plain_of_closing hclosing rest⟩
          rw [← hblanked, hsplit, hne, List.nil_append]
          exact (Text.blanked_of_fits hfits).symm
        cases body' with
        | nil => exact hne' rfl
        | cons d body' =>
            obtain rfl : closing = d := (List.cons.inj hempty).1
            exact hbody' (by simp)
      · exact h body rest hne hbody (congrArg (c :: ·) hsplit)

/-- Brackets that hold no opening of a mark are read in the same way. -/
theorem steady_enclosed (hopening : opening ∉ ['\'', '"'])
    (hclosing : closing = ']' ∨ closing = ')') (hs : source.Edge s) (hsettled : Settled s)
    (hplain : ∀ s', (Lexicon.enclosed opening closing).run s = some s' →
      ∀ w ∈ markOpenings, ¬ w <:+: s.upTo s') :
    (Lexicon.enclosed opening closing).Steady source s := by
  cases hrun : (Lexicon.enclosed opening closing).run s with
  | some s' =>
      -- With blanks for the comments the brackets hold the same, for they hold no comment.
      obtain ⟨body, hne, hbody, hreads⟩ := Lexicon.exists_enclosed hrun
      have hopen := hplain s' hrun
      rw [hreads.upTo, ← List.cons_append] at hopen
      rw [← List.cons_append] at hreads
      have hpasses := passes_of_no_opening hclosing hreads hopen
      obtain ⟨t, ht, hblanked⟩ := hs.reads hpasses
      obtain rfl := List.append_cancel_right (ht.rest.symm.trans hreads.rest)
      exact .inr ⟨s', hrun, (Lexicon.enclosed_takes hne hbody).run_of_reads hblanked, hpasses⟩
  | none =>
      have hnone : ∀ body rest, body ≠ [] → closing ∉ body →
          s.rest ≠ opening :: (body ++ closing :: rest) := by
        intro body rest hne hbody hrest
        have hbrackets : s.rest = opening :: (body ++ [closing]) ++ rest := by simp [hrest]
        cases hrun.symm.trans ((Lexicon.enclosed_takes hne hbody).run hbrackets)
      exact .inl ⟨hrun, (enclosed_refuses_blanked hopening hclosing hsettled hnone).run⟩

/-! ## Comments outside of tokens -/

namespace Lexicon

/-- The name of a string type. -/
def stringType : Pattern := seq (oneOf [word "WSTRING", word "STRING"]) boundary

/-- The length behind the name of a string type. -/
def lengthAt? (s : Cursor) : Option Text :=
  ((seq stringType trivia).run s).bind fun s₁ => (stringLength.run s₁).map s₁.upTo

/-- Two words with blanks and comments between them. -/
def wordsApart (first second : Text) : Pattern := seq (word first) (seq trivia (word second))

end Lexicon

/-- No comment is written inside of a token that may hold blanks: where a string type is tried, no
mark is opened in its length, and where an indirection is, its words have only blanks between
them. -/
structure CommentsOutside (source : Text) : Prop where
  lengths : ∀ s, (Expr.rule .iecSource).Tries source.cursor .stringTypeSpecification s →
    ∀ t ∈ Lexicon.lengthAt? s, ∀ w ∈ markOpenings, ¬ w <:+: t
  indirections : ∀ s, (Expr.rule .iecSource).Tries source.cursor .indirectionType s →
    ∀ first ∈ [("POINTER" : Text), "REFERENCE"],
      ((Lexicon.wordsApart first "TO").run s).isSome = true →
        ((Lexicon.twoWords first "TO").run s).isSome = true

/-- All cursors of a text from an offset on. -/
def cursorsFrom : (offset : Nat) → Text → List Cursor
  | offset, [] => [⟨offset, []⟩]
  | offset, c :: t => ⟨offset, c :: t⟩ :: cursorsFrom (offset + c.utf8Size) t

theorem mem_cursorsFrom {offset : Nat} {t u : Text} {s : Cursor}
    (h : Cursor.Reads ⟨offset, t⟩ u s) : s ∈ cursorsFrom offset t := by
  induction u generalizing offset t with
  | nil =>
      obtain rfl := h.eq_of_nil
      cases t <;> simp [cursorsFrom]
  | cons c u ih =>
      obtain rfl : t = c :: (u ++ s.rest) := h.rest
      refine List.mem_cons_of_mem _ (ih ⟨rfl, ?_⟩)
      rw [h.offset, Text.byteLength_cons, Nat.add_assoc]

/-- Where nothing is found at any cursor of a text, there is nothing where a rule is tried. -/
theorem CommentsOutside.of_cursors
    (hlengths : ∀ s ∈ cursorsFrom 0 source, ∀ t ∈ Lexicon.lengthAt? s,
      ∀ w ∈ markOpenings, ¬ w <:+: t)
    (hindirections : ∀ s ∈ cursorsFrom 0 source, ∀ first ∈ [("POINTER" : Text), "REFERENCE"],
      ((Lexicon.wordsApart first "TO").run s).isSome = true →
        ((Lexicon.twoWords first "TO").run s).isSome = true) : CommentsOutside source := by
  have hmem {q : Rule} {s : Cursor} (h : (Expr.rule .iecSource).Tries source.cursor q s) :
      s ∈ cursorsFrom 0 source := by
    obtain ⟨u, hu⟩ := h.reads
    exact mem_cursorsFrom hu
  exact ⟨fun s h => hlengths s (hmem h), fun s h => hindirections s (hmem h)⟩

/-- The length of a string type is read in the same way. -/
theorem steady_stringLength
    (hplain : ∀ t ∈ Lexicon.lengthAt? s, ∀ w ∈ markOpenings, ¬ w <:+: t)
    (hlength : (seq Lexicon.stringType Lexicon.trivia).run s = some s')
    (hs' : source.Edge s') (hsettled : Settled s') : Lexicon.stringLength.Steady source s' := by
  have hplain {s₁ : Cursor} (hrun : Lexicon.stringLength.run s' = some s₁) :
      ∀ w ∈ markOpenings, ¬ w <:+: s'.upTo s₁ := by
    refine hplain _ ?_
    rw [Lexicon.lengthAt?, hlength, Option.bind_some, hrun]
    exact rfl
  have hlengths : Lexicon.stringLength.run s' =
      ((Lexicon.enclosed '[' ']').run s').or ((Lexicon.enclosed '(' ')').run s') := rfl
  have hsquare : (Lexicon.enclosed '[' ']').Steady source s' := by
    refine steady_enclosed (by decide) (.inl rfl) hs' hsettled fun s₁ hrun => hplain ?_
    rw [hlengths, hrun, Option.some_or]
  refine hsquare.alt fun hnone => ?_
  refine steady_enclosed (by decide) (.inr rfl) hs' hsettled fun s₁ hrun => hplain ?_
  rw [hlengths, hnone, Option.none_or, hrun]

/-! ## Two words -/

/-- A blank or a tab, as they stand between the words of an indirection. -/
def isGap (c : Char) : Bool := c == ' ' || c == '\t'

theorem isBlank_of_isGap {c : Char} (hc : isGap c = true) : isBlank c = true := by
  simp only [isGap, Bool.or_eq_true, beq_iff_eq] at hc
  rcases hc with rfl | rfl <;> rfl

/-- The second word of an indirection begins neither with a blank nor with a comment. -/
theorem ends_of_to (h : (word "TO").run s = some s') :
    Lexicon.blank.run s = none ∧ Lexicon.comment.run s = none := by
  obtain ⟨t, hreads, u, v, ⟨c, hc, rfl⟩, -, rfl⟩ := run_spells h
  have hrest : s.rest = c :: (v ++ s'.rest) := hreads.rest
  have hupper : c.toUpper = 'T' := beq_iff_eq.mp hc
  constructor
  · show (char isBlank).run s = none
    refine run_char_of_head fun d hd => ?_
    obtain rfl : c = d := by simpa [hrest] using hd
    refine Bool.eq_false_iff.mpr fun hblank => ?_
    simp only [isBlank, Bool.or_eq_true, beq_iff_eq, or_assoc] at hblank
    rcases hblank with rfl | rfl | rfl | rfl | rfl <;> exact absurd hupper (by decide)
  · refine Refuses.run (Lexicon.comment_refuses fun opening rest heq hopens => ?_)
    rw [hrest] at heq
    cases hopens <;> obtain ⟨rfl, -⟩ := List.cons.inj heq <;> exact absurd hupper (by decide)

theorem steady_to (hs : source.Edge s) : (word "TO").Steady source s :=
  steady_of_check false (by decide +kernel) nofun hs

variable {first : Text}

/-- The words of an indirection are read where only blanks and tabs stand between them. -/
theorem twoWords_run_eq_some_iff :
    (Lexicon.twoWords first "TO").run s = some s' ↔
      ∃ s₁ s₂ t, (word first).run s = some s₁ ∧ s₁.Reads t s₂ ∧ t ≠ [] ∧
        (∀ c ∈ t, isGap c = true) ∧ (word "TO").run s₂ = some s' := by
  have hwords : (Lexicon.twoWords first "TO").run s =
      ((word first).run s).bind fun s₁ => ((plus (char isGap)).run s₁).bind (word "TO").run := rfl
  rw [hwords]
  constructor
  · intro h
    obtain ⟨s₁, hfirst, hrest⟩ := Option.bind_eq_some_iff.mp h
    obtain ⟨s₂, hgap, hto⟩ := Option.bind_eq_some_iff.mp hrest
    obtain ⟨t, hreads, u, v, ⟨c, hc, rfl⟩, ⟨ts, hts, rfl⟩, rfl⟩ := run_spells hgap
    refine ⟨s₁, s₂, _, hfirst, hreads, by simp, List.forall_mem_cons.mpr ⟨hc, fun d hd => ?_⟩, hto⟩
    obtain ⟨w, hw, hd⟩ := List.mem_flatten.mp hd
    obtain ⟨e, he, rfl⟩ := hts w hw
    obtain rfl := List.mem_singleton.mp hd
    exact he
  · rintro ⟨s₁, s₂, t, hfirst, hreads, hne, ht, hto⟩
    -- The second word begins with a letter, so the repetition of blanks ends in front of it.
    have hend : ∀ c ∈ s₂.rest.head?, isGap c = false := fun c hc =>
      Bool.eq_false_iff.mpr fun hgap =>
        Bool.eq_false_iff.mp (head_of_run_eq_none (ends_of_to hto).1 c hc) (isBlank_of_isGap hgap)
    have hgap : (plus (char isGap)).run s₁ = some s₂ := (takes_plus ht hne hend).run_of_reads hreads
    rw [hfirst, Option.bind_some, hgap, Option.bind_some, hto]

/-- The words of an indirection are read in the same way if no comment stands between them. -/
theorem steady_twoWords (hfirst : (word first).isSteady false = true) (hs : source.Edge s)
    (hapart : ((Lexicon.wordsApart first "TO").run s).isSome = true →
      ((Lexicon.twoWords first "TO").run s).isSome = true) :
    (Lexicon.twoWords first "TO").Steady source s := by
  have hfirst : (word first).Steady source s :=
    steady_of_check false hfirst nofun hs
  cases hmatch : (Lexicon.twoWords first "TO").run s with
  | some s' =>
      obtain ⟨s₁, s₂, t, hrun, hreads, hne, ht, hto⟩ := twoWords_run_eq_some_iff.mp hmatch
      obtain ⟨hrun', hpasses⟩ := hfirst.of_run hrun
      have hbetween : s₁.Passes false s₂ := by
        refine passes_of_plain hreads ?_
        rintro before c after rfl
        exact plain_of_isBlank (isBlank_of_isGap (ht c (by simp))) _
      obtain ⟨u, hu, hreads'⟩ := (hs.passes hpasses).reads hbetween
      obtain rfl : u = t := List.append_cancel_right (hu.rest.symm.trans hreads.rest)
      obtain ⟨hto', hbehind⟩ := (steady_to (hs.passes (hpasses.trans hbetween))).of_run hto
      refine .inr ⟨s', hmatch, ?_, (hpasses.trans hbetween).trans hbehind⟩
      exact twoWords_run_eq_some_iff.mpr ⟨_, _, u, hrun', hreads', hne, ht, hto'⟩
  | none =>
      refine .inl ⟨hmatch, Option.eq_none_iff_forall_ne_some.mpr fun s' hmatch' => ?_⟩
      obtain ⟨_, s₂', t, hrun', hreads, hne, ht, hto'⟩ := twoWords_run_eq_some_iff.mp hmatch'
      -- the words are read with blanks for the comments only: so comments stand between them
      rcases hfirst with ⟨-, hnone⟩ | ⟨s₁, hrun, hblanked, hpasses⟩
      · cases hnone.symm.trans hrun'
      obtain rfl := Option.some.inj (hblanked.symm.trans hrun')
      -- between the words there are blanks and comments
      obtain ⟨s₂, hskip, hskip', hbetween, -⟩ := trivia_blanked (hs.passes hpasses)
      obtain ⟨hblank, hcomment⟩ := ends_of_to hto'
      have hblanks := trivia_run_of_blanks hreads (fun c hc => isBlank_of_isGap (ht c hc)) hblank
        hcomment
      obtain rfl : s₂.blanked source = s₂' := Option.some.inj (hskip'.symm.trans hblanks)
      have hto := (steady_to ((hs.passes hpasses).passes hbetween)).isSome
      rw [hto', Option.isSome_some] at hto
      have hsome := hapart (by
        show (((word first).run s).bind fun s₁ =>
          (Lexicon.trivia.run s₁).bind (word "TO").run).isSome = true
        rw [hrun, Option.bind_some, hskip, Option.bind_some, ← hto])
      rw [hmatch] at hsome
      cases hsome

/-- An indirection is read in the same way. -/
theorem steady_indirection (hs : source.Edge s)
    (hapart : ∀ first ∈ [("POINTER" : Text), "REFERENCE"],
      ((Lexicon.wordsApart first "TO").run s).isSome = true →
        ((Lexicon.twoWords first "TO").run s).isSome = true) :
    Lexicon.indirection.Steady source s := by
  have hwords (first : Text) (hfirst : first ∈ [("POINTER" : Text), "REFERENCE"])
      (hsteady : (word first).isSteady false = true) :
      (Lexicon.twoWords first "TO").Steady source s :=
    steady_twoWords hsteady hs (hapart first hfirst)
  have hpointer := hwords "POINTER" (by simp) (by decide +kernel)
  have hreference := hwords "REFERENCE" (by simp) (by decide +kernel)
  have hrefTo : (word "REF_TO").Steady source s :=
    steady_of_check false (by decide +kernel) nofun hs
  refine Steady.seq (hpointer.alt fun _ => hreference.alt fun _ => hrefTo) fun s' hpasses => ?_
  exact steady_of_check false (by decide +kernel) nofun (hs.passes hpasses)

end StructuredText.Grammar
