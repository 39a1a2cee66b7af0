import StructuredText.Proofs.Comments.Spelling
import StructuredText.Proofs.Grammar.Repetition

/-!
# Between two tokens

What the grammar skips between two tokens is a row of blanks and comments, and it skips as many as
there are: behind them stands neither a blank nor a comment. The same text is skipped in every other
file, if what stands behind it begins in the same way and is not skipped itself.

* `Gap` — nothing but blanks and comments.
* `gap_of_trivia`, `ends_of_trivia` — what is skipped, and what stands behind it.
* `trivia_run_run` — behind what is skipped there is nothing more to skip.
* `IsGap` — a text of blanks and comments, given what stands behind it.
* `IsGap.of_head`, `IsGap.trivia_run` — such a text is skipped wherever it stands.
-/

namespace StructuredText.Grammar

open Pattern

/-- The characters that are skipped between two tokens. -/
def isBlank (c : Char) : Bool := c == ' ' || c == '\t' || c == '\r' || c == '\n' || c == '\uFEFF'

/-- Nothing but blanks and comments stands between the cursors. -/
inductive Gap : Cursor → Cursor → Prop where
  | refl (s : Cursor) : Gap s s
  | blank {s s₁ s' : Cursor} (hblank : Lexicon.blank.run s = some s₁) (hrest : Gap s₁ s') :
      Gap s s'
  | comment {t : Text} {s s₁ s' : Cursor} (hreads : s.Reads t s₁) (ht : IsComment t s₁.rest)
      (hrest : Gap s₁ s') : Gap s s'

variable {s s₁ s' : Cursor}

theorem Gap.trans (h : Gap s s₁) (h' : Gap s₁ s') : Gap s s' := by
  induction h with
  | refl => exact h'
  | blank hblank _ ih => exact .blank hblank (ih h')
  | comment hreads ht _ ih => exact .comment hreads ht (ih h')

/-- A repetition whose rounds read nothing but blanks and comments reads nothing else. -/
theorem Gap.star {p : Pattern} (hp : ∀ s s', p.run s = some s' → Gap s s')
    (h : (Pattern.star p).run s = some s') : Gap s s' := by
  obtain rfl : Pattern.repeatedly p.run s.rest s = s' := Option.some.inj h
  exact Pattern.repeatedly_keeps (P := Gap s) (fun s₁ s₂ hgap hstep => hgap.trans (hp s₁ s₂ hstep))
    (.refl s)

/-- What is skipped between two tokens are blanks and comments. -/
theorem gap_of_trivia (h : Lexicon.trivia.run s = some s') : Gap s s' := by
  have hblanks (s s' : Cursor) (h : (Pattern.star Lexicon.blank).run s = some s') : Gap s s' :=
    Gap.star (fun _ _ hblank => .blank hblank (.refl _)) h
  obtain ⟨s₁, hfront, hcomments⟩ := Option.bind_eq_some_iff.mp h
  refine (hblanks s s₁ hfront).trans (Gap.star ?_ hcomments)
  intro s₁ s₂ hround
  obtain ⟨s', hcomment, hbehind⟩ := Option.bind_eq_some_iff.mp hround
  obtain ⟨t, hreads, ht⟩ := Lexicon.isComment_of_run hcomment
  exact .comment hreads ht (hblanks s' s₂ hbehind)

/-- Something is always skipped, if only nothing. -/
theorem exists_trivia (s : Cursor) : ∃ s', Lexicon.trivia.run s = some s' := ⟨_, rfl⟩

/-- Behind what is skipped stands neither a blank nor a comment. -/
theorem ends_of_trivia (h : Lexicon.trivia.run s = some s') :
    Lexicon.blank.run s' = none ∧ Lexicon.comment.run s' = none := by
  obtain ⟨s₁, hblanks, hcomments⟩ := Option.bind_eq_some_iff.mp h
  constructor
  · have hs₁ : Lexicon.blank.run s₁ = none := Pattern.run_star_stops rfl hblanks
    obtain rfl : Pattern.repeatedly
        (Pattern.seq Lexicon.comment (.star Lexicon.blank)).run s₁.rest s₁ = s' := by
      simpa [Pattern.run] using hcomments
    refine Pattern.repeatedly_keeps (P := fun s => Lexicon.blank.run s = none) ?_ hs₁
    intro s s' _ hstep
    obtain ⟨s₂, -, hstar⟩ := Option.bind_eq_some_iff.mp hstep
    exact Pattern.run_star_stops rfl hstar
  · have hround : (Pattern.seq Lexicon.comment (.star Lexicon.blank)).run s' = none :=
      Pattern.run_star_stops rfl hcomments
    cases hcomment : Lexicon.comment.run s' with
    | none => rfl
    | some s₂ =>
        rw [Pattern.run, hcomment] at hround
        cases hround

/-- Where neither a blank nor a comment stands, nothing is skipped. -/
theorem trivia_run_of_none (hblank : Lexicon.blank.run s = none)
    (hcomment : Lexicon.comment.run s = none) : Lexicon.trivia.run s = some s := by
  have hround : (Pattern.seq Lexicon.comment (.star Lexicon.blank)).run s = none := by
    rw [Pattern.run, hcomment, Option.bind_none]
  show ((Pattern.star Lexicon.blank).run s).bind _ = some s
  rw [Pattern.run_star_of_none hblank, Option.bind_some]
  exact Pattern.run_star_of_none hround

/-- Behind what is skipped between two tokens there is nothing more to skip. -/
theorem trivia_run_run (h : Lexicon.trivia.run s = some s') : Lexicon.trivia.run s' = some s' :=
  trivia_run_of_none (ends_of_trivia h).1 (ends_of_trivia h).2

/-! ## Skipped texts -/

/-- A text of nothing but blanks and comments in front of the text `rest`. -/
inductive IsGap : (t rest : Text) → Prop where
  | nil {rest : Text} : IsGap [] rest
  | blank {c : Char} {t rest : Text} (hc : isBlank c = true) (ht : IsGap t rest) :
      IsGap (c :: t) rest
  | comment {t u rest : Text} (ht : IsComment t (u ++ rest)) (hu : IsGap u rest) :
      IsGap (t ++ u) rest

variable {t rest rest' : Text}

/-- Of what stands behind a comment only the first character matters. -/
theorem IsComment.of_head (h : IsComment t rest) (hrest : rest'.head? = rest.head?) :
    IsComment t rest' := by
  cases h with
  | line hbody hend => exact .line hbody (hrest ▸ hend)
  | block hbody => exact .block hbody
  | pragma hbody => exact .pragma hbody

/-- Of what stands behind a skipped text only the first character matters. -/
theorem IsGap.of_head (h : IsGap t rest) (hrest : rest'.head? = rest.head?) : IsGap t rest' := by
  induction h with
  | nil => exact .nil
  | blank hc _ ih => exact .blank hc (ih hrest)
  | @comment t u rest ht _ ih =>
      have hhead : (u ++ rest').head? = (u ++ rest).head? := by
        rw [List.head?_append, List.head?_append, hrest]
      exact .comment (ht.of_head hhead) (ih hrest)

theorem Gap.exists_isGap (h : Gap s s') : ∃ t, s.Reads t s' ∧ IsGap t s'.rest := by
  induction h with
  | refl s => exact ⟨[], .refl s, .nil⟩
  | blank hblank _ ih =>
      obtain ⟨t, hreads, ht⟩ := ih
      obtain ⟨u, hu, c, hc, rfl⟩ := run_spells hblank
      exact ⟨[c] ++ t, hu.trans hreads, .blank hc ht⟩
  | @comment u s s₁ s' hu hcomment _ ih =>
      obtain ⟨t, hreads, ht⟩ := ih
      rw [hreads.rest] at hcomment
      exact ⟨u ++ t, hu.trans hreads, .comment hcomment ht⟩

/-- A blank is skipped, and then whatever is skipped behind it. -/
theorem trivia_run_of_blank (h : Lexicon.blank.run s = some s₁) :
    Lexicon.trivia.run s = Lexicon.trivia.run s₁ := by
  rw [Lexicon.trivia, Pattern.run, Pattern.run, run_star, run_star, last_of_some rfl h]

/-- A comment is skipped, and then whatever is skipped behind it. -/
theorem trivia_run_of_comment (hblank : Lexicon.blank.run s = none)
    (h : Lexicon.comment.run s = some s₁) :
    Lexicon.trivia.run s = Lexicon.trivia.run s₁ := by
  have hround : (Pattern.seq Lexicon.comment (.star Lexicon.blank)).run s =
      some (Lexicon.blank.last s₁) := by
    rw [Pattern.run, h, Option.bind_some, run_star]
  rw [Lexicon.trivia, Pattern.run, Pattern.run, run_star_of_none hblank, run_star, Option.bind_some,
    Option.bind_some, run_star, run_star, last_of_some rfl hround]

/-- A comment does not begin with a blank. -/
theorem IsComment.blank_refuses (h : IsComment t rest) : Lexicon.blank.Refuses (t ++ rest) := by
  refine refuses_char fun c hc => ?_
  cases h <;>
    obtain rfl := Option.some.inj hc <;> decide

/-- A text of blanks and comments is skipped, if nothing behind it is skipped. -/
theorem IsGap.trivia_run (h : IsGap t s'.rest) (hreads : s.Reads t s')
    (hend : Lexicon.trivia.run s' = some s') : Lexicon.trivia.run s = some s' := by
  -- Blanks and comments are skipped one by one, from the front.
  generalize hrest : s'.rest = rest at h
  induction h generalizing s with
  | nil => rwa [hreads.eq_of_nil]
  | @blank c t rest hc ht ih =>
      obtain ⟨s₁, hfirst, hbehind⟩ := hreads.split [c]
      have hblank : Lexicon.blank.run s = some s₁ := (takes_char hc).run_of_reads hfirst
      rw [trivia_run_of_blank hblank]
      exact ih hbehind hrest
  | @comment u t rest hu ht ih =>
      obtain ⟨s₁, hfirst, hbehind⟩ := hreads.split u
      have hs₁ : s₁.rest = t ++ rest := hrest ▸ hbehind.rest
      have hrefuses := hu.blank_refuses
      rw [← hs₁] at hu hrefuses
      rw [← hfirst.rest] at hrefuses
      have hcomment : Lexicon.comment.run s = some s₁ :=
        (Lexicon.comment_takes hu).run_of_reads hfirst
      rw [trivia_run_of_comment hrefuses.run hcomment]
      exact ih hbehind hrest

end StructuredText.Grammar
