import StructuredText.Proofs.Blanking.Edges
import StructuredText.Proofs.Comments.Gaps

/-!
# Patterns and blank comments

At an edge of a text a pattern of the grammar does the same with blanks for the comments, unless it
can tell a comment from a blank. Most cannot, because they read neither. The parenthesis and the
slash, which may open a comment, are looked for only where blanks and comments have been skipped.

* `Pattern.Steady` — at a cursor a pattern does the same with blanks for the comments.
* `Pattern.isSteady` — whether a pattern can be seen to; `Pattern.steady_of_check`.
-/

namespace StructuredText.Grammar

open Comment

/-- No comment begins at the cursor. -/
def Settled (s : Cursor) : Prop := Lexicon.comment.run s = none

namespace Pattern

/-- With blanks for the comments, the pattern fails as it does without, or reads the same marks, of
which none is a comment. -/
def Steady (source : Text) (p : Pattern) (s : Cursor) : Prop :=
  (p.run s = none ∧ p.run (s.blanked source) = none) ∨
    ∃ s', p.run s = some s' ∧ p.run (s.blanked source) = some (s'.blanked source) ∧
      s.Passes false s'

variable {source : Text} {p q : Pattern} {test : Char → Bool} {s s₁ s' : Cursor}

/-! ## One character -/

/-- The first mark behind a cursor. -/
theorem exists_mark (s : Cursor) :
    s.rest = [] ∨ ∃ k t s₁, s.Reads t s₁ ∧ MarkKind.Fits k t s₁.rest := by
  by_cases hrest : s.rest = []
  · exact .inl hrest
  · obtain ⟨k, t, rest, ht, hfits⟩ := exists_fits hrest
    exact .inr ⟨k, t, ⟨s.offset + t.byteLength, rest⟩, ⟨ht, rfl⟩, hfits⟩

theorem not_settled_of_comment {t : Text} (hreads : s.Reads t s₁) (ht : IsComment t s₁.rest) :
    ¬ Settled s := by
  intro hsettled
  cases hsettled.symm.trans ((Lexicon.comment_takes ht).run_of_reads hreads)

theorem run_char_of_reads {c : Char} (test : Char → Bool) (h : s.Reads [c] s') :
    (char test).run s = if test c then some s' else none := by
  obtain ⟨offset, rest⟩ := s
  obtain ⟨offset', rest'⟩ := s'
  obtain rfl : rest = c :: rest' := h.rest
  obtain rfl : offset' = offset + c.utf8Size := h.offset
  rfl

theorem run_char_of_head (h : ∀ c ∈ s.rest.head?, test c = false) : (char test).run s = none :=
  (refuses_char h).run

/-- A comment begins with one of three characters, for which there is a blank. -/
theorem head_of_comment {t rest : Text} (ht : IsComment t rest) :
    ∃ c ∈ ['/', '(', '\x7b'], (t ++ rest).head? = some c ∧
      (t ++ rest).blanked.head? = some ' ' := by
  have hfits : MarkKind.comment.Fits t rest := ht
  rw [Text.blanked_of_fits hfits]
  cases ht with
  | line => exact ⟨'/', by simp, rfl, rfl⟩
  | block => exact ⟨'(', by simp, rfl, rfl⟩
  | pragma => exact ⟨'\x7b', by simp, rfl, rfl⟩

/-- A string begins with a quote. -/
theorem head_of_string {t : Text} (ht : IsString t) (rest : Text) :
    ∃ c ∈ ['\'', '"'], (t ++ rest).head? = some c ∧ (t ++ rest).blanked.head? = some c := by
  have hfits : MarkKind.string.Fits t rest := ht
  obtain ⟨c, hc, hhead⟩ : ∃ c ∈ ['\'', '"'], (t ++ rest).head? = some c := ht.head
  rw [Text.blanked_of_fits hfits]
  refine ⟨c, hc, hhead, ?_⟩
  cases ht with
  | between => exact hhead

/-- A character that opens neither a string nor a comment is read in the same way. -/
theorem steady_char (hquotes : ∀ c ∈ ['\'', '"'], test c = false)
    (hopenings : Settled s ∨ ∀ c ∈ ['/', '(', '\x7b', ' '], test c = false) (hs : source.Edge s) :
    Steady source (.char test) s := by
  have hfails {c d : Char} (hc : s.rest.head? = some c) (hd : s.rest.blanked.head? = some d)
      (htest : test c = false) (htest' : test d = false) : Steady source (.char test) s := by
    refine .inl ⟨run_char_of_head ?_, run_char_of_head ?_⟩
    · rw [hc]
      rintro _ ⟨⟩
      exact htest
    · show ∀ c ∈ s.rest.blanked.head?, test c = false
      rw [hd]
      rintro _ ⟨⟩
      exact htest'
  -- What stands at the cursor is the end of the text or a mark.
  rcases exists_mark s with hrest | ⟨k, t, s₁, hreads, hfits⟩
  · refine .inl ⟨run_char_of_head (by simp [hrest]), run_char_of_head ?_⟩
    simp [Cursor.blanked, hrest]
  cases k with
  | comment =>
      rcases hopenings with hsettled | hopenings
      · exact absurd hsettled (not_settled_of_comment hreads hfits)
      obtain ⟨c, hc, hhead, hhead'⟩ := head_of_comment hfits
      rw [← hreads.rest] at hhead hhead'
      exact hfails hhead hhead' (hopenings c (List.mem_append_left [' '] hc))
        (hopenings ' ' (by simp))
  | string =>
      obtain ⟨c, hc, hhead, hhead'⟩ := head_of_string hfits s₁.rest
      rw [← hreads.rest] at hhead hhead'
      exact hfails hhead hhead' (hquotes c hc) (hquotes c hc)
  | ordinary =>
      have hpasses : s.Passes false s₁ := .one (by simp) hreads hfits
      have hblanked := hs.reads_mark hreads hfits
      obtain ⟨c, rfl, -⟩ := hfits
      rw [MarkKind.shown] at hblanked
      rw [Steady, run_char_of_reads test hreads, run_char_of_reads test hblanked]
      split
      · exact .inr ⟨s₁, rfl, rfl, hpasses⟩
      · exact .inl ⟨rfl, rfl⟩

/-! ## Patterns put together -/

theorem steady_empty : Steady source .empty s := .inr ⟨s, rfl, rfl, .refl s⟩

theorem Steady.seq (hp : p.Steady source s)
    (hq : ∀ s', s.Passes false s' → q.Steady source s') : (Pattern.seq p q).Steady source s := by
  rcases hp with ⟨hnone, hnone'⟩ | ⟨s₁, hrun, hrun', hpasses⟩
  · exact .inl ⟨by rw [run, hnone]; rfl, by rw [run, hnone']; rfl⟩
  · have heq : (Pattern.seq p q).run s = q.run s₁ := by rw [run, hrun]; rfl
    have heq' : (Pattern.seq p q).run (s.blanked source) = q.run (s₁.blanked source) := by
      rw [run, hrun']
      rfl
    rw [Steady, heq, heq']
    rcases hq s₁ hpasses with hnone | ⟨s', hrun, hrun', hpasses'⟩
    · exact .inl hnone
    · exact .inr ⟨s', hrun, hrun', hpasses.trans hpasses'⟩

theorem Steady.alt (hp : p.Steady source s) (hq : p.run s = none → q.Steady source s) :
    (Pattern.alt p q).Steady source s := by
  rcases hp with ⟨hnone, hnone'⟩ | ⟨s₁, hrun, hrun', hpasses⟩
  · rw [Steady, run, run, hnone, hnone', Option.none_or, Option.none_or]
    exact hq hnone
  · exact .inr ⟨s₁, by rw [run, hrun]; rfl, by rw [run, hrun']; rfl, hpasses⟩

theorem Steady.star (hconsumes : p.consumes = true)
    (hp : ∀ s', s.Passes false s' → p.Steady source s') : (Pattern.star p).Steady source s := by
  -- each round reads something, so the induction is on the length of what is left
  have hlast : p.last (s.blanked source) = (p.last s).blanked source ∧ s.Passes false (p.last s) := by
    induction hlength : s.rest.length using Nat.strongRecOn generalizing s with
    | _ n ih =>
      rcases hp s (.refl s) with ⟨hnone, hnone'⟩ | ⟨s₁, hrun, hrun', hpasses⟩
      · rw [last_of_none hnone, last_of_none hnone']
        exact ⟨rfl, .refl s⟩
      · have hlt := length_lt_of_consumes hconsumes hrun
        obtain ⟨hlast, hbehind⟩ := ih _ (hlength ▸ hlt) (fun s' h => hp s' (hpasses.trans h)) rfl
        rw [last_of_some hconsumes hrun, last_of_some hconsumes hrun']
        exact ⟨hlast, hpasses.trans hbehind⟩
  exact .inr ⟨p.last s, rfl, congrArg some hlast.1, hlast.2⟩

theorem steady_notAhead (h : (p.run (s.blanked source)).isSome = (p.run s).isSome) :
    (Pattern.notAhead p).Steady source s := by
  rw [Steady, run, run, h]
  split
  · exact .inl ⟨rfl, rfl⟩
  · exact .inr ⟨s, rfl, rfl, .refl s⟩

theorem Steady.of_run (h : p.Steady source s) (hrun : p.run s = some s') :
    p.run (s.blanked source) = some (s'.blanked source) ∧ s.Passes false s' := by
  rcases h with ⟨hnone, -⟩ | ⟨s₁, hrun₁, hrun', hpasses⟩
  · cases hnone.symm.trans hrun
  · obtain rfl : s₁ = s' := Option.some.inj (hrun₁.symm.trans hrun)
    exact ⟨hrun', hpasses⟩

theorem Steady.isSome (h : p.Steady source s) :
    (p.run (s.blanked source)).isSome = (p.run s).isSome := by
  rcases h with ⟨hnone, hnone'⟩ | ⟨s', hrun, hrun', -⟩
  · rw [hnone, hnone']
  · rw [hrun, hrun']
    rfl

/-- Whether a character stands ahead that passes a test does not change if the test makes no
difference between a blank and the beginning of a comment. -/
theorem isSome_char (h : ∀ c ∈ ['/', '(', '\x7b'], test c = test ' ') :
    ((char test).run (s.blanked source)).isSome = ((char test).run s).isSome := by
  have hrun (s : Cursor) : ((char test).run s).isSome = s.rest.head?.any test := by
    obtain ⟨offset, _ | ⟨c, rest⟩⟩ := s
    · rfl
    · cases hc : test c <;> simp [run, hc]
  rw [hrun, hrun]
  show s.rest.blanked.head?.any test = _
  rcases exists_mark s with hrest | ⟨k, t, s₁, hreads, hfits⟩
  · rw [hrest, Text.blanked_nil]
  rw [hreads.rest]
  -- With blanks, only a comment begins with another character.
  cases k with
  | comment =>
      obtain ⟨c, hc, hhead, hhead'⟩ := head_of_comment hfits
      rw [hhead, hhead']
      exact (h c hc).symm
  | string =>
      obtain ⟨c, -, hhead, hhead'⟩ := head_of_string hfits s₁.rest
      rw [hhead, hhead']
  | ordinary =>
      rw [Text.blanked_of_fits hfits]
      obtain ⟨c, rfl, -⟩ := hfits
      rfl

/-! ## The check -/

/-- The pattern looks for a character, and makes no difference between a blank and the beginning of
a comment. -/
def looksEvenly : Pattern → Bool
  | .char test => ['/', '(', '\x7b'].all fun c => test c == test ' '
  | _ => false

/-- The pattern is steady, as far as can be seen, everywhere or where no comment begins. -/
def isSteady (settled : Bool) : Pattern → Bool
  | .empty => true
  | .char test =>
    ['\'', '"'].all (!test ·) && (settled || ['/', '(', '\x7b', ' '].all (!test ·))
  | .seq p q => p.isSteady settled && q.isSteady false
  | .alt p q => p.isSteady settled && q.isSteady settled
  | .star p => p.consumes && p.isSteady false
  -- where nothing is read, it is enough to look evenly
  | .notAhead p => p.looksEvenly || p.isSteady settled

theorem steady_of_check (settled : Bool) (h : p.isSteady settled = true)
    (hsettled : settled = true → Settled s) (hs : source.Edge s) : p.Steady source s := by
  -- Behind the first part of a sequence a comment may begin, so there the check is for everywhere.
  induction p generalizing settled s with
  | empty => exact steady_empty
  | char test =>
      simp only [isSteady, Bool.and_eq_true, Bool.or_eq_true, List.all_eq_true,
        Bool.not_eq_true'] at h
      exact steady_char h.1 (h.2.imp_left hsettled) hs
  | seq p q ihp ihq =>
      rw [isSteady, Bool.and_eq_true] at h
      exact (ihp settled h.1 hsettled hs).seq fun s' hpasses =>
        ihq false h.2 nofun (hs.passes hpasses)
  | alt p q ihp ihq =>
      rw [isSteady, Bool.and_eq_true] at h
      exact (ihp settled h.1 hsettled hs).alt fun _ => ihq settled h.2 hsettled hs
  | star p ih =>
      rw [isSteady, Bool.and_eq_true] at h
      exact Steady.star h.1 fun s' hpasses => ih false h.2 nofun (hs.passes hpasses)
  | notAhead p ih =>
      rw [isSteady, Bool.or_eq_true] at h
      refine steady_notAhead ?_
      rcases h with h | h
      · cases p with
        | char test => exact isSome_char (by simpa [looksEvenly] using h)
        | _ => cases h
      · exact (ih settled h hsettled hs).isSome

end Pattern

end StructuredText.Grammar
