import StructuredText.Grammar.Lexicon
import StructuredText.Proofs.Grammar.Matching

/-!
# Where comments end

A comment of two slashes ends with its line, a block ends with the first `*)` behind its opening,
and a pragma with the first closing brace. The pattern of comments reads just that, and matches
nowhere else: an opening that is never closed is no comment.

* `IsComment` — a text that is one comment, given what stands behind it.
* `Opens` — a comment opens here and is closed somewhere behind.
* `comment_takes`, `comment_refuses` — the pattern reads comments, and only those.
* `isComment_of_run` — what the pattern reads is a comment.
* `exists_isComment` — where a comment opens that is closed, there is one.
-/

namespace StructuredText.Grammar

open Pattern

/-- A comment or pragma in front of the text `rest`. -/
inductive IsComment : (t rest : Text) → Prop where
  /-- Two slashes, up to a line end or the end of the text. -/
  | line {body rest : Text} (hbody : ∀ c ∈ body, c ≠ '\r' ∧ c ≠ '\n')
      (hrest : ∀ c ∈ rest.head?, c = '\r' ∨ c = '\n') : IsComment ('/' :: '/' :: body) rest
  /-- Up to the first `*)` behind the opening. -/
  | block {body rest : Text} (hbody : ¬ ['*', ')'] <:+: body ++ ['*']) :
      IsComment ('(' :: '*' :: (body ++ ['*', ')'])) rest
  /-- Up to the first closing brace. -/
  | pragma {body rest : Text} (hbody : '\x7d' ∉ body) :
      IsComment ('\x7b' :: (body ++ ['\x7d'])) rest

/-- The text `opening` opens a comment that is closed in the text behind it: two slashes always do,
the other openings only if their closing follows. -/
inductive Opens : (opening rest : Text) → Prop where
  | line {rest : Text} : Opens ['/', '/'] rest
  | block {rest : Text} (h : ['*', ')'] <:+: rest) : Opens ['(', '*'] rest
  | pragma {rest : Text} (h : '\x7d' ∈ rest) : Opens ['\x7b'] rest

variable {t u rest body : Text}

/-! ## First closings -/

/-- A text is split at its first line end. -/
theorem exists_line (t : Text) :
    ∃ body rest, t = body ++ rest ∧ (∀ c ∈ body, c ≠ '\r' ∧ c ≠ '\n') ∧
      ∀ c ∈ rest.head?, c = '\r' ∨ c = '\n' := by
  obtain ⟨body, rest, ht, hbody, hrest⟩ := exists_run (fun c => c != '\r' && c != '\n') t
  refine ⟨body, rest, ht, fun c hc => by simpa using hbody c hc, fun c hc => ?_⟩
  have hend : c ≠ '\r' → c = '\n' := by simpa using hrest c hc
  exact Decidable.or_iff_not_imp_left.mpr hend

/-- The first `*)` of a text that has one: it does not overlap with an earlier one. -/
theorem exists_block (h : ['*', ')'] <:+: t) :
    ∃ body rest, t = body ++ ['*', ')'] ++ rest ∧ ¬ ['*', ')'] <:+: body ++ ['*'] := by
  induction t with
  | nil => simp at h
  | cons c t ih =>
      by_cases hc : ['*', ')'] <+: c :: t
      · obtain ⟨rest, hrest⟩ := hc
        refine ⟨[], rest, by simpa using hrest.symm, ?_⟩
        intro hinfix
        simpa using hinfix.length_le
      · obtain ⟨body, rest, rfl, hbody⟩ := ih ((List.infix_cons_iff.mp h).resolve_left hc)
        refine ⟨c :: body, rest, by simp, fun hinfix => ?_⟩
        rcases List.infix_cons_iff.mp hinfix with hbegin | hinfix
        · refine hc (List.IsPrefix.trans hbegin ?_)
          exact ⟨')' :: rest, by simp⟩
        · exact hbody hinfix

/-- Where a comment opens that is closed, there is one. -/
theorem exists_isComment {opening : Text} (h : Opens opening rest) :
    ∃ body after, rest = body ++ after ∧ IsComment (opening ++ body) after := by
  cases h with
  | line =>
      obtain ⟨body, after, rfl, hbody, hafter⟩ := exists_line rest
      exact ⟨body, after, rfl, .line hbody hafter⟩
  | block h =>
      obtain ⟨body, after, rfl, hbody⟩ := exists_block h
      exact ⟨body ++ ['*', ')'], after, rfl, .block hbody⟩
  | pragma h =>
      obtain ⟨body, after, rfl, hbody⟩ := List.eq_append_cons_of_mem h
      exact ⟨body ++ ['\x7d'], after, by simp, .pragma hbody⟩

/-- A comment opens with one of the three openings, and is closed. -/
theorem IsComment.opens (h : IsComment t rest) :
    ∃ opening body, t = opening ++ body ∧ Opens opening (body ++ rest) := by
  cases h with
  | @line body => exact ⟨['/', '/'], body, rfl, .line⟩
  | @block body =>
      refine ⟨['(', '*'], body ++ ['*', ')'], rfl, .block ?_⟩
      exact ⟨body, rest, rfl⟩
  | @pragma body => exact ⟨['\x7b'], body ++ ['\x7d'], rfl, .pragma (by simp)⟩

namespace Lexicon

/-! ## The patterns -/

theorem lineComment_takes (hbody : ∀ c ∈ body, c ≠ '\r' ∧ c ≠ '\n')
    (hrest : ∀ c ∈ rest.head?, c = '\r' ∨ c = '\n') :
    lineComment.Takes ('/' :: '/' :: body) rest := by
  have hslashes : Pattern.Takes "//" ['/', '/'] (body ++ rest) := takes_text ['/', '/'] _
  refine hslashes.seq (takes_run (fun c hc => by simpa using hbody c hc) fun c hc => ?_)
  rcases hrest c hc with rfl | rfl <;> rfl

/-- One character of a block, which does not close it. -/
def blockRound : Pattern := seq (notAhead "*)") any

theorem blockRound_takes {c : Char} (h : ¬ ['*', ')'] <+: c :: rest) :
    blockRound.Takes [c] rest := by
  have hopen : Pattern.Refuses "*)" ([c] ++ rest) := refuses_text h
  exact hopen.notAhead.seq (takes_char rfl)

/-- Up to its first closing, a block is read character by character. -/
theorem takes_block (h : ¬ ['*', ')'] <:+: body ++ ['*']) :
    (star blockRound).Takes body (['*', ')'] ++ rest) := by
  induction body with
  | nil =>
      have hclose : Pattern.Takes "*)" ['*', ')'] rest := takes_text ['*', ')'] rest
      exact hclose.notAhead.seq.star
  | cons c body ih =>
      rw [List.cons_append, List.infix_cons_iff, not_or] at h
      refine Takes.star (t := [c]) rfl (blockRound_takes fun hclose => h.1 ?_) (ih h.2)
      -- the two characters of a closing are both in front of the last one
      have hbefore : c :: (body ++ ['*']) <+: c :: (body ++ (['*', ')'] ++ rest)) :=
        ⟨')' :: rest, by simp⟩
      exact List.prefix_of_prefix_length_le hclose hbefore (by simp)

/-- Without a closing, a block is read up to the end of the text. -/
theorem takes_unclosed (h : ¬ ['*', ')'] <:+: t) : (star blockRound).Takes t [] := by
  induction t with
  | nil =>
      have hany : any.Refuses [] := refuses_char_nil
      have hopen : Pattern.Refuses "*)" [] := refuses_text (by simp)
      have hround : blockRound.Refuses [] := hopen.notAhead.seq_refuses hany
      exact hround.star
  | cons c t ih =>
      rw [List.infix_cons_iff, not_or] at h
      refine Takes.star (t := [c]) rfl (blockRound_takes ?_) (ih h.2)
      rw [List.append_nil]
      exact h.1

theorem blockComment_takes (h : ¬ ['*', ')'] <:+: body ++ ['*']) :
    blockComment.Takes ('(' :: '*' :: (body ++ ['*', ')'])) rest := by
  have hopening : Pattern.Takes "(*" ['(', '*'] (body ++ ['*', ')'] ++ rest) :=
    takes_text ['(', '*'] _
  have hclosing : Pattern.Takes "*)" ['*', ')'] rest := takes_text ['*', ')'] rest
  exact hopening.seq ((takes_block h).seq hclosing)

theorem blockComment_refuses (h : ¬ ['*', ')'] <:+: t) :
    blockComment.Refuses ('(' :: '*' :: t) := by
  have hopening : Pattern.Takes "(*" ['(', '*'] t := takes_text ['(', '*'] t
  have hclosing : Pattern.Refuses "*)" [] := refuses_text (by simp)
  have hbody := (takes_unclosed h).seq_refuses hclosing
  rw [List.append_nil] at hbody
  exact hopening.seq_refuses hbody

theorem pragma_takes (h : '\x7d' ∉ body) : pragma.Takes ('\x7b' :: (body ++ ['\x7d'])) rest := by
  have hbody : (star (char (· != '\x7d'))).Takes body (['\x7d'] ++ rest) :=
    takes_run (fun c hc => by simpa using ne_of_mem_of_not_mem hc h) (by simp)
  exact (takes_only '\x7b').seq (hbody.seq (takes_only '\x7d'))

theorem pragma_refuses (h : '\x7d' ∉ t) : pragma.Refuses ('\x7b' :: t) := by
  have hbody : (star (char (· != '\x7d'))).Takes t [] :=
    takes_run (fun c hc => by simpa using ne_of_mem_of_not_mem hc h) (by simp)
  have hend := hbody.seq_refuses (q := only '\x7d') refuses_char_nil
  rw [List.append_nil] at hend
  exact (takes_only '\x7b').seq_refuses hend

/-- A comment is read whole. -/
theorem comment_takes (h : IsComment t rest) : comment.Takes t rest := by
  cases h with
  | line hbody hrest => exact (lineComment_takes hbody hrest).oneOf_head
  | @block body _ hbody =>
      have hline : lineComment.Refuses ('(' :: '*' :: (body ++ ['*', ')']) ++ rest) :=
        Refuses.seq (refuses_text (by simp))
      exact ((blockComment_takes hbody).oneOf_head).oneOf_tail hline
  | @pragma body _ hbody =>
      have hline : lineComment.Refuses ('\x7b' :: (body ++ ['\x7d']) ++ rest) :=
        Refuses.seq (refuses_text (by simp))
      have hblock : blockComment.Refuses ('\x7b' :: (body ++ ['\x7d']) ++ rest) :=
        Refuses.seq (refuses_text (by simp))
      exact (((pragma_takes hbody).oneOf_head).oneOf_tail hblock).oneOf_tail hline

/-- Where no comment opens that is closed, the pattern does not match. -/
theorem comment_refuses (h : ∀ opening rest, t = opening ++ rest → ¬ Opens opening rest) :
    comment.Refuses t := by
  have hline : lineComment.Refuses t := by
    refine Refuses.seq (refuses_text ?_)
    rintro ⟨rest, rfl⟩
    exact h ['/', '/'] rest rfl .line
  have hblock : blockComment.Refuses t := by
    by_cases hopening : ['(', '*'] <+: t
    · obtain ⟨rest, rfl⟩ := hopening
      exact blockComment_refuses fun hclosed => h ['(', '*'] rest rfl (.block hclosed)
    · exact Refuses.seq (refuses_text hopening)
  have hpragma : pragma.Refuses t := by
    by_cases hopening : t.head? = some '\x7b'
    · obtain ⟨rest, rfl⟩ := List.head?_eq_some_iff.mp hopening
      exact pragma_refuses fun hclosed => h ['\x7b'] rest rfl (.pragma hclosed)
    · exact (refuses_only hopening).seq
  exact hline.alt (hblock.alt hpragma)

/-- Where the pattern does not match, no comment opens that is closed. -/
theorem not_opens_of_run {s : Cursor} (h : comment.run s = none) {opening : Text}
    (hrest : s.rest = opening ++ rest) : ¬ Opens opening rest := by
  intro hopens
  obtain ⟨body, after, rfl, hcomment⟩ := exists_isComment hopens
  rw [← List.append_assoc] at hrest
  cases h.symm.trans ((comment_takes hcomment).run hrest)

/-- What the pattern reads is a comment. -/
theorem isComment_of_run {s s' : Cursor} (h : comment.run s = some s') :
    ∃ t, s.Reads t s' ∧ IsComment t s'.rest := by
  have hopens : ∃ opening rest, s.rest = opening ++ rest ∧ Opens opening rest := by
    refine Classical.byContradiction fun hnone => ?_
    have hrefuses : comment.Refuses s.rest :=
      comment_refuses fun opening rest hrest hopens => hnone ⟨opening, rest, hrest, hopens⟩
    rw [hrefuses.run] at h
    cases h
  obtain ⟨opening, rest, hrest, hopens⟩ := hopens
  obtain ⟨body, after, rfl, hcomment⟩ := exists_isComment hopens
  rw [← List.append_assoc] at hrest
  rw [(comment_takes hcomment).run hrest] at h
  obtain rfl := Option.some.inj h
  exact ⟨opening ++ body, ⟨hrest, rfl⟩, hcomment⟩

end Lexicon

end StructuredText.Grammar
