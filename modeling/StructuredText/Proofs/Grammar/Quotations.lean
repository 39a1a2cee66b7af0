import StructuredText.Grammar.Lexicon
import StructuredText.Proofs.Grammar.Matching

/-!
# Strings in quotes and lengths in brackets

A string goes from a quote to the next one that no dollar sign stands in front of, where a dollar
sign that is kept from being one itself does not count. The pattern reads that, and it matches
nowhere else: a dollar sign at the very end of the text is read as a character of the string, but
then there is no quote left to end it.

The length of a string type goes from a bracket to the next closing one, whatever is written between
them, if anything is.

* `IsString` — a text that is one string literal.
* `stringLiteral_takes`, `stringLiteral_refuses` — the pattern reads string literals, and nothing
  else.
* `IsLength`, `isLength_of_run`, `stringLength_takes` — the same of lengths in brackets.
-/

namespace StructuredText.Grammar

open Pattern

/-- What may stand between two quotes: a dollar sign together with the character behind it, and any
other character but the quote. -/
inductive Quotable (quote : Char) : Text → Prop where
  | nil : Quotable quote []
  | plain {c : Char} {t : Text} (hquote : c ≠ quote) (hdollar : c ≠ '$') (ht : Quotable quote t) :
      Quotable quote (c :: t)
  | escaped (c : Char) {t : Text} (ht : Quotable quote t) : Quotable quote ('$' :: c :: t)

/-- A string literal: two quotes of one kind and what may stand between them. -/
inductive IsString : Text → Prop where
  | between {quote : Char} {inner : Text} (hquote : quote = '\'' ∨ quote = '"')
      (hinner : Quotable quote inner) : IsString (quote :: (inner ++ [quote]))

/-- A length: a bracket, something without its closing bracket, and the closing bracket. -/
inductive IsLength : Text → Prop where
  | square {body : Text} (hne : body ≠ []) (hbody : ']' ∉ body) : IsLength ('[' :: (body ++ [']']))
  | round {body : Text} (hne : body ≠ []) (hbody : ')' ∉ body) : IsLength ('(' :: (body ++ [')']))

variable {quote : Char} {t inner rest : Text}

theorem IsString.head (h : IsString t) : ∃ c ∈ ['\'', '"'], (t ++ rest).head? = some c := by
  cases h with
  | @between quote _ hquote => exact ⟨quote, by simpa using hquote, rfl⟩

/-- A text is split where its beginning ends that may stand between quotes: in front of a quote, at
the end, or in front of a dollar sign that keeps nothing. -/
theorem exists_quotable (quote : Char) :
    (t : Text) → ∃ inner rest, t = inner ++ rest ∧ Quotable quote inner ∧
      (rest.head? = some quote ∨ rest = [] ∨ rest = ['$'])
  | [] => ⟨[], [], rfl, .nil, .inr (.inl rfl)⟩
  | c :: t => by
      by_cases hquote : c = quote
      · subst hquote
        exact ⟨[], c :: t, rfl, .nil, .inl rfl⟩
      by_cases hdollar : c = '$'
      · subst hdollar
        cases t with
        | nil => exact ⟨[], ['$'], rfl, .nil, .inr (.inr rfl)⟩
        | cons d t =>
            obtain ⟨inner, rest, rfl, hinner, hrest⟩ := exists_quotable quote t
            exact ⟨'$' :: d :: inner, rest, rfl, .escaped d hinner, hrest⟩
      · obtain ⟨inner, rest, rfl, hinner, hrest⟩ := exists_quotable quote t
        exact ⟨c :: inner, rest, rfl, .plain hquote hdollar hinner, hrest⟩

namespace Lexicon

/-! ## Between the quotes -/

/-- One character of a string, or a dollar sign and the character behind it. -/
def quotedRound (quote : Char) : Pattern := oneOf [seq "$" any, char (· != quote)]

theorem quotedRound_plain {c : Char} (hquote : c ≠ quote) (hdollar : c ≠ '$') :
    (quotedRound quote).Takes [c] rest := by
  have hescape : (seq "$" any).Refuses (c :: rest) := by
    refine Refuses.seq (refuses_text ?_)
    simpa using hdollar.symm
  exact Takes.oneOf_tail (takes_char (by simpa using hquote)) hescape

theorem quotedRound_escaped (c : Char) : (quotedRound quote).Takes ['$', c] rest := by
  have hdollar : Pattern.Takes "$" ['$'] ([c] ++ rest) := takes_text ['$'] _
  exact (hdollar.seq (takes_char rfl)).oneOf_head

/-- A dollar sign at the end of the text is a character of its own. -/
theorem quotedRound_dollar (hquote : quote ≠ '$') : (quotedRound quote).Takes ['$'] [] := by
  have hdollar : Pattern.Takes "$" ['$'] [] := takes_text ['$'] []
  exact Takes.oneOf_tail (takes_char (by simpa using hquote.symm))
    (hdollar.seq_refuses refuses_char_nil)

theorem quotedRound_stops (hquote : quote ≠ '$') (h : rest.head? = some quote ∨ rest = []) :
    (quotedRound quote).Refuses rest := by
  refine refuses_oneOf ?_
  rcases h with h | rfl
  · have hdollar : ¬ ['$'] <+: rest := by
      rintro ⟨_, rfl⟩
      exact hquote (Option.some.inj h).symm
    simpa using ⟨(refuses_text hdollar).seq, refuses_char fun c hc => by simp_all⟩
  · simpa using ⟨(refuses_text (by simp)).seq, refuses_char_nil⟩

/-- What may stand between quotes is read round by round. -/
theorem takes_quotable (h : Quotable quote inner)
    (hstar : (star (quotedRound quote)).Takes t rest) :
    (star (quotedRound quote)).Takes (inner ++ t) rest := by
  induction h with
  | nil => exact hstar
  | @plain c inner hquote hdollar _ ih =>
      rw [List.cons_append]
      exact Takes.star (t := [c]) rfl (quotedRound_plain hquote hdollar) ih
  | @escaped c inner _ ih =>
      rw [List.cons_append, List.cons_append]
      exact Takes.star (t := ['$', c]) rfl (quotedRound_escaped c) ih

/-! ## Whole strings -/

theorem quoted_takes (hquote : quote ≠ '$') (hinner : Quotable quote inner) :
    (quoted quote).Takes (quote :: (inner ++ [quote])) rest := by
  have hstops : (quotedRound quote).Refuses ([quote] ++ rest) :=
    quotedRound_stops hquote (.inl rfl)
  have hbody := takes_quotable hinner hstops.star
  rw [List.append_nil] at hbody
  exact (takes_only quote).seq (hbody.seq (takes_only quote))

/-- Where no quote ends it, what begins like a string is read up to the end of the text. -/
theorem quoted_refuses (hquote : quote ≠ '$')
    (h : ∀ inner rest, Quotable quote inner → t ≠ quote :: (inner ++ quote :: rest)) :
    (quoted quote).Refuses t := by
  by_cases hhead : t.head? = some quote
  · obtain ⟨t, rfl⟩ := List.head?_eq_some_iff.mp hhead
    obtain ⟨inner, rest, rfl, hinner, hrest⟩ := exists_quotable quote t
    have hopen : (only quote).Takes [quote] (inner ++ rest) := takes_only quote
    refine hopen.seq_refuses ?_
    -- The text goes on with the quote, or it ends, perhaps in the middle of an escape.
    rcases hrest with hrest | rfl | rfl
    · obtain ⟨rest, rfl⟩ := List.head?_eq_some_iff.mp hrest
      exact absurd rfl (h inner rest hinner)
    · have hend : (quotedRound quote).Refuses [] := quotedRound_stops hquote (.inr rfl)
      have hbody := takes_quotable hinner hend.star
      rw [List.append_nil] at hbody
      exact hbody.seq_refuses refuses_char_nil
    · have hend : (quotedRound quote).Refuses [] := quotedRound_stops hquote (.inr rfl)
      have hbody := takes_quotable hinner ((quotedRound_dollar hquote).star rfl hend.star)
      rw [← List.append_nil (inner ++ ['$'])]
      exact hbody.seq_refuses refuses_char_nil
  · exact (refuses_only hhead).seq

/-- A string literal is read whole, whatever stands behind it. -/
theorem stringLiteral_takes (h : IsString t) : stringLiteral.Takes t rest := by
  cases h with
  | @between quote inner hquote hinner =>
      rcases hquote with rfl | rfl
      · exact (quoted_takes (by decide) hinner).left
      · have hsingle : (quoted '\'').Refuses ('"' :: (inner ++ ['"']) ++ rest) :=
          (refuses_only (by simp)).seq
        exact (quoted_takes (by decide) hinner).right hsingle

/-- The pattern matches only where a string literal begins the text. -/
theorem stringLiteral_refuses (h : ∀ u rest, t = u ++ rest → ¬ IsString u) :
    stringLiteral.Refuses t := by
  have hquoted {quote : Char} (hquote : quote = '\'' ∨ quote = '"') (hdollar : quote ≠ '$') :
      (quoted quote).Refuses t := by
    refine quoted_refuses hdollar fun inner rest hinner ht => ?_
    exact h (quote :: (inner ++ [quote])) rest (by simp [ht]) (.between hquote hinner)
  exact (hquoted (.inl rfl) (by decide)).alt (hquoted (.inr rfl) (by decide))

/-- Where the pattern matches, it reads a string literal. -/
theorem isString_of_run {s s' : Cursor} (h : stringLiteral.run s = some s') :
    ∃ t, s.Reads t s' ∧ IsString t := by
  have hstring : ∃ t rest, s.rest = t ++ rest ∧ IsString t := by
    refine Classical.byContradiction fun hnone => ?_
    have hrefuses : stringLiteral.Refuses s.rest :=
      stringLiteral_refuses fun t rest hrest ht => hnone ⟨t, rest, hrest, ht⟩
    rw [hrefuses.run] at h
    cases h
  obtain ⟨t, rest, hrest, ht⟩ := hstring
  rw [(stringLiteral_takes ht).run hrest] at h
  obtain rfl := Option.some.inj h
  exact ⟨t, ⟨hrest, rfl⟩, ht⟩

/-! ## Lengths in brackets -/

variable {opening closing : Char} {body : Text}

theorem enclosed_takes (hne : body ≠ []) (hbody : closing ∉ body) :
    (enclosed opening closing).Takes (opening :: (body ++ [closing])) rest := by
  have hrun : (plus (char (· != closing))).Takes body ([closing] ++ rest) :=
    takes_plus (fun c hc => by simpa using ne_of_mem_of_not_mem hc hbody) hne (by simp)
  have hbracket : (seq (plus (char (· != closing))) (only closing)).Takes (body ++ [closing]) rest :=
    hrun.seq (takes_only closing)
  exact Takes.seq (takes_only opening) hbracket

/-- Brackets are not read where they are empty or not closed. -/
theorem enclosed_refuses
    (h : ∀ body rest, body ≠ [] → closing ∉ body → t ≠ opening :: (body ++ closing :: rest)) :
    (enclosed opening closing).Refuses t := by
  by_cases hhead : t.head? = some opening
  · obtain ⟨t, rfl⟩ := List.head?_eq_some_iff.mp hhead
    obtain ⟨body, rest, rfl, hbody, hrest⟩ := exists_run (· != closing) t
    have hopen : (only opening).Takes [opening] (body ++ rest) := takes_only opening
    refine hopen.seq_refuses ?_
    by_cases hne : body = []
    · subst hne
      exact Refuses.seq (refuses_char hrest).seq
    · refine (takes_plus hbody hne hrest).seq_refuses (refuses_only fun hclose => ?_)
      obtain ⟨rest, rfl⟩ := List.head?_eq_some_iff.mp hclose
      exact h body rest hne (fun hmem => by simpa using hbody _ hmem) rfl
  · exact (refuses_only hhead).seq

/-- Where brackets are read, they are closed and something stands between them. -/
theorem exists_enclosed {s s' : Cursor} (h : (enclosed opening closing).run s = some s') :
    ∃ body, body ≠ [] ∧ closing ∉ body ∧ s.Reads (opening :: (body ++ [closing])) s' := by
  have hmatch : ∃ body rest, body ≠ [] ∧ closing ∉ body ∧
      s.rest = opening :: (body ++ closing :: rest) := by
    refine Classical.byContradiction fun hnone => ?_
    have hrefuses : (enclosed opening closing).Refuses s.rest :=
      enclosed_refuses fun body rest hne hbody hrest => hnone ⟨body, rest, hne, hbody, hrest⟩
    rw [hrefuses.run] at h
    cases h
  obtain ⟨body, rest, hne, hbody, hrest⟩ := hmatch
  have hrest : s.rest = opening :: (body ++ [closing]) ++ rest := by simp [hrest]
  rw [(enclosed_takes hne hbody).run hrest] at h
  obtain rfl := Option.some.inj h
  exact ⟨body, hne, hbody, hrest, rfl⟩

/-- A length is read whole, whatever stands behind it. -/
theorem stringLength_takes (h : IsLength t) : stringLength.Takes t rest := by
  cases h with
  | square hne hbody => exact (enclosed_takes hne hbody).left
  | @round body hne hbody =>
      have hsquare : (enclosed '[' ']').Refuses ('(' :: (body ++ [')']) ++ rest) :=
        (refuses_only (by simp)).seq
      exact (enclosed_takes hne hbody).right hsquare

/-- Where the pattern matches, it reads a length. -/
theorem isLength_of_run {s s' : Cursor} (h : stringLength.run s = some s') :
    ∃ t, s.Reads t s' ∧ IsLength t := by
  rcases Option.or_eq_some_iff.mp h with hsquare | ⟨-, hround⟩
  · obtain ⟨body, hne, hbody, hreads⟩ := exists_enclosed hsquare
    exact ⟨_, hreads, .square hne hbody⟩
  · obtain ⟨body, hne, hbody, hreads⟩ := exists_enclosed hround
    exact ⟨_, hreads, .round hne hbody⟩

end Lexicon

end StructuredText.Grammar
