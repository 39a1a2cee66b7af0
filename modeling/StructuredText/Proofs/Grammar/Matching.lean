import StructuredText.Proofs.Grammar.Repetition

/-!
# Texts that a pattern matches

Whether a pattern matches at a cursor does not depend on the offset, but on the text ahead: on what
is read and on what stands behind it. Both are said here of texts, with one lemma for each way
patterns are put together, so that a match is put together from the matches of its parts.

* `Pattern.Takes` — a pattern reads a text in front of another.
* `Pattern.Refuses` — a pattern does not match in front of a text.
* `Pattern.takes_run`, `Pattern.takes_oneOfWords` — runs of characters, and choices between words.
-/

namespace StructuredText.Grammar.Pattern

/-- Wherever the text stands in front of `rest`, the pattern reads it. -/
def Takes (p : Pattern) (t rest : Text) : Prop :=
  ∀ offset, p.run ⟨offset, t ++ rest⟩ = some ⟨offset + t.byteLength, rest⟩

/-- The pattern does not match in front of the text. -/
def Refuses (p : Pattern) (t : Text) : Prop := ∀ offset, p.run ⟨offset, t⟩ = none

variable {p q : Pattern} {t u rest : Text} {test : Char → Bool} {c : Char}

/-- The match of a text that stands at a cursor. -/
theorem Takes.run (h : p.Takes t rest) {s : Cursor} (hs : s.rest = t ++ rest) :
    p.run s = some ⟨s.offset + t.byteLength, rest⟩ := by
  obtain ⟨offset, _⟩ := s
  subst hs
  exact h offset

/-- The match of a text that stands between two cursors. -/
theorem Takes.run_of_reads {s s' : Cursor} (h : p.Takes t s'.rest) (hreads : s.Reads t s') :
    p.run s = some s' := by
  rw [h.run hreads.rest, ← hreads.offset]

theorem Refuses.run {s : Cursor} (h : p.Refuses s.rest) : p.run s = none := h s.offset

/-! ## Patterns put together -/

theorem takes_empty : empty.Takes [] rest := fun _ => rfl

/-- A character that passes the test is read, whatever follows. -/
theorem takes_char (hc : test c = true) : (char test).Takes [c] rest := by
  intro offset
  rw [List.singleton_append, Pattern.run, if_pos hc]
  rfl

theorem refuses_char_nil : (char test).Refuses [] := fun _ => rfl

/-- A character that does not pass the test is not read. -/
theorem refuses_char (h : ∀ c ∈ t.head?, test c = false) : (char test).Refuses t := by
  cases t with
  | nil => exact refuses_char_nil
  | cons c t =>
      intro offset
      have hc : test c = false := h c rfl
      simp [Pattern.run, hc]

/-- Where the pattern of a character does not match, no such character is next. -/
theorem head_of_run_eq_none {s : Cursor} (h : (char test).run s = none) :
    ∀ c ∈ s.rest.head?, test c = false := by
  obtain ⟨offset, _ | ⟨c, cs⟩⟩ := s
  · simp
  · simpa [Pattern.run] using h

/-- Two texts are read one after the other, where the first pattern has the second text ahead of it.
-/
theorem Takes.seq (hp : p.Takes t (u ++ rest)) (hq : q.Takes u rest) :
    (Pattern.seq p q).Takes (t ++ u) rest := by
  intro offset
  rw [Pattern.run, List.append_assoc, hp offset, Option.bind_some, hq, Text.byteLength_append,
    Nat.add_assoc]

/-- A row of patterns does not match where the first one does not. -/
theorem Refuses.seq (hp : p.Refuses t) : (Pattern.seq p q).Refuses t := by
  intro offset
  rw [Pattern.run, hp offset]
  rfl

/-- The second pattern refuses what the first one leaves. -/
theorem Takes.seq_refuses (hp : p.Takes t rest) (hq : q.Refuses rest) :
    (Pattern.seq p q).Refuses (t ++ rest) := by
  intro offset
  rw [Pattern.run, hp offset]
  exact hq _

/-- The first alternative is taken where it matches. -/
theorem Takes.left (hp : p.Takes t rest) : (alt p q).Takes t rest := by
  intro offset
  rw [Pattern.run, hp offset]
  rfl

/-- The second alternative is taken where the first one does not match. -/
theorem Takes.right (hq : q.Takes t rest) (hp : p.Refuses (t ++ rest)) :
    (alt p q).Takes t rest := by
  intro offset
  rw [Pattern.run, hp offset, Option.none_or]
  exact hq offset

/-- A choice does not match where none of its alternatives does. -/
theorem Refuses.alt (hp : p.Refuses t) (hq : q.Refuses t) : (Pattern.alt p q).Refuses t := by
  intro offset
  rw [Pattern.run, hp offset, Option.none_or]
  exact hq offset

/-- Something that may be left out is left out. -/
theorem Refuses.opt (h : p.Refuses rest) : (opt p).Takes [] rest := takes_empty.right h

/-- Where a pattern does not match, it is not ahead. -/
theorem Refuses.notAhead (h : p.Refuses rest) : (Pattern.notAhead p).Takes [] rest := by
  intro offset
  rw [List.nil_append, Pattern.run, h offset]
  rfl

/-- Where a pattern matches, it is ahead. -/
theorem Takes.notAhead (h : p.Takes t rest) : (Pattern.notAhead p).Refuses (t ++ rest) := by
  intro offset
  rw [Pattern.run, h offset]
  rfl

/-! ## Repetitions -/

/-- Where its body does not match, a repetition reads nothing. -/
theorem Refuses.star (h : p.Refuses rest) : (Pattern.star p).Takes [] rest :=
  fun offset => run_star_of_none (h offset)

/-- A round in front of the others. -/
theorem Takes.star (hconsumes : p.consumes = true) (hp : p.Takes t (u ++ rest))
    (hstar : (Pattern.star p).Takes u rest) : (Pattern.star p).Takes (t ++ u) rest := by
  intro offset
  rw [List.append_assoc, run_star, last_of_some hconsumes (hp offset), ← run_star, hstar,
    Text.byteLength_append, Nat.add_assoc]

/-- A text is split behind the longest run of characters that pass a test. -/
theorem exists_run (test : Char → Bool) (t : Text) :
    ∃ u rest, t = u ++ rest ∧ (∀ c ∈ u, test c = true) ∧ ∀ c ∈ rest.head?, test c = false := by
  refine ⟨t.takeWhile test, t.dropWhile test, List.takeWhile_append_dropWhile.symm, ?_, ?_⟩
  · exact List.all_eq_true.mp List.all_takeWhile
  · intro c hc
    have hhead := List.head?_dropWhile_not test t
    rwa [Option.mem_def.mp hc] at hhead

/-- A repetition reads a longest run of characters that pass its test. -/
theorem takes_run (ht : ∀ c ∈ t, test c = true) (hrest : ∀ c ∈ rest.head?, test c = false) :
    (Pattern.star (char test)).Takes t rest := by
  -- one round for each character
  induction t with
  | nil => exact (refuses_char hrest).star
  | cons c t ih =>
      have hc : (char test).Takes [c] (t ++ rest) := takes_char (ht c (by simp))
      exact hc.star rfl (ih fun d hd => ht d (by simp [hd]))

/-- A run of one character or more. -/
theorem takes_plus (ht : ∀ c ∈ t, test c = true) (hne : t ≠ [])
    (hrest : ∀ c ∈ rest.head?, test c = false) : (plus (char test)).Takes t rest := by
  obtain ⟨c, t, rfl⟩ := List.exists_cons_of_ne_nil hne
  have hc : (char test).Takes [c] (t ++ rest) := takes_char (ht c (by simp))
  exact hc.seq (takes_run (fun d hd => ht d (by simp [hd])) hrest)

/-! ## Rows and choices -/

section Lists

variable {ps : List Pattern}

/-- A row is read by its first pattern and by the row of the others. -/
theorem takes_all_cons (hp : p.Takes t (u ++ rest)) (hps : (all ps).Takes u rest) :
    (all (p :: ps)).Takes (t ++ u) rest := by
  cases ps with
  | nil =>
      -- the row of no patterns has read nothing
      obtain rfl : u = [] := by
        have hlength := congrArg (fun s => s.map (·.rest.length)) (hps 0)
        simpa [all, Pattern.run] using hlength
      simpa [all] using hp
  | cons q ps => exact hp.seq hps

/-- A row does not match where its first pattern does not. -/
theorem refuses_all_cons (hp : p.Refuses t) : (all (p :: ps)).Refuses t := by
  cases ps with
  | nil => exact hp
  | cons q ps => exact hp.seq

/-- A row does not match either, where the others do not match behind the first. -/
theorem Takes.all_refuses (hp : p.Takes t rest) (hps : (all ps).Refuses rest) :
    (all (p :: ps)).Refuses (t ++ rest) := by
  cases ps with
  | nil => cases hps 0
  | cons q ps => exact hp.seq_refuses hps

/-- The first of several alternatives is taken where it matches. -/
theorem Takes.oneOf_head (hp : p.Takes t rest) : (oneOf (p :: ps)).Takes t rest := by
  cases ps with
  | nil => exact hp
  | cons q ps => exact hp.left

/-- It is passed over where it does not match. -/
theorem Takes.oneOf_tail (hps : (oneOf ps).Takes t rest) (hp : p.Refuses (t ++ rest)) :
    (oneOf (p :: ps)).Takes t rest := by
  cases ps with
  | nil => cases hps 0
  | cons q ps => exact hps.right hp

/-- None of several alternatives is taken where none matches. -/
theorem refuses_oneOf (h : ∀ p ∈ ps, p.Refuses t) : (oneOf ps).Refuses t := by
  induction ps with
  | nil => exact fun _ => rfl
  | cons p ps ih =>
      have hps : (oneOf ps).Refuses t := ih fun q hq => h q (by simp [hq])
      cases ps with
      | nil => exact h p (by simp)
      | cons q ps => exact (h p (by simp)).alt hps

end Lists

/-! ## Fixed spellings -/

/-- A given character is read. -/
theorem takes_only (c : Char) : (only c).Takes [c] rest := takes_char (by simp)

theorem refuses_only (h : t.head? ≠ some c) : (only c).Refuses t := by
  refine refuses_char fun d hd => ?_
  rw [beq_eq_false_iff_ne]
  rintro rfl
  exact h hd

/-- A fixed spelling is read as it is, whatever follows. -/
theorem takes_text (t rest : Text) : (text t).Takes t rest := by
  induction t with
  | nil => exact takes_empty
  | cons c t ih => exact takes_all_cons (takes_only c) ih

/-- A fixed spelling is read nowhere else. -/
theorem refuses_text {w : Text} (h : ¬ w <+: t) : (text w).Refuses t := by
  -- up to the first character that differs
  induction w generalizing t with
  | nil => exact absurd t.nil_prefix h
  | cons c w ih =>
      cases t with
      | nil => exact refuses_all_cons refuses_char_nil
      | cons d t =>
          by_cases hd : c = d
          · subst hd
            have hw : (text w).Refuses t :=
              ih fun hw => h ((List.prefix_append_right_inj [c]).mpr hw)
            exact (takes_only c).all_refuses hw
          · exact refuses_all_cons (refuses_only (by simpa using Ne.symm hd))

/-- A word is read in any case. -/
theorem takes_word {w : Text} (h : t.upperCase = w.upperCase) : (word w).Takes t rest := by
  induction w generalizing t with
  | nil =>
      obtain rfl : t = [] := List.map_eq_nil_iff.mp h
      exact takes_empty
  | cons c w ih =>
      obtain ⟨d, t, rfl, hd, ht⟩ := List.map_eq_cons_iff.mp h
      exact takes_all_cons (t := [d]) (takes_char (by simpa using hd)) (ih ht)

/-- A word is not read where its first letter does not stand. -/
theorem refuses_word_cons {c d : Char} {w : Text} (h : d.toUpper ≠ c.toUpper) (t : Text) :
    (word (c :: w)).Refuses (d :: t) :=
  refuses_all_cons (refuses_char fun e he => by
    obtain rfl : d = e := by simpa using he
    simpa using h)

/-- A word is not read where it does not stand in any case. -/
theorem refuses_word {w : Text} (h : ¬ w.upperCase <+: t.upperCase) : (word w).Refuses t := by
  -- as for a fixed spelling, but letters are compared without their case
  induction w generalizing t with
  | nil => exact absurd (List.nil_prefix) h
  | cons c w ih =>
      cases t with
      | nil => exact refuses_all_cons refuses_char_nil
      | cons d t =>
          by_cases hd : d.toUpper = c.toUpper
          · have hw : (word w).Refuses t := by
              refine ih fun hw => h ?_
              simp only [Text.upperCase, List.map_cons] at hw ⊢
              rw [hd]
              exact (List.prefix_append_right_inj [c.toUpper]).mpr hw
            exact Takes.all_refuses (t := [d]) (takes_char (by simpa using hd)) hw
          · exact refuses_word_cons hd t

/-! ## Choices between words -/

/-- A choice between words, in any case. -/
def oneOfWords (words : List String) : Pattern := oneOf (words.map fun (w : String) => word w)

/-- A choice between words reads the first of them that the text begins with. -/
theorem takes_oneOfWords {before after : List String} {w : String}
    (ht : t.upperCase = Text.upperCase w)
    (hbefore : ∀ v ∈ before, ¬ Text.upperCase v <+: (t ++ rest).upperCase) :
    (oneOfWords (before ++ w :: after)).Takes t rest := by
  -- the words in front are passed over one by one
  induction before with
  | nil => exact (takes_word ht).oneOf_head
  | cons v before ih =>
      have hbefore' := ih fun v hv => hbefore v (by simp [hv])
      exact hbefore'.oneOf_tail (refuses_word (hbefore v (by simp)))

/-- What a choice between words reads is one of the words, in any case. -/
theorem oneOfWords_spells {words : List String} (hne : words ≠ [])
    (h : (oneOfWords words).Spells t) : ∃ w ∈ words, t.upperCase = Text.upperCase w := by
  induction words with
  | nil => exact absurd rfl hne
  | cons w words ih =>
      cases words with
      | nil => exact ⟨w, by simp, word_spells h⟩
      | cons v words =>
          rcases h with h | h
          · exact ⟨w, by simp, word_spells h⟩
          · obtain ⟨x, hx, ht⟩ := ih (by simp) h
            exact ⟨x, List.mem_cons_of_mem w hx, ht⟩

end StructuredText.Grammar.Pattern
