import StructuredText.Proofs.Build.Accepts.Types
import StructuredText.Proofs.Build.Declarations

/-!
# Builders accept what their rules leave: tokens

Some tokens have a builder of their own, which reads a word off the text. It accepts every text that
the pattern of the rule spells.
-/

namespace StructuredText.Build

open Grammar Expr Builder Pattern

/-- The builder of a token rule accepts every text that the pattern of the rule spells, and makes of
it what the rule is to make. -/
def AcceptsToken (r : Rule) : Prop :=
  ∀ (b : Builder Element) (p : Pattern) (t : Token) (c : Children),
    builder? r = some b → r.production = .token p → p.Spells t.text →
    ∃ x c', b.Gives (c.holding [.token r t]) x c' ∧ r.Makes x

theorem trueValue_acceptsToken : AcceptsToken .trueValue := by
  rintro b p t c ⟨⟩ - -
  exact ⟨_, _, booleanOf_gives .trueValue true t, _, rfl⟩

theorem falseValue_acceptsToken : AcceptsToken .falseValue := by
  rintro b p t c ⟨⟩ - -
  exact ⟨_, _, booleanOf_gives .falseValue false t, _, rfl⟩

theorem stringLiteral_acceptsToken : AcceptsToken .stringLiteral := by
  rintro b p t c ⟨⟩ - -
  exact ⟨_, _, stringLiteral_gives t, _, rfl⟩

theorem fullSubrange_acceptsToken : AcceptsToken .fullSubrange := by
  rintro b p t c ⟨⟩ - -
  exact ⟨_, _, fullSubrange_gives t, _, rfl⟩

theorem edge_acceptsToken : AcceptsToken .edge := by
  rintro b p t c ⟨⟩ ⟨⟩ h
  rcases spells_boundary h with h | h
  · exact ⟨_, _, edge_gives .rising (word_spells h), _, rfl⟩
  · exact ⟨_, _, edge_gives .falling (word_spells h), _, rfl⟩

theorem accessDirection_acceptsToken : AcceptsToken .accessDirection := by
  rintro b p t c ⟨⟩ ⟨⟩ h
  rcases spells_boundary h with h | h
  · exact ⟨_, _, accessDirection_gives .readWrite (word_spells h), _, rfl⟩
  · exact ⟨_, _, accessDirection_gives .readOnly (word_spells h), _, rfl⟩

theorem variableAttribute_acceptsToken : AcceptsToken .variableAttribute := by
  rintro b p t c ⟨⟩ ⟨⟩ h
  obtain ⟨flag, hflag⟩ : ∃ flag : Flags VariableAttribute,
      Flags.ofKeyword? t.text = some flag := by
    rcases spells_boundary h with h | h | h | h <;>
      exact ⟨_, by rw [ofKeyword?_congr (word_spells h)]; rfl⟩
  exact ⟨_, _, variableAttribute_gives hflag, _, rfl⟩

/-! ## The words of an indirection -/

/-- Letters in front of a row of words join its first word. -/
theorem split_letters {u w : Text} {ws : List Text} (hu : ∀ c ∈ u, isBlank c = false) :
    u.foldr Text.words.split (w :: ws) = (u ++ w) :: ws := by
  induction u with
  | nil => rfl
  | cons c u ih =>
      rw [List.foldr_cons, ih fun d hd => hu d (by simp [hd])]
      simp [Text.words.split, hu c (by simp)]

/-- Blanks in front of a row of words only add empty words. -/
theorem split_blanks {b : Text} {ws : List Text} (hb : ∀ c ∈ b, isBlank c = true)
    (hws : ws ≠ []) : ∃ es, b.foldr Text.words.split ws = es ++ ws ∧ ∀ e ∈ es, e = [] := by
  induction b with
  | nil => exact ⟨[], rfl, by simp⟩
  | cons c b ih =>
      obtain ⟨es, hes, hempty⟩ := ih fun d hd => hb d (by simp [hd])
      refine ⟨[] :: es, ?_, by simpa using hempty⟩
      rw [List.foldr_cons, hes]
      cases hrow : es ++ ws with
      | nil => exact absurd (List.append_eq_nil_iff.mp hrow).2 hws
      | cons v vs => simp [Text.words.split, hb c (by simp), hrow]

/-- Two words with blanks between them. -/
theorem words_pair {u b v : Text} (hu : ∀ c ∈ u, isBlank c = false) (hune : u ≠ [])
    (hb : ∀ c ∈ b, isBlank c = true) (hbne : b ≠ []) (hv : ∀ c ∈ v, isBlank c = false)
    (hvne : v ≠ []) : Text.words (u ++ (b ++ v)) = [u, v] := by
  -- The blanks split off empty words only, and these are left out.
  cases b with
  | nil => exact absurd rfl hbne
  | cons c b =>
      obtain ⟨es, hes, hempty⟩ : ∃ es, b.foldr Text.words.split [v] = es ++ [v] ∧ ∀ e ∈ es, e = [] :=
        split_blanks (fun d hd => hb d (List.mem_cons_of_mem c hd)) (by simp)
      have hnone : es.filter (!·.isEmpty) = [] := by
        apply List.filter_eq_nil_iff.mpr
        intro e he
        simp [hempty e he]
      have hrow : (c :: b).foldr Text.words.split [v] = [] :: (es ++ [v]) := by
        rw [List.foldr_cons, hes]
        cases hrest : es ++ [v] with
        | nil => simp at hrest
        | cons w ws => simp [Text.words.split, hb c (by simp)]
      rw [Text.words, List.foldr_append, List.foldr_append, split_letters hv, List.append_nil, hrow,
        split_letters hu, List.append_nil, List.filter_cons, List.filter_append, hnone]
      simp [hune, hvne]

theorem words_single {u : Text} (hu : ∀ c ∈ u, isBlank c = false) (hune : u ≠ []) :
    u.words = [u] := by
  rw [Text.words, split_letters hu]
  simp [hune]

/-- A blank is the same in capital letters. -/
theorem toUpper_of_isBlank {c : Char} (h : isBlank c = true) : c.toUpper = c := by
  have hrange : ¬ ('a'.val ≤ c.val ∧ c.val ≤ 'z'.val) := by
    rintro ⟨hlow, hhigh⟩
    have hlow : 97 ≤ c.toNat := hlow
    have hhigh : c.toNat ≤ 122 := hhigh
    simp only [isBlank, blankRanges, List.any_cons, List.any_nil, Bool.or_eq_true,
      Bool.and_eq_true, decide_eq_true_eq, Bool.or_false] at h
    omega
  exact dif_neg hrange

/-- What reads as a word without blanks has none. -/
theorem not_blank_of_word {u w : Text} (h : u.upperCase = w.upperCase)
    (hw : w.upperCase.all (!isBlank ·) = true) : ∀ c ∈ u, isBlank c = false := by
  intro c hc
  cases hblank : isBlank c with
  | false => rfl
  | true =>
      have hmem : c ∈ w.upperCase := by
        rw [← h, ← toUpper_of_isBlank hblank]
        exact List.mem_map_of_mem hc
      have hno := List.all_eq_true.mp hw c hmem
      simp [hblank] at hno

/-- The words that the pattern of two words reads. -/
theorem words_of_twoWords {first second t : Text} (h : (Lexicon.twoWords first second).Spells t)
    (hfirst : first.upperCase.all (!isBlank ·) = true)
    (hsecond : second.upperCase.all (!isBlank ·) = true) (hne : first ≠ []) (hne' : second ≠ []) :
    t.words.map Text.upperCase = [first.upperCase, second.upperCase] := by
  obtain ⟨u, _, hu, ⟨b, v, hb, hv, rfl⟩, rfl⟩ := h
  have hu := word_spells hu
  have hv := word_spells hv
  -- What stands between the words are blanks and tabs, at least one of them.
  have hblank : (∀ c ∈ b, isBlank c = true) ∧ b ≠ [] := by
    obtain ⟨_, _, ⟨c, hc, rfl⟩, ⟨ts, hts, rfl⟩, rfl⟩ := hb
    have hone : ∀ c : Char, (c == ' ' || c == '\t') = true → isBlank c = true := by
      intro c hc
      rcases Bool.or_eq_true_iff.mp hc with hc | hc <;> (rw [eq_of_beq hc]; rfl)
    refine ⟨?_, by simp⟩
    intro d hd
    rcases List.mem_append.mp hd with hd | hd
    · rw [List.mem_singleton.mp hd]
      exact hone c hc
    · obtain ⟨t, ht, hd⟩ := List.mem_flatten.mp hd
      obtain ⟨e, he, rfl⟩ := hts t ht
      rw [List.mem_singleton.mp hd]
      exact hone e he
  have hune : u ≠ [] := by
    rintro rfl
    exact hne (List.map_eq_nil_iff.mp hu.symm)
  have hvne : v ≠ [] := by
    rintro rfl
    exact hne' (List.map_eq_nil_iff.mp hv.symm)
  rw [words_pair (not_blank_of_word hu hfirst) hune hblank.1 hblank.2
    (not_blank_of_word hv hsecond) hvne]
  simp [hu, hv]

theorem indirectionType_acceptsToken : AcceptsToken .indirectionType := by
  rintro b p t c ⟨⟩ ⟨⟩ h
  rcases spells_boundary h with h | h | h
  · have hwords := words_of_twoWords h (by decide) (by decide) (by decide) (by decide)
    exact ⟨_, _, indirectionType_gives .pointer (by rw [hwords]; decide), _, rfl⟩
  · have hwords := words_of_twoWords h (by decide) (by decide) (by decide) (by decide)
    exact ⟨_, _, indirectionType_gives .reference (by rw [hwords]; decide), _, rfl⟩
  · have hword := word_spells h
    have hne : t.text ≠ [] := by
      intro hnil
      rw [hnil] at hword
      exact absurd hword (by decide)
    have hwords := words_single (not_blank_of_word hword (by decide)) hne
    refine ⟨_, _, indirectionType_gives .refTo ?_, _, rfl⟩
    rw [hwords, List.map_singleton, hword]
    decide

end StructuredText.Build
