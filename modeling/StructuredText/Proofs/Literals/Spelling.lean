import StructuredText.Proofs.Grammar.Names
import StructuredText.Proofs.Literals.Valid

/-!
# Numbers and the patterns that read them

Every pattern for a part of a literal reads the texts that can stand for that part, if what follows
does not go on with the part; and the pattern of a real number does not match an integer.

* `NumberBase.Ends` — the digits of a base do not go on.
* `grouped_takes`, `realValue_takes`, `decimal_takes`, … — one pattern after the other.
* `realValue_refuses_signed` — an integer is not the beginning of a real number.
-/

namespace StructuredText

open Grammar Pattern Lexicon

/-! ## Digits -/

/-- The test for the digits of a base. -/
def NumberBase.test : NumberBase → Char → Bool
  | .binary => fun c => c == '0' || c == '1'
  | .octal => fun c => '0' ≤ c && c ≤ '7'
  | .decimal => Char.isDigit
  | .hexadecimal => fun c => c.isDigit || ('a' ≤ c && c ≤ 'f') || ('A' ≤ c && c ≤ 'F')

/-- Between characters, the order is that of their numbers. -/
theorem char_le_iff (a b : Char) : a ≤ b ↔ a.toNat ≤ b.toNat := by
  rw [Char.le_def, UInt32.le_iff_toNat_le, Char.toNat_val, Char.toNat_val]

/-- The ranges of characters that are digits in some base, with their values. -/
theorem digitValue?_cases {c : Char} {d : Nat} (h : digitValue? c = some d) :
    (48 ≤ c.toNat ∧ c.toNat ≤ 57 ∧ c.toNat = d + 48) ∨
      (97 ≤ c.toNat ∧ c.toNat ≤ 102 ∧ 10 ≤ d) ∨ (65 ≤ c.toNat ∧ c.toNat ≤ 70 ∧ 10 ≤ d) := by
  -- With the numbers of the six characters in sight the rest is arithmetic.
  have h0 : ('0' : Char).toNat = 48 := rfl
  have h9 : ('9' : Char).toNat = 57 := rfl
  have ha : ('a' : Char).toNat = 97 := rfl
  have hf : ('f' : Char).toNat = 102 := rfl
  have hA : ('A' : Char).toNat = 65 := rfl
  have hF : ('F' : Char).toNat = 70 := rfl
  simp only [digitValue?, char_le_iff] at h
  split at h
  · have hd := Option.some.inj h
    omega
  split at h
  · have hd := Option.some.inj h
    omega
  split at h
  · have hd := Option.some.inj h
    omega
  · cases h

/-- The test of a base, as conditions on the number of a character. -/
theorem NumberBase.test_iff (base : NumberBase) (c : Char) : base.test c = true ↔
    match base with
    | .binary => 48 ≤ c.toNat ∧ c.toNat ≤ 49
    | .octal => 48 ≤ c.toNat ∧ c.toNat ≤ 55
    | .decimal => 48 ≤ c.toNat ∧ c.toNat ≤ 57
    | .hexadecimal => (48 ≤ c.toNat ∧ c.toNat ≤ 57) ∨ (97 ≤ c.toNat ∧ c.toNat ≤ 102) ∨
        (65 ≤ c.toNat ∧ c.toNat ≤ 70) := by
  have h0 : c = '0' ↔ c.toNat = 48 := Char.toNat_inj.symm
  have h1 : c = '1' ↔ c.toNat = 49 := Char.toNat_inj.symm
  have hle (low high : Char) : (decide (low ≤ c) && decide (c ≤ high)) = true ↔
      low.toNat ≤ c.toNat ∧ c.toNat ≤ high.toNat := by
    simp only [Bool.and_eq_true, decide_eq_true_eq, char_le_iff]
  -- Octal and decimal digits are one range, binary digits are two characters, hexadecimal digits
  -- three ranges.
  cases base with
  | binary =>
      simp only [test, Bool.or_eq_true, beq_iff_eq, h0, h1]
      omega
  | octal => exact hle '0' '7'
  | decimal => exact isDigit_iff c
  | hexadecimal =>
      simp only [test, Bool.or_eq_true, isDigit_iff, hle]
      exact or_assoc

/-- A digit of a base passes its test. -/
theorem NumberBase.test_of_isDigit {base : NumberBase} {c : Char} (h : base.IsDigit c) :
    base.test c = true := by
  obtain ⟨d, hd, hc⟩ := h
  have hcases := digitValue?_cases hc
  rw [test_iff]
  cases base <;> simp only [radix] at hd ⊢ <;> omega

/-- The text does not go on with digits of a base. -/
def NumberBase.Ends (base : NumberBase) (rest : Text) : Prop :=
  ∀ c ∈ rest.head?, base.test c = false ∧ c ≠ '_'

theorem NumberBase.ends_nil (base : NumberBase) : base.Ends [] := by simp [Ends]

/-- Digits end in front of a character that is neither a digit nor an underscore. -/
theorem NumberBase.ends_cons {base : NumberBase} {c : Char} (rest : Text) (hc : base.test c = false)
    (h : c ≠ '_') : base.Ends (c :: rest) := by
  simpa [Ends] using ⟨hc, h⟩

section Grouped

variable {base : NumberBase} {c : Char} {t rest : Text}

/-- Grouped digits begin with a digit. -/
theorem NumberBase.Grouped.exists_cons (h : base.Grouped t) :
    ∃ c u, t = c :: u ∧ base.test c = true := by
  cases h with
  | one hc | next hc | underscored hc => exact ⟨_, _, rfl, test_of_isDigit hc⟩

/-- Grouped digits consist of digits and underscores. -/
theorem NumberBase.Grouped.test_of_mem (h : base.Grouped t) {c : Char} (hc : c ∈ t) :
    base.test c = true ∨ c = '_' := by
  -- by the constructors: a last digit, a digit, an underscore with a digit
  induction h with
  | one hd =>
      obtain rfl := List.mem_singleton.mp hc
      exact .inl (test_of_isDigit hd)
  | next hd _ ih =>
      rcases List.mem_cons.mp hc with rfl | hc
      · exact .inl (test_of_isDigit hd)
      · exact ih hc
  | underscored hd _ ih =>
      rcases List.mem_cons.mp hc with rfl | hc
      · exact .inl (test_of_isDigit hd)
      · rcases List.mem_cons.mp hc with rfl | hc
        · exact .inr rfl
        · exact ih hc

/-- A digit behind another, with or without an underscore between them. -/
def groupedRound (base : NumberBase) : Pattern := seq (opt "_") (char base.test)

/-- An underscore is a digit in no base. -/
theorem NumberBase.test_underscore (base : NumberBase) : base.test '_' = false := by
  cases base <;> decide

/-- One round reads a digit. -/
theorem groupedRound_takes (hc : base.test c = true) : (groupedRound base).Takes [c] rest := by
  have hunderscore : Pattern.Refuses "_" ([c] ++ rest) := by
    refine refuses_text ?_
    rintro ⟨_, heq⟩
    obtain rfl : '_' = c := (List.cons.inj heq).1
    rw [base.test_underscore] at hc
    cases hc
  exact hunderscore.opt.seq (takes_char hc)

/-- One round reads an underscore together with the digit behind it. -/
theorem groupedRound_takes_underscore (hc : base.test c = true) :
    (groupedRound base).Takes ['_', c] rest := by
  have hunderscore : Pattern.Takes "_" ['_'] ([c] ++ rest) := takes_text ['_'] _
  exact hunderscore.left.seq (takes_char hc)

/-- Where digits end, no round is left. -/
theorem groupedRound_refuses (h : base.Ends rest) : (groupedRound base).Refuses rest := by
  have hunderscore : Pattern.Refuses "_" rest := by
    refine refuses_text ?_
    rintro ⟨_, rfl⟩
    exact (h '_' rfl).2 rfl
  exact hunderscore.opt.seq_refuses (refuses_char fun c hc => (h c hc).1)

/-- Behind a digit the others are read round by round, and so they are behind an underscore. -/
theorem takes_rounds (h : base.Grouped t) (hrest : base.Ends rest) :
    (star (groupedRound base)).Takes t rest ∧ (star (groupedRound base)).Takes ('_' :: t) rest := by
  have hround {c : Char} {u : Text} (hc : base.IsDigit c)
      (hu : (star (groupedRound base)).Takes u rest) :
      (star (groupedRound base)).Takes ([c] ++ u) rest ∧
        (star (groupedRound base)).Takes (['_', c] ++ u) rest :=
    ⟨(groupedRound_takes (NumberBase.test_of_isDigit hc)).star rfl hu,
      (groupedRound_takes_underscore (NumberBase.test_of_isDigit hc)).star rfl hu⟩
  -- with an underscore in front or without: the next round decides which of the two is needed
  induction h with
  | one hc => exact hround hc (groupedRound_refuses hrest).star
  | next hc _ ih => exact hround hc ih.1
  | underscored hc _ ih => exact hround hc ih.2

/-- Grouped digits are read whole, if they end where the text goes on. -/
theorem grouped_takes (h : base.Grouped t) (hrest : base.Ends rest) :
    (grouped (char base.test)).Takes t rest := by
  have hdigit {c : Char} {u : Text} (hc : base.IsDigit c)
      (hu : (star (groupedRound base)).Takes u rest) :
      (grouped (char base.test)).Takes ([c] ++ u) rest :=
    (takes_char (NumberBase.test_of_isDigit hc)).seq hu
  cases h with
  | one hc => exact hdigit hc (groupedRound_refuses hrest).star
  | next hc ht => exact hdigit hc (takes_rounds ht hrest).1
  | underscored hc ht => exact hdigit hc (takes_rounds ht hrest).2

end Grouped

/-! ## Signed and real numbers -/

section Numbers

variable {t u rest : Text}

/-- The text does not begin with a sign. -/
def Unsigned (t : Text) : Prop := ∀ c ∈ t.head?, c ≠ '+' ∧ c ≠ '-'

/-- Where no sign is next, none is read. -/
theorem sign_refuses (h : Unsigned t) : sign.Refuses t := by
  have hsign {c : Char} (hc : ∀ d ∈ t.head?, d ≠ c) : (text [c]).Refuses t := by
    refine refuses_text ?_
    rintro ⟨_, rfl⟩
    exact hc c rfl rfl
  exact (hsign fun d hd => (h d hd).1).alt (hsign fun d hd => (h d hd).2)

/-- A sign is read if there is one. -/
theorem opt_sign_takes (ht : IsSign t) (hrest : Unsigned rest) : (opt sign).Takes t rest := by
  rcases ht with rfl | rfl | rfl
  · exact (sign_refuses hrest).opt
  · exact (takes_text ['+'] rest).left.left
  · have hplus : (text ['+']).Refuses (['-'] ++ rest) := refuses_text (by simp)
    exact ((takes_text ['-'] rest).right hplus).left

/-- Digits are not taken for a sign. -/
theorem NumberBase.Grouped.unsigned (h : NumberBase.decimal.Grouped t) : Unsigned (t ++ rest) := by
  obtain ⟨c, u, rfl, hc⟩ := h.exists_cons
  intro d hd
  obtain rfl : c = d := by simpa using hd
  constructor <;> rintro rfl <;> simp [test] at hc

/-- No name begins with a digit. -/
theorem startsName_of_test {c : Char} (hc : NumberBase.decimal.test c = true) :
    startsName c = false := by
  have hrange := (isDigit_iff c).mp hc
  rw [Bool.eq_false_iff, Ne, startsName_iff]
  omega

/-- A number does not begin with a letter. -/
theorem IsSigned.head (ht : IsSigned t) : ∀ c ∈ (t ++ rest).head?, startsName c = false := by
  obtain ⟨s, ds, hs, hds, rfl⟩ := ht
  obtain ⟨c, u, rfl, hc⟩ := hds.exists_cons
  rcases hs with rfl | rfl | rfl
  · simpa using startsName_of_test hc
  · simp [startsName]
  · simp [startsName]

/-- A real number does not begin like a name. -/
theorem IsReal.head (ht : IsReal t) : ∀ c ∈ t.head?, startsName c = false := by
  obtain ⟨whole, tail, hwhole, rfl, -⟩ := ht
  exact hwhole.head

/-- A signed number is read whole. -/
theorem integerValue_takes (ht : IsSigned t) (hrest : NumberBase.decimal.Ends rest) :
    integerValue.Takes t rest := by
  obtain ⟨s, ds, hs, hds, rfl⟩ := ht
  exact (opt_sign_takes hs hds.unsigned).seq (grouped_takes hds hrest)

/-- An exponent is read whole, with or without a sign. -/
theorem exponent_takes (ht : IsExponent t) : exponent.Takes t [] := by
  obtain ⟨mark, _, hmark, ⟨s, ds, hs, hds, rfl⟩, rfl⟩ := ht
  have hword : Pattern.Takes (word "E") [mark] (s ++ ds ++ []) := by
    refine takes_word ?_
    rcases hmark with rfl | rfl <;> rfl
  have hdigits : digits.Takes ds [] := grouped_takes hds NumberBase.decimal.ends_nil
  exact hword.seq ((opt_sign_takes hs hds.unsigned).seq hdigits)

/-- Behind the digits of a real number there is a point or the letter for a power. -/
theorem IsExponent.ends (h : IsExponent t) : NumberBase.decimal.Ends t := by
  obtain ⟨mark, power, hmark, -, rfl⟩ := h
  rcases hmark with rfl | rfl <;> exact NumberBase.ends_cons power (by decide) (by decide)

/-- A real number is read whole: its fraction, its exponent, or both. -/
theorem realValue_takes (ht : IsReal t) : realValue.Takes t [] := by
  obtain ⟨_, tail, ⟨s, ds, hs, hds, rfl⟩, rfl, htail⟩ := ht
  have hsign : (opt sign).Takes s (ds ++ tail ++ []) := by
    rw [List.append_assoc]
    exact opt_sign_takes hs hds.unsigned
  rw [List.append_assoc]
  -- either an exponent follows the digits, or a fraction does
  rcases htail with hexponent | ⟨fraction, power, hfraction, hpower, rfl⟩
  · have hpoint : (all [".", digits, opt exponent]).Refuses (tail ++ []) := by
      obtain ⟨mark, power, hmark, -, rfl⟩ := hexponent
      refine refuses_all_cons (refuses_text ?_)
      rcases hmark with rfl | rfl <;> simp
    have hends : NumberBase.decimal.Ends (tail ++ []) := by
      rw [List.append_nil]
      exact hexponent.ends
    exact hsign.seq ((grouped_takes hds hends).seq ((exponent_takes hexponent).right hpoint))
  · have hends : NumberBase.decimal.Ends ('.' :: (fraction ++ power) ++ []) :=
      NumberBase.ends_cons _ (by decide) (by decide)
    have hpoint : Pattern.Takes "." ['.'] (fraction ++ power ++ []) := takes_text ['.'] _
    -- behind the fraction an exponent may follow
    have hpower' : (opt exponent).Takes power [] ∧ NumberBase.decimal.Ends (power ++ []) := by
      rw [List.append_nil]
      rcases hpower with rfl | hpower
      · have hnone : exponent.Refuses [] :=
          refuses_all_cons (refuses_word (by simp [Text.upperCase]))
        exact ⟨hnone.opt, NumberBase.decimal.ends_nil⟩
      · exact ⟨(exponent_takes hpower).left, hpower.ends⟩
    have htail := hpoint.seq ((grouped_takes hfraction hpower'.2).seq hpower'.1)
    exact hsign.seq ((grouped_takes hds hends).seq htail.left)

/-- A real number does not begin where an integer stands by itself, or as the mark of a base. -/
theorem realValue_refuses_signed (ht : IsSigned t) (hrest : ∀ c ∈ rest.head?, c = '#') :
    realValue.Refuses (t ++ rest) := by
  obtain ⟨s, ds, hs, hds, rfl⟩ := ht
  have hends : NumberBase.decimal.Ends rest := fun c hc => by
    obtain rfl := hrest c hc
    exact ⟨by decide, by decide⟩
  have hpoint : (all [".", digits, opt exponent]).Refuses rest := by
    refine refuses_all_cons (refuses_text ?_)
    rintro ⟨_, rfl⟩
    cases hrest '.' rfl
  have hexponent : exponent.Refuses rest := by
    refine refuses_all_cons (refuses_all_cons (refuses_char fun c hc => ?_))
    obtain rfl := hrest c hc
    decide
  rw [List.append_assoc]
  exact (opt_sign_takes hs hds.unsigned).seq_refuses
    ((grouped_takes hds hends).seq_refuses (hpoint.alt hexponent))

/-- A real number does not begin with a letter. -/
theorem realValue_refuses_word (h : ∀ c ∈ t.head?, startsName c = true) : realValue.Refuses t := by
  have hunsigned : Unsigned t := fun c hc => by
    have hstart := h c hc
    constructor <;> rintro rfl <;> simp [startsName] at hstart
  have hdigits : digits.Refuses t := by
    refine (refuses_char fun c hc => ?_).seq
    have hstart := (startsName_iff c).mp (h c hc)
    rw [Bool.eq_false_iff, Ne, isDigit_iff]
    omega
  exact (sign_refuses hunsigned).opt.seq_refuses hdigits.seq

end Numbers

/-! ## Fields and decimals -/

section Fields

variable {t rest : Text}

/-- The text does not go on with a digit. -/
def Halts (rest : Text) : Prop := ∀ c ∈ rest.head?, c.isDigit = false

theorem halts_nil : Halts [] := by simp [Halts]

/-- Digits end in front of a character that is none. -/
theorem halts_cons {c : Char} (hc : c.isDigit = false) (rest : Text) : Halts (c :: rest) := by
  simpa [Halts] using hc

/-- A decimal digit passes the test for digits. -/
theorem isDigit_of_isDigit {c : Char} (h : NumberBase.decimal.IsDigit c) : c.isDigit = true :=
  NumberBase.test_of_isDigit h

theorem digit_takes {c : Char} (h : NumberBase.decimal.IsDigit c) : digit.Takes [c] rest :=
  takes_char (isDigit_of_isDigit h)

/-- A field of one digit or two is read whole. -/
theorem twoDigits_takes (ht : IsField 1 2 t) (hrest : Halts rest) : twoDigits.Takes t rest := by
  obtain ⟨hleast, hmost, hdigits⟩ := ht
  -- by the number of digits
  match t, hdigits with
  | [], _ => simp at hleast
  | [c], hdigits => exact (digit_takes (hdigits c (by simp))).seq (refuses_char hrest).opt
  | [c, d], hdigits =>
      exact Takes.seq (t := [c]) (digit_takes (hdigits c (by simp)))
        (digit_takes (hdigits d (by simp))).left
  | _ :: _ :: _ :: _, _ =>
      simp only [List.length_cons] at hmost
      omega

/-- A field of one width is read digit by digit. -/
theorem field_takes {width : Nat} (ht : IsField width width t) :
    (all (List.replicate width digit)).Takes t rest := by
  obtain ⟨hleast, hmost, hdigits⟩ := ht
  -- the width goes down with each digit
  induction t generalizing width with
  | nil =>
      obtain rfl : width = 0 := Nat.le_zero.mp hleast
      exact takes_empty
  | cons c t ih =>
      obtain rfl : width = t.length + 1 := Nat.le_antisymm hleast hmost
      rw [List.replicate_succ]
      exact takes_all_cons (t := [c]) (digit_takes (hdigits c (by simp)))
        (ih (Nat.le_refl _) (Nat.le_refl _) fun d hd => hdigits d (by simp [hd]))

/-- A run of digits is read whole. -/
theorem run_takes (ht : IsRun t) (hrest : Halts rest) : (plus digit).Takes t rest :=
  takes_plus (fun c hc => isDigit_of_isDigit (ht.2 c hc)) ht.1 hrest

/-- A point and the digits behind it. -/
theorem fraction_takes (ht : IsRun t) (hrest : Halts rest) :
    (seq "." (plus digit)).Takes ('.' :: t) rest := by
  have hpoint : Pattern.Takes "." ['.'] (t ++ rest) := takes_text ['.'] _
  exact hpoint.seq (run_takes ht hrest)

/-- Digits with an optional fraction are read whole, if no point follows. -/
theorem decimal_takes (ht : IsDecimal t) (hrest : Halts rest) (hpoint : rest.head? ≠ some '.') :
    decimal.Takes t rest := by
  -- without a fraction, and with one
  rcases ht with hrun | ⟨whole, fraction, hwhole, hfraction, rfl⟩
  · have hnone : (seq "." (plus digit)).Refuses rest := by
      refine Refuses.seq (refuses_text ?_)
      rintro ⟨_, rfl⟩
      exact hpoint rfl
    have ht := (run_takes hrun hrest).seq hnone.opt
    rwa [List.append_nil] at ht
  · have hwhole' : (plus digit).Takes whole ('.' :: fraction ++ rest) :=
      run_takes hwhole (halts_cons (by decide) _)
    exact hwhole'.seq (fraction_takes hfraction hrest).left

/-- Seconds are a field with an optional fraction. -/
theorem second_takes (ht : IsSecond t) :
    (seq twoDigits (opt (seq "." (plus digit)))).Takes t [] := by
  rcases ht with hfield | ⟨whole, fraction, hwhole, hfraction, rfl⟩
  · have hnone : (seq "." (plus digit)).Refuses [] := Refuses.seq (refuses_text (by simp))
    have ht := (twoDigits_takes hfield halts_nil).seq hnone.opt
    rwa [List.append_nil] at ht
  · have hwhole' : twoDigits.Takes whole ('.' :: fraction ++ []) :=
      twoDigits_takes hwhole (halts_cons (by decide) _)
    exact hwhole'.seq (fraction_takes hfraction halts_nil).left

end Fields

end StructuredText
