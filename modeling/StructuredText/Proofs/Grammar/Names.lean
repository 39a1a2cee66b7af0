import Mathlib.Data.List.TakeWhile
import StructuredText.Proofs.Grammar.Matching
import StructuredText.Proofs.Grammar.Parses

/-!
# Names and reserved words

A name is the longest run of letters, digits and underscores at a place, if the run does not begin
with a digit and is no reserved word. The grammar looks for a reserved word first, as an ordered
choice followed by a check of the boundary, which is not reconsidered. That makes no difference,
because no reserved word stands behind one of its own beginnings.

* `firstWord` — the longest run of characters of a name.
* `Choosable` — words in an order in which a choice finds the right one.
* `reserved_takes`, `reserved_refuses` — the pattern of reserved words matches whole words.
* `identifier_exact` — what the rule for names matches.
-/

namespace StructuredText.Grammar

/-! ## Characters of names -/

/-- A character that may start a name: an ASCII letter or the underscore. -/
def startsName (c : Char) : Bool := c.isAlpha || c == '_'

/-- A character of a name: an ASCII letter, a digit or the underscore. -/
def continuesName (c : Char) : Bool := c.isAlphanum || c == '_'

theorem isAlpha_iff (c : Char) :
    c.isAlpha = true ↔ (65 ≤ c.toNat ∧ c.toNat ≤ 90) ∨ (97 ≤ c.toNat ∧ c.toNat ≤ 122) := by
  have hdef : c.isAlpha = (decide ('A'.val ≤ c.val ∧ c.val ≤ 'Z'.val) ||
      (decide ('a'.val ≤ c.val) && decide (c.val ≤ 'z'.val))) := rfl
  simp only [hdef, Bool.or_eq_true, Bool.and_eq_true, decide_eq_true_eq, UInt32.le_iff_toNat_le]
  rfl

theorem startsName_iff (c : Char) :
    startsName c = true ↔ (65 ≤ c.toNat ∧ c.toNat ≤ 90) ∨ (97 ≤ c.toNat ∧ c.toNat ≤ 122) ∨
      c.toNat = 95 := by
  have hunderscore : c = '_' ↔ c.toNat = 95 := Char.toNat_inj.symm
  simp only [startsName, Bool.or_eq_true, isAlpha_iff, beq_iff_eq, hunderscore]
  exact or_assoc

theorem isDigit_iff (c : Char) : c.isDigit = true ↔ 48 ≤ c.toNat ∧ c.toNat ≤ 57 := by
  simp only [Char.isDigit, Bool.and_eq_true, decide_eq_true_eq, UInt32.le_iff_toNat_le, ge_iff_le]
  rfl

/-- A name goes on with what may start one, and with digits. -/
theorem continuesName_iff (c : Char) :
    continuesName c = true ↔ startsName c = true ∨ 48 ≤ c.toNat ∧ c.toNat ≤ 57 := by
  simp only [startsName, continuesName, Char.isAlphanum, Bool.or_eq_true, isDigit_iff]
  exact or_right_comm

theorem toNat_toUpper (c : Char) :
    c.toUpper.toNat = if 97 ≤ c.toNat ∧ c.toNat ≤ 122 then c.toNat - 32 else c.toNat := by
  have hlower : 'a'.val ≤ c.val ∧ c.val ≤ 'z'.val ↔ 97 ≤ c.toNat ∧ c.toNat ≤ 122 := by
    simp only [UInt32.le_iff_toNat_le]
    rfl
  unfold Char.toUpper
  split
  · rename_i h
    have hrange := hlower.mp h
    have hshift : ('A'.val - 'a'.val).toNat = 2 ^ 32 - 32 := rfl
    rw [if_pos hrange]
    show (c.val + ('A'.val - 'a'.val)).toNat = c.toNat - 32
    rw [UInt32.toNat_add, hshift]
    show (c.toNat + _) % _ = _
    omega
  · rename_i h
    rw [if_neg fun hrange => h (hlower.mpr hrange)]

/-- The case of a letter does not matter. -/
theorem startsName_toUpper (c : Char) : startsName c.toUpper = startsName c := by
  rw [Bool.eq_iff_iff, startsName_iff, startsName_iff, toNat_toUpper]
  split <;> omega

theorem continuesName_toUpper (c : Char) : continuesName c.toUpper = continuesName c := by
  rw [Bool.eq_iff_iff, continuesName_iff, continuesName_iff, startsName_iff, startsName_iff,
    toNat_toUpper]
  split <;> omega

/-! ## Words -/

/-- The longest run of characters of a name at the start of a text. -/
def firstWord (t : Text) : Text := t.takeWhile continuesName

/-- The text consists of characters of a name. -/
def Wordlike (t : Text) : Prop := ∀ c ∈ t, continuesName c = true

instance (t : Text) : Decidable (Wordlike t) := List.decidableBAll (continuesName · = true) t

/-- The text does not go on with a character of a name. -/
def Bounded (t : Text) : Prop := ∀ c ∈ t.head?, continuesName c = false

variable {t u v w rest : Text}

theorem wordlike_firstWord (t : Text) : Wordlike (firstWord t) :=
  fun _ hc => List.mem_takeWhile_imp hc

theorem exists_bounded_rest (t : Text) : ∃ rest, t = firstWord t ++ rest ∧ Bounded rest := by
  refine ⟨t.dropWhile continuesName, List.takeWhile_append_dropWhile.symm, fun c hc => ?_⟩
  have hhead := List.head?_dropWhile_not continuesName t
  rw [Option.mem_def.mp hc] at hhead
  exact hhead

theorem firstWord_append (hw : Wordlike w) (hrest : Bounded rest) : firstWord (w ++ rest) = w := by
  have htake : rest.takeWhile continuesName = [] := by
    cases rest with
    | nil => rfl
    | cons c rest => simp [hrest c rfl]
  rw [firstWord, List.takeWhile_append_of_pos hw, htake, List.append_nil]

theorem wordlike_upperCase : Wordlike t.upperCase ↔ Wordlike t := by
  simp [Wordlike, Text.upperCase, continuesName_toUpper]

theorem bounded_upperCase (h : Bounded t) : Bounded t.upperCase := by
  cases t with
  | nil => exact h
  | cons c t =>
      intro d hd
      obtain rfl : c.toUpper = d := by simpa [Text.upperCase] using hd
      rw [continuesName_toUpper]
      exact h c rfl

/-- A word that a text begins with is the beginning of its first word. -/
theorem prefix_of_prefix_append (hv : Wordlike v) (hrest : Bounded rest) (h : v <+: w ++ rest) :
    v <+: w := by
  rcases Nat.le_total v.length w.length with hle | hle
  · exact List.prefix_of_prefix_length_le h (List.prefix_append w rest) hle
  · obtain ⟨x, rfl⟩ := List.prefix_of_prefix_length_le (List.prefix_append w rest) h hle
    cases x with
    | nil => simp
    | cons c x =>
        obtain ⟨y, hy⟩ := (List.prefix_append_right_inj w).mp h
        have hc : continuesName c = true := hv c (by simp)
        rw [hrest c (by simp [← hy])] at hc
        cases hc

/-! ## Choices between words -/

/-- Words of which an ordered choice finds the right one: no word stands behind a word that it
begins with. -/
structure Choosable (words : List String) : Prop where
  ne_nil : words ≠ []
  starts : ∀ r ∈ words, (Text.upperCase r).head?.any startsName = true
  wordlike : ∀ r ∈ words, Wordlike (Text.upperCase r)
  pairwise : words.Pairwise fun (v w : String) => ¬ Text.upperCase v <+: Text.upperCase w

instance (words : List String) : Decidable (Choosable words) :=
  decidable_of_iff
    (words ≠ [] ∧ (∀ r ∈ words, (Text.upperCase r).head?.any startsName = true) ∧
      (∀ r ∈ words, Wordlike (Text.upperCase r)) ∧
      words.Pairwise fun (v w : String) => ¬ Text.upperCase v <+: Text.upperCase w)
    ⟨fun h => ⟨h.1, h.2.1, h.2.2.1, h.2.2.2⟩,
      fun h => ⟨h.ne_nil, h.starts, h.wordlike, h.pairwise⟩⟩

namespace Choosable

variable {words : List String} {r : String}

/-- A word in any case is read where a word ends behind it. -/
theorem takes (h : Choosable words) (hr : r ∈ words) (hw : Text.sameWord w r = true)
    (hrest : Bounded rest) : (Pattern.oneOfWords words).Takes w rest := by
  have hupper : w.upperCase = Text.upperCase r := eq_of_beq hw
  obtain ⟨before, after, rfl⟩ := List.append_of_mem hr
  refine Pattern.takes_oneOfWords hupper fun v hv hbegin => ?_
  apply (List.pairwise_append.mp h.pairwise).2.2 v hv r (by simp)
  rw [← hupper]
  rw [Text.upperCase, Text.upperCase, List.map_append] at hbegin
  exact prefix_of_prefix_append (h.wordlike v (by simp [hv])) (bounded_upperCase hrest) hbegin

/-- A word in any case does not begin with a digit. -/
theorem starts_append (h : Choosable words) (hr : r ∈ words) (hw : Text.sameWord w r = true)
    (v : Text) : (w ++ v).head?.any startsName = true := by
  have hupper : w.upperCase.head?.any startsName = true := eq_of_beq hw ▸ h.starts r hr
  cases w with
  | nil => cases hupper
  | cons c w => simpa [Text.upperCase, startsName_toUpper] using hupper

theorem wordlike_of_sameWord (h : Choosable words) (hr : r ∈ words)
    (hw : Text.sameWord w r = true) : Wordlike w :=
  wordlike_upperCase.mp (eq_of_beq hw ▸ h.wordlike r hr)

/-- Where the choice stops at the end of a word, it has read the first word. -/
theorem of_run (h : Choosable words) {s stop : Cursor}
    (hrun : (Pattern.oneOfWords words).run s = some stop) (hstop : Bounded stop.rest) :
    ∃ r ∈ words, Text.sameWord (firstWord s.rest) r = true := by
  obtain ⟨u, hreads, hspells⟩ := Pattern.run_spells hrun
  obtain ⟨r, hr, hu⟩ := Pattern.oneOfWords_spells h.ne_nil hspells
  have hsame : Text.sameWord u r = true := beq_iff_eq.mpr hu
  refine ⟨r, hr, ?_⟩
  rwa [hreads.rest, firstWord_append (h.wordlike_of_sameWord hr hsame) hstop]

end Choosable

/-! ## Reserved words -/

/-- No reserved word stands behind a word that it begins with. -/
theorem choosable_reservedWords : Choosable Lexicon.reservedWords := by decide +kernel

theorem identChar_refuses (h : Bounded rest) : Lexicon.identChar.Refuses rest :=
  Pattern.refuses_char h

/-- The check of the boundary holds only where no character of a name follows. -/
theorem bounded_of_boundary {s s' : Cursor} (h : Lexicon.boundary.run s = some s') :
    Bounded s.rest := by
  cases hrun : Lexicon.identChar.run s with
  | none => exact Pattern.head_of_run_eq_none hrun
  | some s₁ => simp [Lexicon.boundary, Pattern.run, hrun] at h

/-- A reserved word in any case is read where a word ends behind it. -/
theorem reserved_takes {r : String} (hr : r ∈ Lexicon.reservedWords)
    (hw : Text.sameWord w r = true) (hrest : Bounded rest) : Lexicon.reserved.Takes w rest := by
  have hend : Lexicon.boundary.Takes [] rest := (identChar_refuses hrest).notAhead
  have hboth := (choosable_reservedWords.takes hr hw hrest).seq (u := []) hend
  rwa [List.append_nil] at hboth

/-- A word that is not reserved is not read as one, whatever it begins with. -/
theorem reserved_refuses (hw : Wordlike w) (hrest : Bounded rest)
    (h : ∀ r ∈ Lexicon.reservedWords, Text.sameWord w r = false) :
    Lexicon.reserved.Refuses (w ++ rest) := by
  intro offset
  cases hrun : Lexicon.reserved.run ⟨offset, w ++ rest⟩ with
  | none => rfl
  | some stop =>
      exfalso
      obtain ⟨s, hchoice, hend⟩ := Option.bind_eq_some_iff.mp hrun
      obtain ⟨r, hr, hsame⟩ := choosable_reservedWords.of_run hchoice (bounded_of_boundary hend)
      rw [firstWord_append hw hrest, h r hr] at hsame
      cases hsame

/-! ## Names -/

/-- The text begins with a name: its first word does not begin with a digit and is not reserved. -/
structure BeginsWithName (t : Text) : Prop where
  starts : t.head?.any startsName = true
  free : ∀ r ∈ Lexicon.reservedWords, Text.sameWord (firstWord t) r = false

/-- A token rule matches at the start of a text what its pattern does. -/
theorem derive_token_iff {r : Rule} {p : Pattern} (hr : r.production = .token p) {ns : List Node}
    {stop : Cursor} :
    derive r t = .matched ns stop ↔
      p.run t.cursor = some stop ∧ ns = [⟨r, t.cursor, stop, []⟩] := by
  constructor
  · intro h
    exact ((Expr.parses_token_iff hr).mp (derive_parses h)).symm
  · rintro ⟨h, rfl⟩
    exact derive_of_parses (.token hr h)

theorem identifier_takes (h : BeginsWithName t) (ht : t = firstWord t ++ rest)
    (hrest : Bounded rest) : Lexicon.identifier.Takes (firstWord t) rest := by
  have hword := wordlike_firstWord t
  have hreserved := reserved_refuses hword hrest h.free
  obtain ⟨c, w, hw⟩ : ∃ c w, firstWord t = c :: w := by
    cases t with
    | nil => cases h.starts
    | cons c t =>
        have hc : startsName c = true := by simpa using h.starts
        exact ⟨c, _, List.takeWhile_cons_of_pos ((continuesName_iff c).mpr (.inl hc))⟩
  have hc : startsName c = true := by
    have hstarts := h.starts
    rw [ht, hw] at hstarts
    simpa using hstarts
  rw [hw] at hword hreserved ⊢
  have hrun : (Pattern.star Lexicon.identChar).Takes w rest :=
    Pattern.takes_run (fun d hd => hword d (by simp [hd])) hrest
  have hstart : Lexicon.identStart.Takes [c] (w ++ rest) := Pattern.takes_char hc
  exact Pattern.Takes.seq (t := []) hreserved.notAhead (hstart.seq hrun)

theorem beginsWithName_of_run {stop : Cursor} (h : Lexicon.identifier.run t.cursor = some stop) :
    BeginsWithName t := by
  obtain ⟨s, hfree, hname⟩ := Option.bind_eq_some_iff.mp h
  obtain ⟨hnone, rfl⟩ : Lexicon.reserved.run t.cursor = none ∧ t.cursor = s := by
    simpa [Pattern.run] using hfree
  -- The first word ends where no name goes on, so a reserved word would be read there whole.
  obtain ⟨rest, ht, hrest⟩ := exists_bounded_rest t
  constructor
  · obtain ⟨s₁, hstart, -⟩ := Option.bind_eq_some_iff.mp hname
    cases t with
    | nil => cases hstart
    | cons c t =>
        cases hc : startsName c with
        | true => simpa using hc
        | false =>
            have hrefuses : Lexicon.identStart.Refuses (c :: t) :=
              Pattern.refuses_char fun d hd => Option.some.inj hd ▸ hc
            cases (hrefuses 0).symm.trans hstart
  · intro r hr
    cases hw : Text.sameWord (firstWord t) r with
    | false => rfl
    | true =>
        have htakes := (reserved_takes hr hw hrest).run (s := t.cursor) ht
        cases htakes.symm.trans hnone

/-- The rule for names matches at the start of a text exactly if the first character is an ASCII
letter or the underscore and the first word is no reserved word in any case, and it reads that word
then. So no reserved word is taken for a name, and every longer word that begins with one is a name,
unless it is reserved itself. -/
theorem identifier_exact (t : Text) :
    ((∃ nodes stop, derive .identifier t = .matched nodes stop) ↔
      t.head?.any startsName = true ∧
        ∀ r ∈ Lexicon.reservedWords, Text.sameWord (firstWord t) r = false) ∧
    (∀ nodes stop, derive .identifier t = .matched nodes stop →
      t.cursor.Reads (firstWord t) stop ∧ nodes = [⟨.identifier, t.cursor, stop, []⟩]) ∧
    (∀ r ∈ Lexicon.reservedWords, Text.sameWord (firstWord t) r = true →
      derive .identifier t = .failed) ∧
    ∀ r ∈ Lexicon.reservedWords, ∀ u v, firstWord t = u ++ v → Text.sameWord u r = true →
      (∀ r' ∈ Lexicon.reservedWords, Text.sameWord (u ++ v) r' = false) →
      ∃ nodes stop, derive .identifier t = .matched nodes stop := by
  obtain ⟨rest, ht, hrest⟩ := exists_bounded_rest t
  have hmatches (h : BeginsWithName t) : Lexicon.identifier.run t.cursor =
      some ⟨t.cursor.offset + (firstWord t).byteLength, rest⟩ :=
    (identifier_takes h ht hrest).run ht
  -- All four parts follow from what the matching texts begin with.
  have hiff : (∃ nodes stop, derive .identifier t = .matched nodes stop) ↔ BeginsWithName t := by
    constructor
    · rintro ⟨nodes, stop, h⟩
      exact beginsWithName_of_run ((derive_token_iff rfl).mp h).1
    · intro h
      exact ⟨_, _, (derive_token_iff rfl).mpr ⟨hmatches h, rfl⟩⟩
  refine ⟨hiff.trans ⟨fun h => ⟨h.starts, h.free⟩, fun h => ⟨h.1, h.2⟩⟩, ?_, ?_, ?_⟩
  · intro nodes stop h
    have hname := hiff.mp ⟨nodes, stop, h⟩
    obtain ⟨hrun, hnodes⟩ := (derive_token_iff rfl).mp h
    obtain rfl := Option.some.inj ((hmatches hname).symm.trans hrun)
    exact ⟨⟨ht, rfl⟩, hnodes⟩
  · intro r hr hw
    cases h : derive .identifier t with
    | failed => rfl
    | exhausted => exact absurd h (derive_ne_exhausted .identifier t)
    | matched nodes stop =>
        have hfree := (hiff.mp ⟨nodes, stop, h⟩).free r hr
        rw [hw] at hfree
        cases hfree
  · intro r hr u v hword hu hfree
    apply hiff.mpr
    rw [← hword] at hfree
    refine ⟨?_, hfree⟩
    have hstarts := choosable_reservedWords.starts_append hr hu (v ++ rest)
    rwa [← List.append_assoc, ← hword, ← ht] at hstarts

end StructuredText.Grammar
