import Mathlib.Order.Monotone.Basic
import StructuredText.Proofs.Text.LineIndex

/-!
# Lines and columns, byte by byte

Any number can be asked for its line and its column: it may lie inside a character, or behind the
end of the text. So the answers are told here of the bytes of the text and not of its characters. A
byte of a longer character is never the byte of a line feed, which is why both see the same lines.

* `Text.bytes` — the bytes of a text.
* `Text.StartsLine` — where the line of an offset starts, told from the bytes.
* `LineIndex.lineOf_eq_count` — the line of an offset counts the line feeds in front of it.
* `LineIndex.startsLine_start` — the index knows where that line starts.
* `LineIndex.lookup_exact` — both answers are right, and together they tell the offset.
-/

namespace StructuredText

/-! ## Bytes -/

/-- The bytes of the UTF-8 form. -/
def Text.bytes (t : Text) : List UInt8 := t.flatMap String.utf8EncodeChar

/-- The byte of a line feed. -/
def lineFeed : UInt8 := 10

@[simp] theorem Text.bytes_cons (c : Char) (t : Text) :
    Text.bytes (c :: t) = String.utf8EncodeChar c ++ t.bytes := rfl

theorem utf8EncodeChar_lineFeed : String.utf8EncodeChar '\n' = [lineFeed] := rfl

/-- No other character has the byte of a line feed: the bytes of longer characters are large. -/
theorem lineFeed_not_mem_utf8EncodeChar {c : Char} (hc : c ≠ '\n') :
    lineFeed ∉ String.utf8EncodeChar c := by
  have hval : c.val.toNat ≠ 10 := fun h => hc (Char.toNat_inj.mp h)
  have hten : lineFeed.toNat = 10 := rfl
  intro hmem
  rw [String.utf8EncodeChar] at hmem
  split at hmem
  case isTrue hsmall =>
    rw [List.mem_singleton, ← UInt8.toNat_inj, hten, UInt8.toNat_ofNat'] at hmem
    omega
  case isFalse =>
    -- what is added to the parts of the code point keeps every byte at 128 or above
    split at hmem
    · simp only [List.mem_cons, List.not_mem_nil, or_false, ← UInt8.toNat_inj, hten,
        UInt8.toNat_ofNat'] at hmem
      omega
    · split at hmem <;>
        (simp only [List.mem_cons, List.not_mem_nil, or_false, ← UInt8.toNat_inj, hten,
          UInt8.toNat_ofNat'] at hmem
         omega)

/-- The offset `n` lies on the line that starts at the offset `start`: the text starts there or a
line feed ends there, and there is no line feed between the two. -/
structure Text.StartsLine (t : Text) (start n : Nat) : Prop where
  le : start ≤ n
  opens : start = 0 ∨ t.bytes[start - 1]? = some lineFeed
  runs : ∀ i, start ≤ i → i < n → t.bytes[i]? ≠ some lineFeed

namespace LineIndex

/-! ## The starts of lines -/

/-- The lines of a text start right behind its line feeds. -/
theorem mem_startsAfter_iff {offset start : Nat} {t : Text} :
    start ∈ startsAfter offset t ↔ ∃ i, t.bytes[i]? = some lineFeed ∧ start = offset + i + 1 := by
  induction t generalizing offset with
  | nil => simp [startsAfter, Text.bytes]
  | cons c t ih =>
      rw [startsAfter, Text.bytes_cons]
      by_cases hc : c = '\n'
      · rw [if_pos hc, List.mem_cons, ih, hc, utf8EncodeChar_lineFeed]
        constructor
        · rintro (rfl | ⟨i, hi, rfl⟩)
          · exact ⟨0, rfl, rfl⟩
          · exact ⟨i + 1, hi, by omega⟩
        · rintro ⟨_ | i, hi, rfl⟩
          · exact .inl rfl
          · exact .inr ⟨i, hi, by omega⟩
      -- Another character may take several bytes, but none of them is a line feed.
      · rw [if_neg hc, ih]
        have hnone := lineFeed_not_mem_utf8EncodeChar hc
        have hlength := String.length_utf8EncodeChar c
        constructor
        · rintro ⟨i, hi, rfl⟩
          refine ⟨c.utf8Size + i, ?_, by omega⟩
          rw [List.getElem?_append_right (by omega), hlength, Nat.add_sub_cancel_left]
          exact hi
        · rintro ⟨i, hi, rfl⟩
          rcases Nat.lt_or_ge i (String.utf8EncodeChar c).length with hlt | hge
          · rw [List.getElem?_append_left hlt] at hi
            exact absurd (List.mem_of_getElem? hi) hnone
          · rw [List.getElem?_append_right hge] at hi
            exact ⟨i - (String.utf8EncodeChar c).length, hi, by omega⟩

/-- Of the starts of lines, those up to an offset are as many as the line feeds in front of it. -/
theorem countP_startsAfter_eq_count (offset n : Nat) (t : Text) :
    (startsAfter offset t).countP (· ≤ offset + n) = (t.bytes.take n).count lineFeed := by
  induction t generalizing offset n with
  | nil => simp [startsAfter, Text.bytes]
  | cons c t ih =>
      rw [startsAfter, Text.bytes_cons]
      by_cases hc : c = '\n'
      · rw [if_pos hc, hc, utf8EncodeChar_lineFeed]
        cases n with
        | zero =>
            refine List.countP_eq_zero.mpr fun start hstart => ?_
            have hlt : offset < start := by
              rcases List.mem_cons.mp hstart with rfl | hstart
              · omega
              · have := lt_of_mem_startsAfter hstart
                omega
            simpa using hlt
        | succ n =>
            have hih := ih (offset + 1) n
            rw [Nat.add_right_comm, Nat.add_assoc] at hih
            rw [List.countP_cons_of_pos (by simp), hih, List.singleton_append, List.take_succ_cons,
              List.count_cons_self]
      -- Another character brings no line feed, however many of its bytes are taken.
      · have hnone : (List.take n (String.utf8EncodeChar c)).count lineFeed = 0 :=
          List.count_eq_zero.mpr fun hmem =>
            lineFeed_not_mem_utf8EncodeChar hc (List.mem_of_mem_take hmem)
        rw [if_neg hc, List.take_append, List.count_append, hnone, Nat.zero_add,
          String.length_utf8EncodeChar]
        rcases Nat.le_total c.utf8Size n with hle | hle
        · have hih := ih (offset + c.utf8Size) (n - c.utf8Size)
          rwa [Nat.add_assoc, Nat.add_sub_cancel' hle] at hih
        · -- the offset lies in the character, which ends in front of all starts
          rw [Nat.sub_eq_zero_of_le hle, List.take_zero, List.count_nil, List.countP_eq_zero]
          intro start hstart
          have := lt_of_mem_startsAfter hstart
          simp only [decide_eq_true_eq]
          omega

/-! ## The line of an offset -/

variable (t : Text) (n : Nat)

/-- The line of an offset is one plus the number of line feeds in front of it. -/
theorem lineOf_eq_count : (ofText t).lineOf n = 1 + (t.bytes.take n).count lineFeed := by
  have hcount := countP_startsAfter_eq_count 0 n t
  rw [Nat.zero_add] at hcount
  rw [lineOf_eq_countP (pairwise_ofText t), ← hcount, Nat.add_comm]
  exact List.countP_cons_of_pos (by simp)

theorem lineOf_pos : 0 < (ofText t).lineOf n := by
  rw [lineOf_eq_count]
  omega

/-- The lines that an index knows start at the beginning of the text or right behind a line feed. -/
theorem opens_of_mem {start : Nat} (h : start ∈ (ofText t).starts.toList) :
    start = 0 ∨ t.bytes[start - 1]? = some lineFeed := by
  rcases List.mem_cons.mp h with rfl | h
  · exact .inl rfl
  · obtain ⟨i, hi, rfl⟩ := mem_startsAfter_iff.mp h
    rw [Nat.zero_add, Nat.add_sub_cancel]
    exact .inr hi

/-- The index knows where the line of an offset starts. -/
theorem startsLine_start : ∃ start, (ofText t).starts[(ofText t).lineOf n - 1]? = some start ∧
    t.StartsLine start n := by
  have hpos := lineOf_pos t n
  obtain ⟨hle, hfront, hbehind⟩ := lineOf_spec (pairwise_ofText t) n
  have hlt : (ofText t).lineOf n - 1 < (ofText t).lineCount := by omega
  have hget {i start : Nat} (hi : (ofText t).starts[i]? = some start) :
      (ofText t).starts.getD i 0 = start := by
    rw [Array.getD_eq_getD_getElem?, hi, Option.getD_some]
  obtain ⟨start, hstart⟩ : ∃ start, (ofText t).starts[(ofText t).lineOf n - 1]? = some start :=
    ⟨_, Array.getElem?_eq_getElem hlt⟩
  refine ⟨start, hstart, ?_, ?_, ?_⟩
  · rw [← hget hstart]
    exact hfront _ (by omega)
  · exact opens_of_mem t (List.mem_of_getElem? (Array.getElem?_toList.trans hstart))
  · -- behind a line feed on the way a line would start, and no later than the offset
    intro i hi hin hfeed
    obtain ⟨j, hj⟩ : ∃ j, (ofText t).starts[j]? = some (i + 1) := by
      refine Array.mem_iff_getElem?.mp (Array.mem_toList_iff.mp ?_)
      exact .tail _ (mem_startsAfter_iff.mpr ⟨i, hfeed, by omega⟩)
    have hjlt : j < (ofText t).lineCount := (Array.getElem?_eq_some_iff.mp hj).1
    have hbefore : j < (ofText t).lineOf n := by
      by_contra hnot
      have hlater := hbehind j (by omega) hjlt
      rw [hget hj] at hlater
      omega
    have hmono := getD_le_getD (pairwise_ofText t) (Nat.le_sub_one_of_lt hbefore) hlt
    rw [getD_toList, getD_toList, hget hj, hget hstart] at hmono
    omega

/-- The column of an offset is its distance from the start of its line. -/
theorem columnOf_eq {start : Nat} (h : (ofText t).starts[(ofText t).lineOf n - 1]? = some start) :
    (ofText t).columnOf n = n - start := by
  rw [columnOf, Array.getD_eq_getD_getElem?, h, Option.getD_some]

/-- The line of any offset is one plus the number of line feeds at the bytes in front of it, and one
of the lines of the text; the index knows where this line starts, no later than the offset, and the
column is the number of bytes between the two. Lines grow with offsets, and line and column together
tell the offset. -/
theorem lookup_exact :
    (∀ n, (ofText t).lineOf n = 1 + (t.bytes.take n).count lineFeed ∧
      1 ≤ (ofText t).lineOf n ∧ (ofText t).lineOf n ≤ (ofText t).lineCount ∧
      ∃ start, (ofText t).starts[(ofText t).lineOf n - 1]? = some start ∧ t.StartsLine start n ∧
        start + (ofText t).columnOf n = n) ∧
    Monotone (ofText t).lineOf ∧
    Function.Injective fun n => ((ofText t).lineOf n, (ofText t).columnOf n) := by
  have hcolumn (n : Nat) : ∃ start, (ofText t).starts[(ofText t).lineOf n - 1]? = some start ∧
      t.StartsLine start n ∧ start + (ofText t).columnOf n = n := by
    obtain ⟨start, hstart, hstarts⟩ := startsLine_start t n
    have hle := hstarts.le
    have hcolumn := columnOf_eq t n hstart
    exact ⟨start, hstart, hstarts, by omega⟩
  refine ⟨fun n => ?_, fun m n hmn => lineOf_mono (pairwise_ofText t) hmn, fun m n hmn => ?_⟩
  · exact ⟨lineOf_eq_count t n, lineOf_pos t n, (lineOf_spec (pairwise_ofText t) n).1, hcolumn n⟩
  -- The line tells where it starts, and the column tells how far from there.
  · obtain ⟨hline, hcol⟩ := Prod.mk.inj hmn
    obtain ⟨start, hstart, -, hm⟩ := hcolumn m
    obtain ⟨start', hstart', -, hn⟩ := hcolumn n
    rw [hline, hstart'] at hstart
    have hsame := Option.some.inj hstart
    omega

/-- An offset inside a character, and one behind the end of the text. -/
example : let index := ofText ['a', '\n', 'é']
    (index.lineOf 3, index.columnOf 3) = (2, 1) ∧ (index.lineOf 9, index.columnOf 9) = (2, 7) := by
  decide

end LineIndex

end StructuredText
