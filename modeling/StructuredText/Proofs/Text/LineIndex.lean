import StructuredText.Proofs.Grammar.Reading
import StructuredText.Text.LineIndex

/-!
# The line of an offset

Lines start at increasing offsets, so halving the range of candidates finds how many of them start
at or before an offset.

* `bisect_spec` — halving a range finds where a test begins to fail.
* `LineIndex.lineOf_spec` — which lines start at or before an offset.
* `LineIndex.lineOf_eq_countP` — the line of an offset is the number of lines that start there or
  before.
* `LineIndex.lineOf_mono` — lines grow with offsets.
* `LineIndex.lineOf_ofText`, `LineIndex.columnOf_ofText` — lines count line feeds, and columns the
  bytes behind the last one.
-/

namespace StructuredText

/-- Where the test holds up to some number of the range and fails from there on, halving the range
finds that number. -/
theorem bisect_spec (p : Nat → Bool) (fuel low high : Nat) (hfuel : high ≤ low + fuel)
    (hle : low ≤ high) (hp : ∀ i j, i ≤ j → j < high → p j = true → p i = true) :
    low ≤ bisect p fuel low high ∧ bisect p fuel low high ≤ high ∧
      (∀ i, low ≤ i → i < bisect p fuel low high → p i = true) ∧
      ∀ i, bisect p fuel low high ≤ i → i < high → p i = false := by
  induction fuel generalizing low high with
  | zero =>
      simp only [bisect]
      refine ⟨Nat.le_refl low, hle, ?_, ?_⟩ <;> omega
  | succ fuel ih =>
      rw [bisect]
      by_cases hlt : low < high
      · rw [if_pos hlt]
        have hmiddle : low ≤ (low + high) / 2 ∧ (low + high) / 2 < high := by omega
        -- The test falls once from true to false, so one look in the middle settles a half.
        cases hpm : p ((low + high) / 2) with
        | true =>
            simp only [hpm, if_true]
            obtain ⟨hl, hh, htrue, hfalse⟩ :=
              ih ((low + high) / 2 + 1) high (by omega) (by omega) hp
            refine ⟨by omega, hh, ?_, hfalse⟩
            intro i hi hlt'
            by_cases him : i ≤ (low + high) / 2
            · exact hp i _ him hmiddle.2 hpm
            · exact htrue i (by omega) hlt'
        | false =>
            simp only [hpm, Bool.false_eq_true, if_false]
            obtain ⟨hl, hh, htrue, hfalse⟩ := ih low ((low + high) / 2) (by omega) hmiddle.1
              fun i j hij hj => hp i j hij (by omega)
            refine ⟨hl, by omega, htrue, ?_⟩
            intro i hi hih
            by_cases him : i < (low + high) / 2
            · exact hfalse i hi him
            · cases hpi : p i with
              | false => rfl
              | true =>
                  have hpm' := hp ((low + high) / 2) i (by omega) hih hpi
                  rw [hpm] at hpm'
                  cases hpm'
      · rw [if_neg hlt]
        refine ⟨Nat.le_refl low, hle, ?_, ?_⟩ <;> omega

namespace LineIndex

/-! ## Where lines start -/

theorem lt_of_mem_startsAfter {offset i : Nat} {t : Text} (h : i ∈ startsAfter offset t) :
    offset < i := by
  induction t generalizing offset with
  | nil => simp [startsAfter] at h
  | cons c t ih =>
      have hpos := c.utf8Size_pos
      rw [startsAfter] at h
      split at h
      · rcases List.mem_cons.mp h with rfl | h
        · omega
        · have := ih h
          omega
      · have := ih h
        omega

theorem pairwise_startsAfter (offset : Nat) (t : Text) :
    (startsAfter offset t).Pairwise (· < ·) := by
  induction t generalizing offset with
  | nil => exact .nil
  | cons c t ih =>
      rw [startsAfter]
      split
      · exact .cons (fun i hi => lt_of_mem_startsAfter hi) (ih _)
      · exact ih _

/-- Later lines start later. -/
theorem pairwise_ofText (t : Text) : (ofText t).starts.toList.Pairwise (· < ·) :=
  .cons (fun _ hi => lt_of_mem_startsAfter hi) (pairwise_startsAfter 0 t)

/-! ## The line of an offset -/

/-- Where a test holds for the first `k` elements and fails for the others, `k` pass it. -/
theorem countP_eq_of_split {p : Nat → Bool} {xs : List Nat} {k : Nat} (hk : k ≤ xs.length)
    (htrue : ∀ i, i < k → p (xs.getD i 0) = true)
    (hfalse : ∀ i, k ≤ i → i < xs.length → p (xs.getD i 0) = false) : xs.countP p = k := by
  induction xs generalizing k with
  | nil => exact (Nat.le_zero.mp hk).symm
  | cons x xs ih =>
      cases k with
      | zero =>
          have hx : p x = false := hfalse 0 (Nat.le_refl 0) (by simp)
          have hxs := ih (Nat.zero_le _) (by omega) fun i _ hi => by
            simpa using hfalse (i + 1) (by omega) (by simpa using hi)
          rw [List.countP_cons_of_neg (by simp [hx]), hxs]
      | succ k =>
          have hx : p x = true := htrue 0 (Nat.succ_pos k)
          have hxs := ih (k := k) (by simpa using hk) (fun i hi => by
            simpa using htrue (i + 1) (by omega)) fun i hki hi => by
            simpa using hfalse (i + 1) (by omega) (by simpa using hi)
          rw [List.countP_cons_of_pos hx, hxs]

/-- Increasing numbers stay in order when they are read by their places. -/
theorem getD_le_getD {xs : List Nat} (hxs : xs.Pairwise (· < ·)) {i j : Nat} (hij : i ≤ j)
    (hj : j < xs.length) : xs.getD i 0 ≤ xs.getD j 0 := by
  have hi : i < xs.length := Nat.lt_of_le_of_lt hij hj
  rw [← List.getElem_eq_getD (h := hi) 0, ← List.getElem_eq_getD (h := hj) 0]
  rcases Nat.lt_or_eq_of_le hij with hlt | rfl
  · exact Nat.le_of_lt (List.pairwise_iff_getElem.mp hxs i j _ hj hlt)
  · exact Nat.le_refl _

theorem getD_toList (ix : LineIndex) (i : Nat) : ix.starts.toList.getD i 0 = ix.starts.getD i 0 := by
  simp [Array.getD_eq_getD_getElem?, List.getD_eq_getElem?_getD]

/-- The lines up to that of an offset start there or before, and the others start behind it. -/
theorem lineOf_spec {ix : LineIndex} (hix : ix.starts.toList.Pairwise (· < ·)) (offset : Nat) :
    ix.lineOf offset ≤ ix.lineCount ∧
      (∀ i, i < ix.lineOf offset → ix.starts.getD i 0 ≤ offset) ∧
      ∀ i, ix.lineOf offset ≤ i → i < ix.lineCount → offset < ix.starts.getD i 0 := by
  have hdown (i j : Nat) (hij : i ≤ j) (hj : j < ix.starts.size)
      (h : decide (ix.starts.getD j 0 ≤ offset) = true) :
      decide (ix.starts.getD i 0 ≤ offset) = true := by
    have hle := getD_le_getD hix hij hj
    rw [getD_toList, getD_toList] at hle
    simp only [decide_eq_true_eq] at h ⊢
    omega
  obtain ⟨-, hle, htrue, hfalse⟩ := bisect_spec (fun i => decide (ix.starts.getD i 0 ≤ offset))
    ix.starts.size 0 ix.starts.size (by omega) (Nat.zero_le _) hdown
  refine ⟨hle, fun i hi => of_decide_eq_true (htrue i (Nat.zero_le i) hi), fun i hi hlt => ?_⟩
  exact Nat.not_le.mp (of_decide_eq_false (hfalse i hi hlt))

/-- The line of an offset is the number of lines that start there or before. -/
theorem lineOf_eq_countP {ix : LineIndex} (hix : ix.starts.toList.Pairwise (· < ·))
    (offset : Nat) : ix.lineOf offset = ix.starts.toList.countP (· ≤ offset) := by
  obtain ⟨hle, hfront, hbehind⟩ := lineOf_spec hix offset
  refine (countP_eq_of_split hle (fun i hi => ?_) fun i hi hlt => ?_).symm
  · rw [getD_toList]
    exact decide_eq_true (hfront i hi)
  · rw [getD_toList]
    exact decide_eq_false (Nat.not_le.mpr (hbehind i hi hlt))

/-- Lines grow with offsets. -/
theorem lineOf_mono {ix : LineIndex} (hix : ix.starts.toList.Pairwise (· < ·)) {a b : Nat}
    (hab : a ≤ b) : ix.lineOf a ≤ ix.lineOf b := by
  rw [lineOf_eq_countP hix, lineOf_eq_countP hix]
  refine List.countP_mono_left fun i _ hi => ?_
  simp only [decide_eq_true_eq] at hi ⊢
  omega

/-! ## Lines and columns in a text -/

/-- Of the lines that start behind an offset, those that start in a piece of text are as many as the
line feeds of the piece. -/
theorem countP_startsAfter (offset : Nat) (before rest : Text) :
    (startsAfter offset (before ++ rest)).countP (· ≤ offset + before.byteLength) =
      before.count '\n' := by
  -- Behind each character the offset grows by its bytes, and a line feed has one.
  induction before generalizing offset with
  | nil =>
      rw [List.count_nil, List.countP_eq_zero]
      intro start hstart
      have hlt := lt_of_mem_startsAfter hstart
      have hnot : ¬ start ≤ offset := by omega
      simp [hnot]
  | cons c before ih =>
      rw [List.cons_append, startsAfter, Text.byteLength_cons]
      by_cases hc : c = '\n'
      · have hsize : c.utf8Size = 1 := by
          rw [hc]
          rfl
        have hih := ih (offset + 1)
        rw [if_pos hc, List.countP_cons_of_pos (by simp [hsize]), List.count_cons, hsize,
          ← Nat.add_assoc, hih]
        simp [hc]
      · have hih := ih (offset + c.utf8Size)
        rw [if_neg hc, List.count_cons, ← Nat.add_assoc, hih]
        simp [hc]

/-- The line of an offset is one plus the number of line feeds in front of it. -/
theorem lineOf_ofText (before rest : Text) :
    (ofText (before ++ rest)).lineOf before.byteLength = 1 + before.count '\n' := by
  have hstarts := countP_startsAfter 0 before rest
  rw [lineOf_eq_countP (pairwise_ofText _)]
  show (0 :: startsAfter 0 (before ++ rest)).countP (· ≤ before.byteLength) = _
  rw [List.countP_cons_of_pos (by simp)]
  rw [Nat.zero_add] at hstarts
  omega

theorem startsAfter_append (offset : Nat) (t u : Text) :
    startsAfter offset (t ++ u) =
      startsAfter offset t ++ startsAfter (offset + t.byteLength) u := by
  induction t generalizing offset with
  | nil => rfl
  | cons c t ih =>
      rw [List.cons_append, startsAfter, startsAfter, Text.byteLength_cons]
      by_cases hc : c = '\n'
      · have hsize : c.utf8Size = 1 := by
          rw [hc]
          rfl
        rw [if_pos hc, if_pos hc, ih, List.cons_append, hsize, Nat.add_assoc]
      · rw [if_neg hc, if_neg hc, ih, Nat.add_assoc]

theorem length_startsAfter (offset : Nat) (t : Text) :
    (startsAfter offset t).length = t.count '\n' := by
  induction t generalizing offset with
  | nil => rfl
  | cons c t ih =>
      rw [startsAfter, List.count_cons]
      by_cases hc : c = '\n'
      · rw [if_pos hc, List.length_cons, ih]
        simp [hc]
      · rw [if_neg hc, ih]
        simp [hc]

/-- On the first line, columns are offsets. -/
theorem columnOf_ofText_first {l : Text} (hl : '\n' ∉ l) (rest : Text) :
    (ofText (l ++ rest)).columnOf l.byteLength = l.byteLength := by
  rw [columnOf, lineOf_ofText, List.count_eq_zero.mpr hl]
  exact Nat.sub_zero _

/-- The column of an offset is the number of bytes behind the last line feed. -/
theorem columnOf_ofText {l : Text} (hl : '\n' ∉ l) (before rest : Text) :
    (ofText (before ++ '\n' :: l ++ rest)).columnOf (before ++ '\n' :: l).byteLength =
      l.byteLength := by
  have hcount : (before ++ '\n' :: l).count '\n' = before.count '\n' + 1 := by
    rw [List.count_append, List.count_cons_self, List.count_eq_zero.mpr hl]
  -- l ++ rest)).starts.getD (before.count '\n' + 1) 0 = :: The line of the offset is the one that
  -- starts behind the line feed.
  have hstart : (ofText (before ++ '\n' :: l ++ rest)).starts.getD (before.count '\n' + 1) 0 =
      before.byteLength + 1 := by
    have hsplit : startsAfter 0 (before ++ '\n' :: l ++ rest) = startsAfter 0 before ++
        (before.byteLength + 1) :: startsAfter (before.byteLength + 1) (l ++ rest) := by
      rw [List.append_assoc, startsAfter_append, List.cons_append, startsAfter, if_pos rfl,
        Nat.zero_add]
    rw [ofText, hsplit, Array.getD_eq_getD_getElem?, List.getElem?_toArray, List.getElem?_cons_succ,
      List.getElem?_append_right (Nat.le_of_eq (length_startsAfter 0 before)), length_startsAfter,
      Nat.sub_self]
    rfl
  have hbytes : (before ++ '\n' :: l).byteLength = before.byteLength + 1 + l.byteLength := by
    rw [Text.byteLength_append, Text.byteLength_cons, Nat.add_assoc]
    rfl
  rw [columnOf, lineOf_ofText, hcount, Nat.add_sub_cancel_left, hstart, hbytes,
    Nat.add_sub_cancel_left]

end LineIndex

end StructuredText
