import Mathlib.Data.List.DropRight
import Mathlib.Logic.Function.Iterate
import StructuredText.Text.Lines

/-!
# Comments that are indented again

A comment of several lines is kept without the margin it was found with, and the layout indents it
with the construct it belongs to. Taking the new margin off again gives the comment as it was kept:
indenting leaves empty lines empty, and every other line gets as many blanks as the margin takes
off.

* `Text.lines_joinLines` — joined lines are taken apart again.
* `Text.iterate_indent_joinLines` — indenting a number of times indents line by line.
* `Text.exists_indented_dedent` — a comment without its margin is a fixed point of being indented
  and losing the new margin.
-/

namespace StructuredText.Text

variable {l t : Text} {ls : List Text}

/-! ## Lines taken apart and joined -/

theorem lines_ne_nil (t : Text) : lines t ≠ [] := by
  cases t with
  | nil => simp [lines]
  | cons c t =>
      show lines.step c (lines t) ≠ []
      cases lines t <;> rw [lines.step] <;> split <;> simp

/-- A character that is no line feed belongs to the first line. -/
theorem lines_cons {c : Char} (hc : c ≠ '\n') (ht : lines t = l :: ls) :
    lines (c :: t) = (c :: l) :: ls := by
  show lines.step c (lines t) = _
  rw [ht, lines.step, if_neg hc]

/-- A line feed ends an empty first line. -/
theorem lines_feed (t : Text) : lines ('\n' :: t) = [] :: lines t := by
  show lines.step '\n' (lines t) = _
  cases hls : lines t with
  | nil => exact absurd hls (lines_ne_nil t)
  | cons l ls => rw [lines.step, if_pos rfl]

theorem lines_eq_singleton (h : '\n' ∉ l) : lines l = [l] := by
  induction l with
  | nil => rfl
  | cons c l ih =>
      obtain ⟨hc, hl⟩ := List.ne_and_not_mem_of_not_mem_cons h
      exact lines_cons hc.symm (ih hl)

theorem lines_append_feed (h : '\n' ∉ l) (t : Text) : lines (l ++ '\n' :: t) = l :: lines t := by
  induction l with
  | nil => exact lines_feed t
  | cons c l ih =>
      obtain ⟨hc, hl⟩ := List.ne_and_not_mem_of_not_mem_cons h
      exact lines_cons hc.symm (ih hl)

/-- Lines have no line feeds inside. -/
theorem not_mem_of_mem_lines (h : l ∈ lines t) : '\n' ∉ l := by
  induction t generalizing l with
  | nil =>
      obtain rfl : l = [] := List.mem_singleton.mp h
      simp
  | cons c t ih =>
      by_cases hc : c = '\n'
      · subst hc
        rw [lines_feed] at h
        rcases List.mem_cons.mp h with rfl | h
        · simp
        · exact ih h
      · obtain ⟨k, ks, hks⟩ := List.exists_cons_of_ne_nil (lines_ne_nil t)
        rw [lines_cons hc hks] at h
        rcases List.mem_cons.mp h with rfl | h
        · have hk : '\n' ∉ k := ih (by simp [hks])
          simp [hk, Ne.symm hc]
        · exact ih (by simp [hks, h])

/-- Joined lines are taken apart again. -/
theorem lines_joinLines (hne : ls ≠ []) (h : ∀ l ∈ ls, '\n' ∉ l) : lines (joinLines ls) = ls := by
  induction ls with
  | nil => exact absurd rfl hne
  | cons l ls ih =>
      have hl : '\n' ∉ l := h l (by simp)
      cases ls with
      | nil => simpa [joinLines, joinWith] using lines_eq_singleton hl
      | cons k ks =>
          have hks : lines (joinLines (k :: ks)) = k :: ks :=
            ih (by simp) fun l hl => h l (List.mem_cons_of_mem _ hl)
          have hjoin : joinLines (l :: k :: ks) = l ++ '\n' :: joinLines (k :: ks) := by
            simp [joinLines, joinWith, List.intercalate_cons_cons]
          rw [hjoin, lines_append_feed hl, hks]

/-! ## Deeper lines -/

/-- A line under a number of indentations; an empty line stays empty. -/
def deepen (depth : Nat) (l : Text) : Text :=
  if l.isEmpty then l else List.replicate (4 * depth) ' ' ++ l

theorem deepen_zero (l : Text) : deepen 0 l = l := by simp [deepen]

theorem deepen_of_ne_nil (depth : Nat) (hl : l ≠ []) :
    deepen depth l = List.replicate (4 * depth) ' ' ++ l := by
  simp [deepen, hl]

/-- One more indentation. -/
theorem deepen_succ (depth : Nat) (l : Text) :
    deepen (depth + 1) l =
      if (deepen depth l).isEmpty then deepen depth l else indentation ++ deepen depth l := by
  by_cases hl : l = []
  · simp [deepen, hl]
  · have hblanks : List.replicate (4 * (depth + 1)) ' ' =
        indentation ++ List.replicate (4 * depth) ' ' := by
      rw [Nat.mul_add, Nat.add_comm, ← List.replicate_append_replicate]
      rfl
    rw [deepen_of_ne_nil _ hl, deepen_of_ne_nil _ hl, hblanks, List.append_assoc]
    simp [hl]

theorem not_mem_deepen (depth : Nat) (h : '\n' ∉ l) : '\n' ∉ deepen depth l := by
  rw [deepen]
  split
  · exact h
  · simp [h]

/-- Indenting a number of times indents line by line. -/
theorem iterate_indent_joinLines (hne : ls ≠ []) (h : ∀ l ∈ ls, '\n' ∉ l) (depth : Nat) :
    indent^[depth] (joinLines ls) = joinLines (ls.map (deepen depth)) := by
  induction depth with
  | zero =>
      have hmap : ls.map (deepen 0) = ls := by simp [funext deepen_zero]
      rw [hmap, Function.iterate_zero_apply]
  | succ depth ih =>
      have hlines : lines (joinLines (ls.map (deepen depth))) = ls.map (deepen depth) := by
        refine lines_joinLines (by simpa using hne) fun l hl => ?_
        obtain ⟨k, hk, rfl⟩ := List.mem_map.mp hl
        exact not_mem_deepen depth (h k hk)
      rw [Function.iterate_succ_apply', ih, indent, hlines, List.map_map]
      congr 1
      exact List.map_congr_left fun l _ => (deepen_succ depth l).symm

/-! ## The margin -/

/-- The blanks of an indentation are a margin. -/
theorem dropMargin_deepen (depth : Nat) (l : Text) :
    dropMargin (4 * depth) (deepen depth l) = l := by
  have hblanks (n : Nat) : dropMargin n (List.replicate n ' ' ++ l) = l := by
    induction n with
    | zero => simp [dropMargin]
    | succ n ih => simpa [List.replicate_succ, dropMargin] using ih
  by_cases hl : l = []
  · subst hl
    cases 4 * depth <;> rfl
  · rw [deepen_of_ne_nil _ hl]
    exact hblanks _

theorem dropReturns_dropReturns (l : Text) : dropReturns (dropReturns l) = dropReturns l :=
  List.rdropWhile_idempotent _ l

theorem mem_of_mem_dropReturns {c : Char} (h : c ∈ dropReturns l) : c ∈ l := by
  rw [dropReturns, List.mem_reverse] at h
  exact List.mem_reverse.mp ((List.dropWhile_suffix _).mem h)

theorem mem_of_mem_dropMargin {c : Char} {n : Nat} (h : c ∈ dropMargin n l) : c ∈ l := by
  induction n generalizing l with
  | zero => exact h
  | succ n ih =>
      cases l with
      | nil => exact h
      | cons d l =>
          rw [dropMargin] at h
          split at h
          · exact List.mem_cons_of_mem d (ih h)
          · exact h

/-- Behind a character that is no carriage return, nothing in front of it is dropped. -/
theorem dropReturns_cons {c : Char} (hc : c ≠ '\r') (l : Text) :
    dropReturns (c :: l) = c :: dropReturns l := by
  have hreverse : (c :: l).reverse.dropWhile (· = '\r') =
      l.reverse.dropWhile (· = '\r') ++ [c] := by
    rw [List.reverse_cons, List.dropWhile_append]
    split
    · rename_i hnil
      rw [List.isEmpty_iff.mp hnil]
      simp [hc]
    · rfl
  rw [dropReturns, hreverse, List.reverse_append]
  rfl

/-- Without its margin, a text is a row of lines that end in no carriage return; the first of them
begins as the text does. -/
theorem exists_dedent_eq {c : Char} (hr : c ≠ '\r') (hn : c ≠ '\n') (t : Text) (column : Nat) :
    ∃ l ls, dedent column (c :: t) = joinLines ((c :: l) :: ls) ∧
      ∀ k ∈ (c :: l) :: ls, '\n' ∉ k ∧ dropReturns k = k := by
  obtain ⟨l, ls, hlines⟩ := List.exists_cons_of_ne_nil (lines_ne_nil t)
  have hcons : lines (c :: t) = (c :: l) :: ls := lines_cons hn hlines
  refine ⟨dropReturns l, ls.map fun k => dropReturns (dropMargin column k), ?_, ?_⟩
  · rw [dedent, hcons, ← dropReturns_cons hr]
  · intro k hk
    rw [← dropReturns_cons hr] at hk
    rcases List.mem_cons.mp hk with rfl | hk
    · have hfeed : '\n' ∉ c :: l := not_mem_of_mem_lines (by rw [hcons]; simp)
      exact ⟨fun h => hfeed (mem_of_mem_dropReturns h), dropReturns_dropReturns _⟩
    · obtain ⟨m, hm, rfl⟩ := List.mem_map.mp hk
      have hfeed : '\n' ∉ m := not_mem_of_mem_lines (by rw [hcons]; simp [hm])
      exact ⟨fun h => hfeed (mem_of_mem_dropMargin (mem_of_mem_dropReturns h)),
        dropReturns_dropReturns _⟩

/-- A comment that was kept without its margin comes back when it is indented and loses the new
margin: its first line stands behind the blanks of the indentations, and what follows them, without
a margin of as many columns, is what was kept. -/
theorem exists_indented_dedent {c : Char} (hc : c ∉ [' ', '\t', '\r', '\n']) (t : Text)
    (column depth : Nat) :
    ∃ v, indent^[depth] (dedent column (c :: t)) = List.replicate (4 * depth) ' ' ++ v ∧
      dedent (4 * depth) v = dedent column (c :: t) := by
  simp only [List.mem_cons, List.not_mem_nil, or_false, not_or] at hc
  obtain ⟨-, -, hr, hn⟩ := hc
  obtain ⟨l, ls, hdedent, hlines⟩ := exists_dedent_eq hr hn t column
  have hdeep : indent^[depth] (joinLines ((c :: l) :: ls)) =
      List.replicate (4 * depth) ' ' ++ joinLines ((c :: l) :: ls.map (deepen depth)) := by
    rw [iterate_indent_joinLines (by simp) (fun k hk => (hlines k hk).1), List.map_cons,
      deepen_of_ne_nil depth (by simp)]
    cases ls <;> simp [joinLines, joinWith]
  refine ⟨joinLines ((c :: l) :: ls.map (deepen depth)), by rw [hdedent, hdeep], ?_⟩
  -- l) :: ls.map (deepen depth))) = :: Shifting a line brings no line feed into it, so the lines
  -- come apart as they were joined.
  have hapart : lines (joinLines ((c :: l) :: ls.map (deepen depth))) =
      (c :: l) :: ls.map (deepen depth) := by
    refine lines_joinLines (by simp) fun k hk => ?_
    rcases List.mem_cons.mp hk with rfl | hk
    · exact (hlines _ (by simp)).1
    · obtain ⟨m, hm, rfl⟩ := List.mem_map.mp hk
      exact not_mem_deepen depth (hlines m (by simp [hm])).1
  have hback :
      (ls.map (deepen depth)).map (fun k => dropReturns (dropMargin (4 * depth) k)) = ls := by
    rw [List.map_map]
    refine (List.map_congr_left fun m hm => ?_).trans (List.map_id ls)
    rw [Function.comp_apply, dropMargin_deepen, (hlines m (by simp [hm])).2]
    rfl
  rw [dedent, hapart, hdedent]
  simp only [(hlines (c :: l) (by simp)).2, hback]

/-- A comment found in column four, with blanks and tabs in its margins, carriage returns and lines
without anything but blanks, indented twice. -/
theorem exists_indented_dedent_mixedLines :
    '(' ∉ [' ', '\t', '\r', '\n'] ∧
      ∃ v, indent^[2] (dedent 4 ('(' :: "* a\r\n \t  b\r\n\r\n     \r\n      c *)".toList)) =
          List.replicate 8 ' ' ++ v ∧
        dedent 8 v = "(* a\nb\n\n \n  c *)".toList := by
  have hplain : dedent 4 ('(' :: "* a\r\n \t  b\r\n\r\n     \r\n      c *)".toList) =
      "(* a\nb\n\n \n  c *)".toList := by decide
  obtain ⟨v, hindent, hdedent⟩ := exists_indented_dedent (c := '(') (by decide)
    "* a\r\n \t  b\r\n\r\n     \r\n      c *)".toList 4 2
  exact ⟨by decide, v, hindent, hdedent.trans hplain⟩

end StructuredText.Text
