import Mathlib.Data.List.Forall2
import StructuredText.Proofs.Text.LineIndex
import StructuredText.Text.Lines

/-!
# Carriage returns in front of line feeds

A text whose lines end in a line feed alone can be written with a carriage return in front of each.
Every place of the text has its place in the other one, further behind by one byte for each line feed
in front of it, and on the same line and in the same column.

* `Text.withReturns`, `Cursor.withReturns` — the text and its places.
* `Cursor.Reads.withReturns` — what is read between two places.
* `LineIndex.lineOf_withReturns`, `LineIndex.columnOf_withReturns` — lines and columns stay.
* `Text.dedent_withReturns` — without its margin, a text of several lines is the same.
-/

namespace StructuredText

namespace Text

/-- The text with a carriage return in front of each line feed. -/
def withReturns (t : Text) : Text := t.flatMap fun c => if c = '\n' then ['\r', '\n'] else [c]

variable {t u : Text} {c : Char}

@[simp] theorem withReturns_nil : withReturns [] = [] := rfl

@[simp] theorem withReturns_feed : withReturns ('\n' :: t) = '\r' :: '\n' :: withReturns t := rfl

theorem withReturns_cons (hc : c ≠ '\n') : withReturns (c :: t) = c :: withReturns t := by
  rw [withReturns, List.flatMap_cons, if_neg hc]
  rfl

@[simp] theorem withReturns_append : withReturns (t ++ u) = withReturns t ++ withReturns u :=
  List.flatMap_append

/-- A text of one line stays as it is. -/
theorem withReturns_eq_self (h : '\n' ∉ t) : withReturns t = t := by
  induction t with
  | nil => rfl
  | cons c t ih =>
      obtain ⟨hc, ht⟩ := List.ne_and_not_mem_of_not_mem_cons h
      rw [withReturns_cons hc.symm, ih ht]

theorem byteLength_withReturns (t : Text) :
    byteLength (withReturns t) = byteLength t + t.count '\n' := by
  induction t with
  | nil => rfl
  | cons c t ih =>
      by_cases hc : c = '\n'
      · subst hc
        have hsize : Char.utf8Size '\r' = 1 ∧ Char.utf8Size '\n' = 1 := ⟨rfl, rfl⟩
        rw [withReturns_feed, byteLength_cons, byteLength_cons, byteLength_cons, ih,
          List.count_cons_self]
        omega
      · rw [withReturns_cons hc, byteLength_cons, byteLength_cons, ih,
          List.count_cons_of_ne (by simpa using hc)]
        omega

@[simp] theorem count_withReturns (t : Text) : (withReturns t).count '\n' = t.count '\n' := by
  induction t with
  | nil => rfl
  | cons c t ih =>
      by_cases hc : c = '\n'
      · subst hc
        rw [withReturns_feed, List.count_cons_of_ne (by decide), List.count_cons_self,
          List.count_cons_self, ih]
      · rw [withReturns_cons hc, List.count_cons_of_ne (by simpa using hc),
          List.count_cons_of_ne (by simpa using hc), ih]

/-- A text is one line, or its last line stands behind a line feed. -/
theorem last_line_cases (t : Text) :
    '\n' ∉ t ∨ ∃ before l, t = before ++ '\n' :: l ∧ '\n' ∉ l := by
  induction t with
  | nil => exact .inl (by simp)
  | cons c t ih =>
      rcases ih with ht | ⟨before, l, rfl, hl⟩
      · by_cases hc : c = '\n'
        · subst hc
          exact .inr ⟨[], t, rfl, ht⟩
        · exact .inl (by simp [Ne.symm hc, ht])
      · exact .inr ⟨c :: before, l, rfl, hl⟩

/-! ## Lines without their margin -/

/-- A line, or the line with a carriage return at its end. -/
def Ended (l k : Text) : Prop := k = l ∨ k = l ++ ['\r']

theorem ended_lines (t : Text) : List.Forall₂ Ended (lines t) (lines (withReturns t)) := by
  have hstep (c : Char) (u : Text) : lines (c :: u) = lines.step c (lines u) := rfl
  have hcons {c : Char} (hc : c ≠ '\n') {ls ks : List Text} (h : List.Forall₂ Ended ls ks) :
      List.Forall₂ Ended (lines.step c ls) (lines.step c ks) := by
    cases h with
    | nil =>
        rw [lines.step, if_neg hc]
        exact .cons (.inl rfl) .nil
    | cons hl hls =>
        rw [lines.step, lines.step, if_neg hc, if_neg hc]
        refine .cons ?_ hls
        rcases hl with rfl | rfl
        · exact .inl rfl
        · exact .inr rfl
  induction t with
  | nil => exact .cons (.inl rfl) .nil
  | cons c t ih =>
      by_cases hc : c = '\n'
      -- The carriage return ends up on the line in front of the line feed.
      · subst hc
        rw [withReturns_feed, hstep, hstep, hstep]
        generalize lines t = ls, lines (withReturns t) = ks at ih ⊢
        cases ih with
        | nil =>
            have hnil : lines.step '\r' (lines.step '\n' []) = [['\r'], []] := rfl
            rw [hnil]
            exact .cons (.inr rfl) (.cons (.inl rfl) .nil)
        | @cons l k ls ks hl hls =>
            have hk : lines.step '\r' (lines.step '\n' (k :: ks)) = ['\r'] :: k :: ks := rfl
            rw [hk]
            exact .cons (.inr rfl) (.cons hl hls)
      · rw [withReturns_cons hc, hstep, hstep]
        exact hcons hc ih

theorem Ended.dropMargin {l k : Text} (h : Ended l k) (n : Nat) :
    Ended (dropMargin n l) (dropMargin n k) := by
  rcases h with rfl | rfl
  · exact .inl rfl
  · induction n generalizing l with
    | zero => exact .inr rfl
    | succ n ih =>
        cases l with
        | nil => exact .inr rfl
        | cons c l =>
            rw [List.cons_append, Text.dropMargin, Text.dropMargin]
            split
            · exact ih
            · exact .inr rfl

theorem Ended.dropReturns {l k : Text} (h : Ended l k) : dropReturns k = dropReturns l := by
  rcases h with rfl | rfl
  · rfl
  · rw [Text.dropReturns, Text.dropReturns, List.reverse_append]
    rfl

/-- Taking the margin off a text of several lines takes its carriage returns off as well. -/
theorem dedent_withReturns (column : Nat) (t : Text) :
    dedent column (withReturns t) = dedent column t := by
  have h := ended_lines t
  rw [dedent, dedent]
  cases hls : lines t <;> cases hks : lines (withReturns t) <;> rw [hls, hks] at h
  case nil.cons | cons.nil => cases h
  case cons.cons l ls k ks =>
    obtain ⟨hl, hrest⟩ := List.forall₂_cons.mp h
    have hmap : ks.map (fun k => dropReturns (dropMargin column k)) =
        ls.map fun l => dropReturns (dropMargin column l) := by
      clear hls hks h
      induction hrest with
      | nil => rfl
      | cons hl _ ih => rw [List.map_cons, List.map_cons, (hl.dropMargin column).dropReturns, ih]
    simp only [hl.dropReturns, hmap]

end Text

/-! ## Places -/

namespace Cursor

/-- The place of a cursor in the text with carriage returns; `feeds` is the number of line feeds of
the whole text. -/
def withReturns (feeds : Nat) (s : Cursor) : Cursor :=
  ⟨s.offset + (feeds - s.rest.count '\n'), s.rest.withReturns⟩

/-- There are no carriage returns ahead, and no more line feeds than there are in the whole text. -/
structure Plain (feeds : Nat) (s : Cursor) : Prop where
  no_returns : '\r' ∉ s.rest
  feeds_le : s.rest.count '\n' ≤ feeds

variable {feeds : Nat} {s s' : Cursor} {t : Text}

theorem withReturns_cursor (t : Text) :
    t.cursor.withReturns (t.count '\n') = t.withReturns.cursor := by
  rw [withReturns, Text.cursor, Text.cursor, Nat.sub_self]

theorem plain_cursor (h : '\r' ∉ t) : t.cursor.Plain (t.count '\n') := ⟨h, Nat.le_refl _⟩

theorem Plain.of_reads (hs : s.Plain feeds) (h : s.Reads t s') : s'.Plain feeds := by
  obtain ⟨hreturns, hfeeds⟩ := hs
  rw [h.rest] at hreturns hfeeds
  rw [List.count_append] at hfeeds
  exact ⟨fun hmem => hreturns (List.mem_append_right t hmem), by omega⟩

/-- What is read between two cursors is read, with carriage returns, between their places. -/
theorem Reads.withReturns (h : s.Reads t s') (hs : s.Plain feeds) :
    (s.withReturns feeds).Reads t.withReturns (s'.withReturns feeds) := by
  have hle := hs.feeds_le
  have hoffset := h.offset
  constructor
  · show s.rest.withReturns = t.withReturns ++ s'.rest.withReturns
    rw [h.rest, Text.withReturns_append]
  · show s'.offset + (feeds - s'.rest.count '\n') =
      s.offset + (feeds - s.rest.count '\n') + t.withReturns.byteLength
    rw [h.rest, List.count_append] at hle ⊢
    rw [Text.byteLength_withReturns]
    omega

/-- In front of a line feed: the places in front of the carriage return, and behind the line feed. -/
theorem withReturns_feed {offset : Nat} {t : Text} (hs : Plain feeds ⟨offset, '\n' :: t⟩) :
    withReturns feeds ⟨offset + 1, t⟩ =
      ⟨(withReturns feeds ⟨offset, '\n' :: t⟩).offset + 2, t.withReturns⟩ := by
  have hle := hs.feeds_le
  simp only [List.count_cons_self] at hle
  simp only [withReturns, List.count_cons_self, Cursor.mk.injEq, and_true]
  omega

/-- In front of any other character. -/
theorem withReturns_cons {offset : Nat} {c : Char} {t : Text} (hc : c ≠ '\n') :
    withReturns feeds ⟨offset + c.utf8Size, t⟩ =
      ⟨(withReturns feeds ⟨offset, c :: t⟩).offset + c.utf8Size, t.withReturns⟩ := by
  have hcount : (c :: t).count '\n' = t.count '\n' := List.count_cons_of_ne (by simpa using hc)
  simp only [withReturns, hcount, Cursor.mk.injEq, and_true]
  omega

end Cursor

/-! ## Lines and columns -/

namespace LineIndex

variable {source before : Text} {s : Cursor}

/-- The offset of a place is the number of bytes in front of it. -/
theorem offset_withReturns (h : source.cursor.Reads before s) :
    (s.withReturns (source.count '\n')).offset = before.withReturns.byteLength := by
  have hoffset : s.offset = 0 + before.byteLength := h.offset
  have hrest : source = before ++ s.rest := h.rest
  rw [Cursor.withReturns, Text.byteLength_withReturns, hrest, List.count_append]
  show s.offset + _ = _
  omega

theorem lineOf_withReturns (h : source.cursor.Reads before s) :
    (ofText source.withReturns).lineOf (s.withReturns (source.count '\n')).offset =
      (ofText source).lineOf s.offset := by
  have hoffset : s.offset = 0 + before.byteLength := h.offset
  have hrest : source = before ++ s.rest := h.rest
  rw [offset_withReturns h, hoffset, Nat.zero_add, hrest, Text.withReturns_append, lineOf_ofText,
    lineOf_ofText, Text.count_withReturns]

theorem columnOf_withReturns (h : source.cursor.Reads before s) :
    (ofText source.withReturns).columnOf (s.withReturns (source.count '\n')).offset =
      (ofText source).columnOf s.offset := by
  have hoffset : s.offset = 0 + before.byteLength := h.offset
  have hrest : source = before ++ s.rest := h.rest
  rw [offset_withReturns h, hoffset, Nat.zero_add, hrest, Text.withReturns_append]
  rcases before.last_line_cases with hl | ⟨upper, l, rfl, hl⟩
  · rw [Text.withReturns_eq_self hl, columnOf_ofText_first hl, columnOf_ofText_first hl]
  · have hsplit : (upper ++ '\n' :: l).withReturns = upper.withReturns ++ ['\r'] ++ '\n' :: l := by
      rw [Text.withReturns_append, Text.withReturns_feed, Text.withReturns_eq_self hl,
        List.append_assoc]
      rfl
    rw [hsplit, columnOf_ofText hl, columnOf_ofText hl]

end LineIndex

end StructuredText
