import Mathlib.Logic.Function.Iterate
import StructuredText.Text.Lines

/-!
# Indentation and the pieces of a text

Indenting a text writes blanks in front of it and behind its line feeds; nothing else changes. A
piece of the text that has a line feed inside is therefore shifted, and every other piece stays as it
is.

A text holds a row of pieces if it consists of them, in their order, with anything between them. The
functions that make texts of smaller texts keep the pieces of these.

* `Text.indent_eq` — what indenting does, character by character.
* `Text.Piece.shown` — a piece as it stands in a text that was indented.
* `Text.Holds` — a text and its pieces.
* `Text.Holds.indent` — an indented text holds the same pieces, one level deeper.
-/

namespace StructuredText.Text

/-! ## Shifting -/

/-- What indentation writes in front of a line that goes on with a text. -/
def margin : Text → Text
  | [] => []
  | c :: _ => if c = '\n' then [] else indentation

/-- A text whose lines but the first are indented. -/
def shift : Text → Text
  | [] => []
  | c :: cs => if c = '\n' then c :: (margin cs ++ shift cs) else c :: shift cs

variable {t u : Text}

/-- Of the lines of a text, shifting indents all but the first. -/
theorem exists_lines_eq (t : Text) :
    ∃ l ls, t.lines = l :: ls ∧ (if l.isEmpty then l else indentation ++ l) = margin t ++ l ∧
      shift t = joinLines (l :: ls.map fun l => if l.isEmpty then l else indentation ++ l) := by
  induction t with
  | nil => exact ⟨[], [], rfl, rfl, rfl⟩
  | cons c t ih =>
      obtain ⟨l, ls, hlines, hmargin, hshift⟩ := ih
      have hstep : Text.lines (c :: t) = lines.step c (Text.lines t) := rfl
      by_cases hc : c = '\n'
      · refine ⟨[], l :: ls, ?_, ?_, ?_⟩
        · rw [hstep, hlines, lines.step, if_pos hc]
        · simp [margin, hc]
        · cases ls <;> simp_all [shift, joinLines, joinWith]
      · refine ⟨c :: l, ls, ?_, ?_, ?_⟩
        · rw [hstep, hlines, lines.step, if_neg hc]
        · simp [margin, hc]
        · simp [shift, hc, hshift, joinLines, joinWith]

/-- Indenting shifts a text and writes a margin in front of it. -/
theorem indent_eq (t : Text) : t.indent = margin t ++ shift t := by
  obtain ⟨l, ls, hlines, hmargin, hshift⟩ := exists_lines_eq t
  rw [indent, hlines, List.map_cons, hmargin, hshift]
  cases ls <;> simp [joinLines, joinWith]

example : indent "s := 'a\n\nb';".toList = "    s := 'a\n\n    b';".toList := by decide

/-- What is shifted of two texts, one behind the other, is what is shifted of each, and perhaps a
margin between them. -/
theorem exists_shift_append (t u : Text) : ∃ gap, shift (t ++ u) = shift t ++ gap ++ shift u := by
  induction t with
  | nil => exact ⟨[], rfl⟩
  | cons c t ih =>
      obtain ⟨gap, hgap⟩ := ih
      by_cases hc : c = '\n'
      · cases t with
        | nil => exact ⟨margin u, by simp [shift, hc, margin]⟩
        | cons d t =>
            have hmargin : margin (d :: t ++ u) = margin (d :: t) := rfl
            refine ⟨gap, ?_⟩
            rw [List.cons_append, shift, shift, if_pos hc, if_pos hc, hmargin, hgap]
            simp only [List.append_assoc, List.cons_append]
      · refine ⟨gap, ?_⟩
        rw [List.cons_append, shift, shift, if_neg hc, if_neg hc, hgap]
        rfl

/-- A text of one line stays as it is. -/
theorem shift_eq_self (h : '\n' ∉ t) : shift t = t := by
  induction t with
  | nil => rfl
  | cons c t ih =>
      obtain ⟨hc, ht⟩ := List.ne_and_not_mem_of_not_mem_cons h
      rw [shift, if_neg (Ne.symm hc), ih ht]

theorem joinLines_append {ts us : List Text} (ht : ts ≠ []) (hu : us ≠ []) :
    joinLines (ts ++ us) = joinLines ts ++ "\n".toList ++ joinLines us := by
  induction ts with
  | nil => exact absurd rfl ht
  | cons t ts ih =>
      cases ts with
      | nil => simp [joinLines, joinWith, List.intercalate_cons_of_ne_nil hu]
      | cons t' ts => simpa [joinLines, joinWith] using ih (by simp)

/-! ## Pieces -/

/-- A piece of a text that was written on its own and then indented a number of times. -/
structure Piece where
  depth : Nat := 0
  text : Text

namespace Piece

/-- A piece as it stands in the text. -/
def shown (p : Piece) : Text := shift^[p.depth] p.text

/-- A piece that was indented once more. -/
def deeper (p : Piece) : Piece := { p with depth := p.depth + 1 }

@[simp] theorem shown_deeper (p : Piece) : p.deeper.shown = shift p.shown :=
  Function.iterate_succ_apply' shift p.depth p.text

/-- A piece as it was before it was indented. -/
def unshifted (p : Piece) : Piece := { p with depth := 0 }

/-- A piece of one line stands in the text as it was written. -/
theorem shown_unshifted {p : Piece} (h : '\n' ∉ p.text) : p.unshifted.shown = p.shown :=
  (Function.iterate_fixed (shift_eq_self h) p.depth).symm

end Piece

/-- The text consists of the pieces, one behind the other, and of gaps. -/
inductive Holds : List Piece → Text → Prop where
  | done (t : Text) : Holds [] t
  | next (gap : Text) (p : Piece) {ps : List Piece} {t : Text} (h : Holds ps t) :
      Holds (p :: ps) (gap ++ p.shown ++ t)

namespace Holds

variable {ps qs : List Piece}

/-- A text is a piece of itself. -/
theorem self (t : Text) : Holds [{ text := t }] t := by
  simpa [Piece.shown] using next [] { text := t } (done [])

/-- What stands in front of a text is part of the first gap. -/
theorem before (gap : Text) (h : Holds ps t) : Holds ps (gap ++ t) := by
  cases h with
  | done => exact .done _
  | next gap' p h => simpa using next (gap ++ gap') p h

theorem append (h : Holds ps t) (h' : Holds qs u) : Holds (ps ++ qs) (t ++ u) := by
  induction h with
  | done t => exact h'.before t
  | next gap p _ ih => simpa using next gap p ih

theorem after (gap : Text) (h : Holds ps t) : Holds ps (t ++ gap) := by
  simpa using h.append (done gap)

/-- Shifting a text shifts its pieces. -/
theorem shift (h : Holds ps t) : Holds (ps.map Piece.deeper) t.shift := by
  induction h with
  | done t => exact .done _
  | @next gap p ps t h ih =>
      obtain ⟨gap₁, hgap₁⟩ := exists_shift_append (gap ++ p.shown) t
      obtain ⟨gap₂, hgap₂⟩ := exists_shift_append gap p.shown
      rw [hgap₁, hgap₂, List.append_assoc _ gap₁, ← p.shown_deeper]
      exact next _ _ (ih.before gap₁)

/-- Indenting a text shifts its pieces. -/
theorem indent (h : Holds ps t) : Holds (ps.map Piece.deeper) t.indent := by
  rw [indent_eq]
  exact h.shift.before _

/-- Pieces of one line stand in the text as they were written. -/
theorem unshifted (h : Holds ps t) (hline : ∀ p ∈ ps, '\n' ∉ p.text) :
    Holds (ps.map Piece.unshifted) t := by
  induction h with
  | done t => exact .done t
  | next gap p h ih =>
      rw [← Piece.shown_unshifted (hline p (by simp))]
      exact next gap _ (ih fun q hq => hline q (by simp [hq]))

/-! ### Joined texts -/

variable {sep : Text} {ts us : List Text}

theorem joinWith_cons (h : Holds ps t) (hs : Holds qs (joinWith sep ts)) :
    Holds (ps ++ qs) (joinWith sep (t :: ts)) := by
  cases ts with
  | nil => simpa [joinWith] using h.append hs
  | cons u us =>
      rw [joinWith, List.intercalate_cons_cons]
      exact (h.after sep).append hs

/-- The texts of the elements of a list, joined, hold the pieces of the elements. -/
theorem joinWith_map {α : Type} {pieces : α → List Piece} {text : α → Text} (sep : Text)
    (h : ∀ x, Holds (pieces x) (text x)) (xs : List α) :
    Holds (xs.flatMap pieces) (joinWith sep (xs.map text)) := by
  induction xs with
  | nil => exact .done _
  | cons x xs ih =>
      rw [List.map_cons, List.flatMap_cons]
      exact (h x).joinWith_cons ih

/-- The text of something that may be missing holds its pieces. -/
theorem optional {α : Type} {pieces : α → List Piece} {text : α → Text}
    (h : ∀ x, Holds (pieces x) (text x)) (o : Option α) :
    Holds (o.elim [] pieces) (Text.optional text o) := by
  cases o with
  | none => exact .done _
  | some x => exact h x

/-! ### Lines -/

/-- A text that is one of the lines to come. -/
theorem line (h : Holds ps t) : Holds ps (joinLines [t]) := by
  rwa [joinLines, joinWith, List.intercalate_singleton]

theorem lines_append (h : Holds ps (joinLines ts)) (h' : Holds qs (joinLines us)) :
    Holds (ps ++ qs) (joinLines (ts ++ us)) := by
  by_cases hts : ts = []
  · subst hts
    simpa [joinLines, joinWith] using h.append h'
  by_cases hus : us = []
  · subst hus
    simpa [joinLines, joinWith] using h.append h'
  rw [joinLines_append hts hus]
  exact (h.after "\n".toList).append h'

theorem lines_before (us : List Text) (h : Holds ps (joinLines ts)) :
    Holds ps (joinLines (us ++ ts)) :=
  (done _).lines_append h

theorem lines_after (us : List Text) (h : Holds ps (joinLines ts)) :
    Holds ps (joinLines (ts ++ us)) := by
  simpa using h.lines_append (done (joinLines us))

end Holds

end StructuredText.Text
