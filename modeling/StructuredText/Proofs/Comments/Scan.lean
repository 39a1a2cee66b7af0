import StructuredText.Comment.Scan
import StructuredText.Proofs.Grammar.Depth
import StructuredText.Proofs.Text.LineIndex

/-!
# The comments of a text are in order

The scan of a text goes forward with every step, so the comments that it finds start one behind the
other, and on lines that do not go back.

* `Comment.step?_cases` — what one step of the scan does.
* `Comment.found` — what the scan finds from a cursor on, however many steps it may take.
* `Text.pairwise_comments` — the comments of a text, in order of their starts and of their lines.
-/

namespace StructuredText

open Grammar

namespace Comment

variable {lines : LineIndex} {bound : Text} {s s₁ : Cursor}

/-! ## One step -/

/-- What one step of the scan does: at the end of the text there is none, else it reads a string
literal, a comment or a character. -/
theorem step?_cases (lines : LineIndex) (s : Cursor) :
    (s.rest = [] ∧ step? lines s = none) ∨
    ∃ c t s₁, s.Reads (c :: t) s₁ ∧
      ((Lexicon.stringLiteral.run s = some s₁ ∧ step? lines s = some (s₁, none)) ∨
      (Lexicon.stringLiteral.run s = none ∧ Lexicon.comment.run s = some s₁ ∧
        step? lines s = some (s₁, some (.between lines s s₁))) ∨
      (t = [] ∧ Lexicon.stringLiteral.run s = none ∧ Lexicon.comment.run s = none ∧
        step? lines s = some (s₁, none))) := by
  -- A string is tried in front of a comment, and a comment in front of a character.
  cases hl : Lexicon.stringLiteral.run s with
  | some s₁ =>
      obtain ⟨t, ht, hspells⟩ := Pattern.run_spells hl
      obtain ⟨c, t, rfl⟩ := List.exists_cons_of_ne_nil
        (Pattern.ne_nil_of_consumes (by decide) hspells)
      exact .inr ⟨c, t, s₁, ht, .inl ⟨rfl, by simp [step?, hl]⟩⟩
  | none =>
      cases hc : Lexicon.comment.run s with
      | some s₁ =>
          obtain ⟨t, ht, hspells⟩ := Pattern.run_spells hc
          obtain ⟨c, t, rfl⟩ := List.exists_cons_of_ne_nil
            (Pattern.ne_nil_of_consumes (by decide) hspells)
          exact .inr ⟨c, t, s₁, ht, .inr (.inl ⟨rfl, rfl, by simp [step?, hl, hc]⟩)⟩
      | none =>
          obtain ⟨offset, _ | ⟨c, cs⟩⟩ := s
          · exact .inl ⟨rfl, by simp [step?, hl, hc]⟩
          · refine .inr ⟨c, [], ⟨offset + c.utf8Size, cs⟩, ⟨rfl, by simp⟩, ?_⟩
            exact .inr (.inr ⟨rfl, rfl, rfl, by simp [step?, hl, hc]⟩)

theorem step?_of_string (hl : Lexicon.stringLiteral.run s = some s₁) :
    step? lines s = some (s₁, none) := by
  simp [step?, hl]

theorem step?_of_comment (hl : Lexicon.stringLiteral.run s = none)
    (hc : Lexicon.comment.run s = some s₁) :
    step? lines s = some (s₁, some (.between lines s s₁)) := by
  simp [step?, hl, hc]

/-- Where neither a string nor a comment starts, a step of the scan reads one character. -/
theorem step?_of_none {offset : Nat} {c : Char} {rest : Text}
    (hl : Lexicon.stringLiteral.run ⟨offset, c :: rest⟩ = none)
    (hc : Lexicon.comment.run ⟨offset, c :: rest⟩ = none) :
    step? lines ⟨offset, c :: rest⟩ = some (⟨offset + c.utf8Size, rest⟩, none) := by
  simp [step?, hl, hc]

/-! ## The order of the comments -/

/-- One round of the scan: nothing is found, or the scan goes on further behind, with or without a
comment found on the way. -/
theorem scan_cons_cases (lines : LineIndex) (x : Char) (bound : Text) (s : Cursor) :
    scan lines (x :: bound) s = [] ∨ ∃ s₁, s.offset < s₁.offset ∧
      (scan lines (x :: bound) s = scan lines bound s₁ ∨
        scan lines (x :: bound) s = .between lines s s₁ :: scan lines bound s₁) := by
  rw [scan]
  rcases step?_cases lines s with ⟨-, hs⟩ | ⟨c, t, s₁, ht, h⟩
  · exact .inl (by rw [hs])
  have hlt : s.offset < s₁.offset := by
    have := c.utf8Size_pos
    rw [ht.offset, Text.byteLength_cons]
    omega
  refine .inr ⟨s₁, hlt, ?_⟩
  rcases h with ⟨-, hs⟩ | ⟨-, -, hs⟩ | ⟨-, -, -, hs⟩
  · exact .inl (by rw [hs])
  · exact .inr (by rw [hs])
  · exact .inl (by rw [hs])

/-- The comments that the scan finds from a cursor on start there or later, each on the line of its
start. -/
theorem of_mem_scan {c : Comment} (hc : c ∈ scan lines bound s) :
    s.offset ≤ c.span.start ∧ c.line = lines.lineOf c.span.start := by
  induction bound generalizing s with
  | nil => simp [scan] at hc
  | cons x bound ih =>
      rcases scan_cons_cases lines x bound s with h | ⟨s₁, hlt, h | h⟩
      · simp [h] at hc
      · rw [h] at hc
        exact ⟨Nat.le_trans (Nat.le_of_lt hlt) (ih hc).1, (ih hc).2⟩
      · rw [h] at hc
        rcases List.mem_cons.mp hc with rfl | hc
        · exact ⟨Nat.le_refl _, rfl⟩
        · exact ⟨Nat.le_trans (Nat.le_of_lt hlt) (ih hc).1, (ih hc).2⟩

/-- The comments that the scan finds start one behind the other. -/
theorem pairwise_scan : (scan lines bound s).Pairwise (·.span.start < ·.span.start) := by
  induction bound generalizing s with
  | nil => exact .nil
  | cons x bound ih =>
      rcases scan_cons_cases lines x bound s with h | ⟨s₁, hlt, h | h⟩
      · rw [h]
        exact .nil
      · rw [h]
        exact ih
      · rw [h]
        exact .cons (fun c hc => Nat.lt_of_lt_of_le hlt (of_mem_scan hc).1) ih

/-! ## The scan without its bound -/

/-- A step of the scan reads something. -/
theorem length_lt_of_step? {c : Option Comment} (h : step? lines s = some (s₁, c)) :
    s₁.rest.length < s.rest.length := by
  rcases step?_cases lines s with ⟨-, hs⟩ | ⟨x, t, s₂, hreads, hs⟩
  · rw [hs] at h
    cases h
  · have hstop : s₂ = s₁ := by
      rcases hs with ⟨-, hs⟩ | ⟨-, -, hs⟩ | ⟨-, -, -, hs⟩
      all_goals
        rw [hs] at h
        exact congrArg Prod.fst (Option.some.inj h)
    rw [hreads.rest, ← hstop, List.length_append, List.length_cons]
    omega

/-- With enough steps, the bound of the scan does not matter. -/
theorem scan_bound {bound bound' : Text} (h : s.rest.length ≤ bound.length)
    (h' : s.rest.length ≤ bound'.length) : scan lines bound s = scan lines bound' s := by
  have hstays {s : Cursor} (bound : Text) (hs : step? lines s = none) :
      scan lines bound s = [] := by
    cases bound <;> simp [scan, hs]
  -- Every step reads something, so neither bound is used up before the text is.
  induction bound generalizing s bound' with
  | nil =>
      cases hs : step? lines s with
      | none => rw [hstays _ hs, hstays _ hs]
      | some x =>
          have hlt := length_lt_of_step? hs
          rw [List.length_nil] at h
          omega
  | cons _ bound ih =>
      cases hs : step? lines s with
      | none => rw [hstays _ hs, hstays _ hs]
      | some x =>
          obtain ⟨s₁, c⟩ := x
          have hlt := length_lt_of_step? hs
          cases bound' with
          | nil =>
              rw [List.length_nil] at h'
              omega
          | cons _ bound' =>
              rw [List.length_cons] at h h'
              have hrest : scan lines bound s₁ = scan lines bound' s₁ := ih (by omega) (by omega)
              cases c <;> simp [scan, hs, hrest]

/-- The comments from a cursor on. -/
def found (lines : LineIndex) (s : Cursor) : List Comment := scan lines s.rest s

theorem found_of_none (h : step? lines s = none) : found lines s = [] := by
  rw [found]
  cases s.rest <;> simp [scan, h]

theorem found_of_step {c : Option Comment} (h : step? lines s = some (s₁, c)) :
    found lines s = c.toList ++ found lines s₁ := by
  have hlt := length_lt_of_step? h
  rw [found, found]
  cases hrest : s.rest with
  | nil =>
      rw [hrest, List.length_nil] at hlt
      omega
  | cons x rest =>
      rw [hrest, List.length_cons] at hlt
      have hbound : scan lines rest s₁ = scan lines s₁.rest s₁ :=
        scan_bound (by omega) (Nat.le_refl _)
      cases c <;> simp [scan, h, hbound]

end Comment

/-- The comments of a text start one behind the other. -/
theorem Text.pairwise_comments (t : Text) :
    t.comments.Pairwise (·.span.start < ·.span.start) := Comment.pairwise_scan

/-- The comments of a text are on lines that do not go back. -/
theorem Text.pairwise_line_comments (t : Text) : t.comments.Pairwise (·.line ≤ ·.line) := by
  refine (List.Pairwise.and_mem.mp t.pairwise_comments).imp fun {c d} h => ?_
  obtain ⟨hc, hd, hlt⟩ := h
  rw [(Comment.of_mem_scan hc).2, (Comment.of_mem_scan hd).2]
  exact LineIndex.lineOf_mono (LineIndex.pairwise_ofText t) (Nat.le_of_lt hlt)

end StructuredText
