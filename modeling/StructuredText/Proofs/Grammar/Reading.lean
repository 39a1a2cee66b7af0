import StructuredText.Grammar.Pattern

/-!
# What a pattern reads

A match of a pattern reads a piece of text: the text in front of the cursor is that piece followed
by the text behind it, and the offset grows by the bytes of the piece. `Pattern.Spells` says which
pieces these can be, without looking at what follows.

* `Cursor.Reads` — the piece between two cursors; `Cursor.Reads.upTo` gives it back.
* `Pattern.run_spells` — a match reads a piece that the pattern spells.
-/

namespace StructuredText

/-! ## Bytes -/

namespace Text

@[simp] theorem byteLength_nil : byteLength [] = 0 := rfl

@[simp] theorem byteLength_cons (c : Char) (t : Text) :
    byteLength (c :: t) = c.utf8Size + byteLength t := rfl

@[simp] theorem byteLength_append (t u : Text) :
    byteLength (t ++ u) = byteLength t + byteLength u := by
  induction t with
  | nil => simp
  | cons c t ih => simp [ih, Nat.add_assoc]

theorem byteLength_pos {t : Text} (ht : t ≠ []) : 0 < byteLength t := by
  obtain ⟨c, t, rfl⟩ := List.exists_cons_of_ne_nil ht
  have hpos := c.utf8Size_pos
  rw [byteLength_cons]
  omega

/-- The bytes of a prefix cut that prefix off. -/
theorem takeBytes?_append (t u : Text) : takeBytes? (byteLength t) (t ++ u) = some t := by
  induction t with
  | nil => cases u <;> rfl
  | cons c t ih =>
      have hpos := c.utf8Size_pos
      simp only [List.cons_append, byteLength_cons, takeBytes?]
      rw [if_neg (by omega), if_pos (by omega), Nat.add_sub_cancel_left, ih]
      rfl

end Text

/-! ## Pieces between cursors -/

/-- The text `t` stands between the cursors `a` and `b`. -/
structure Cursor.Reads (a : Cursor) (t : Text) (b : Cursor) : Prop where
  rest : a.rest = t ++ b.rest
  offset : b.offset = a.offset + t.byteLength

namespace Cursor.Reads

variable {a b c : Cursor} {t u : Text}

theorem refl (a : Cursor) : a.Reads [] a := ⟨rfl, rfl⟩

theorem trans (h : a.Reads t b) (h' : b.Reads u c) : a.Reads (t ++ u) c where
  rest := by rw [h.rest, h'.rest, List.append_assoc]
  offset := by rw [h'.offset, h.offset, Text.byteLength_append]; omega

theorem upTo (h : a.Reads t b) : a.upTo b = t := by
  have hb : b.offset - a.offset = t.byteLength := by rw [h.offset]; omega
  rw [Cursor.upTo, hb, h.rest, Text.takeBytes?_append]
  rfl

/-- Where the same text is read, the same cursor is reached. -/
theorem unique (h : a.Reads t b) (h' : a.Reads t c) : b = c := by
  obtain ⟨offset, rest⟩ := b
  obtain ⟨offset', rest'⟩ := c
  obtain rfl : offset = offset' := h.offset.trans h'.offset.symm
  obtain rfl : rest = rest' := List.append_cancel_left (h.rest.symm.trans h'.rest)
  rfl

theorem eq_of_nil (h : a.Reads [] b) : a = b := (refl a).unique h

/-- A cursor stands behind every beginning of what is read. -/
theorem split (t : Text) (h : a.Reads (t ++ u) c) : ∃ b, a.Reads t b ∧ b.Reads u c := by
  refine ⟨⟨a.offset + t.byteLength, u ++ c.rest⟩, ⟨?_, rfl⟩, rfl, ?_⟩
  · rw [h.rest, List.append_assoc]
  · rw [h.offset, Text.byteLength_append, Nat.add_assoc]

theorem length_le (h : a.Reads t b) : b.rest.length ≤ a.rest.length := by
  rw [h.rest, List.length_append]; omega

end Cursor.Reads

namespace Grammar.Pattern

/-! ## The pieces of a pattern -/

/-- The pieces of text that a pattern can read. -/
def Spells : Pattern → Text → Prop
  | .empty, t => t = []
  | .char test, t => ∃ c, test c = true ∧ t = [c]
  | .seq p q, t => ∃ u v, p.Spells u ∧ q.Spells v ∧ t = u ++ v
  | .alt p q, t => p.Spells t ∨ q.Spells t
  | .star p, t => ∃ ts : List Text, (∀ u ∈ ts, p.Spells u) ∧ t = ts.flatten
  | .notAhead _, t => t = []

/-- Steps that each read a spelled piece read a row of such pieces. -/
theorem repeatedly_spells {step : Cursor → Option Cursor} {Piece : Text → Prop}
    (hstep : ∀ s s', step s = some s' → ∃ t, s.Reads t s' ∧ Piece t) (bound : Text) (s : Cursor) :
    ∃ ts : List Text, (∀ u ∈ ts, Piece u) ∧ s.Reads ts.flatten (repeatedly step bound s) := by
  induction bound generalizing s with
  | nil => exact ⟨[], by simp, .refl s⟩
  | cons _ bound ih =>
      cases h : step s with
      | none => exact ⟨[], by simp, by simpa [repeatedly, h] using .refl s⟩
      | some s' =>
          obtain ⟨t, hread, ht⟩ := hstep s s' h
          obtain ⟨ts, hts, hreads⟩ := ih s'
          refine ⟨t :: ts, ?_, ?_⟩
          · intro u hu
            rcases List.mem_cons.mp hu with rfl | hu
            · exact ht
            · exact hts u hu
          · simpa [repeatedly, h] using hread.trans hreads

/-- A match reads a piece that the pattern spells. -/
theorem run_spells {p : Pattern} {s s' : Cursor} (h : p.run s = some s') :
    ∃ t, s.Reads t s' ∧ p.Spells t := by
  induction p generalizing s s' with
  | empty =>
      obtain rfl : s = s' := by simpa [run] using h
      exact ⟨[], .refl s, rfl⟩
  | char test =>
      obtain ⟨offset, _ | ⟨c, cs⟩⟩ := s
      · simp [run] at h
      · obtain ⟨hc, rfl⟩ : test c = true ∧ (⟨offset + c.utf8Size, cs⟩ : Cursor) = s' := by
          simpa [run] using h
        exact ⟨[c], ⟨rfl, by simp⟩, c, hc, rfl⟩
  | seq p q ihp ihq =>
      obtain ⟨s₁, hp, hq⟩ := Option.bind_eq_some_iff.mp h
      obtain ⟨t, ht, hpt⟩ := ihp hp
      obtain ⟨u, hu, hqu⟩ := ihq hq
      exact ⟨t ++ u, ht.trans hu, t, u, hpt, hqu, rfl⟩
  | alt p q ihp ihq =>
      rcases Option.or_eq_some_iff.mp h with hp | ⟨-, hq⟩
      · obtain ⟨t, ht, hpt⟩ := ihp hp
        exact ⟨t, ht, .inl hpt⟩
      · obtain ⟨t, ht, hqt⟩ := ihq hq
        exact ⟨t, ht, .inr hqt⟩
  | star p ih =>
      obtain rfl : repeatedly p.run s.rest s = s' := by simpa [run] using h
      obtain ⟨ts, hts, hread⟩ := repeatedly_spells (fun _ _ => ih) s.rest s
      exact ⟨ts.flatten, hread, ts, hts, rfl⟩
  -- What is only looked at reads nothing.
  | notAhead p =>
      obtain ⟨-, rfl⟩ : _ ∧ s = s' := by simpa [run] using h
      exact ⟨[], .refl s, rfl⟩

/-- What a row of patterns reads is read one after the other. -/
theorem all_cons_spells {p : Pattern} {ps : List Pattern} {t : Text} :
    (all (p :: ps)).Spells t ↔ ∃ u v, p.Spells u ∧ (all ps).Spells v ∧ t = u ++ v := by
  cases ps with
  | nil => simp [all, Spells]
  | cons q ps => rfl

/-- The boundary behind a pattern reads nothing. -/
theorem spells_boundary {p q : Pattern} {t : Text} (h : (seq p (notAhead q)).Spells t) :
    p.Spells t := by
  obtain ⟨u, v, hu, rfl, rfl⟩ := h
  rwa [List.append_nil]

/-- A fixed spelling is read as it is. -/
theorem text_spells {w t : Text} (h : (text w).Spells t) : t = w := by
  induction w generalizing t with
  | nil => exact h
  | cons c w ih =>
      obtain ⟨_, v, ⟨d, hd, rfl⟩, hv, rfl⟩ := all_cons_spells.mp h
      rw [ih hv, beq_iff_eq.mp hd]
      rfl

/-- Where a fixed spelling matches, it is read. -/
theorem reads_of_run_text {w : Text} {s s' : Cursor} (h : (text w).run s = some s') :
    s.Reads w s' := by
  obtain ⟨t, hreads, hspells⟩ := run_spells h
  rwa [text_spells hspells] at hreads

/-- A word is read in any case. -/
theorem word_spells {w t : Text} (h : (word w).Spells t) : t.upperCase = w.upperCase := by
  induction w generalizing t with
  | nil =>
      obtain rfl : t = [] := h
      rfl
  | cons c w ih =>
      obtain ⟨_, v, ⟨d, hd, rfl⟩, hv, rfl⟩ := all_cons_spells.mp h
      have hd : d.toUpper = c.toUpper := by simpa using hd
      have hv : Text.upperCase v = Text.upperCase w := ih hv
      simp only [Text.upperCase, List.cons_append, List.nil_append, List.map_cons] at hv ⊢
      rw [hd, hv]

end Grammar.Pattern

end StructuredText
