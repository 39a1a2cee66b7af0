import StructuredText.Proofs.Blanking.Texts

/-!
# Between the marks

A cursor between two marks of a text has its place in the text with blank comments: what is ahead of
it is blanked, and it is on the same line. Marks that are no comments stand between the places of
their ends as they stand in the text.

* `Cursor.Passes` — from a cursor to another over whole marks.
* `Text.Edge` — a cursor between two marks of a text.
* `Cursor.blanked` — the place of a cursor in the text with blank comments.
* `Text.Edge.reads`, `Text.Edge.lineOf_blanked` — what stands between two places, and on which line.
-/

namespace StructuredText

open Grammar Comment

/-! ## Marks passed -/

/-- The second cursor is reached from the first over whole marks, and over comments only where they
are allowed. -/
inductive Cursor.Passes (comments : Bool) : Cursor → Cursor → Prop where
  | refl (s : Cursor) : Passes comments s s
  | mark {k : MarkKind} {t : Text} {s s₁ s' : Cursor} (hk : k = .comment → comments = true)
      (hreads : s.Reads t s₁) (hfits : k.Fits t s₁.rest) (hrest : Passes comments s₁ s') :
      Passes comments s s'

/-- A cursor between two marks of the text. -/
def Text.Edge (source : Text) (s : Cursor) : Prop := source.cursor.Passes true s

/-- The place of a cursor in the text with blanks for the comments. -/
def Cursor.blanked (source : Text) (s : Cursor) : Cursor :=
  ⟨source.blanked.byteLength - s.rest.blanked.byteLength, s.rest.blanked⟩

namespace Cursor.Passes

variable {comments : Bool} {k : MarkKind} {t : Text} {s s₁ s' : Cursor}

theorem trans (h : s.Passes comments s₁) (h' : s₁.Passes comments s') : s.Passes comments s' := by
  induction h with
  | refl => exact h'
  | mark hk hreads hfits _ ih => exact .mark hk hreads hfits (ih h')

theorem weaken (h : s.Passes false s') : s.Passes comments s' := by
  induction h with
  | refl => exact .refl _
  | mark hk hreads hfits _ ih => exact .mark (fun hcomment => nomatch hk hcomment) hreads hfits ih

theorem one (hk : k = .comment → comments = true) (hreads : s.Reads t s')
    (hfits : k.Fits t s'.rest) : s.Passes comments s' := .mark hk hreads hfits (.refl s')

/-- What is passed, and what it is with blanks for the comments: on as many lines, and the same if
no comment was passed. -/
theorem exists_shown (h : s.Passes comments s') :
    ∃ t u, s.Reads t s' ∧ s.rest.blanked = u ++ s'.rest.blanked ∧ u.count '\n' = t.count '\n' ∧
      (comments = false → u = t) := by
  induction h with
  | refl s => exact ⟨[], [], .refl s, rfl, rfl, fun _ => rfl⟩
  | @mark k t s s₁ s' hk hreads hfits _ ih =>
      obtain ⟨t', u', hreads', hblanked, hcount, hsame⟩ := ih
      have hfeeds : (k.shown t).count '\n' = t.count '\n' := by
        cases k with
        | string | ordinary => rfl
        | comment => exact Text.count_blanks t
      refine ⟨t ++ t', k.shown t ++ u', hreads.trans hreads', ?_, ?_, ?_⟩
      · rw [hreads.rest, Text.blanked_of_fits hfits, hblanked, List.append_assoc]
      · rw [List.count_append, List.count_append, hfeeds, hcount]
      · rintro rfl
        rw [hsame rfl]
        cases k with
        | string | ordinary => rfl
        | comment => cases hk rfl

theorem length_le (h : s.Passes comments s') : s'.rest.length ≤ s.rest.length := by
  obtain ⟨t, -, hreads, -⟩ := h.exists_shown
  exact hreads.length_le

/-- What is passed is blanked as it is where the text ends behind it. -/
theorem blanked_rest (h : s.Passes comments s') (hreads : s.Reads t s') :
    s.rest.blanked = t.blanked ++ s'.rest.blanked := by
  induction h generalizing t with
  | refl s =>
      obtain rfl : t = [] := hreads.upTo.symm.trans (Cursor.Reads.refl s).upTo
      rw [Text.blanked_nil, List.nil_append]
  | @mark k u s s₁ s' _ hmark hfits hrest ih =>
      obtain ⟨v, -, hv, -⟩ := hrest.exists_shown
      obtain rfl : t = u ++ v := hreads.upTo.symm.trans (hmark.trans hv).upTo
      have hcut : k.Fits u v := MarkKind.Fits.of_append (hv.rest ▸ hfits)
      rw [hmark.rest, Text.blanked_of_fits hfits, Text.blanked_of_fits hcut, ih hv,
        List.append_assoc]

/-- Of two cursors that are reached over whole marks the one further back reaches the other. -/
theorem of_length_le {a b : Cursor} (ha : s.Passes true a) (hb : s.Passes true b)
    (hle : b.rest.length ≤ a.rest.length) : a.Passes true b := by
  induction ha with
  | refl => exact hb
  | @mark k t s s₁ a _ hreads hfits hrest ih =>
      have hlt := hfits.length_lt hreads
      have hbehind := hrest.length_le
      cases hb with
      | refl => omega
      | @mark k' t' _ s₂ b _ hreads' hfits' hrest' =>
          -- the first mark is the same on both ways
          obtain rfl := hfits.text_eq hfits' (hreads.rest.symm.trans hreads'.rest)
          obtain rfl := hreads.unique hreads'
          exact ih hrest' hle

end Cursor.Passes

namespace Text.Edge

variable {source : Text} {comments : Bool} {s s' : Cursor}

theorem start (source : Text) : source.Edge source.cursor := .refl _

theorem passes (hs : source.Edge s) (h : s.Passes comments s') : source.Edge s' := by
  refine Cursor.Passes.trans hs ?_
  cases comments with
  | false => exact h.weaken
  | true => exact h

/-- The place of an edge lies as far ahead as what is in front of it takes with blanks. -/
theorem exists_before (hs : source.Edge s) :
    ∃ before before', source.cursor.Reads before s ∧
      source.blanked.cursor.Reads before' (s.blanked source) ∧
      before'.count '\n' = before.count '\n' := by
  obtain ⟨before, before', hreads, hblanked, hcount, -⟩ := hs.exists_shown
  refine ⟨before, before', hreads, ⟨hblanked, ?_⟩, hcount⟩
  have hlength : source.blanked.byteLength = before'.byteLength + s.rest.blanked.byteLength := by
    rw [← Text.byteLength_append, ← hblanked]
    rfl
  show source.blanked.byteLength - s.rest.blanked.byteLength = 0 + before'.byteLength
  omega

theorem reads_of_append {u : Text} (hs : source.Edge s)
    (h : s.rest.blanked = u ++ s'.rest.blanked) :
    (s.blanked source).Reads u (s'.blanked source) := by
  obtain ⟨-, before, -, hbefore, -⟩ := hs.exists_before
  have hlength : source.blanked.byteLength = before.byteLength + s.rest.blanked.byteLength := by
    rw [← Text.byteLength_append]
    exact congrArg Text.byteLength hbefore.rest
  refine ⟨h, ?_⟩
  simp only [Cursor.blanked, h, Text.byteLength_append] at hlength ⊢
  omega

/-- A mark between two edges, with blanks if it is a comment. -/
theorem reads_mark {k : MarkKind} {t : Text} (hs : source.Edge s) (hreads : s.Reads t s')
    (hfits : k.Fits t s'.rest) : (s.blanked source).Reads (k.shown t) (s'.blanked source) :=
  hs.reads_of_append (by rw [hreads.rest, Text.blanked_of_fits hfits])

/-- What is passed between two edges stands between their places, with blanks for its comments. -/
theorem reads_blanked {t : Text} (hs : source.Edge s) (h : s.Passes comments s')
    (hreads : s.Reads t s') : (s.blanked source).Reads t.blanked (s'.blanked source) :=
  hs.reads_of_append (h.blanked_rest hreads)

/-- What is passed between two edges without a comment stands between their places. -/
theorem reads (hs : source.Edge s) (h : s.Passes false s') :
    ∃ t, s.Reads t s' ∧ (s.blanked source).Reads t (s'.blanked source) := by
  obtain ⟨t, u, hreads, hblanked, -, hsame⟩ := h.exists_shown
  obtain rfl := hsame rfl
  exact ⟨u, hreads, hs.reads_of_append hblanked⟩

/-- An edge is on the same line. -/
theorem lineOf_blanked (hs : source.Edge s) :
    (LineIndex.ofText source.blanked).lineOf (s.blanked source).offset =
      (LineIndex.ofText source).lineOf s.offset := by
  obtain ⟨before, before', hbefore, hbefore', hcount⟩ := hs.exists_before
  have hsource : source = before ++ s.rest := hbefore.rest
  have hblanked : source.blanked = before' ++ (s.blanked source).rest := hbefore'.rest
  have hoffset : s.offset = 0 + before.byteLength := hbefore.offset
  have hoffset' : (s.blanked source).offset = 0 + before'.byteLength := hbefore'.offset
  rw [hoffset, hoffset', Nat.zero_add, Nat.zero_add, hblanked, LineIndex.lineOf_ofText, hcount,
    ← LineIndex.lineOf_ofText before s.rest, ← hsource]

end Text.Edge

theorem Cursor.blanked_cursor (source : Text) :
    source.cursor.blanked source = source.blanked.cursor := by
  rw [Cursor.blanked, Text.cursor, Text.cursor, Nat.sub_self]

end StructuredText
