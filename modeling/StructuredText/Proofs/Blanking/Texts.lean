import Mathlib.Data.List.Forall2
import StructuredText.Proofs.Comments.Marks

/-!
# Texts with blank comments

The comments of a text can be written over with blanks, line by line. The marks that are no comments
stay as they are, and the blanks bring no new mark about: where neither a string nor a comment
begins, none begins among the blanks.

* `Text.blanked` — the text with blanks for its comments; `Text.blanked_of_comment`,
  `Text.blanked_of_fits` take a mark off.
* `Plain.blanked` — where no mark begins, none begins with the comments behind it blanked.
* `Text.comments_blanked` — no comment is left.
-/

namespace StructuredText

open Grammar Comment

namespace Text

/-- A blank for every character but the line feeds. -/
def blanks (t : Text) : Text := t.map fun c => if c = '\n' then c else ' '

/-- The text from a byte offset on, with blanks for what lies in one of the spans. -/
def blankIn (spans : List Span) : (offset : Nat) → Text → Text
  | _, [] => []
  | offset, c :: t =>
    (if c ≠ '\n' ∧ ∃ span ∈ spans, span.start ≤ offset ∧ offset < span.stop then ' ' else c) ::
      blankIn spans (offset + c.utf8Size) t

/-- The text with a blank for every character of its comments, line feeds kept. -/
def blanked (t : Text) : Text := blankIn (t.comments.map (·.span)) 0 t

variable {t u : Text} {spans : List Span} {offset : Nat}

@[simp] theorem count_blanks (t : Text) : t.blanks.count '\n' = t.count '\n' := by
  induction t with
  | nil => rfl
  | cons c t ih =>
      rw [blanks, List.map_cons, ← blanks]
      by_cases hc : c = '\n'
      · simp [hc, ih]
      · simp [hc, ih]

/-! ## Spans -/

theorem blankIn_append (spans : List Span) (offset : Nat) (t u : Text) :
    blankIn spans offset (t ++ u) =
      blankIn spans offset t ++ blankIn spans (offset + t.byteLength) u := by
  induction t generalizing offset with
  | nil => rfl
  | cons c t ih => simp [blankIn, ih, Nat.add_assoc]

/-- What lies in a span is blank. -/
theorem blankIn_inside {span : Span} (hspan : span ∈ spans) (hstart : span.start ≤ offset)
    (hstop : offset + t.byteLength ≤ span.stop) : blankIn spans offset t = t.blanks := by
  induction t generalizing offset with
  | nil => rfl
  | cons c t ih =>
      have hpos := c.utf8Size_pos
      rw [byteLength_cons] at hstop
      have hinside : ∃ span ∈ spans, span.start ≤ offset ∧ offset < span.stop :=
        ⟨span, hspan, hstart, by omega⟩
      rw [blankIn, ih (by omega) (by omega), blanks, blanks, List.map_cons]
      by_cases hc : c = '\n'
      · rw [if_neg (by simp [hc]), if_pos hc]
      · rw [if_pos ⟨hc, hinside⟩, if_neg hc]

/-- What lies in front of all spans stays as it is. -/
theorem blankIn_outside (h : ∀ span ∈ spans, offset + t.byteLength ≤ span.start) :
    blankIn spans offset t = t := by
  induction t generalizing offset with
  | nil => rfl
  | cons c t ih =>
      have hpos := c.utf8Size_pos
      simp only [byteLength_cons] at h
      have houtside : ¬ ∃ span ∈ spans, span.start ≤ offset ∧ offset < span.stop := by
        rintro ⟨span, hspan, hstart, -⟩
        have hle := h span hspan
        omega
      rw [blankIn, ih fun span hspan => by have := h span hspan; omega,
        if_neg fun hc => houtside hc.2]

/-- A span that ends in front of the text does not matter. -/
theorem blankIn_cons {span : Span} (hstop : span.stop ≤ offset) :
    blankIn (span :: spans) offset t = blankIn spans offset t := by
  induction t generalizing offset with
  | nil => rfl
  | cons c t ih =>
      have hspan : ¬ (span.start ≤ offset ∧ offset < span.stop) := by omega
      rw [blankIn, blankIn, ih (by omega)]
      simp only [List.exists_mem_cons_iff, hspan, false_or]

end Text

namespace Comment

variable {k k' : MarkKind} {t t' u u' rest rest' after : Text} {s : Cursor} {ms : List Mark}

/-! ## Marks -/

/-- What begins a text decides where its first mark ends. -/
theorem MarkKind.Fits.text_eq (h : k.Fits t rest) (h' : k'.Fits u after)
    (heq : t ++ rest = u ++ after) : t = u := by
  obtain rfl := h.kind_eq h' heq
  have hreads : Cursor.Reads ⟨0, t ++ rest⟩ t ⟨0 + t.byteLength, rest⟩ := ⟨rfl, rfl⟩
  have hreads' : Cursor.Reads ⟨0, t ++ rest⟩ u ⟨0 + u.byteLength, after⟩ := ⟨heq, rfl⟩
  have hstep := step?_of_fits ⟨#[]⟩ hreads h
  rw [step?_of_fits _ hreads' h'] at hstep
  obtain rfl : after = rest := congrArg (fun p => p.1.rest) (Option.some.inj hstep)
  exact List.append_cancel_right heq

/-- What becomes of a mark: blanks of a comment, and nothing else of any other mark. -/
def MarkKind.shown : MarkKind → Text → Text
  | .comment, t => t.blanks
  | .string, t | .ordinary, t => t

/-- A text and what it is with blanks for its comments, mark by mark. -/
inductive Blanks : Text → Text → Prop where
  | ended : Blanks [] []
  | mark {k : MarkKind} {t rest rest' : Text} (h : k.Fits t rest) (hrest : Blanks rest rest') :
      Blanks (t ++ rest) (k.shown t ++ rest')

theorem Blanks.unique (h : Blanks t u) (h' : Blanks t u') : u = u' := by
  induction h generalizing u' with
  | ended =>
      generalize ht : ([] : Text) = t at h'
      cases h' with
      | ended => rfl
      | mark h => exact absurd (List.append_eq_nil_iff.mp ht.symm).1 h.ne_nil
  | @mark k t rest rest' h _ ih =>
      generalize ht : t ++ rest = t' at h'
      cases h' with
      | ended => exact absurd (List.append_eq_nil_iff.mp ht).1 h.ne_nil
      | mark h' hrest' =>
          obtain rfl := h.kind_eq h' ht
          obtain rfl := h.text_eq h' ht
          obtain rfl := List.append_cancel_left ht
          rw [ih hrest']

/-- Blanks for the comments among the marks. -/
theorem Marks.blanks (h : Marks s ms) :
    Blanks s.rest (s.rest.blankIn ((ms.filter (·.kind = .comment)).map (·.span)) s.offset) := by
  induction h with
  | ended => exact .ended
  | @cons k t s s₁ ms hreads hfits hrest ih =>
      have hoffset := hreads.offset
      rw [hreads.rest, Text.blankIn_append, ← hoffset]
      -- The spans of the comments behind a mark begin behind it, so they do not reach into it.
      by_cases hk : k = .comment
      · subst hk
        rw [List.filter_cons_of_pos (by simp), List.map_cons,
          Text.blankIn_inside (List.mem_cons_self ..) (Nat.le_refl _) (Nat.le_of_eq hoffset.symm),
          Text.blankIn_cons (Nat.le_refl _)]
        exact .mark hfits ih
      · have hshown : k.shown t = t := by
          cases k with
          | comment => exact absurd rfl hk
          | string | ordinary => rfl
        rw [List.filter_cons_of_neg (by simpa using hk), Text.blankIn_outside]
        · have hmark := Blanks.mark hfits ih
          rwa [hshown] at hmark
        · intro span hspan
          obtain ⟨m, hm, rfl⟩ := List.mem_map.mp hspan
          rw [← hoffset]
          exact (hrest.of_mem (List.mem_filter.mp hm).1).1

/-! ## Among the blanks -/

/-- What a reader of a string knows, from its opening quote on. -/
inductive Quoting where
  | inside
  /-- Behind a dollar sign, which keeps the next character from being looked at. -/
  | escaped
  | closed

def Quoting.step (quote : Char) : Quoting → Char → Quoting
  | .inside, c => if c = quote then .closed else if c = '$' then .escaped else .inside
  | .escaped, _ => .inside
  | .closed, _ => .closed

section Quoting

variable {quote : Char} {q : Quoting} {inner : Text}

@[simp] theorem Quoting.foldl_closed (t : Text) : t.foldl (step quote) closed = closed := by
  induction t with
  | nil => rfl
  | cons c t ih => exact ih

theorem Quoting.foldl_quotable (h : Quotable quote inner) (hquote : quote ≠ '$') :
    inner.foldl (step quote) inside = inside := by
  induction h with
  | nil => rfl
  | plain hc hdollar _ ih => simpa [step, hc, hdollar] using ih
  | escaped c _ ih => simpa [step, hquote.symm] using ih

/-- A string is closed by the first quote that no dollar sign keeps from it. -/
theorem Quoting.foldl_eq_closed_iff (hquote : quote ≠ '$') :
    t.foldl (step quote) inside = closed ↔
      ∃ inner rest, t = inner ++ quote :: rest ∧ Quotable quote inner := by
  constructor
  · intro h
    obtain ⟨inner, rest, rfl, hinner, hrest⟩ := exists_quotable quote t
    rcases hrest with hrest | rfl | rfl
    · obtain ⟨rest, rfl⟩ := List.head?_eq_some_iff.mp hrest
      exact ⟨inner, rest, rfl, hinner⟩
    · simp [foldl_quotable hinner hquote] at h
    · simp [foldl_quotable hinner hquote, step, hquote.symm] at h
  · rintro ⟨inner, rest, rfl, hinner⟩
    simp [foldl_quotable hinner hquote, step]

/-- Only behind a dollar sign the next character is not looked at. -/
theorem Quoting.eq_dollar_of_escaped {c : Char}
    (h : (t ++ [c]).foldl (step quote) q = escaped) : c = '$' := by
  rw [List.foldl_append, List.foldl_cons, List.foldl_nil] at h
  cases hq : t.foldl (step quote) q with
  | escaped | closed =>
      rw [hq] at h
      cases h
  | inside =>
      rw [hq, step] at h
      split at h
      · cases h
      · split at h
        · assumption
        · cases h

/-- Behind blanks a string goes on. -/
theorem Quoting.foldl_blanks (hquote : quote = '\'' ∨ quote = '"') (ht : t ≠ []) (hq : q ≠ .closed) :
    t.blanks.foldl (step quote) q = inside := by
  have hblank (q : Quoting) (hq : q ≠ .closed) (c : Char) :
      step quote q (if c = '\n' then c else ' ') = inside := by
    cases q with
    | closed => exact absurd rfl hq
    | escaped => rfl
    | inside => rcases hquote with rfl | rfl <;> split <;> simp_all [step]
  induction t generalizing q with
  | nil => exact absurd rfl ht
  | cons c t ih =>
      rw [Text.blanks, List.map_cons, List.foldl_cons, hblank q hq]
      by_cases ht : t = []
      · subst ht
        rfl
      · exact ih ht (by simp)

/-- A string that is closed with blanks for the comments is closed without: the quote that closes it
does not lie in a comment, and what stands behind a comment is looked at all the same. -/
theorem Blanks.closed (h : Blanks t u) (hquote : quote = '\'' ∨ quote = '"')
    (hu : u.foldl (Quoting.step quote) q = .closed) : t.foldl (Quoting.step quote) q = .closed := by
  induction h generalizing q with
  | ended => exact hu
  | @mark k t rest rest' h _ ih =>
      rw [List.foldl_append] at hu ⊢
      cases k with
      | string | ordinary => exact ih hu
      | comment =>
          by_cases hq : q = .closed
          · rw [hq, Quoting.foldl_closed, Quoting.foldl_closed]
          have hrest : rest.foldl (Quoting.step quote) .inside = .closed := by
            refine ih ?_
            rwa [MarkKind.shown, Quoting.foldl_blanks hquote h.ne_nil hq] at hu
          cases hstate : t.foldl (Quoting.step quote) q with
          | inside => exact hrest
          | closed => exact Quoting.foldl_closed rest
          | escaped =>
              -- only a comment of one line can end in a dollar sign, in front of a line end
              cases h with
              | @line body _ hbody hend =>
                  cases rest with
                  | nil => cases hrest
                  | cons c rest =>
                      rw [List.foldl_cons] at hrest ⊢
                      rcases hend c rfl with rfl | rfl <;> rcases hquote with rfl | rfl <;> exact hrest
              | @block body =>
                  have hlast : ('(' :: '*' :: (body ++ ['*'])) ++ [')'] =
                      '(' :: '*' :: (body ++ ['*', ')']) := by simp
                  rw [← hlast] at hstate
                  exact absurd (Quoting.eq_dollar_of_escaped hstate) (by decide)
              | @pragma body =>
                  rw [← List.cons_append] at hstate
                  exact absurd (Quoting.eq_dollar_of_escaped hstate) (by decide)

end Quoting

/-- A character, or a blank for it. -/
def Shows (c d : Char) : Prop := d = c ∨ d = ' '

theorem Blanks.shows (h : Blanks t u) : List.Forall₂ Shows t u := by
  induction h with
  | ended => exact .nil
  | @mark k t _ _ _ _ ih =>
      refine List.rel_append ?_ ih
      cases k with
      | string | ordinary => exact List.forall₂_same.mpr fun c _ => .inl rfl
      | comment =>
          rw [MarkKind.shown, Text.blanks, List.forall₂_map_right_iff]
          refine List.forall₂_same.mpr fun c _ => ?_
          split
          · exact .inl rfl
          · exact .inr rfl

/-- What stands among the blanks and is none stands there in the text. -/
theorem exists_of_shows {before after : Text} (ht : ' ' ∉ t)
    (h : List.Forall₂ Shows u (before ++ (t ++ after))) :
    ∃ before' after', u = before' ++ (t ++ after') ∧ before'.length = before.length ∧
      List.Forall₂ Shows after' after := by
  have hbefore := List.forall₂_take_append _ _ _ h
  have hbehind := List.forall₂_drop_append _ _ _ h
  have ht' := List.forall₂_take_append _ _ _ hbehind
  have hafter := List.forall₂_drop_append _ _ _ hbehind
  -- Characters are shown one by one, so what stands at the same place shows the text, and no
  -- character of it stands for another.
  have heq : (u.drop before.length).take t.length = t := by
    clear h hbehind hafter
    generalize (u.drop before.length).take t.length = w at ht'
    induction ht' with
    | nil => rfl
    | cons hc _ ih =>
        rw [List.mem_cons, not_or] at ht
        rw [ih ht.2, hc.resolve_right (Ne.symm ht.1)]
  have hjoin := List.take_append_drop t.length (u.drop before.length)
  rw [heq] at hjoin
  refine ⟨u.take before.length, (u.drop before.length).drop t.length, ?_, hbefore.length_eq, hafter⟩
  rw [hjoin, List.take_append_drop]

end Comment

variable {t u : Text}

namespace Text

variable {k : MarkKind} {rest : Text}

theorem blanks_blanked (t : Text) : Blanks t t.blanked := by
  obtain ⟨ms, hms⟩ := exists_marks t.cursor
  rw [blanked, map_span_comments hms]
  exact hms.blanks

@[simp] theorem blanked_nil : blanked [] = [] := (blanks_blanked []).unique .ended

/-- What is no blank and is found among the blanks stands in the text. -/
theorem mem_of_mem_blanked {c : Char} (hc : c ≠ ' ') (h : c ∈ t.blanked) : c ∈ t := by
  obtain ⟨before, after, heq⟩ := List.append_of_mem h
  have hshows := t.blanks_blanked.shows
  rw [heq] at hshows
  obtain ⟨before', after', rfl, -⟩ :=
    exists_of_shows (t := [c]) (by simpa using hc.symm) hshows
  simp

/-- The first mark of a text, and what is behind it. -/
theorem blanked_of_fits (h : k.Fits t rest) : blanked (t ++ rest) = k.shown t ++ rest.blanked :=
  (blanks_blanked _).unique (.mark h (blanks_blanked rest))

end Text

/-- Where no mark begins, none begins with blanks for the comments behind it. -/
theorem Comment.Plain.blanked {c : Char} {rest : Text} (h : Plain (c :: rest)) :
    Plain (c :: rest.blanked) := by
  constructor
  · rintro u after heq hu
    cases hu with
    | @between quote inner hquote hinner =>
        have hdollar : quote ≠ '$' := by rcases hquote with rfl | rfl <;> decide
        rw [List.cons_append, List.append_assoc] at heq
        obtain ⟨rfl, hrest⟩ := List.cons.inj heq
        have hclosed := (Quoting.foldl_eq_closed_iff hdollar).mpr ⟨inner, after, hrest, hinner⟩
        obtain ⟨inner', after', rfl, hinner'⟩ := (Quoting.foldl_eq_closed_iff hdollar).mp
          (rest.blanks_blanked.closed hquote hclosed)
        exact h.string (c :: (inner' ++ [c])) after' (by simp) (.between hquote hinner')
  · intro opening after heq hopens
    have hshows : List.Forall₂ Shows (c :: rest) ([] ++ (opening ++ after)) := by
      rw [List.nil_append, ← heq]
      exact .cons (.inl rfl) rest.blanks_blanked.shows
    -- no opening has a blank in it, so it is not made of blanks
    have hopening : ' ' ∉ opening := by cases hopens <;> decide
    obtain ⟨before, rest', hrest, hbefore, hshows'⟩ := exists_of_shows hopening hshows
    obtain rfl := List.eq_nil_of_length_eq_zero hbefore
    refine h.comment opening rest' hrest ?_
    cases hopens with
    | line => exact .line
    | block hclose =>
        obtain ⟨body, after, rfl⟩ := hclose
        rw [List.append_assoc] at hshows'
        obtain ⟨body', after', rfl, -⟩ := exists_of_shows (by decide) hshows'
        exact .block ⟨body', after', List.append_assoc ..⟩
    | pragma hclose =>
        obtain ⟨body, after, rfl⟩ := List.append_of_mem hclose
        obtain ⟨body', after', rfl, -⟩ := exists_of_shows (t := ['\x7d']) (by decide) hshows'
        exact .pragma (by simp)

/-! ## Cut off -/

namespace Comment

variable {k : MarkKind} {opening t rest after : Text}

/-- What opens and is closed in a text is closed in all longer ones. -/
theorem opens_append (h : Opens opening rest) (after : Text) : Opens opening (rest ++ after) := by
  cases h with
  | line => exact .line
  | block hclose => exact .block (hclose.trans (List.prefix_append rest after).isInfix)
  | pragma hclose => exact .pragma (List.mem_append_left after hclose)

/-- A mark is taken for the same where the text ends earlier. -/
theorem MarkKind.Fits.of_append (h : k.Fits t (rest ++ after)) : k.Fits t rest := by
  cases k with
  | string => exact h
  | comment =>
      cases h with
      | line hbody hend =>
          refine .line hbody fun c hc => hend c ?_
          obtain ⟨rest, rfl⟩ := List.head?_eq_some_iff.mp hc
          rfl
      | block hbody => exact .block hbody
      | pragma hbody => exact .pragma hbody
  | ordinary =>
      obtain ⟨c, rfl, hplain⟩ := h
      refine ⟨c, rfl, fun u v heq => hplain.string u (v ++ after) ?_, fun opening v heq hopens => ?_⟩
      · rw [← List.append_assoc, ← heq, List.cons_append]
      · refine hplain.comment opening (v ++ after) ?_ (opens_append hopens after)
        rw [← List.append_assoc, ← heq, List.cons_append]

end Comment

/-- Without comments there is nothing to write over. -/
theorem Text.blanked_of_comments_eq_nil (h : t.comments = []) : t.blanked = t := by
  rw [blanked, h]
  exact blankIn_outside (by simp)

/-! ## Nothing left -/

/-- A character that opens neither a string nor a comment begins no mark. -/
theorem Comment.plain_of_not_mem {c : Char} (hc : c ∉ ['\'', '"', '/', '(', '\x7b'])
    (rest : Text) : Plain (c :: rest) := by
  constructor
  · rintro u after heq hu
    obtain ⟨d, hd, hhead⟩ : ∃ d ∈ ['\'', '"'], (u ++ after).head? = some d := hu.head
    rw [← heq] at hhead
    obtain rfl := Option.some.inj hhead
    exact hc (by simp_all)
  · intro opening after heq hopens
    cases hopens <;> exact hc (by simp_all)

/-- With blanks for the comments, the marks of a text are no comments. -/
theorem Comment.Blanks.exists_marks (h : Blanks t u) (offset : Nat) :
    ∃ ms, Marks ⟨offset, u⟩ ms ∧ ∀ m ∈ ms, m.kind ≠ .comment := by
  have hcons {k : MarkKind} {t rest : Text} {offset : Nat} (hk : k ≠ .comment) (hfits : k.Fits t rest)
      (h : ∃ ms, Marks ⟨offset + t.byteLength, rest⟩ ms ∧ ∀ m ∈ ms, m.kind ≠ .comment) :
      ∃ ms, Marks ⟨offset, t ++ rest⟩ ms ∧ ∀ m ∈ ms, m.kind ≠ .comment := by
    obtain ⟨ms, hms, hkinds⟩ := h
    refine ⟨_, .cons ⟨rfl, rfl⟩ hfits hms, ?_⟩
    exact List.forall_mem_cons.mpr ⟨hk, hkinds⟩
  -- Each blank that stands for a comment is an ordinary mark of its own.
  induction h generalizing offset with
  | ended => exact ⟨[], .ended, by simp⟩
  | @mark k t rest rest' hfits hrest ih =>
      cases k with
      | string => exact hcons (k := .string) (by simp) hfits (ih _)
      | ordinary =>
          obtain ⟨c, rfl, hplain⟩ := hfits
          have hplain' := hplain.blanked
          rw [rest.blanks_blanked.unique hrest] at hplain'
          exact hcons (k := .ordinary) (by simp) ⟨c, rfl, hplain'⟩ (ih _)
      | comment =>
          clear hfits
          simp only [MarkKind.shown]
          induction t generalizing offset with
          | nil => exact ih offset
          | cons c t iht =>
              have hblank : (if c = '\n' then c else ' ') ∉ ['\'', '"', '/', '(', '\x7b'] := by
                split <;> simp_all
              exact hcons (k := .ordinary) (t := [_]) (by simp)
                ⟨_, rfl, plain_of_not_mem hblank _⟩ (iht _)

/-- No comment is left. -/
theorem Text.comments_blanked (t : Text) : t.blanked.comments = [] := by
  obtain ⟨ms, hms, hkinds⟩ := t.blanks_blanked.exists_marks 0
  have hspans := map_span_comments hms
  rw [List.filter_eq_nil_iff.mpr fun m hm => by simpa using hkinds m hm, List.map_nil] at hspans
  exact List.map_eq_nil_iff.mp hspans

end StructuredText
