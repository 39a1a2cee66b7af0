import StructuredText.Proofs.Comments.Scan
import StructuredText.Proofs.Comments.Spelling
import StructuredText.Proofs.Grammar.Quotations

/-!
# The scan is exact

Read from the left, a text falls into marks: string literals, comments, and characters that begin
neither. There is one way to do so, and the comments that the scan finds are its comments.

* `Marks` — the marks of a text from a cursor on; `Marks.unique`, `exists_marks`.
* `Marks.map_span_found` — the comments of the scan are the comments among the marks.
* `Marks.exists_mem` — every character of the text lies in a mark.
* `Text.comments_exact` — the comments of a text, where they begin and end, and what is none.
-/

namespace StructuredText

open Grammar

namespace Comment

/-! ## Marks -/

/-- What a piece of a text is taken for. -/
inductive MarkKind where
  | string
  | comment
  | ordinary
  deriving DecidableEq

/-- Neither a string nor a comment that is closed begins the text. -/
structure Plain (t : Text) : Prop where
  string : ∀ u rest, t = u ++ rest → ¬ IsString u
  comment : ∀ opening rest, t = opening ++ rest → ¬ Opens opening rest

/-- The text `t`, in front of `rest`, is what it is taken for. -/
def MarkKind.Fits : MarkKind → (t rest : Text) → Prop
  | .string, t, _ => IsString t
  | .comment, t, rest => IsComment t rest
  | .ordinary, t, rest => ∃ c, t = [c] ∧ Plain (c :: rest)

/-- A piece of a text, and what it is taken for. -/
structure Mark where
  kind : MarkKind
  span : Span

/-- The marks of a text from a cursor on, one right behind the other. -/
inductive Marks : Cursor → List Mark → Prop where
  | ended {offset : Nat} : Marks ⟨offset, []⟩ []
  | cons {k : MarkKind} {t : Text} {s s₁ : Cursor} {ms : List Mark} (hreads : s.Reads t s₁)
      (hfits : k.Fits t s₁.rest) (hrest : Marks s₁ ms) :
      Marks s (⟨k, s.offset, s₁.offset⟩ :: ms)

variable {k k' : MarkKind} {t u before after rest : Text} {s s₁ : Cursor} {ms ms' : List Mark}
  {lines : LineIndex}

/-! ## What a mark is taken for -/

/-- A string does not open a comment. -/
theorem not_isString_of_opens {opening : Text} (h : Opens opening rest)
    (heq : opening ++ rest = t ++ after) : ¬ IsString t := by
  rintro ⟨hquote, -⟩
  cases h <;> rcases hquote with rfl | rfl <;> simp at heq

theorem MarkKind.Fits.ne_nil (h : k.Fits t rest) : t ≠ [] := by
  cases k with
  | string =>
      cases h
      simp
  | comment => cases h <;> simp
  | ordinary =>
      obtain ⟨c, rfl, -⟩ := h
      simp

theorem MarkKind.Fits.string_iff (h : k.Fits t rest) :
    k = .string ↔ ∃ u after, t ++ rest = u ++ after ∧ IsString u := by
  cases k with
  | string => exact iff_of_true rfl ⟨t, rest, rfl, h⟩
  | comment =>
      refine iff_of_false (by decide) ?_
      rintro ⟨u, after, heq, hu⟩
      obtain ⟨opening, body, rfl, hopens⟩ := IsComment.opens h
      exact not_isString_of_opens hopens (by rw [← List.append_assoc, heq]) hu
  | ordinary =>
      obtain ⟨c, rfl, hplain⟩ := h
      refine iff_of_false (by decide) ?_
      rintro ⟨u, after, heq, hu⟩
      exact hplain.string u after heq hu

theorem MarkKind.Fits.comment_iff (h : k.Fits t rest) :
    k = .comment ↔ ∃ opening after, t ++ rest = opening ++ after ∧ Opens opening after := by
  cases k with
  | string =>
      refine iff_of_false (by decide) ?_
      rintro ⟨opening, after, heq, hopens⟩
      exact not_isString_of_opens hopens heq.symm h
  | comment =>
      obtain ⟨opening, body, rfl, hopens⟩ := IsComment.opens h
      exact iff_of_true rfl ⟨opening, body ++ rest, List.append_assoc .., hopens⟩
  | ordinary =>
      obtain ⟨c, rfl, hplain⟩ := h
      refine iff_of_false (by decide) ?_
      rintro ⟨opening, after, heq, hopens⟩
      exact hplain.comment opening after heq hopens

theorem MarkKind.Fits.ordinary_iff (h : k.Fits t rest) : k = .ordinary ↔ Plain (t ++ rest) := by
  constructor
  · rintro rfl
    obtain ⟨c, rfl, hplain⟩ := h
    exact hplain
  · intro hplain
    cases k with
    | string => exact absurd h (hplain.string t rest rfl)
    | comment =>
        obtain ⟨opening, after, heq, hopens⟩ := (MarkKind.Fits.comment_iff h).mp rfl
        exact absurd hopens (hplain.comment opening after heq)
    | ordinary => rfl

/-- What begins a text decides for what it is taken. -/
theorem MarkKind.Fits.kind_eq (h : k.Fits t rest) (h' : k'.Fits u after)
    (heq : t ++ rest = u ++ after) : k = k' := by
  have hstring : k = .string ↔ k' = .string := by rw [h.string_iff, h'.string_iff, heq]
  have hcomment : k = .comment ↔ k' = .comment := by rw [h.comment_iff, h'.comment_iff, heq]
  cases k <;> cases k' <;> simp_all

/-- Every text but the empty one begins with a mark. -/
theorem exists_fits (ht : t ≠ []) : ∃ k u rest, t = u ++ rest ∧ MarkKind.Fits k u rest := by
  by_cases hstring : ∃ u rest, t = u ++ rest ∧ IsString u
  · obtain ⟨u, rest, rfl, hu⟩ := hstring
    exact ⟨.string, u, rest, rfl, hu⟩
  by_cases hcomment : ∃ opening rest, t = opening ++ rest ∧ Opens opening rest
  · obtain ⟨opening, rest, rfl, hopens⟩ := hcomment
    obtain ⟨body, after, rfl, hbody⟩ := exists_isComment hopens
    exact ⟨.comment, opening ++ body, after, (List.append_assoc ..).symm, hbody⟩
  · obtain ⟨c, t, rfl⟩ := List.exists_cons_of_ne_nil ht
    refine ⟨.ordinary, [c], t, rfl, c, rfl, ?_, ?_⟩
    · exact fun u rest heq hu => hstring ⟨u, rest, heq, hu⟩
    · exact fun opening rest heq hopens => hcomment ⟨opening, rest, heq, hopens⟩

/-! ## Marks and steps -/

/-- A step of the scan goes behind the next mark, and finds it if it is a comment. -/
theorem step?_of_fits (lines : LineIndex) (hreads : s.Reads t s₁) (h : k.Fits t s₁.rest) :
    step? lines s = some (s₁, if k = .comment then some (.between lines s s₁) else none) := by
  cases k with
  | string => exact step?_of_string ((Lexicon.stringLiteral_takes h).run_of_reads hreads)
  | comment =>
      have hstring : Lexicon.stringLiteral.Refuses s.rest := by
        refine Lexicon.stringLiteral_refuses fun u after heq hu => ?_
        rw [hreads.rest] at heq
        cases (MarkKind.Fits.string_iff h).mpr ⟨u, after, heq, hu⟩
      exact step?_of_comment hstring.run ((Lexicon.comment_takes h).run_of_reads hreads)
  | ordinary =>
      obtain ⟨c, rfl, hplain⟩ := h
      obtain ⟨offset, _⟩ := s
      obtain ⟨offset₁, rest⟩ := s₁
      obtain rfl := hreads.rest
      obtain rfl : offset₁ = offset + c.utf8Size := hreads.offset
      exact step?_of_none (Lexicon.stringLiteral_refuses hplain.string offset)
        (Lexicon.comment_refuses hplain.comment offset)

theorem MarkKind.Fits.length_lt (h : k.Fits t s₁.rest) (hreads : s.Reads t s₁) :
    s₁.rest.length < s.rest.length := by
  have hpos := List.length_pos_iff.mpr h.ne_nil
  rw [hreads.rest, List.length_append]
  omega

/-- There is one way to mark a text. -/
theorem Marks.unique (h : Marks s ms) (h' : Marks s ms') : ms = ms' := by
  induction h generalizing ms' with
  | ended =>
      cases h' with
      | ended => rfl
      | cons hreads hfits => exact absurd (hfits.length_lt hreads) (Nat.not_lt_zero _)
  | @cons k t s s₁ ms hreads hfits hrest ih =>
      cases h' with
      | ended => exact absurd (hfits.length_lt hreads) (Nat.not_lt_zero _)
      | @cons k' t' _ s₁' ms' hreads' hfits' hrest' =>
          obtain rfl := hfits.kind_eq hfits' (hreads.rest.symm.trans hreads'.rest)
          have hstep := step?_of_fits ⟨#[]⟩ hreads hfits
          rw [step?_of_fits _ hreads' hfits'] at hstep
          obtain rfl : s₁' = s₁ := congrArg Prod.fst (Option.some.inj hstep)
          rw [ih hrest']

/-- Every text can be marked. -/
theorem exists_marks (s : Cursor) : ∃ ms, Marks s ms := by
  induction hlength : s.rest.length using Nat.strongRecOn generalizing s with
  | _ n ih =>
    obtain ⟨offset, t⟩ := s
    by_cases ht : t = []
    · subst ht
      exact ⟨[], .ended⟩
    · obtain ⟨k, u, rest, rfl, hfits⟩ := exists_fits ht
      have hreads : Cursor.Reads ⟨offset, u ++ rest⟩ u ⟨offset + u.byteLength, rest⟩ := ⟨rfl, rfl⟩
      have hlt := hfits.length_lt hreads
      obtain ⟨ms, hms⟩ := ih rest.length (hlength ▸ hlt) ⟨offset + u.byteLength, rest⟩ rfl
      exact ⟨_, .cons hreads hfits hms⟩

/-! ## Marks and comments -/

/-- The scan finds the comments among the marks. -/
theorem Marks.map_span_found (lines : LineIndex) (h : Marks s ms) :
    (found lines s).map (·.span) = (ms.filter (·.kind = .comment)).map (·.span) := by
  induction h with
  | ended => rfl
  | @cons k t s s₁ ms hreads hfits _ ih =>
      rw [found_of_step (step?_of_fits lines hreads hfits), List.map_append, ih]
      by_cases hk : k = .comment
      · simp [hk, between]
      · simp [hk]

/-- A comment that the scan finds is written behind some text of the cursor. -/
theorem Marks.of_mem_found (h : Marks s ms) {c : Comment} (hc : c ∈ found lines s) :
    ∃ s₁ s₂ before body, s.Reads before s₁ ∧ s₁.Reads body s₂ ∧ IsComment body s₂.rest ∧
      c = between lines s₁ s₂ := by
  induction h with
  | ended => simp [found, scan] at hc
  | @cons k t s s₁ ms hreads hfits _ ih =>
      rw [found_of_step (step?_of_fits lines hreads hfits)] at hc
      rcases List.mem_append.mp hc with hc | hc
      · by_cases hk : k = .comment
        · subst hk
          obtain rfl : c = between lines s s₁ := by simpa using hc
          exact ⟨s, s₁, [], t, .refl s, hreads, hfits, rfl⟩
        · simp [hk] at hc
      · obtain ⟨s₂, s₃, before, body, hbefore, hbody, hcomment, rfl⟩ := ih hc
        exact ⟨s₂, s₃, t ++ before, body, hreads.trans hbefore, hbody, hcomment, rfl⟩

/-! ## Marks and places -/

/-- A mark starts at the cursor or behind it, and covers something. -/
theorem Marks.of_mem (h : Marks s ms) {m : Mark} (hm : m ∈ ms) :
    s.offset ≤ m.span.start ∧ m.span.start < m.span.stop := by
  induction h with
  | ended => cases hm
  | @cons k t s s₁ ms hreads hfits _ ih =>
      have hpos := Text.byteLength_pos hfits.ne_nil
      have hoffset := hreads.offset
      rcases List.mem_cons.mp hm with rfl | hm
      · exact ⟨Nat.le_refl _, show s.offset < s₁.offset by omega⟩
      · have hrest := ih hm
        exact ⟨by omega, hrest.2⟩

/-- A mark ends before the next one starts. -/
theorem Marks.pairwise (h : Marks s ms) : ms.Pairwise (·.span.stop ≤ ·.span.start) := by
  induction h with
  | ended => exact .nil
  | cons _ _ hrest ih => exact .cons (fun m hm => (hrest.of_mem hm).1) ih

/-- Different marks do not overlap. -/
theorem Marks.apart (h : Marks s ms) {m m' : Mark} (hm : m ∈ ms) (hm' : m' ∈ ms) :
    m = m' ∨ m.span.stop ≤ m'.span.start ∨ m'.span.stop ≤ m.span.start := by
  induction h with
  | ended => cases hm
  | cons _ _ hrest ih =>
      rcases List.mem_cons.mp hm with rfl | hm <;> rcases List.mem_cons.mp hm' with rfl | hm'
      · exact .inl rfl
      · exact .inr (.inl (hrest.of_mem hm').1)
      · exact .inr (.inr (hrest.of_mem hm).1)
      · exact ih hm hm'

/-- A place in two texts is in the second one, or in front of a character of the first. -/
theorem place_cases (h : t ++ u = before ++ after) :
    (∃ front, before = t ++ front ∧ u = front ++ after) ∨
      ∃ back, back ≠ [] ∧ t = before ++ back ∧ after = back ++ u := by
  rcases List.append_eq_append_iff.mp h with ⟨front, hbefore, hu⟩ | ⟨back, ht, hafter⟩
  · exact .inl ⟨front, hbefore, hu⟩
  · by_cases hback : back = []
    · subst hback
      exact .inl ⟨[], by simpa using ht.symm, by simpa using hafter.symm⟩
    · exact .inr ⟨back, hback, ht, hafter⟩

/-- Every character lies in a mark, with what stands in front of it and behind it there. -/
theorem Marks.exists_mem (h : Marks s ms) (hs : s.rest = before ++ after) (hafter : after ≠ []) :
    ∃ k front inner back rest, before = front ++ inner ∧ after = back ++ rest ∧ back ≠ [] ∧
      k.Fits (inner ++ back) rest ∧
      ⟨k, s.offset + front.byteLength, s.offset + (before ++ back).byteLength⟩ ∈ ms := by
  induction h generalizing before with
  | ended => simp_all
  | @cons k t s s₁ ms hreads hfits _ ih =>
      have hoffset := hreads.offset
      rcases place_cases (hreads.rest.symm.trans hs) with
        ⟨front, rfl, hrest⟩ | ⟨back, hback, rfl, rfl⟩
      · obtain ⟨k', front', inner, back, rest, rfl, rfl, hback, hfits', hmem⟩ := ih hrest
        refine ⟨k', t ++ front', inner, back, rest, by simp, rfl, hback, hfits', ?_⟩
        apply List.mem_cons_of_mem
        simpa [hoffset, Nat.add_assoc] using hmem
      · refine ⟨k, [], before, back, s₁.rest, rfl, rfl, hback, hfits, ?_⟩
        rw [Text.byteLength_nil, Nat.add_zero, ← hoffset]
        exact .head _

/-! ## Openings and quotes -/

/-- A quote or an opening of a comment that is never closed: the character `c` in front of
`rest`. -/
inductive Unclosed : (c : Char) → (rest : Text) → Prop where
  | quote {quote : Char} {rest : Text} (hquote : quote = '\'' ∨ quote = '"')
      (h : ∀ inner after, Quotable quote inner → rest ≠ inner ++ quote :: after) :
      Unclosed quote rest
  | block {rest : Text} (h : ¬ ['*', ')'] <:+: rest) : Unclosed '(' ('*' :: rest)
  | pragma {rest : Text} (h : '\x7d' ∉ rest) : Unclosed '\x7b' rest

theorem Unclosed.plain {c : Char} (h : Unclosed c rest) : Plain (c :: rest) := by
  -- Each of the three characters opens only one kind of mark, and of that one no closing follows.
  cases h with
  | quote hquote hrest =>
      refine ⟨?_, ?_⟩
      · rintro _ after heq ⟨-, hinner⟩
        rw [List.cons_append, List.cons.injEq] at heq
        obtain ⟨rfl, heq⟩ := heq
        exact hrest _ after hinner (by simp [heq])
      · intro opening after heq hopens
        cases hopens <;> rcases hquote with rfl | rfl <;> simp at heq
  | block hrest =>
      refine ⟨?_, ?_⟩
      · rintro _ after heq ⟨hquote, -⟩
        rcases hquote with rfl | rfl <;> simp at heq
      · intro opening after heq hopens
        cases hopens with
        | line | pragma => simp at heq
        | block hclosed =>
            obtain rfl : _ = after := by simpa using heq
            exact hrest hclosed
  | pragma hrest =>
      refine ⟨?_, ?_⟩
      · rintro _ after heq ⟨hquote, -⟩
        rcases hquote with rfl | rfl <;> simp at heq
      · intro opening after heq hopens
        cases hopens with
        | line | block => simp at heq
        | pragma hclosed =>
            obtain rfl : _ = after := by simpa using heq
            exact hrest hclosed

/-- A string or comment ends with a character of its closing, or in front of a line end. -/
theorem MarkKind.Fits.last {inner : Text} {x y : Char} (h : k.Fits (inner ++ [x]) (y :: rest))
    (hk : k ≠ .ordinary) : x ∈ ['\'', '"', ')', '\x7d'] ∨ y ∈ ['\r', '\n'] := by
  -- Of all marks, only a comment to the end of its line ends with any character.
  cases k with
  | string =>
      generalize heq : inner ++ [x] = t at h
      cases h with
      | @between quote _ hquote =>
          obtain rfl : x = quote := by simpa [List.getLast?_cons] using congrArg List.getLast? heq
          rcases hquote with rfl | rfl <;> simp
  | comment =>
      generalize heq : inner ++ [x] = t at h
      cases h with
      | line _ hend => exact .inr (by simpa using hend y rfl)
      | @block body =>
          obtain rfl : x = ')' := by simpa [List.getLast?_cons] using congrArg List.getLast? heq
          simp
      | @pragma body =>
          obtain rfl : x = '\x7d' := by simpa [List.getLast?_cons] using congrArg List.getLast? heq
          simp
  | ordinary => exact absurd rfl hk

/-- An ordinary character is a mark of its own. -/
theorem MarkKind.Fits.eq_nil {inner back : Text} (h : MarkKind.ordinary.Fits (inner ++ back) after)
    (hback : back ≠ []) : inner = [] := by
  obtain ⟨c, hc, -⟩ := h
  rcases List.append_eq_singleton_iff.mp hc with ⟨rfl, -⟩ | ⟨-, rfl⟩
  · rfl
  · exact absurd rfl hback

/-- No opening goes beyond the end of a string or of a comment. -/
theorem MarkKind.Fits.holds_opening {opening inner back : Text} (h : k.Fits (inner ++ back) after)
    (hk : k ≠ .ordinary) (hback : back ≠ []) (hopens : Opens opening rest)
    (heq : opening ++ rest = back ++ after) : ∃ more, back = opening ++ more := by
  rcases place_cases heq with ⟨more, hmore, -⟩ | ⟨more, hmore, hopening, rfl⟩
  · exact ⟨more, hmore⟩
  -- otherwise the mark ends between the two characters of the opening
  · obtain ⟨x, back, rfl⟩ := List.exists_cons_of_ne_nil hback
    obtain ⟨y, more, rfl⟩ := List.exists_cons_of_ne_nil hmore
    cases hopens <;> simp [List.cons_eq_append_iff] at hopening
    all_goals
      obtain ⟨rfl, rfl, rfl, rfl⟩ := hopening
      have hlast := h.last hk
      simp at hlast

end Comment

/-- The piece `t` of a text, behind `before`, lies in the span. -/
def Span.Holds (span : Span) (before t : Text) : Prop :=
  span.start ≤ before.byteLength ∧ (before ++ t).byteLength ≤ span.stop

open Comment

variable {t : Text} {marks : List Mark}

/-- The comments of a text are those among its marks. -/
theorem Text.map_span_comments (h : Marks t.cursor marks) :
    t.comments.map (·.span) = (marks.filter (·.kind = .comment)).map (·.span) :=
  h.map_span_found _

theorem Text.exists_comment_iff (h : Marks t.cursor marks) {span : Span} :
    (∃ c ∈ t.comments, c.span = span) ↔ ⟨.comment, span⟩ ∈ marks := by
  rw [← List.mem_map, Text.map_span_comments h]
  constructor
  · intro hspan
    obtain ⟨⟨kind, span⟩, hm, rfl⟩ := List.mem_map.mp hspan
    obtain ⟨hm, hkind⟩ := List.mem_filter.mp hm
    obtain rfl : kind = .comment := by simpa using hkind
    exact hm
  · exact fun hm => List.mem_map.mpr ⟨_, List.mem_filter.mpr ⟨hm, by simp⟩, rfl⟩

/-- A comment of a text ends before the next one starts. -/
theorem Text.pairwise_span_comments (t : Text) :
    t.comments.Pairwise (·.span.stop ≤ ·.span.start) := by
  obtain ⟨marks, hmarks⟩ := exists_marks t.cursor
  have hspans : (t.comments.map (·.span)).Pairwise (·.stop ≤ ·.start) := by
    rw [Text.map_span_comments hmarks]
    exact List.pairwise_map.mpr (hmarks.pairwise.sublist List.filter_sublist)
  exact List.pairwise_map.mp hspans

/-- A comment of a text does not start in a string. -/
theorem Text.outside_of_mem_comments (h : Marks t.cursor marks) {c : Comment} (hc : c ∈ t.comments)
    {m : Mark} (hm : m ∈ marks) (hstring : m.kind = .string) :
    c.span.start < m.span.start ∨ m.span.stop ≤ c.span.start := by
  have hmark : ⟨.comment, c.span⟩ ∈ marks := (Text.exists_comment_iff h).mp ⟨c, hc, rfl⟩
  have hspan := (h.of_mem hmark).2
  rcases h.apart hm hmark with rfl | hbefore | hafter
  · cases hstring
  · exact .inr hbefore
  · exact .inl (Nat.lt_of_lt_of_le hspan hafter)

/-- A comment of a text: where it begins and ends, of which kind it is, its line and its text. -/
theorem Text.of_mem_comments (t : Text) {c : Comment} (hc : c ∈ t.comments) :
    ∃ before body after, t = before ++ body ++ after ∧
      IsComment body after ∧ c.span = ⟨before.byteLength, (before ++ body).byteLength⟩ ∧
      (c.kind = .pragma ↔ body.head? = some '\x7b') ∧ c.line = 1 + before.count '\n' ∧
      c.text = dedent ((LineIndex.ofText t).columnOf before.byteLength) body := by
  obtain ⟨marks, hmarks⟩ := exists_marks t.cursor
  obtain ⟨s₁, s₂, before, body, hbefore, hbody, hcomment, rfl⟩ := hmarks.of_mem_found hc
  have ht : t = before ++ body ++ s₂.rest := by
    rw [List.append_assoc, ← hbody.rest]
    exact hbefore.rest
  -- The offsets of the cursors are the lengths of what stands in front of them.
  have hstart : s₁.offset = before.byteLength := by simpa [Text.cursor] using hbefore.offset
  have hstop : s₂.offset = (before ++ body).byteLength := by
    simpa [Text.cursor] using (hbefore.trans hbody).offset
  have hhead : s₁.rest.head? = body.head? := by
    rw [hbody.rest]
    cases hcomment <;> rfl
  refine ⟨before, body, s₂.rest, ht, hcomment, ?_, ?_, ?_, ?_⟩
  · simp only [between, hstart, hstop]
  · simp only [between, hhead]
    split <;> simp_all
  · simp only [between, hstart]
    have hline := LineIndex.lineOf_ofText before (body ++ s₂.rest)
    rwa [← List.append_assoc, ← ht] at hline
  · simp only [between, hstart, hbody.upTo]

theorem Text.exists_mem_marks (h : Marks t.cursor marks) {before after : Text}
    (ht : t = before ++ after) (hafter : after ≠ []) :
    ∃ k front inner back rest, before = front ++ inner ∧ after = back ++ rest ∧ back ≠ [] ∧
      k.Fits (inner ++ back) rest ∧ ⟨k, front.byteLength, (before ++ back).byteLength⟩ ∈ marks := by
  simpa [Text.cursor] using h.exists_mem (s := t.cursor) ht hafter

/-- A comment that opens and is closed lies in a comment of the text, or in a string. -/
theorem Text.holds_of_opens (h : Marks t.cursor marks) {before opening rest : Text}
    (ht : t = before ++ opening ++ rest) (hopens : Opens opening rest) :
    (∃ c ∈ t.comments, c.span.Holds before opening) ∨
      ∃ m ∈ marks, m.kind = .string ∧ m.span.Holds before opening := by
  have hne : opening ++ rest ≠ [] := by cases hopens <;> simp
  rw [List.append_assoc] at ht
  -- The opening begins in some mark. It is no ordinary character, since a comment opens there, and
  -- a string or a comment that holds its first character holds the other one too.
  obtain ⟨k, front, inner, back, after, rfl, heq, hback, hfits, hmem⟩ :=
    Text.exists_mem_marks h ht hne
  have hk : k ≠ .ordinary := by
    rintro rfl
    obtain rfl := hfits.eq_nil hback
    exact (hfits.ordinary_iff.mp rfl).comment opening rest heq.symm hopens
  obtain ⟨more, rfl⟩ := hfits.holds_opening hk hback hopens heq
  have hholds : Span.Holds ⟨front.byteLength, (front ++ inner ++ (opening ++ more)).byteLength⟩
      (front ++ inner) opening := by
    simp only [Span.Holds, Text.byteLength_append]
    omega
  cases k with
  | string => exact .inr ⟨_, hmem, rfl, hholds⟩
  | comment =>
      obtain ⟨c, hc, hspan⟩ := (Text.exists_comment_iff h).mpr hmem
      exact .inl ⟨c, hc, hspan ▸ hholds⟩
  | ordinary => exact absurd rfl hk

/-- What opens and is never closed is an ordinary character, unless a string or a comment goes on
over it. -/
theorem Text.ordinary_of_unclosed (h : Marks t.cursor marks) {before rest : Text} {c : Char}
    (ht : t = before ++ c :: rest) (hunclosed : Unclosed c rest) :
    ⟨.ordinary, before.byteLength, (before ++ [c]).byteLength⟩ ∈ marks ∨
      ∃ m ∈ marks, m.kind ≠ .ordinary ∧ m.span.start < before.byteLength ∧
        m.span.Holds before [c] := by
  obtain ⟨k, front, inner, back, after, rfl, heq, hback, hfits, hmem⟩ :=
    Text.exists_mem_marks h ht (List.cons_ne_nil c rest)
  obtain ⟨d, back, rfl⟩ := List.exists_cons_of_ne_nil hback
  obtain ⟨rfl, rfl⟩ : c = d ∧ rest = back ++ after := by simpa using heq
  -- Where a mark begins with the character, it is ordinary; otherwise it lies inside a mark that
  -- begins further in front.
  by_cases hinner : inner = []
  · subst hinner
    obtain rfl : k = .ordinary := hfits.ordinary_iff.mpr hunclosed.plain
    obtain ⟨d, hd, -⟩ := hfits
    obtain rfl : back = [] := by simpa using (List.cons.inj hd).2
    exact .inl (by simpa using hmem)
  · refine .inr ⟨_, hmem, ?_, ?_, ?_⟩
    · rintro rfl
      exact hinner (hfits.eq_nil hback)
    · have hpos := Text.byteLength_pos hinner
      simp only [Text.byteLength_append]
      omega
    · simp only [Span.Holds, Text.byteLength_append, Text.byteLength_cons, Text.byteLength_nil]
      omega

/-- The comments of a text, whatever text it is. Read from the left it falls into strings, comments
and ordinary characters in one way, and its comments are those that stand there. They are in order
and do not overlap; each one goes up to its first closing, is a pragma if it opens with a brace, and
has the line of its start and the text of its span without the margin; and it starts in no string.
None is missed: an opening of a comment that is closed lies in a comment or in a string. A quote or
an opening that is never closed is an ordinary character, or lies behind the start of a comment or
string. -/
theorem Text.comments_exact (t : Text) :
    ∃ marks, Marks t.cursor marks ∧ (∀ marks', Marks t.cursor marks' → marks' = marks) ∧
      t.comments.map (·.span) = (marks.filter (·.kind = .comment)).map (·.span) ∧
      t.comments.Pairwise (fun c d => c.span.start < d.span.start ∧ c.span.stop ≤ d.span.start) ∧
      (∀ c ∈ t.comments, ∃ before body after, t = before ++ body ++ after ∧
        IsComment body after ∧ c.span = ⟨before.byteLength, (before ++ body).byteLength⟩ ∧
        (c.kind = .pragma ↔ body.head? = some '\x7b') ∧ c.line = 1 + before.count '\n' ∧
        c.text = dedent ((LineIndex.ofText t).columnOf before.byteLength) body) ∧
      (∀ c ∈ t.comments, ∀ m ∈ marks, m.kind = .string →
        c.span.start < m.span.start ∨ m.span.stop ≤ c.span.start) ∧
      (∀ before opening rest, t = before ++ opening ++ rest → Opens opening rest →
        (∃ c ∈ t.comments, c.span.Holds before opening) ∨
          ∃ m ∈ marks, m.kind = .string ∧ m.span.Holds before opening) ∧
      (∀ before c rest, t = before ++ c :: rest → Unclosed c rest →
        ⟨.ordinary, before.byteLength, (before ++ [c]).byteLength⟩ ∈ marks ∨
          ∃ m ∈ marks, m.kind ≠ .ordinary ∧ m.span.start < before.byteLength ∧
            m.span.Holds before [c]) := by
  -- The scanner finds a marking, and a text has only one.
  obtain ⟨marks, hmarks⟩ := exists_marks t.cursor
  refine ⟨marks, hmarks, fun _ h => h.unique hmarks, Text.map_span_comments hmarks,
    t.pairwise_comments.and t.pairwise_span_comments, fun c hc => t.of_mem_comments hc,
    fun c hc m hm => Text.outside_of_mem_comments hmarks hc hm,
    fun _ _ _ ht => Text.holds_of_opens hmarks ht,
    fun _ _ _ ht => Text.ordinary_of_unclosed hmarks ht⟩

end StructuredText
