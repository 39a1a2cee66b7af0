import StructuredText.Proofs.Blanking.Derivations
import StructuredText.Proofs.Positions.Verbatim

/-!
# Interfaces and blank comments

What a file keeps of an interface is a piece of the source, so with blanks for the comments of the
source it has blanks for its comments. But where it ends is told by white space, and blanks are white
space while comments are not: a semicolon that comments keep apart from the last keyword is not kept,
and with blanks for the comments it is.

* `VerbatimItem.Blanked` — what is kept with blanks for the comments of the source.
* `ownTail_blanked` — what belongs to a construct behind its last child, with blanks for the comments.
* `Build.blanked_of_interface` — what is kept of an interface.
-/

namespace StructuredText

open Grammar Comment Build

/-- What is kept of a construct when the source has blanks for its comments: the text with blanks for
its comments. If comments are all that keeps a semicolon behind it apart, the blanks for them and the
semicolon are kept, too. -/
inductive VerbatimItem.Blanked (source : Text) (v : VerbatimItem) : Text → Prop where
  | text : Blanked source v v.text.blanked
  | semicolon {before gap rest : Text} (hsource : source = before ++ (v.text ++ (gap ++ ';' :: rest)))
      (hstart : v.anchor.span.start = before.byteLength) (hcomments : gap.comments ≠ [])
      (hblank : ∀ c ∈ gap.blanked, isBlank c = true) :
      Blanked source v (v.text.blanked ++ (gap.blanked ++ [';']))

/-- The constructs of a file that are kept as they were written, in order. -/
def Item.verbatim? : Item → Option VerbatimItem
  | .verbatim v => some v
  | _ => none

def SourceFile.verbatims (f : SourceFile) : List VerbatimItem := f.items.filterMap Item.verbatim?

/-! ## White space and semicolons -/

variable {t u own behind gap rest : Text} {a b c : Cursor}

theorem not_mem_of_isBlank {c : Char} (hc : isBlank c = true) :
    c ∉ ['\'', '"', '/', '(', '\x7b', ';'] := by
  intro hmem
  simp only [List.mem_cons, List.not_mem_nil, or_false] at hmem
  rcases hmem with rfl | rfl | rfl | rfl | rfl | rfl <;> exact absurd hc (by decide)

theorem Text.not_mem_blanks (t : Text) : ';' ∉ t.blanks := by
  intro h
  obtain ⟨c, -, hc⟩ := List.mem_map.mp h
  split at hc
  · subst hc
    rename_i hc
    exact absurd hc (by decide)
  · exact absurd hc (by decide)

/-- A semicolon behind white space, with blanks for the comments, is behind white space and comments
in the text. -/
theorem Comment.Blanks.exists_gap (h : Blanks t u) (hgap : ∀ c ∈ gap, isBlank c = true)
    (hu : u = gap ++ ';' :: rest) :
    ∃ gap' rest', t = gap' ++ ';' :: rest' ∧ gap'.blanked = gap := by
  induction h generalizing gap with
  | ended => simp at hu
  | @mark k t after after' hfits _ ih =>
      have hfurther {gap : Text} (hgap : ∀ c ∈ gap, isBlank c = true)
          (hafter : after' = gap ++ ';' :: rest) :
          ∃ gap' rest', t ++ after = gap' ++ ';' :: rest' ∧ gap'.blanked = k.shown t ++ gap := by
        obtain ⟨gap', rest', rfl, rfl⟩ := ih hgap hafter
        refine ⟨t ++ gap', rest', (List.append_assoc ..).symm, ?_⟩
        exact Text.blanked_of_fits (MarkKind.Fits.of_append hfits)
      cases k with
      | string =>
          -- the quote in front is neither white space nor a semicolon
          obtain ⟨quote, hquote, hhead⟩ : ∃ c ∈ ['\'', '"'], (t ++ after').head? = some c :=
            IsString.head hfits
          rw [show t ++ after' = _ from hu] at hhead
          cases gap with
          | nil =>
              obtain rfl : ';' = quote := Option.some.inj hhead
              exact absurd hquote (by decide)
          | cons c gap =>
              obtain rfl : c = quote := Option.some.inj hhead
              refine absurd ?_ (not_mem_of_isBlank (hgap c List.mem_cons_self))
              simp only [List.mem_cons, List.not_mem_nil, or_false] at hquote
              rcases hquote with rfl | rfl <;> simp
      | comment =>
          rcases List.append_eq_append_iff.mp hu with ⟨gap', rfl, hafter⟩ | ⟨gap', hblanks, hafter⟩
          · exact hfurther (fun c hc => hgap c (by simp [hc])) hafter
          · cases gap' with
            | nil =>
                have hwhole := @hfurther [] (by simp) hafter.symm
                rw [List.append_nil] at hblanks hwhole
                rwa [hblanks] at hwhole
            | cons c gap' =>
                obtain rfl : ';' = c := (List.cons.inj hafter).1
                exact absurd (by rw [show t.blanks = _ from hblanks]; simp) t.not_mem_blanks
      | ordinary =>
          obtain ⟨c, rfl, -⟩ := hfits
          cases gap with
          | nil =>
              obtain rfl : c = ';' := (List.cons.inj hu).1
              exact ⟨[], after, rfl, Text.blanked_nil⟩
          | cons d gap =>
              obtain ⟨rfl, hafter⟩ := List.cons.inj hu
              exact hfurther (fun e he => hgap e (List.mem_cons_of_mem _ he)) hafter

/-- White space with a semicolon behind it is passed over single characters. -/
theorem passes_of_white (hgap : ∀ c ∈ gap, isBlank c = true) (hreads : a.Reads (gap ++ [';']) b) :
    a.Passes false b := by
  refine passes_of_plain hreads fun before c after heq => plain_of_not_mem ?_ _
  have hc : c ∈ gap ++ [';'] := by rw [heq]; simp
  rcases List.mem_append.mp hc with hc | hc
  · have hnot := not_mem_of_isBlank (hgap c hc)
    simp_all
  · obtain rfl := List.mem_singleton.mp hc
    decide

/-- A semicolon that belongs to a construct belongs to it with blanks for the comments, with the white
space in front of it. -/
theorem ownTail_blanked_of_white (hgap : ∀ c ∈ gap, isBlank c = true) (hab : a.Passes true b)
    (hbc : b.Passes true c) (hown : a.Reads own b) (hbehind : b.Reads (gap ++ ';' :: rest) c) :
    own.blanked ++ ownTail (gap ++ ';' :: rest).blanked = (own ++ (gap ++ [';'])).blanked := by
  let s : Cursor := ⟨b.offset + (gap ++ [';']).byteLength, rest ++ c.rest⟩
  have htail : b.Reads (gap ++ [';']) s := ⟨by simp [s, hbehind.rest], rfl⟩
  have hrest : s.Reads rest c := by
    refine ⟨rfl, ?_⟩
    have hoffset := hbehind.offset
    simp only [Text.byteLength_append, Text.byteLength_cons] at hoffset
    simp only [s, Text.byteLength_append, Text.byteLength_cons, Text.byteLength_nil]
    omega
  have hpasses := passes_of_white hgap htail
  have hsc : s.Passes true c := hpasses.weaken.of_length_le hbc hrest.length_le
  -- white space and a semicolon are no comments, so they are shown as they are
  obtain ⟨t, u, ht, hblanked, -, hsame⟩ := hpasses.exists_shown
  obtain rfl : t = gap ++ [';'] := ht.upTo.symm.trans htail.upTo
  obtain rfl := hsame rfl
  have hwhole := (hab.trans hpasses.weaken).blanked_rest (hown.trans htail)
  rw [hab.blanked_rest hown, hblanked, ← List.append_assoc] at hwhole
  have hbehind' := hbc.blanked_rest hbehind
  rw [hblanked, hsc.blanked_rest hrest, ← List.append_assoc] at hbehind'
  rw [← List.append_cancel_right hwhole, ← List.append_cancel_right hbehind', List.append_assoc gap,
    List.singleton_append, ownTail_append_semicolon hgap]

/-- With blanks for the comments, what belongs to a construct behind its last child is the same, or
it is a semicolon with white space and comments in front. -/
theorem ownTail_blanked (hab : a.Passes true b) (hbc : b.Passes true c) (hown : a.Reads own b)
    (hbehind : b.Reads behind c) :
    own.blanked ++ ownTail behind.blanked = (own ++ ownTail behind).blanked ∨
      ∃ gap rest, behind = gap ++ ';' :: rest ∧ gap.comments ≠ [] ∧
        (∀ c ∈ gap.blanked, isBlank c = true) ∧ ownTail behind = [] ∧
        ownTail behind.blanked = gap.blanked ++ [';'] := by
  -- Either the semicolon belongs to the construct in both texts, or in neither, or only a comment
  -- keeps it out.
  rcases ownTail_cases behind with ⟨gap, rest, hgap, rfl⟩ | hnone
  · left
    rw [ownTail_blanked_of_white hgap hab hbc hown hbehind, ownTail_append_semicolon hgap]
  · rcases ownTail_cases behind.blanked with ⟨gap', rest', hgap', hsemicolon⟩ | hnone'
    · right
      obtain ⟨gap, rest, rfl, rfl⟩ := behind.blanks_blanked.exists_gap hgap' hsemicolon
      refine ⟨gap, rest, rfl, fun hcomments => ?_, hgap', hnone, ?_⟩
      · -- without comments the semicolon would belong to the construct already
        rw [Text.blanked_of_comments_eq_nil hcomments] at hgap'
        rw [ownTail_append_semicolon hgap'] at hnone
        exact absurd hnone (by simp)
      · rw [hsemicolon, ownTail_append_semicolon hgap']
    · left
      rw [hnone, hnone', List.append_nil, List.append_nil]

/-! ## Interfaces -/

variable {lines lines' : LineIndex} {source : Text} {n last : Node}

/-- What is kept of a construct: what it reads up to the end of its last child, and what belongs to it
behind that. -/
theorem Build.text_verbatimItem (hown : n.start.Reads own last.stop)
    (hbehind : last.stop.Reads behind n.stop) :
    (verbatimItem lines n last).text = own ++ ownTail behind := by
  obtain ⟨rest, hrest⟩ := exists_ownTail_append behind
  have htext : n.text = own ++ behind := (hown.trans hbehind).upTo
  have hsplit : own ++ behind = own ++ ownTail behind ++ rest := by
    rw [List.append_assoc, ← hrest]
  rw [verbatimItem, htext, hown.offset, ownEnd_append, Nat.add_sub_cancel_left, hsplit,
    Text.takeBytes?_append]
  rfl

/-- What is kept of an interface with blanks for the comments. -/
theorem Build.blanked_of_interface (hn : n.Whole source) (hrow : Row n.start n.children n.stop)
    (hlast : n.children.getLast? = some last) :
    (verbatimItem lines n last).Blanked source
      (verbatimItem lines' (n.moved (Cursor.blanked source))
        (last.moved (Cursor.blanked source))).text := by
  obtain ⟨⟨t, ht⟩, hparts, behind, hbehind⟩ := hrow.of_mem (List.mem_of_getLast? hlast)
  obtain ⟨v, hv⟩ := hparts.reads
  have hown := ht.trans hv
  obtain ⟨hedge, hpasses⟩ := hn.parts last (List.mem_of_getLast? hlast)
  -- all of it are whole marks, up to the end of the last child and from there on
  have hend : source.Edge last.stop := hedge.passes hpasses
  have hab : n.start.Passes true last.stop := hn.edge.of_length_le hend hown.length_le
  have hbc : last.stop.Passes true n.stop :=
    hend.of_length_le (hn.edge.passes hn.passes) hbehind.length_le
  have htext : (verbatimItem lines' (n.moved (Cursor.blanked source))
      (last.moved (Cursor.blanked source))).text = (t ++ v).blanked ++ ownTail behind.blanked := by
    refine text_verbatimItem ?_ ?_
    · rw [Node.start_moved, Node.stop_moved]
      exact hn.edge.reads_blanked hab hown
    · rw [Node.stop_moved, Node.stop_moved]
      exact hend.reads_blanked hbc hbehind
  have hkept : (verbatimItem lines n last).text = t ++ v ++ ownTail behind :=
    text_verbatimItem hown hbehind
  rw [htext]
  rcases ownTail_blanked hab hbc hown hbehind with heq | ⟨gap, rest, rfl, hcomments, hgap, hnone, htail⟩
  · rw [heq, ← hkept]
    exact .text
  · obtain ⟨before, -, hbefore, -, -⟩ := hn.edge.exists_before
    rw [hnone, List.append_nil] at hkept
    rw [htail, ← hkept]
    have hsource : source = before ++ ((verbatimItem lines n last).text ++
        (gap ++ ';' :: (rest ++ n.stop.rest))) := by
      have hreads : source = _ := (hbefore.trans (hown.trans hbehind)).rest
      rw [hkept, hreads]
      simp
    exact .semicolon hsource (hbefore.offset.trans (Nat.zero_add _)) hcomments hgap

/-! ## Files -/

/-- What an element serves as, if it is kept as it was written. -/
def Element.verbatim? (e : Element) : Option VerbatimItem :=
  (ofElement? e : Option Item).bind Item.verbatim?

theorem verbatims_of_serve {es : List Element} {f : SourceFile} (h : Serve es f.items) :
    f.verbatims = es.filterMap Element.verbatim? := by
  have hes : es.filterMap Element.verbatim? =
      (es.map ofElement?).filterMap fun i : Option Item => i.bind Item.verbatim? := by
    rw [List.filterMap_map]
    rfl
  rw [hes, h, List.filterMap_map]
  rfl

/-- Elements that are alike up to their places are both kept as they were written, or neither is. -/
theorem isSome_verbatim?_of_unplaced {e e' : Element} (h : e'.unplaced = e.unplaced) :
    e'.verbatim?.isSome = e.verbatim?.isSome := by
  have hplaced (x : Element) : x.verbatim?.isSome = x.unplaced.verbatim?.isSome := by
    rw [Element.verbatim?, Element.verbatim?, Placed.unplaces x]
    cases (ofElement? x : Option Item) with
    | none => rfl
    | some i => cases i <;> rfl
  rw [hplaced e', h, ← hplaced e]

/-- With blanks for the comments, a file keeps what it keeps without, one for one and with blanks for
the comments in it. -/
theorem forall₂_verbatims {root : Node} {f f' : SourceFile} (hroot : root.rule = .iecSource)
    (hmatched : ∀ k, Within k root → Matched k) (hwhole : ∀ k, Within k root → k.Whole source)
    (hrow : Row root.start root.children root.stop)
    (halike : ∀ k, Within k root → k.Alike lines lines' (Cursor.blanked source))
    (hf : element lines root = .ok (.file f))
    (hf' : element lines' (root.moved (Cursor.blanked source)) = .ok (.file f')) :
    List.Forall₂ (fun v v' => v.Blanked source v'.text) f.verbatims f'.verbatims := by
  obtain ⟨es, hes, hserve⟩ := exists_serve_of_file hroot hf
  obtain ⟨es', hes', hserve'⟩ := exists_serve_of_file (by rw [Node.rule_moved, hroot]) hf'
  rw [Node.children_moved] at hes'
  rw [verbatims_of_serve hserve, verbatims_of_serve hserve']
  refine List.rel_filterMap ?_ (forall₂_elements hes hes')
  rintro e e' ⟨m, hm, hkeyword, he, he'⟩
  have hwithin : Within m root := .child hm hkeyword (.self m)
  -- An element is passed through in both files or in neither.
  cases hv : e.verbatim? with
  | none =>
      have hunplaced := unplaced_of_element m (fun k hk => halike k (.child hm hkeyword hk)) he he'
      have hnone : e'.verbatim? = none := by
        simpa [hv] using isSome_verbatim?_of_unplaced hunplaced
      rw [hnone]
      exact .none
  | some v =>
      obtain ⟨i, hi, hverbatim⟩ := Option.bind_eq_some_iff.mp hv
      obtain rfl : i = .verbatim v := by
        cases i <;> cases hverbatim
        rfl
      have hheld := (hmatched root (.self root)).mayHold hm
      rw [hroot] at hheld
      obtain ⟨hrule, last, hlast, rfl⟩ := interface_of_element (hmatched m hwithin) hheld he hi
      have hlast' : (m.moved (Cursor.blanked source)).children.getLast? =
          some (last.moved (Cursor.blanked source)) := by
        rw [Node.children_moved, List.getLast?_map, hlast]
        rfl
      have hv' : e'.verbatim? = some (verbatimItem lines' (m.moved (Cursor.blanked source))
          (last.moved (Cursor.blanked source))) := by
        rw [Element.verbatim?, verbatim_of_interface (by rw [Node.rule_moved, hrule]) hlast' he']
        rfl
      rw [hv']
      exact .some (blanked_of_interface (hwhole m hwithin) (hrow.of_mem hm).2.1 hlast)

end StructuredText
