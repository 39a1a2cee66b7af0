import StructuredText.Proofs.Build.Interfaces
import StructuredText.Proofs.Positions.Placement

/-!
# The text of what is kept as it was written

The grammar matches an interface up to a semicolon that may follow it, and looks for one behind all
blanks and comments. What a file keeps of an interface is no more than its own text: from the keyword
in front to the one at the end, and to the semicolon, if only white space is between the two.

* `InterfaceText` — the text of an interface.
* `Build.interfaceText_of_row` — an interface is kept up to where its text ends.
* `SourceFile.verbatim_exact` — the texts that a file keeps, and where any text is cut.
-/

namespace StructuredText

open Grammar Build

variable {n last : Node} {source : Text}

/-- The text is that of an interface, and nothing more: its first word is the first keyword of the
interface, and it ends with the last keyword, or with a semicolon that follows it with no more than
white space between. -/
structure InterfaceText (n : Node) (t : Text) : Prop where
  rule : n.rule = .interfaceDeclaration
  opens : ∃ first, n.children.head? = some first ∧ first.start = n.start ∧
    IsKeyword .INTERFACE first ∧ firstWord t = first.text
  closes : ∃ last tail, n.children.getLast? = some last ∧ IsKeyword .END_INTERFACE last ∧
    t = n.start.upTo last.start ++ last.text ++ tail ∧ Closing tail

namespace Build

theorem bounded_of_append {t u : Text} (h : Bounded (t ++ u)) : Bounded t := by
  cases t with
  | nil => nofun
  | cons c t => exact h

/-- A text that goes on behind a keyword in front has the keyword as its first word. -/
theorem IsKeyword.firstWord_eq {k : Keyword} {first : Node} (h : IsKeyword k first)
    (hspelling : Wordlike (Text.upperCase k.spelling)) {s : Cursor} {own before behind : Text}
    (hown : first.start.Reads own s) (hbefore : first.start.Reads before first.stop)
    (hbehind : first.stop.Reads behind s) : firstWord own = first.text := by
  obtain rfl : own = before ++ behind := hown.upTo.symm.trans (hbefore.trans hbehind).upTo
  have htext : first.text = before := hbefore.upTo
  have hword : Wordlike before := by
    rw [← wordlike_upperCase, ← htext, eq_of_beq h.word]
    exact hspelling
  have hended := h.ended
  rw [hbehind.rest] at hended
  rw [firstWord_append hword (bounded_of_append hended), htext]

/-- An interface is kept up to where its text ends. -/
theorem interfaceText_of_row (hmatched : Matched n) (hrule : n.rule = .interfaceDeclaration)
    (hrow : Row n.start n.children n.stop) (hlast : n.children.getLast? = some last) :
    ∃ own rest s, n.start.Reads own s ∧ s.Reads rest n.stop ∧
      s.offset = ownEnd n.text n.start.offset last.stop.offset ∧ InterfaceText n own := by
  obtain ⟨own, tail, rest, s, hown, htail, hclosing, hrest, hoffset⟩ := reads_ownEnd hrow hlast
  obtain ⟨first, between, closing, hchildren, hstart, hfirst, hclose⟩ :=
    keywords_of_interface hmatched hrule
  obtain rfl : closing = last := by
    rw [hchildren, ← List.cons_append, List.getLast?_concat] at hlast
    exact Option.some.inj hlast
  refine ⟨_, rest, s, hown.trans htail, hrest, hoffset, hrule, ?_, ?_⟩
  · refine ⟨first, by rw [hchildren, List.head?_cons], hstart, hfirst, ?_⟩
    -- The first keyword is a word of its own, so it is the first word of the whole text.
    rw [hchildren] at hrow
    cases hrow with
    | cons _ hinside hbehind =>
        obtain ⟨before, hbefore⟩ := hinside.reads
        obtain ⟨⟨v, hv⟩, hlastRow, -⟩ := hbehind.of_mem (n := closing) (by simp)
        obtain ⟨w, hw⟩ := hlastRow.reads
        have hwhole := hown.trans htail
        rw [← hstart] at hwhole
        exact hfirst.firstWord_eq (by decide) hwhole hbefore ((hv.trans hw).trans htail)
  · obtain ⟨⟨t, ht⟩, hlastRow, -⟩ := hrow.of_mem (List.mem_of_getLast? hlast)
    obtain ⟨w, hw⟩ := hlastRow.reads
    refine ⟨closing, tail, hlast, hclose, ?_, hclosing⟩
    rw [ht.upTo, Node.text, hw.upTo, ← (ht.trans hw).upTo, hown.upTo]

end Build

namespace SourceFile

/-- Comments apart, the same is kept as it was written in files that are the same. -/
theorem exists_verbatim_of_bare {f g : SourceFile} (h : g.bare = f.bare) {v : VerbatimItem}
    (hv : .verbatim v ∈ g.items) :
    ∃ w, .verbatim w ∈ f.items ∧ v.anchor.span = w.anchor.span ∧ v.rule = w.rule ∧
      v.text = w.text := by
  have hmem : (Item.verbatim v).withAnchors Anchor.bare ∈ f.bare.items := by
    rw [← h]
    exact List.mem_map_of_mem hv
  obtain ⟨i, hi, hiv⟩ := List.mem_map.mp hmem
  cases i with
  | verbatim w =>
      obtain ⟨hanchor, hrule, htext⟩ := VerbatimItem.mk.inj (Item.verbatim.inj hiv)
      have hspan : w.anchor.bare.span = v.anchor.bare.span := congrArg Anchor.span hanchor
      exact ⟨w, hi, hspan.symm, hrule.symm, htext.symm⟩
  | _ => cases hiv

/-- The text that a file keeps of an interface is what its anchor cuts out of the source, and that is
the text of the interface. -/
theorem text_of_interface {root : Node} {stop : Cursor}
    (hderive : derive .iecSource source = .matched [root] stop) (hn : Within n root)
    (hrule : n.rule = .interfaceDeclaration) (hlast : n.children.getLast? = some last) :
    (verbatimItem (.ofText source) n last).text =
        (verbatimItem (.ofText source) n last).anchor.sourceText source ∧
      InterfaceText n (verbatimItem (.ofText source) n last).text := by
  obtain ⟨⟨t, ht⟩, hroot, -⟩ :=
    (derive_derives hderive).row.of_mem (List.mem_singleton_self root)
  obtain ⟨⟨u, hu⟩, hrow, -⟩ := reads_of_within hn hroot
  obtain ⟨own, rest, s, hown, hrest, hoffset, htext⟩ :=
    interfaceText_of_row (justified_of_within hderive hn).matched hrule hrow hlast
  -- What is kept is cut out of the text of the node by its width.
  have hkept : (verbatimItem (.ofText source) n last).text = own := by
    have hwidth : s.offset - n.start.offset = own.byteLength := by
      rw [hown.offset, Nat.add_sub_cancel_left]
    rw [verbatimItem, ← hoffset, hwidth, Node.text, (hown.trans hrest).upTo, Text.takeBytes?_append]
    rfl
  have hall := (ht.trans hu).trans hown
  rw [hkept]
  refine ⟨(Anchor.sourceText_of_append hall.rest ?_ ?_).symm, htext⟩
  · exact (ht.trans hu).offset.trans (Nat.zero_add _)
  · exact hoffset.symm.trans (hall.offset.trans (Nat.zero_add _))

/-- What a file keeps as it was written are the texts of interfaces, exactly as their anchors cut them
out of the source: from the one keyword to the other, and to a semicolon that only white space keeps
apart from it. No blank and no comment that the grammar skipped behind that is a part of the text.
And where any text is cut that is asked for with offsets that fall between characters, the cut lies
between characters, not in front of the last child and not behind the text, and stays where it is if
the text was cut there before. -/
theorem verbatim_exact :
    (∀ (settings : Settings) (source : Text) (filename : String) (g : SourceFile),
      parse settings source filename = .ok g → ∀ v, .verbatim v ∈ g.items →
        v.text = v.anchor.sourceText source ∧
        ∃ n, NodeOf source n ∧ v.rule = n.rule ∧ v.anchor.span.start = n.start.offset ∧
          InterfaceText n v.text) ∧
    ∀ (text : Text) (start last : Nat), start ≤ last → text.Boundary (last - start) →
      last ≤ ownEnd text start last ∧ ownEnd text start last ≤ start + text.byteLength ∧
      text.Boundary (ownEnd text start last - start) ∧
      ∃ cut, text.takeBytes? (ownEnd text start last - start) = some cut ∧
        ownEnd cut start last = ownEnd text start last := by
  refine ⟨?_, fun text start last => ownEnd_exact⟩
  intro settings source filename g hg v hv
  obtain ⟨f, hf, hbare⟩ := exists_bare_of_parse hg
  -- Attaching comments changes neither the text nor the span of an item that is passed through.
  obtain ⟨w, hw, hspan, hrule, htext⟩ := exists_verbatim_of_bare hbare hv
  obtain ⟨root, stop, hderive, hroot⟩ := exists_root_of_parseBare hf
  obtain ⟨n, last, hn, hinterface, hlast, rfl⟩ := exists_interface_of_mem (rule_of_derive hderive)
    (fun k hk => (justified_of_within hderive hk).matched) hroot hw
  obtain ⟨hcut, hown⟩ := text_of_interface hderive hn hinterface hlast
  rw [Anchor.sourceText, hspan, htext]
  exact ⟨hcut, n, ⟨root, stop, hderive, hn⟩, hrule, rfl, hown⟩

/-- Two interfaces, of which the first one ends with a semicolon and the second one with its keyword,
and comments behind both. -/
def twoInterfaces : Text :=
  "INTERFACE I END_INTERFACE\t; // é\ninterface J\nend_interface (* k *) ;\n".toList

theorem verbatim_exact_twoInterfaces :
    ∃ g, parse {} twoInterfaces "i.st" = .ok g ∧
      g.items.map (fun i => (i.isVerbatim, i.anchor.span.start, i.anchor.span.stop)) =
        [(true, 0, 27), (true, 34, 59)] ∧
      ∀ v, .verbatim v ∈ g.items → v.text = v.anchor.sourceText twoInterfaces ∧
        ∃ n, InterfaceText n v.text := by
  have hcheck : (parse {} twoInterfaces "i.st").toOption.any (fun g =>
      g.items.map (fun i => (i.isVerbatim, i.anchor.span.start, i.anchor.span.stop)) ==
        [(true, 0, 27), (true, 34, 59)]) := by
    decide +kernel
  cases hg : parse {} twoInterfaces "i.st" with
  | error e =>
      rw [hg] at hcheck
      cases hcheck
  | ok g =>
      rw [hg] at hcheck
      refine ⟨g, rfl, by simpa [Except.toOption] using hcheck, fun v hv => ?_⟩
      obtain ⟨hcut, n, -, -, -, htext⟩ := verbatim_exact.1 {} twoInterfaces "i.st" g hg v hv
      exact ⟨hcut, n, htext⟩

end SourceFile

end StructuredText
