import StructuredText.Proofs.Build.Formation
import StructuredText.Proofs.Grammar.Guards
import StructuredText.Proofs.Grammar.Names

/-!
# Interfaces are kept as they were written

Of the constructs in a file all have a builder, but for interfaces. So what a file keeps as it was
written are its interfaces. An interface begins with one keyword and ends with another one, behind
which nothing is left but what the grammar skips and a semicolon.

* `exists_interface_of_mem` — what is kept as it was written is the item of an interface.
* `not_mem_verbatim` — in a file without interfaces nothing is kept as it was written.
* `IsKeyword`, `keywords_of_interface` — the keywords at the ends of an interface.
-/

namespace StructuredText.Build

open Grammar Expr

variable {lines : LineIndex} {root m n last : Node} {f : SourceFile} {v : VerbatimItem}

/-! ## What is kept as it was written -/

/-- The rules of the constructs in a file: they pass nothing on as it is, and all of them have a
builder, but for interfaces and the end. -/
theorem cases_of_mayHold {r : Rule} (h : Rule.mayHold .iecSource r = true) :
    r.passes = false ∧ (builder? r = none → r = .interfaceDeclaration ∨ r = .endOfInput) := by
  have hall : (Rule.inOrder.all fun r => !Rule.mayHold .iecSource r ||
      !r.passes && ((builder? r).isSome || r == .interfaceDeclaration || r == .endOfInput)) =
        true := by
    decide +kernel
  have hr := Rule.of_all hall r
  simp only [h, Bool.not_true, Bool.false_or, Bool.and_eq_true, Bool.not_eq_true', Bool.or_eq_true,
    beq_iff_eq] at hr
  refine ⟨hr.1, fun hb => ?_⟩
  simpa [hb] using hr.2

/-- What is built for a construct in a file is not kept as it was written. -/
theorem Forms.not_verbatim {a : Anchor} {r : Rule} {es : List Element} {e : Element}
    (h : Forms a r es e) (hheld : Rule.mayHold .iecSource r = true) (v : VerbatimItem) :
    ofElement? e ≠ some (Item.verbatim v) := by
  cases h with
  | pass x hr =>
      rw [(cases_of_mayHold hheld).1] at hr
      cases hr
  | _ =>
      intro heq
      cases heq

/-- The item of a construct that is kept as it was written and ends with the given child. -/
def verbatimItem (lines : LineIndex) (n last : Node) : VerbatimItem :=
  let own := ownEnd n.text n.start.offset last.stop.offset
  { anchor := { line := lines.lineOf n.start.offset, span := ⟨n.start.offset, own⟩ }
    rule := n.rule
    text := (n.text.takeBytes? (own - n.start.offset)).getD [] }

/-- A construct in a file that is kept as it was written is an interface. -/
theorem interface_of_element (hm : Matched m) (hheld : Rule.mayHold .iecSource m.rule = true)
    {e : Element} (h : element lines m = .ok e) (hv : ofElement? e = some (Item.verbatim v)) :
    m.rule = .interfaceDeclaration ∧
      ∃ last, m.children.getLast? = some last ∧ v = verbatimItem lines m last := by
  cases made_of_element h with
  | token => cases hv
  | leaf _ hforms => exact absurd hv (hforms.not_verbatim hheld v)
  | built _ _ hforms => exact absurd hv (hforms.not_verbatim hheld v)
  | raw last hb hlast =>
      refine ⟨((cases_of_mayHold hheld).2 hb).resolve_right fun hend => ?_, last, hlast, ?_⟩
      · cases hm with
        | token => cases hlast
        | node hr =>
            obtain rfl : _ = Rule.endOfInput := hend
            cases hr
      · cases hv
        rfl

/-- The items of a file are built of its children. -/
theorem serve_of_file {a : Anchor} {r : Rule} {es : List Element} (h : Forms a r es (.file f))
    (hr : r = .iecSource) : Serve es f.items := by
  cases h with
  | file hes => exact hes
  | pass x hpass =>
      subst hr
      cases hpass

/-- The items of a file are built of the children of its node. -/
theorem exists_serve_of_file (hroot : root.rule = .iecSource)
    (h : element lines root = .ok (.file f)) :
    ∃ es, elements lines root.children = .ok es ∧ Serve es f.items := by
  cases made_of_element h with
  | leaf hn hforms =>
      -- a token serves as no item
      have hserve := serve_of_file hforms hroot
      rw [Serve] at hserve
      cases hitems : f.items with
      | nil =>
          rw [hitems] at hserve
          cases hserve
      | cons i is =>
          rw [hitems] at hserve
          cases (List.cons.inj hserve).1
  | built _ hes hforms => exact ⟨_, hes, serve_of_file hforms hroot⟩

/-- What is built for an interface is its item. -/
theorem verbatim_of_interface (hrule : n.rule = .interfaceDeclaration)
    (hlast : n.children.getLast? = some last) {e : Element} (h : element lines n = .ok e) :
    ofElement? e = some (Item.verbatim (verbatimItem lines n last)) := by
  obtain ⟨es, -, ⟨b, hb, -⟩ | ⟨-, ⟨hnil, -⟩ | ⟨last', hlast', rfl⟩⟩⟩ := element_cases h
  · rw [hrule] at hb
    cases hb
  · rw [hnil] at hlast
    cases hlast
  · obtain rfl := Option.some.inj (hlast.symm.trans hlast')
    rfl

/-- What a file keeps as it was written is the item of an interface in it. -/
theorem exists_interface_of_mem (hroot : root.rule = .iecSource)
    (hmatched : ∀ k, Within k root → Matched k) (h : element lines root = .ok (.file f))
    (hv : .verbatim v ∈ f.items) :
    ∃ n last, Within n root ∧ n.rule = .interfaceDeclaration ∧ n.children.getLast? = some last ∧
      v = verbatimItem lines n last := by
  obtain ⟨es, hes, hserve⟩ := exists_serve_of_file hroot h
  obtain ⟨e, he, hev⟩ := hserve.exists_element hv
  obtain ⟨m, hm, hkeyword, hme⟩ := exists_of_mem_elements hes he
  have hwithin : Within m root := .child hm hkeyword (.self m)
  have hheld := (hmatched root (.self root)).mayHold hm
  rw [hroot] at hheld
  obtain ⟨hrule, last, hlast, hitem⟩ := interface_of_element (hmatched m hwithin) hheld hme hev
  exact ⟨m, last, hwithin, hrule, hlast, hitem⟩

/-- Only interfaces are kept as they were written. -/
theorem not_mem_verbatim (hroot : root.rule = .iecSource)
    (hmatched : ∀ k, Within k root → Matched k)
    (hrule : ∀ k, Within k root → k.rule ≠ .interfaceDeclaration)
    (h : element lines root = .ok (.file f)) (v : VerbatimItem) : .verbatim v ∉ f.items := by
  intro hv
  obtain ⟨n, last, hn, hinterface, -⟩ := exists_interface_of_mem hroot hmatched h hv
  exact hrule n hn hinterface

/-! ## The keywords of an interface -/

/-- The node is the keyword: it was matched on the word, in any case, and the word ends there. -/
structure IsKeyword (k : Keyword) (n : Node) : Prop where
  rule : n.rule = .keyword k
  word : n.text.sameWord k.spelling = true
  ended : Bounded n.stop.rest

/-- A keyword leaves its node. -/
theorem derives_keyword {k : Keyword} {s s' : Cursor} {ns : List Node}
    (h : (Expr.rule (.keyword k)).Derives s ns s') :
    ∃ n, ns = [n] ∧ n.start = s ∧ IsKeyword k n := by
  obtain ⟨hrun, rfl⟩ := derives_rule_iff.mp h
  obtain ⟨s₁, hword, hend⟩ := Option.bind_eq_some_iff.mp hrun
  have hended := bounded_of_boundary hend
  obtain ⟨-, rfl⟩ : Lexicon.identChar.run s₁ = none ∧ s₁ = s' := by
    simpa [Lexicon.boundary, Pattern.run] using hend
  obtain ⟨t, hreads, hspells⟩ := Pattern.run_spells hword
  refine ⟨_, rfl, rfl, rfl, ?_, hended⟩
  rw [Node.text, hreads.upTo]
  exact beq_iff_eq.mpr (Pattern.word_spells hspells)

/-- Of spaced parts, the first one leaves the first nodes, and the others leave the rest. -/
theorem of_derives_spaced {e f : Expr} {es : List Expr} {s s' : Cursor} {ns : List Node}
    (h : (spaced (e :: f :: es)).Derives s ns s') :
    ∃ ms ls s₁ s₂, ns = ms ++ ls ∧ e.Derives s ms s₁ ∧ (spaced (f :: es)).Derives s₂ ls s' := by
  obtain ⟨ms, _, s₁, rfl, he, hrest⟩ := derives_seq_iff.mp h
  obtain ⟨_, ls, s₂, rfl, htrivia, hes⟩ := derives_seq_iff.mp hrest
  obtain ⟨rfl, -⟩ := derives_lexeme_iff.mp htrivia
  exact ⟨ms, ls, s₁, s₂, rfl, he, hes⟩

/-- An interface has the keyword of interfaces in front, where it starts, and ends with the keyword
that closes it. -/
theorem keywords_of_interface (h : Matched n) (hrule : n.rule = .interfaceDeclaration) :
    ∃ first between last, n.children = first :: (between ++ [last]) ∧ first.start = n.start ∧
      IsKeyword .INTERFACE first ∧ IsKeyword .END_INTERFACE last := by
  have hbody := (h.body hrule rfl).derives
  obtain ⟨_, _, _, _, hchildren, hopening, hbody⟩ := of_derives_spaced hbody
  obtain ⟨names, _, _, _, rfl, -, hbody⟩ := of_derives_spaced hbody
  obtain ⟨bases, _, _, _, rfl, -, hbody⟩ := of_derives_spaced hbody
  obtain ⟨methods, _, _, _, rfl, -, hbody⟩ := of_derives_spaced hbody
  obtain ⟨_, rest, _, _, rfl, hclosing, hsemicolon⟩ := of_derives_spaced hbody
  obtain ⟨first, rfl, hstart, hfirst⟩ := derives_keyword hopening
  obtain ⟨last, rfl, -, hlast⟩ := derives_keyword hclosing
  obtain rfl : rest = [] :=
    List.eq_nil_iff_forall_not_mem.mpr fun k hk => by cases mayLeave_of_mem hsemicolon hk 0
  refine ⟨first, names ++ (bases ++ methods), last, ?_, hstart, hfirst, hlast⟩
  rw [hchildren]
  simp

end StructuredText.Build
