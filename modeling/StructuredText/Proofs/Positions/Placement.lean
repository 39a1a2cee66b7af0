import StructuredText.Proofs.Build.Formation
import StructuredText.Proofs.Ownership.FirstNode
import StructuredText.Proofs.Positions.Ends
import StructuredText.Proofs.Positions.Outline

/-!
# Where nodes stand

A node of the tree stands where its construct was written. Its span falls between characters, so it
cuts out exactly what the construct was read from, up to where a raw construct stops of its own; its
line is the line of its first character. The spans of the nodes nest as the nodes do and follow each
other in the order in which the nodes are stored, also where builders reorder or drop children.

* `Anchor.Placed` — an anchor cuts its piece out of the source.
* `Build.laid_of_element` — the spans of what is built for a node lie in the node.
* `SourceFile.anchors_placed` — the positions of a file that was read.
-/

namespace StructuredText

open Grammar (Node Row Rule)

/-! ## Anchors and the source -/

/-- The offsets around a piece of a text cut it out. -/
theorem Text.slice?_append (before own behind : Text) :
    (before ++ own ++ behind).slice? before.byteLength (before ++ own).byteLength = some own := by
  have hle : before.byteLength ≤ (before ++ own).byteLength := by
    rw [byteLength_append]
    omega
  have hwidth : (before ++ own).byteLength - before.byteLength = own.byteLength := by
    rw [byteLength_append]
    omega
  rw [slice?, if_pos hle, List.append_assoc, dropBytes?_append, Option.bind_some, hwidth,
    takeBytes?_append]

/-- An anchor marks a piece of the source: its span lies in the source and falls between characters,
and its line is one plus the number of line feeds in front of it. -/
structure Anchor.Placed (source : Text) (a : Anchor) : Prop where
  ordered : a.span.start ≤ a.span.stop
  inside : a.span.stop ≤ source.byteLength
  slice : source.slice? a.span.start a.span.stop = some (a.sourceText source)
  around : ∃ before behind, source = before ++ a.sourceText source ++ behind ∧
    before.byteLength = a.span.start ∧
    (before ++ a.sourceText source).byteLength = a.span.stop ∧ a.line = 1 + before.count '\n'

/-- The text of an anchor is the piece that its span cuts out. -/
theorem Anchor.sourceText_of_append {source before own behind : Text} {a : Anchor}
    (hsource : source = before ++ own ++ behind) (hstart : a.span.start = before.byteLength)
    (hstop : a.span.stop = (before ++ own).byteLength) : a.sourceText source = own := by
  rw [sourceText, Span.text, hsource, hstart, hstop, Text.slice?_append]
  rfl

/-- An anchor is placed around the piece that its span cuts out. -/
theorem Anchor.placed_of_append {source before own behind : Text} {a : Anchor}
    (hsource : source = before ++ own ++ behind) (hstart : a.span.start = before.byteLength)
    (hstop : a.span.stop = (before ++ own).byteLength)
    (hline : a.line = (LineIndex.ofText source).lineOf a.span.start) : a.Placed source := by
  have hown := sourceText_of_append hsource hstart hstop
  have hslice : source.slice? a.span.start a.span.stop = some own := by
    rw [hsource, hstart, hstop, Text.slice?_append]
  have hbytes : source.byteLength = (before ++ own).byteLength + behind.byteLength := by
    rw [hsource, Text.byteLength_append]
  have hfeeds : a.line = 1 + before.count '\n' := by
    rw [hline, hstart, hsource, List.append_assoc, LineIndex.lineOf_ofText]
  refine ⟨?_, by omega, by rw [hown]; exact hslice, before, behind, ?_⟩
  · rw [hstart, hstop, Text.byteLength_append]
    omega
  · rw [hown]
    exact ⟨hsource, hstart.symm, hstop.symm, hfeeds⟩

/-- Where an anchor is placed does not depend on its comments. -/
theorem Anchor.Placed.of_bare {source : Text} {a : Anchor} (h : a.bare.Placed source) :
    a.Placed source := ⟨h.ordered, h.inside, h.slice, h.around⟩

namespace Build

variable {lines : LineIndex} {s s' : Cursor} {ns : List Node}

/-! ## Nodes in a source -/

/-- The nodes inside a node of a derivation stand in the source. -/
theorem reads_of_within {k n : Node} (h : Within k n) (hrow : Row n.start n.children n.stop) :
    (∃ t, n.start.Reads t k.start) ∧ Row k.start k.children k.stop ∧
      ∃ t, k.stop.Reads t n.stop := by
  induction h with
  | self => exact ⟨⟨[], .refl _⟩, hrow, [], .refl _⟩
  | child hm _ _ ih =>
      obtain ⟨⟨t, ht⟩, hparts, u, hu⟩ := hrow.of_mem hm
      obtain ⟨⟨v, hv⟩, hk, w, hw⟩ := ih hparts
      exact ⟨⟨_, ht.trans hv⟩, hk, _, hw.trans hu⟩

/-- The anchor of a node is placed in the source. -/
theorem placed_anchorOf {source : Text} {k root : Node} (hk : Within k root)
    (hrow : Row source.cursor [root] s') : (anchorOf (.ofText source) k).Placed source := by
  obtain ⟨⟨t, ht⟩, hroot, -⟩ := hrow.of_mem (List.mem_singleton_self root)
  obtain ⟨⟨u, hu⟩, hk, -⟩ := reads_of_within hk hroot
  have hbefore := ht.trans hu
  -- Only a raw node ends elsewhere than its rule: where its own text does.
  obtain ⟨own, rest, s₁, hown, -, hstop⟩ : ∃ own rest s₁, k.start.Reads own s₁ ∧
      s₁.Reads rest k.stop ∧ s₁.offset = (anchorOf (.ofText source) k).span.stop := by
    rw [anchorOf]
    cases hlast : k.children.getLast? with
    | none =>
        obtain ⟨own, hown⟩ := hk.reads
        exact ⟨own, [], k.stop, hown, .refl _, rfl⟩
    | some last =>
        cases hb : builder? k.rule with
        | none =>
            obtain ⟨own, tail, rest, s₁, hown, htail, -, hrest, hstop⟩ := reads_ownEnd hk hlast
            exact ⟨_, rest, s₁, hown.trans htail, hrest, hstop⟩
        | some b =>
            obtain ⟨own, hown⟩ := hk.reads
            exact ⟨own, [], k.stop, hown, .refl _, rfl⟩
  have hall := hbefore.trans hown
  have hsource : source = (t ++ u) ++ own ++ s₁.rest := hall.rest
  refine Anchor.placed_of_append hsource ?_ ?_ rfl
  · show k.start.offset = _
    rw [hbefore.offset]
    exact Nat.zero_add _
  · rw [← hstop, hall.offset]
    exact Nat.zero_add _

/-! ## Outlines of elements -/

end Build

/-- The outline of what an element serves as. -/
def Element.outline : Element → Outline
  | .raw n => .one { line := n.line, span := n.span } .empty
  | .declaration d => d.outline
  | .globalDeclaration d => d.outline
  | .locatedDeclaration d => d.outline
  | .externalDeclaration d => d.outline
  | .accessDeclaration d => d.outline
  | .member d => d.outline
  | .typeDeclaration t => t.outline
  | .block b => b.outline
  | .statement s => s.outline
  | .statements ss => Statement.outlineAll ss
  | .elseIf e => ElseIf.outlineAll [e]
  | .otherwise e => Else.outlineOption (some e)
  | .case c => Case.outlineAll [c]
  | .body b => b.outline
  | .item i => i.outline
  | .file f => f.outline
  | _ => .empty

/-- Types whose values have the outlines of the elements that serve as them. -/
class Outlined (α : Type) [OfElement α] where
  outline : α → Outline
  eq_of_element : ∀ {e : Element} {v : α}, ofElement? e = some v → outline v = e.outline

instance : Outlined (Anchored VariableDeclaration) where
  outline := Anchored.outline
  eq_of_element {e _} h := by cases e <;> cases h; rfl

instance : Outlined (Anchored GlobalDeclaration) where
  outline := Anchored.outline
  eq_of_element {e _} h := by cases e <;> cases h; rfl

instance : Outlined (Anchored LocatedDeclaration) where
  outline := Anchored.outline
  eq_of_element {e _} h := by cases e <;> cases h; rfl

instance : Outlined (Anchored ExternalDeclaration) where
  outline := Anchored.outline
  eq_of_element {e _} h := by cases e <;> cases h; rfl

instance : Outlined (Anchored AccessDeclaration) where
  outline := Anchored.outline
  eq_of_element {e _} h := by cases e <;> cases h; rfl

instance : Outlined (Anchored Member) where
  outline := Anchored.outline
  eq_of_element {e _} h := by cases e <;> cases h; rfl

instance : Outlined TypeDeclaration where
  outline := TypeDeclaration.outline
  eq_of_element {e _} h := by cases e <;> cases h; rfl

instance : Outlined DeclarationBlock where
  outline := DeclarationBlock.outline
  eq_of_element {e _} h := by cases e <;> cases h; rfl

instance : Outlined Statement where
  outline := Statement.outline
  eq_of_element {e _} h := by cases e <;> cases h; rfl

instance : Outlined (List Statement) where
  outline := Statement.outlineAll
  eq_of_element {e _} h := by cases e <;> cases h; rfl

instance : Outlined ElseIf where
  outline e := ElseIf.outlineAll [e]
  eq_of_element {e _} h := by cases e <;> cases h; rfl

instance : Outlined Else where
  outline e := Else.outlineOption (some e)
  eq_of_element {e _} h := by cases e <;> cases h; rfl

instance : Outlined Case where
  outline c := Case.outlineAll [c]
  eq_of_element {e _} h := by cases e <;> cases h; rfl

instance : Outlined Body where
  outline := Body.outline
  eq_of_element {e _} h := by cases e <;> cases h; rfl

instance : Outlined Item where
  outline := Item.outline
  eq_of_element {e _} h := by
    cases e with
    | item | raw =>
        cases h
        rfl
    | block b =>
        cases b <;> cases h
        rfl
    | _ => cases h

theorem outline_of_serve {α : Type} [OfElement α] [Outlined α] {es : List Element} {vs : List α}
    (h : Serve es vs) : Outline.all Element.outline es = .all Outlined.outline vs := by
  induction vs generalizing es with
  | nil =>
      obtain rfl := serve_nil_iff.mp h
      rfl
  | cons v vs ih =>
      obtain ⟨e, es, rfl, he, hes⟩ := serve_cons_iff.mp h
      simp only [Outline.all, ih hes, Outlined.eq_of_element he]

theorem Statement.outlineAll_eq_all (ss : List Statement) :
    Statement.outlineAll ss = .all Statement.outline ss := by
  induction ss with
  | nil => rfl
  | cons s ss ih => rw [Statement.outlineAll, Outline.all, ih]

theorem ElseIf.outlineAll_eq_all (es : List ElseIf) :
    ElseIf.outlineAll es = .all (fun e => ElseIf.outlineAll [e]) es := by
  induction es with
  | nil => rfl
  | cons e es ih =>
      obtain ⟨a, c, ss⟩ := e
      simp [ElseIf.outlineAll, Outline.all, ih]

theorem Case.outlineAll_eq_all (cs : List Case) :
    Case.outlineAll cs = .all (fun c => Case.outlineAll [c]) cs := by
  induction cs with
  | nil => rfl
  | cons c cs ih =>
      obtain ⟨a, ls, ss⟩ := c
      simp [Case.outlineAll, Outline.all, ih]

theorem outline_of_body {es : List Element} {body : Option (List Statement)}
    (h : Serve es body.toList) :
    Outline.all Element.outline es = Statement.outlineAll (body.getD []) := by
  rw [outline_of_serve h]
  cases body with
  | none => rfl
  | some ss => exact Outline.append_empty _

theorem outline_of_otherwise {es : List Element} {o : Option Else} (h : Serve es o.toList) :
    Outline.all Element.outline es = Else.outlineOption o := by
  rw [outline_of_serve h]
  cases o with
  | none => rfl
  | some e => exact Outline.append_empty _

namespace Build

/-! ## The spans of what is built -/

section Forms

variable {a : Anchor} {es : List Element} {x : Element} {high : Nat}

/-- Between the ends of its construct, a body without statements may be left out. -/
theorem laid_unitBody {body : Option Body} (hes : Serve es body.toList) {low : Nat}
    (h : Laid low (.all Element.outline es) high) :
    Laid low (Body.outlineOption (body.filter (!·.statements.isEmpty))) high := by
  rw [outline_of_serve hes] at h
  cases body with
  | none => exact h
  | some b =>
      rw [Option.filter_some]
      split
      · rw [Option.toList_some, Outline.all, Outline.all, Outline.append_empty] at h
        exact h
      · exact .empty h.le

theorem laid_block {α : Type} [OfElement (Anchored α)] [Outlined (Anchored α)]
    (hα : ∀ x : Anchored α, Outlined.outline x = x.outline) {block : Block α}
    (hb : Blocks a es block) (h : Laid a.span.start (.all Element.outline es) a.span.stop) :
    Laid a.span.start block.outline a.span.stop := by
  obtain ⟨hes, hfs⟩ := hb
  rw [Outline.all_append] at h
  have hitems := h.drop
  rw [outline_of_serve hfs, funext hα] at hitems
  exact .one (Nat.le_refl _) hitems (Nat.le_refl _)

/-- What is built between the ends of its construct, of elements that lie between them, lies between
them. -/
theorem laid_of_forms {r : Rule} (hx : Forms a r es x)
    (h : Laid a.span.start (.all Element.outline es) a.span.stop) :
    Laid a.span.start x.outline a.span.stop := by
  have hempty : Laid a.span.start .empty a.span.stop := .empty h.le
  have hone {parts : Outline} (hparts : Laid a.span.start parts a.span.stop) :
      Laid a.span.start (.one a parts) a.span.stop :=
    .one (Nat.le_refl _) hparts (Nat.le_refl _)
  -- Trees without inner anchors have an empty row of parts; in the others the parts are those of
  -- the children, in the same order.
  cases hx with
  | pass e =>
      rw [Outline.all, Outline.all, Outline.append_empty] at h
      exact h
  | initDeclaration | edgeDeclaration | fbInstance | fbInvocationDecl | locatedDeclaration
  | externalDeclaration | accessDeclaration | globalSpec | globalInvocation | member | namedType
  | assignment | targeted | methodCall | invocation | noOp | jump => exact hone hempty
  | plainBlock _ hb => exact laid_block (fun _ => rfl) hb h
  | locatedBlock hb => exact laid_block (fun _ => rfl) hb h
  | globalBlock hb => exact laid_block (fun _ => rfl) hb h
  | externalBlock hb => exact laid_block (fun _ => rfl) hb h
  | accessBlock hb => exact laid_block (fun _ => rfl) hb h
  | «structure» name base hes hfs =>
      rw [Outline.all, Outline.all_append, Outline.all_append] at h
      have hmembers := h.drop.drop.drop
      rw [outline_of_serve hfs] at hmembers
      exact hone hmembers
  | types hes =>
      rw [outline_of_serve hes] at h
      exact hone h
  | elseIf he hes =>
      have hbody := Laid.drop h
      rw [outline_of_body hes] at hbody
      exact hone hbody
  | otherwise hes =>
      rw [outline_of_body hes] at h
      exact hone h
  | ifThen he hbs hes hfs =>
      rw [List.cons_append, Outline.all, Outline.all_append, Outline.all_append] at h
      have hparts := h.drop
      rw [outline_of_body hbs, outline_of_serve hes, outline_of_otherwise hfs,
        Outline.append_assoc] at hparts
      refine hone ?_
      rw [ElseIf.outlineAll_eq_all]
      exact hparts
  | case hrule hlabels hes =>
      have hbody := Laid.drop h
      rw [outline_of_body hes] at hbody
      exact hone hbody
  | caseOf he hes hfs =>
      rw [List.cons_append, Outline.all, Outline.all_append] at h
      have hparts := h.drop
      rw [outline_of_serve hes, outline_of_otherwise hfs] at hparts
      refine hone ?_
      rw [Case.outlineAll_eq_all]
      exact hparts
  | forTo he hf hg hes hfs =>
      rw [Outline.all, Outline.all, Outline.all, Outline.all_append] at h
      have hbody := h.drop.drop.drop.drop
      rw [outline_of_body hfs] at hbody
      exact hone hbody
  | whileDo he hes =>
      have hbody := Laid.drop h
      rw [outline_of_body hes] at hbody
      exact hone hbody
  | repeatUntil hes he =>
      rw [Outline.all_append] at h
      have hbody := h.take
      rw [outline_of_body hes] at hbody
      exact hone hbody
  | statements t hes =>
      rw [Outline.all_append] at h
      have hbody := h.drop
      rw [outline_of_serve hes] at hbody
      show Laid _ (Statement.outlineAll _) _
      rw [Statement.outlineAll_eq_all]
      exact hbody
  | body he =>
      rw [Outline.all, Outline.all, Outline.append_empty, ← Outlined.eq_of_element he] at h
      exact hone h
  | unit hr hds hbs =>
      rw [Outline.all_append, Outline.all_append] at h
      obtain ⟨middle, hblocks, hbody⟩ := Laid.append_iff.mp h.drop
      rw [outline_of_serve hds] at hblocks
      exact hone (hblocks.append (laid_unitBody hbs hbody))
  | action hr hbs =>
      rw [Outline.all_append] at h
      exact hone (laid_unitBody hbs h.drop)
  | file hes =>
      rw [outline_of_serve hes] at h
      exact h
  | _ => exact hempty

end Forms

/-! ## The spans of what nodes become -/

section Nodes

variable {lines : LineIndex} {s s' : Cursor} {ns : List Node}

/-- The spans of what is built for nodes in a row lie between the ends of the row, one behind the
other. -/
theorem laid_of_elements (h : Row s ns s') {es : List Element} (hes : elements lines ns = .ok es) :
    Laid s.offset (.all Element.outline es) s'.offset := by
  induction h generalizing es with
  | nil h =>
      rw [elements_nil] at hes
      cases hes
      refine .empty ?_
      rw [h.offset]
      omega
  | @cons s s' t n ns h hparts hbehind ihparts ihbehind =>
      have hstart : s.offset ≤ n.start.offset := by
        rw [h.offset]
        omega
      have hstop : n.start.offset ≤ n.stop.offset := by
        obtain ⟨u, hu⟩ := hparts.reads
        rw [hu.offset]
        omega
      -- A keyword has no element, and what lies behind it begins further on.
      rw [elements_cons_eq_ok] at hes
      split at hes
      · exact (ihbehind hes).low_le (Nat.le_trans hstart hstop)
      · obtain ⟨x, fs, hx, hfs, rfl⟩ := hes
        have hnode : Laid n.start.offset x.outline n.stop.offset := by
          cases made_of_element hx with
          | token => exact .empty hstop
          | leaf _ hforms => exact laid_of_forms hforms (.empty hstop)
          | built _ hes hforms => exact laid_of_forms hforms (ihparts hes)
          | raw last _ hlast =>
              obtain ⟨own, tail, rest, s₁, hown, htail, -, hrest, hoffset⟩ :=
                reads_ownEnd hparts hlast
              refine .one (Nat.le_refl _) (.empty ?_) ?_
              · show n.start.offset ≤ ownEnd _ _ _
                rw [← hoffset, (hown.trans htail).offset]
                omega
              · show ownEnd _ _ _ ≤ n.stop.offset
                rw [← hoffset, hrest.offset]
                omega
        exact (hnode.low_le hstart).append (ihbehind hfs)

end Nodes

end Build

/-! ## Files -/

namespace SourceFile

open Build

variable {settings : Settings} {source : Text} {filename : String} {f g : SourceFile}

/-- The anchors of a file that was read with any settings are, but for the comments, those of the
file read without comments. -/
theorem outline_of_parse (h : parse settings source filename = .ok g) :
    ∃ f, parseBare source filename = .ok f ∧
      g.outline.map Anchor.bare = f.outline.map Anchor.bare := by
  obtain ⟨f, hf, hbare⟩ := exists_bare_of_parse h
  exact ⟨f, hf, by rw [← outline_bare, hbare, outline_bare]⟩

/-- The spans of a file nest and follow each other in the source. -/
theorem laid_of_parse (h : parse settings source filename = .ok g) :
    Laid 0 g.outline source.byteLength := by
  obtain ⟨f, hf, hbare⟩ := outline_of_parse h
  obtain ⟨root, stop, hderive, hroot⟩ := exists_root_of_parseBare hf
  have hrow := (Grammar.derive_derives hderive).row
  have hkeyword : root.rule.isKeyword = false := by
    obtain ⟨ms, -, hnode⟩ :=
      (Grammar.Expr.derives_rule_iff (r := .iecSource)).mp (Grammar.derive_derives hderive)
    obtain rfl := (List.cons.inj hnode).1
    rfl
  -- The file is laid over what its root has read, and that is not more than the text.
  have hone := laid_of_elements hrow (elements_one hkeyword hroot)
  rw [Outline.all, Outline.all, Outline.append_empty] at hone
  have hstop : stop.offset ≤ source.byteLength := by
    obtain ⟨t, ht⟩ := hrow.reads
    have hrest : source = t ++ stop.rest := ht.rest
    rw [ht.offset, hrest, Text.byteLength_append]
    show 0 + _ ≤ _
    omega
  have hf : Laid 0 (f.outline.map Anchor.bare) source.byteLength := (hone.le_high hstop).map_bare
  rw [← hbare] at hf
  exact hf.of_map_bare

/-- The positions of a file. Every anchor cuts its piece out of the source and has the line on which
it starts. The anchors nest as the nodes do: the span of a node lies inside that of the node it is a
part of, and spans of neighbours do not overlap and come in the order of the tree. So neither the
starts nor the lines of the anchors decrease in document order. -/
theorem anchors_placed (h : parse settings source filename = .ok g) :
    (∀ p ∈ g.anchors, p.2.Placed source) ∧
    (g.outline.anchors = g.anchors.map Prod.snd ∧ Laid 0 g.outline source.byteLength) ∧
    g.anchors.Pairwise fun p q => p.2.span.start ≤ q.2.span.start ∧ p.2.line ≤ q.2.line := by
  obtain ⟨f, hf, hbare⟩ := outline_of_parse h
  obtain ⟨root, stop, hderive, hroot⟩ := exists_root_of_parseBare hf
  have hrow := (Grammar.derive_derives hderive).row
  have hlaid := laid_of_parse h
  -- Attaching comments leaves the bare anchors as they are, and these are anchors of nodes of the
  -- derivation.
  have hplaced : ∀ a ∈ g.outline.anchors, a.Placed source ∧
      a.line = (LineIndex.ofText source).lineOf a.span.start := by
    intro a ha
    have hmem : a.bare ∈ (g.outline.map Anchor.bare).anchors := by
      rw [Outline.anchors_map]
      exact List.mem_map_of_mem ha
    rw [hbare, Outline.anchors_map, anchors_outline, List.map_map] at hmem
    obtain ⟨p, hp, hpa⟩ := List.mem_map.mp hmem
    have hsource : sourceFile (.ofText source) root = .ok f := by
      rw [sourceFile, hroot]
      rfl
    obtain ⟨k, hk, hka⟩ := anchors_of_sourceFile hsource hp
    have hak : a.bare = anchorOf (.ofText source) k := by
      rw [← hpa, Function.comp_apply, hka]
      rfl
    refine ⟨.of_bare ?_, ?_⟩
    · rw [hak]
      exact placed_anchorOf hk hrow
    · show a.bare.line = (LineIndex.ofText source).lineOf a.bare.span.start
      rw [hak]
      rfl
  refine ⟨?_, ⟨g.anchors_outline, hlaid⟩, ?_⟩
  · intro p hp
    refine (hplaced p.2 ?_).1
    rw [anchors_outline]
    exact List.mem_map_of_mem hp
  · have hstarts := hlaid.pairwise_start
    rw [anchors_outline] at hplaced hstarts
    refine (List.pairwise_map.mp hstarts).imp_of_mem ?_
    intro p q hp hq hpq
    have hpline := (hplaced p.2 (List.mem_map_of_mem hp)).2
    have hqline := (hplaced q.2 (List.mem_map_of_mem hq)).2
    refine ⟨hpq, ?_⟩
    rw [hpline, hqline]
    exact LineIndex.lineOf_mono (LineIndex.pairwise_ofText source) hpq

/-- A program with a statement in a clause of another, behind a character of two bytes. -/
def nestedProgram : Text := "PROGRAM P // é\nIF a THEN\nb;\nELSE\nc;\nEND_IF\nEND_PROGRAM".toList

theorem anchors_placed_nestedProgram :
    ∃ g, parse {} nestedProgram "p.st" = .ok g ∧
      g.anchors.map (fun p => (p.2.line, p.2.span.start, p.2.span.stop)) =
        [(1, 0, 55), (2, 16, 44), (2, 16, 44), (3, 26, 28), (4, 29, 37), (5, 34, 36)] ∧
      (∀ p ∈ g.anchors, p.2.Placed nestedProgram) ∧ Laid 0 g.outline nestedProgram.byteLength := by
  have hcheck : (parse {} nestedProgram "p.st").toOption.any (fun g =>
      g.anchors.map (fun p => (p.2.line, p.2.span.start, p.2.span.stop)) ==
        [(1, 0, 55), (2, 16, 44), (2, 16, 44), (3, 26, 28), (4, 29, 37), (5, 34, 36)]) := by
    decide +kernel
  cases hg : parse {} nestedProgram "p.st" with
  | error e =>
      rw [hg] at hcheck
      cases hcheck
  | ok g =>
      rw [hg] at hcheck
      obtain ⟨hplaced, ⟨-, hlaid⟩, -⟩ := anchors_placed hg
      exact ⟨g, rfl, by simpa [Except.toOption] using hcheck, hplaced, hlaid⟩

end SourceFile

end StructuredText
