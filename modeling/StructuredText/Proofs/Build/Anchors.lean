import StructuredText.Proofs.Build.Derivation
import StructuredText.Proofs.Ownership.Anchors

/-!
# Where anchors come from

A builder makes an anchor in one way only: it asks for that of its construct. All other anchors of
what it makes come with the children. So every anchor of a tree is the fresh anchor of a node of the
derivation, and owns no comments yet.

* `Element.anchors` — the anchors of what an element serves as.
* `Builder.Keeps` — what a builder makes of children whose anchors have a property.
* `Build.inherits_of_builder` — the anchors of what a builder makes.
* `Build.anchors_of_sourceFile` — every anchor of a file is that of a node of its derivation.
-/

namespace StructuredText

/-! ## The anchors of elements -/

/-- The anchors of what an element serves as. -/
def Element.anchors : Element → List Anchor
  | .raw n => [{ line := n.line, span := n.span }]
  | .declaration d => [d.anchor]
  | .globalDeclaration d => [d.anchor]
  | .locatedDeclaration d => [d.anchor]
  | .externalDeclaration d => [d.anchor]
  | .accessDeclaration d => [d.anchor]
  | .member d => [d.anchor]
  | .typeDeclaration t => t.anchors
  | .block b => b.anchors
  | .statement s => s.anchors
  | .statements ss => Statement.anchorsAll ss
  | .elseIf e => ElseIf.anchorsAll [e]
  | .otherwise e => Else.anchorsOption (some e)
  | .case c => Case.anchorsAll [c]
  | .body b => b.anchors
  | .item i => i.anchors.map Prod.snd
  | .file f => f.anchors.map Prod.snd
  | _ => []

/-- The anchors of the values of a type, which come from the elements that serve as the values. -/
class Carries (α : Type) [OfElement α] where
  anchors : α → List Anchor
  subset_of_element : ∀ {e : Element} {v : α}, ofElement? e = some v → anchors v ⊆ e.anchors

/-- Most values have no anchors. -/
instance (priority := low) {α : Type} [OfElement α] : Carries α where
  anchors _ := []
  subset_of_element _ := List.nil_subset _

instance : Carries (Anchored VariableDeclaration) where
  anchors d := [d.anchor]
  subset_of_element {e _} h := by
    cases e <;> cases h
    exact List.Subset.refl _

instance : Carries (Anchored GlobalDeclaration) where
  anchors d := [d.anchor]
  subset_of_element {e _} h := by
    cases e <;> cases h
    exact List.Subset.refl _

instance : Carries (Anchored LocatedDeclaration) where
  anchors d := [d.anchor]
  subset_of_element {e _} h := by
    cases e <;> cases h
    exact List.Subset.refl _

instance : Carries (Anchored ExternalDeclaration) where
  anchors d := [d.anchor]
  subset_of_element {e _} h := by
    cases e <;> cases h
    exact List.Subset.refl _

instance : Carries (Anchored AccessDeclaration) where
  anchors d := [d.anchor]
  subset_of_element {e _} h := by
    cases e <;> cases h
    exact List.Subset.refl _

instance : Carries (Anchored Member) where
  anchors d := [d.anchor]
  subset_of_element {e _} h := by
    cases e <;> cases h
    exact List.Subset.refl _

instance : Carries TypeDeclaration where
  anchors := TypeDeclaration.anchors
  subset_of_element {e _} h := by
    cases e <;> cases h
    exact List.Subset.refl _

instance : Carries DeclarationBlock where
  anchors := DeclarationBlock.anchors
  subset_of_element {e _} h := by
    cases e <;> cases h
    exact List.Subset.refl _

instance : Carries Statement where
  anchors := Statement.anchors
  subset_of_element {e _} h := by
    cases e <;> cases h
    exact List.Subset.refl _

instance : Carries (List Statement) where
  anchors := Statement.anchorsAll
  subset_of_element {e _} h := by
    cases e <;> cases h
    exact List.Subset.refl _

instance : Carries ElseIf where
  anchors e := ElseIf.anchorsAll [e]
  subset_of_element {e _} h := by
    cases e <;> cases h
    exact List.Subset.refl _

instance : Carries Else where
  anchors e := Else.anchorsOption (some e)
  subset_of_element {e _} h := by
    cases e <;> cases h
    exact List.Subset.refl _

instance : Carries Case where
  anchors c := Case.anchorsAll [c]
  subset_of_element {e _} h := by
    cases e <;> cases h
    exact List.Subset.refl _

instance : Carries Body where
  anchors := Body.anchors
  subset_of_element {e _} h := by
    cases e <;> cases h
    exact List.Subset.refl _

instance : Carries Item where
  anchors i := i.anchors.map Prod.snd
  subset_of_element {e v} h := by
    cases e with
    | item | raw =>
        cases h
        exact List.Subset.refl _
    | block b =>
        cases b <;> cases h
        simp [Item.anchors, Element.anchors, DeclarationBlock.anchors, Function.comp_def]
    | _ => cases h

/-! ## Ways to take children -/

namespace Builder

open Grammar (Rule)

variable {α β : Type} {P : Anchor → Prop}

/-- The anchor of the construct and those of the children still to take have a property. -/
def Holds (P : Anchor → Prop) (c : Children) : Prop :=
  P c.anchor ∧ ∀ e ∈ c.rest, ∀ a ∈ e.anchors, P a

/-- From anchors with a property the builder makes a value as told, and the anchors of the children
that it leaves have the property. -/
def Keeps (P : Anchor → Prop) (b : Builder α) (Q : α → Prop) : Prop :=
  ∀ c a c', b.Gives c a c' → Holds P c → Q a ∧ Holds P c'

/-- A value that is known to be good is given without touching the children. -/
theorem Keeps.pure {a : α} {Q : α → Prop} (h : Q a) : Keeps P (pure a) Q := by
  rintro c _ _ ⟨⟩ hc
  exact ⟨h, hc⟩

/-- Two steps keep what each of them keeps: the second may use what the first one says of its
result. -/
theorem Keeps.bind {b : Builder α} {f : α → Builder β} {Q : α → Prop} {R : β → Prop}
    (hb : Keeps P b Q) (hf : ∀ a, Q a → Keeps P (f a) R) : Keeps P (b >>= f) R := by
  intro c x c' h hc
  obtain ⟨a, c₁, hgives, hrest⟩ := gives_bind_iff.mp h
  obtain ⟨ha, hc₁⟩ := hb c a c₁ hgives hc
  exact hf a ha c₁ x c' hrest hc₁

/-- A step that always fails never gives anything, so it keeps everything. -/
theorem keeps_fail {x : Expectation} {Q : α → Prop} : Keeps P (fail x) Q := by
  rintro c _ _ ⟨⟩

/-- Reading the state gives children whose anchors are all good. -/
theorem keeps_get : Keeps P get (Holds P) := by
  rintro c _ _ ⟨⟩ hc
  exact ⟨hc, hc⟩

/-- The anchor of the construct itself is one of the anchors that have to be good. -/
theorem keeps_anchor : Keeps P anchor P := by
  rintro c _ _ ⟨⟩ hc
  exact ⟨hc.1, hc⟩

/-- Children that are dropped take their anchors with them. -/
theorem keeps_modify {f : Children → List Element}
    (h : ∀ c, Holds P c → ∀ e ∈ f c, ∀ a ∈ e.anchors, P a) :
    Keeps P (modify fun c => { c with rest := f c }) fun _ => True := by
  rintro c _ _ ⟨⟩ hc
  exact ⟨trivial, hc.1, h c hc⟩

theorem keeps_tookFirst {a : α} {Q : α → Prop} (h : Q a) : Keeps P (tookFirst a) Q :=
  (keeps_modify fun _ hc e he => hc.2 e (List.mem_of_mem_tail he)).bind fun _ _ => .pure h

theorem keeps_tookLast {a : α} {Q : α → Prop} (h : Q a) : Keeps P (tookLast a) Q :=
  (keeps_modify fun c hc e he => hc.2 e (List.dropLast_subset c.rest he)).bind fun _ _ => .pure h

/-- A child that is put back in front has to carry good anchors, as the others do. -/
theorem keeps_putFirst {e : Element} (he : ∀ a ∈ e.anchors, P a) :
    Keeps P (putFirst e) fun _ => True :=
  keeps_modify fun _ hc => List.forall_mem_cons.mpr ⟨he, hc.2⟩

/-- A child that is put back at the end has to carry good anchors, as the others do. -/
theorem keeps_putLast {e : Element} (he : ∀ a ∈ e.anchors, P a) :
    Keeps P (putLast e) fun _ => True :=
  keeps_modify fun _ hc => List.forall_mem_append.mpr ⟨hc.2, List.forall_mem_singleton.mpr he⟩

section Values

variable [OfElement α] [Carries α]

/-- The anchors of a value have a property. -/
def Carried (P : Anchor → Prop) (v : α) : Prop := ∀ a ∈ Carries.anchors v, P a

/-- A value carries no anchors but those of the element it was made of. -/
theorem carried_of_element {e : Element} (he : ∀ a ∈ e.anchors, P a) {v : α}
    (hv : ofElement? e = some v) : Carried P v :=
  fun a ha => he a (Carries.subset_of_element hv ha)

/-- What a child is turned into carries anchors of the child only. -/
theorem keeps_require {child : Option Element} (h : ∀ e ∈ child, ∀ a ∈ e.anchors, P a) :
    Keeps P (require child) (Carried P (α := α)) := by
  cases child with
  | none => exact keeps_fail
  | some e =>
      rw [require]
      split
      · rename_i v hv
        exact .pure (carried_of_element (h e rfl) (ofElement?_eq_some_iff.mpr hv))
      · exact keeps_fail

/-- Taking the first child gives a value with good anchors. -/
theorem keeps_take : Keeps P (take α) (Carried P) :=
  keeps_get.bind fun _ hc => (keeps_tookFirst (Q := fun _ => True) trivial).bind fun _ _ =>
    keeps_require fun e he => hc.2 e (List.mem_of_head? he)

/-- A child that is accepted or put back leaves nothing but good anchors, in either case. -/
theorem keeps_acceptOr {putBack : Element → Builder Unit} {e : Element}
    (he : ∀ a ∈ e.anchors, P a) (hback : Keeps P (putBack e) fun _ => True) :
    Keeps P (acceptOr α putBack e) fun o => ∀ v ∈ o, Carried P v := by
  rw [acceptOr]
  split
  · rename_i v hv
    refine .pure ?_
    rintro _ ⟨⟩
    exact carried_of_element he (ofElement?_eq_some_iff.mpr hv)
  · rename_i e' he'
    obtain rfl := OfElement.handsBack he'
    exact hback.bind fun _ _ => .pure (by simp)

/-- A first child that was taken, if one was, has good anchors. -/
theorem keeps_takeIf : Keeps P (takeIf α) fun o => ∀ v ∈ o, Carried P v := by
  refine keeps_get.bind fun c hc => ?_
  split
  · exact .pure (by simp)
  · rename_i e he
    have hanchors := hc.2 e (List.mem_of_head? he)
    exact (keeps_tookFirst (Q := fun _ => True) trivial).bind fun _ _ =>
      keeps_acceptOr hanchors (keeps_putFirst hanchors)

/-- A last child that was taken, if one was, has good anchors. -/
theorem keeps_takeLastIf : Keeps P (takeLastIf α) fun o => ∀ v ∈ o, Carried P v := by
  refine keeps_get.bind fun c hc => ?_
  split
  · exact .pure (by simp)
  · rename_i e he
    have hanchors := hc.2 e (List.mem_of_getLast? he)
    exact (keeps_tookLast (Q := fun _ => True) trivial).bind fun _ _ =>
      keeps_acceptOr hanchors (keeps_putLast hanchors)

/-- The values split off in front have good anchors, and so do the children that are left. -/
theorem splitWhile_holds {es : List Element} (h : ∀ e ∈ es, ∀ a ∈ e.anchors, P a) :
    (∀ v ∈ (splitWhile α es).1, Carried P v) ∧ ∀ e ∈ (splitWhile α es).2, ∀ a ∈ e.anchors, P a := by
  induction es with
  | nil => simp [splitWhile]
  | cons e es ih =>
      obtain ⟨hvs, hrest⟩ := ih fun e he => h e (List.mem_cons_of_mem _ he)
      simp only [splitWhile]
      split
      · rename_i v hv
        refine ⟨?_, hrest⟩
        intro w hw
        rcases List.mem_cons.mp hw with rfl | hw
        · exact carried_of_element (h e (by simp)) (ofElement?_eq_some_iff.mpr hv)
        · exact hvs w hw
      · rename_i e' he'
        obtain rfl := OfElement.handsBack he'
        exact ⟨by simp, h⟩

/-- All values that are taken from the front have good anchors. -/
theorem keeps_takeWhile : Keeps P (takeWhile α) fun vs => ∀ v ∈ vs, Carried P v :=
  keeps_get.bind fun _ hc =>
    (keeps_modify fun _ _ => (splitWhile_holds hc.2).2).bind fun _ _ =>
      .pure (splitWhile_holds hc.2).1

end Values

/-- A token has no anchors. -/
theorem keeps_tokenIf {r : Rule} : Keeps P (tokenIf r) fun _ => True := by
  refine keeps_get.bind fun c _ => ?_
  split
  · split
    · exact keeps_tookFirst trivial
    · exact .pure trivial
  · exact .pure trivial

theorem keeps_tokenListIf {r : Rule} : Keeps P (tokenListIf r) fun _ => True := by
  refine keeps_get.bind fun c _ => ?_
  split
  · split
    · exact keeps_tookFirst trivial
    · exact .pure trivial
  · exact .pure trivial

/-- Where nothing was found, the builder fails. -/
theorem keeps_orMismatch {r : Rule} {o : Option α} : Keeps P (orMismatch r o) fun _ => True := by
  cases o with
  | none => exact keeps_get.bind fun _ _ => keeps_fail
  | some a => exact .pure trivial

theorem keeps_token {r : Rule} : Keeps P (token r) fun _ => True :=
  keeps_tokenIf.bind fun _ _ => keeps_orMismatch

/-- A child that is passed on as it is keeps its anchors. -/
theorem keeps_single : Keeps P single fun e => ∀ a ∈ e.anchors, P a := by
  refine keeps_get.bind fun c hc => ?_
  split
  · rename_i e he
    exact .pure (hc.2 e (by simp [he]))
  · exact keeps_fail

/-- A builder that ends with children left fails. -/
theorem keeps_finish : Keeps P finish fun _ => True := by
  refine keeps_get.bind fun c _ => ?_
  split
  · exact .pure trivial
  · exact keeps_fail

/-- A row that has to have an entry is the row it was. -/
theorem keeps_nonEmpty {what : String} {as : List α} {Q : List α → Prop} (h : Q as) :
    Keeps P (nonEmpty what as) Q := by
  rw [nonEmpty]
  split
  · exact keeps_fail
  · exact .pure h

end Builder

/-! ## What builders make -/

namespace Build

open Builder

variable {P : Anchor → Prop} {b : Builder Element}

/-- The builder makes an element whose anchors have a property if those it starts from have it. -/
def Passes (P : Anchor → Prop) (b : Builder Element) : Prop :=
  Keeps P b fun e => ∀ a ∈ e.anchors, P a

/-- Whatever the children are, what the builder makes is as told. -/
def Always {α : Type} (b : Builder α) (Q : α → Prop) : Prop := ∀ c a c', b.Gives c a c' → Q a

/-- The anchors of what the builder makes are that of the construct and those of its children. -/
def Inherits (b : Builder Element) : Prop :=
  ∀ c e c', b.Gives c e c' → e.anchors ⊆ c.anchor :: c.rest.flatMap Element.anchors

/-- A construct inherits its anchors if every property of them passes from its children. -/
theorem Inherits.of_passes (h : ∀ P, Passes P b) : Inherits b := by
  intro c e c' hgives a ha
  refine (h (· ∈ c.anchor :: c.rest.flatMap Element.anchors) c e c' hgives ⟨by simp, ?_⟩).1 a ha
  intro e he a ha
  exact List.mem_cons_of_mem _ (List.mem_flatMap.mpr ⟨e, he, ha⟩)

section Always

variable {α β : Type}

/-- A value that is given without further steps. -/
theorem Always.pure {a : α} {Q : α → Prop} (h : Q a) : Always (pure a) Q := by
  rintro c _ _ ⟨⟩
  exact h

theorem Always.fail {x : Expectation} {Q : α → Prop} : Always (fail x) Q := by
  rintro c _ _ ⟨⟩

/-- Only the last step decides what is given. -/
theorem Always.bind {b : Builder α} {f : α → Builder β} {Q : β → Prop}
    (h : ∀ a, Always (f a) Q) : Always (b >>= f) Q := by
  intro c x c' hgives
  obtain ⟨a, c₁, -, hf⟩ := gives_bind_iff.mp hgives
  exact h a c₁ x c' hf

end Always

/-- A builder that asks for no anchor and keeps no child makes something without anchors. -/
theorem Inherits.of_none (h : Always b fun e => e.anchors = []) : Inherits b := by
  intro c e c' hgives
  rw [h c e c' hgives]
  exact List.nil_subset _

/-- A builder that keeps no child makes something with no anchor but that of the construct. -/
theorem Inherits.of_own {f : Anchor → Builder Element}
    (h : ∀ a, Always (f a) fun e => e.anchors = [a]) : Inherits (anchor >>= f) := by
  intro c e c' hgives
  obtain ⟨a, c₁, ⟨⟩, hf⟩ := gives_bind_iff.mp hgives
  rw [h _ _ _ _ hf]
  simp

/-! ## Rows of parts -/

/-- The anchors of a row are those of its entries. -/
theorem carried_all {α : Type} [OfElement α] [Carries α] {vs : List α}
    (h : ∀ v ∈ vs, Carried P v) : ∀ a ∈ vs.flatMap Carries.anchors, P a := by
  intro a ha
  obtain ⟨v, hv, ha⟩ := List.mem_flatMap.mp ha
  exact h v hv a ha

/-- The anchors of an `ELSE` branch, if there is one. -/
theorem carried_otherwise {o : Option Else} (h : ∀ e ∈ o, Carried P e) :
    ∀ a ∈ Else.anchorsOption o, P a := by
  cases o with
  | none => simp [Else.anchorsOption]
  | some e => exact h e rfl

/-- The statements of a body carry the anchors of the list they were taken from. -/
theorem takeBody_keeps : Keeps P takeBody fun ss => ∀ a ∈ Statement.anchorsAll ss, P a := by
  refine keeps_takeIf.bind fun o ho => .pure ?_
  cases o with
  | none => simp [Statement.anchorsAll]
  | some ss => exact ho ss rfl

/-- The body of a unit carries its own anchor and those of its statements. -/
theorem takeUnitBody_keeps : Keeps P takeUnitBody fun b => ∀ a ∈ Body.anchorsOption b, P a := by
  refine keeps_takeIf.bind fun o ho => .pure ?_
  cases o with
  | none => simp [Body.anchorsOption]
  | some b =>
      rw [Option.filter_some]
      split
      · exact ho b rfl
      · simp [Body.anchorsOption]

/-! ## Statements -/

theorem elseIfClause_passes : Passes P elseIfClause := by
  refine keeps_anchor.bind fun a ha => keeps_take.bind fun _ _ =>
    takeBody_keeps.bind fun ss hss => keeps_finish.bind fun _ _ => .pure ?_
  simpa [Element.anchors, ElseIf.anchorsAll] using ⟨ha, hss⟩

theorem elseClause_passes : Passes P elseClause := by
  refine keeps_anchor.bind fun a ha => takeBody_keeps.bind fun ss hss =>
    keeps_finish.bind fun _ _ => .pure ?_
  simpa [Element.anchors, Else.anchorsOption] using ⟨ha, hss⟩

theorem ifStatement_passes : Passes P ifStatement := by
  refine keeps_anchor.bind fun a ha => keeps_takeLastIf.bind fun o ho => keeps_take.bind fun _ _ =>
    takeBody_keeps.bind fun ss hss => keeps_takeWhile.bind fun es hes =>
      keeps_finish.bind fun _ _ => .pure ?_
  simp only [Element.anchors, Statement.anchors, ElseIf.anchorsAll_eq_flatMap es,
    List.forall_mem_cons, List.forall_mem_append]
  exact ⟨ha, hss, carried_all hes, carried_otherwise ho⟩

/-- Labels are values and ranges, and none of them has an anchor. -/
theorem caseLabels_keeps (es : List Element) : Keeps P (es.mapM caseLabel) fun _ => True := by
  induction es with
  | nil => exact .pure trivial
  | cons e es ih =>
      have hlabel : Keeps P (caseLabel e) fun _ => True := by
        rw [caseLabel]
        split
        · exact .pure trivial
        · exact keeps_fail
      rw [List.mapM_cons]
      exact hlabel.bind fun _ _ => ih.bind fun _ _ => .pure trivial

/-- A case is put together of its labels, which have no anchors, and its body. -/
theorem caseElement_passes : Passes P caseElement := by
  refine keeps_anchor.bind fun a ha => keeps_take.bind fun list _ => ?_
  have hrest : Passes P (do
      let labels ← list.children.mapM caseLabel
      let body ← takeBody
      finish
      pure (.case ⟨a, labels, body⟩)) := by
    refine (caseLabels_keeps _).bind fun _ _ => takeBody_keeps.bind fun ss hss =>
      keeps_finish.bind fun _ _ => .pure ?_
    simpa [Element.anchors, Case.anchorsAll] using ⟨ha, hss⟩
  split
  · exact (keeps_fail (Q := fun _ => True)).bind fun _ _ => hrest
  · exact hrest

theorem caseStatement_passes : Passes P caseStatement := by
  refine keeps_anchor.bind fun a ha => keeps_takeLastIf.bind fun o ho => keeps_take.bind fun _ _ =>
    keeps_takeWhile.bind fun cs hcs => keeps_finish.bind fun _ _ => .pure ?_
  simp only [Element.anchors, Statement.anchors, Case.anchorsAll_eq_flatMap cs,
    List.forall_mem_cons, List.forall_mem_append]
  exact ⟨ha, carried_all hcs, carried_otherwise ho⟩

theorem forStatement_passes : Passes P forStatement := by
  refine keeps_anchor.bind fun a ha => keeps_take.bind fun _ _ => keeps_take.bind fun _ _ =>
    keeps_take.bind fun _ _ => keeps_takeIf.bind fun _ _ => takeBody_keeps.bind fun ss hss =>
      keeps_finish.bind fun _ _ => .pure ?_
  simpa [Element.anchors, Statement.anchors] using ⟨ha, hss⟩

theorem whileStatement_passes : Passes P whileStatement := by
  refine keeps_anchor.bind fun a ha => keeps_take.bind fun _ _ =>
    takeBody_keeps.bind fun ss hss => keeps_finish.bind fun _ _ => .pure ?_
  simpa [Element.anchors, Statement.anchors] using ⟨ha, hss⟩

theorem repeatStatement_passes : Passes P repeatStatement := by
  refine keeps_anchor.bind fun a ha => takeBody_keeps.bind fun ss hss =>
    keeps_take.bind fun _ _ => keeps_finish.bind fun _ _ => .pure ?_
  simpa [Element.anchors, Statement.anchors] using ⟨ha, hss⟩

theorem statementList_passes : Passes P statementList := by
  refine keeps_tokenIf.bind fun _ _ => keeps_takeWhile.bind fun ss hss =>
    keeps_finish.bind fun _ _ => .pure ?_
  simp only [Element.anchors, Statement.anchorsAll_eq_flatMap]
  exact carried_all hss

/-! ## Blocks and type declarations -/

/-- The anchors of a block are its own and one for each entry. -/
theorem blockOf_keeps {α : Type} [OfElement (Anchored α)] [Carries (Anchored α)]
    (hα : ∀ x : Anchored α, Carries.anchors x = [x.anchor]) :
    Keeps P (blockOf α) fun b => ∀ a ∈ b.anchors, P a := by
  refine keeps_anchor.bind fun a ha => keeps_takeWhile.bind fun _ _ =>
    keeps_takeWhile.bind fun xs hxs => keeps_finish.bind fun _ _ => .pure ?_
  simp only [Block.anchors, List.forall_mem_cons, List.forall_mem_map]
  exact ⟨ha, fun x hx => hxs x hx _ (by simp [hα])⟩

theorem structureTypeDeclaration_passes : Passes P structureTypeDeclaration := by
  refine keeps_anchor.bind fun a ha => keeps_token.bind fun _ _ => keeps_tokenIf.bind fun _ _ =>
    keeps_takeIf.bind fun _ _ => keeps_takeWhile.bind fun ms hms =>
      keeps_finish.bind fun _ _ => .pure ?_
  simp only [Element.anchors, TypeDeclaration.anchors, TypeDefinition.anchors,
    List.forall_mem_cons, List.forall_mem_map]
  exact ⟨ha, fun m hm => hms m hm _ (by simp [Carries.anchors])⟩

theorem dataTypeDeclaration_passes : Passes P dataTypeDeclaration := by
  refine keeps_anchor.bind fun a ha => keeps_takeWhile.bind fun ts hts =>
    (keeps_nonEmpty (Q := fun ts => ∀ t ∈ ts, Carried P t) hts).bind fun ts hts => keeps_finish.bind fun _ _ => .pure ?_
  simp only [Element.anchors, Item.anchors, TypeBlock.anchors, List.map_map, Function.comp_def,
    List.map_id', List.forall_mem_cons]
  exact ⟨ha, carried_all hts⟩

/-! ## Units and files -/

theorem functionBlockBody_passes : Passes P functionBlockBody := by
  refine keeps_anchor.bind fun a ha => keeps_take.bind fun ss hss =>
    keeps_finish.bind fun _ _ => .pure ?_
  simp only [Element.anchors, Body.anchors, List.forall_mem_cons]
  exact ⟨ha, hss⟩

/-- A unit of any kind has its own anchor and those of its blocks and its body. -/
theorem unitOf_passes {heading : Builder (UnitKind × Token)}
    (h : Keeps P heading fun _ => True) : Passes P (unitOf heading) := by
  refine keeps_anchor.bind fun a ha => h.bind fun _ _ => keeps_takeWhile.bind fun ds hds =>
    takeUnitBody_keeps.bind fun b hb => keeps_finish.bind fun _ _ => .pure ?_
  simp only [Element.anchors, Item.anchors, ProgramUnit.anchors, List.map_map, Function.comp_def,
    List.map_id', List.forall_mem_cons, List.forall_mem_append]
  exact ⟨ha, carried_all hds, hb⟩

/-- An action of any kind has its own anchor and those of its body. -/
theorem actionOf_passes {kind : Builder ActionKind} (h : Keeps P kind fun _ => True) :
    Passes P (actionOf kind) := by
  refine keeps_anchor.bind fun a ha => h.bind fun _ _ => takeUnitBody_keeps.bind fun b hb =>
    keeps_finish.bind fun _ _ => .pure ?_
  simp only [Element.anchors, Item.anchors, Action.anchors, List.map_map, Function.comp_def,
    List.map_id', List.forall_mem_cons]
  exact ⟨ha, hb⟩

/-- A file has the anchors of its items, and none of its own. -/
theorem iecSource_passes : Passes P iecSource := by
  refine keeps_takeWhile.bind fun is his => keeps_finish.bind fun _ _ => .pure ?_
  simp only [Element.anchors, SourceFile.anchors, List.map_flatMap]
  exact carried_all his

/-! ## Levels of operators -/

/-- An operator in front of an operand is a token, and an expression has no anchors. -/
theorem unaryExpression_passes : Passes P unaryExpression := by
  refine keeps_tokenIf.bind fun o _ => ?_
  cases o with
  | none => exact keeps_single
  | some op =>
      exact keeps_take.bind fun _ _ => keeps_finish.bind fun _ _ => .pure (by simp [Element.anchors])

/-- However many operands are taken, an expression has no anchors. -/
theorem chainOnto_keeps (left : Expression) (bound : List Element) :
    Keeps P (chainOnto left bound) fun _ => True := by
  induction bound generalizing left with
  | nil =>
      refine keeps_get.bind fun c _ => ?_
      split <;> exact .pure trivial
  | cons _ bound ih =>
      refine keeps_get.bind fun c _ => ?_
      split
      · exact .pure trivial
      · exact keeps_take.bind fun _ _ => keeps_take.bind fun _ _ => ih _

/-- A single operand is passed on as it is, and a chain of them is an expression. -/
theorem binaryChain_passes : Passes P binaryChain := by
  refine keeps_get.bind fun c _ => ?_
  split
  · exact keeps_single
  · exact keeps_take.bind fun _ _ => (chainOnto_keeps _ _).bind fun _ _ =>
      .pure (by simp [Element.anchors])

/-! ## The table -/

theorem simpleOf_inherits (statement : Builder SimpleStatement) : Inherits (simpleOf statement) :=
  .of_own fun _ => .bind fun _ => .bind fun _ => .pure rfl

theorem namedType_inherits (what : String) (fits : SpecInit → Bool) :
    Inherits (namedType what fits) := by
  refine .of_own fun a => .bind fun name => .bind fun base => .bind fun init => ?_
  split
  · exact .bind fun _ => .bind fun _ => .pure rfl
  · exact .bind fun _ => .pure rfl

/-- The anchors of what any builder makes are that of the construct and those of its children. -/
theorem inherits_of_builder {r : Grammar.Rule} (hb : builder? r = some b) : Inherits b := by
  cases r
  -- what is passed on as it is
  case expression | xorExpression | andExpression | comparisonExpression | equalityExpression
      | addExpression | expressionTerm | powerExpression =>
    cases hb
    exact .of_passes fun _ => binaryChain_passes
  case unaryExpression =>
    cases hb
    exact .of_passes fun _ => unaryExpression_passes
  case arrayInitialElement =>
    cases hb
    exact .of_passes fun _ => keeps_single
  -- what holds further anchors
  case varDeclarations | tempVarDecls | varInstDeclaration | inputDeclarations | outputDeclarations
      | inputOutputDeclarations | locatedVarDeclarations | globalVarDeclarations
      | externalVarDeclarations | programAccessDecls =>
    cases hb
    exact .of_passes fun _ => (blockOf_keeps fun _ => rfl).bind fun _ hblock => .pure hblock
  case structureTypeDeclaration =>
    cases hb
    exact .of_passes fun _ => structureTypeDeclaration_passes
  case dataTypeDeclaration =>
    cases hb
    exact .of_passes fun _ => dataTypeDeclaration_passes
  case elseIfClause =>
    cases hb
    exact .of_passes fun _ => elseIfClause_passes
  case elseClause =>
    cases hb
    exact .of_passes fun _ => elseClause_passes
  case ifStatement =>
    cases hb
    exact .of_passes fun _ => ifStatement_passes
  case caseElement =>
    cases hb
    exact .of_passes fun _ => caseElement_passes
  case caseStatement =>
    cases hb
    exact .of_passes fun _ => caseStatement_passes
  case forStatement =>
    cases hb
    exact .of_passes fun _ => forStatement_passes
  case whileStatement =>
    cases hb
    exact .of_passes fun _ => whileStatement_passes
  case repeatStatement =>
    cases hb
    exact .of_passes fun _ => repeatStatement_passes
  case statementList =>
    cases hb
    exact .of_passes fun _ => statementList_passes
  case functionBlockBody =>
    cases hb
    exact .of_passes fun _ => functionBlockBody_passes
  case functionBlockTypeDeclaration =>
    cases hb
    exact .of_passes fun _ => unitOf_passes (keeps_tokenIf.bind fun _ _ => keeps_token.bind
      fun _ _ => keeps_tokenIf.bind fun _ _ => keeps_tokenListIf.bind fun _ _ => .pure trivial)
  case functionDeclaration =>
    cases hb
    exact .of_passes fun _ => unitOf_passes (keeps_token.bind fun _ _ => keeps_takeIf.bind
      fun _ _ => .pure trivial)
  case programDeclaration =>
    cases hb
    exact .of_passes fun _ => unitOf_passes (keeps_token.bind fun _ _ => .pure trivial)
  case functionBlockMethodDeclaration =>
    cases hb
    exact .of_passes fun _ => unitOf_passes (keeps_takeIf.bind fun _ _ => keeps_token.bind
      fun _ _ => keeps_takeIf.bind fun _ _ => .pure trivial)
  case action =>
    cases hb
    exact .of_passes fun _ => actionOf_passes (keeps_token.bind fun _ _ => .pure trivial)
  case entryAction | exitAction =>
    cases hb
    exact .of_passes fun _ => actionOf_passes (.pure trivial)
  case iecSource =>
    cases hb
    exact .of_passes fun _ => iecSource_passes
  -- what has an anchor of its own
  case assignmentStatement | setStatement | resetStatement | referenceAssignmentStatement
      | exitStatement | continueStatement | returnStatement | methodStatement
      | fbInvocationStatement | noOpStatement =>
    cases hb
    exact simpleOf_inherits _
  case arrayTypeDeclaration | stringTypeDeclaration | subrangeTypeDeclaration
      | enumeratedTypeDeclaration | initializedStructureTypeDeclaration | simpleTypeDeclaration =>
    cases hb
    exact namedType_inherits _ _
  case var1InitDecl | arrayVarInitDecl | stringVarDeclaration | edgeDeclaration | fbNameDecl
      | fbInvocationDecl | locatedVarDecl | externalDeclaration | programAccessDecl | globalVarDecl
      | structureElementDeclaration =>
    cases hb
    refine .of_own fun _ => ?_
    repeat refine .bind fun _ => ?_
    exact .pure rfl
  -- the other rules have no builder, or make something without anchors
  case indirectionType =>
    cases hb
    refine .of_none (.bind fun _ => ?_)
    dsimp only
    repeat' split
    all_goals exact .bind fun _ => .bind fun _ => .pure rfl
  all_goals first | (cases hb; done) | skip
  all_goals
    cases hb
    refine .of_none ?_
    refine .bind fun _ => ?_
    repeat'
      first
      | with_reducible exact .pure rfl
      | with_reducible exact .fail
      | with_reducible refine .bind fun _ => ?_
      | split

/-! ## What nodes become -/

section Nodes

open Grammar (Node)

variable {lines : LineIndex}

/-- The anchor of what is built for a node, before it owns comments. -/
def anchorOf (lines : LineIndex) (n : Node) : Anchor where
  line := lines.lineOf n.start.offset
  span := ⟨n.start.offset,
    match n.children.getLast?, builder? n.rule with
    | some last, none => ownEnd n.text n.start.offset last.stop.offset
    | _, _ => n.stop.offset⟩

/-- What a builder makes is what its steps give, with some children left. -/
theorem exists_gives_of_build {c : Children} {e : Element} (h : b.build c = .ok e) :
    ∃ c', b.Gives c e c' := ⟨(b.run c).2, Prod.ext h rfl⟩

/-- What is built for a node has the anchor of the node and those of the elements of its children,
and no other. -/
theorem anchors_of_children {n : Node} {e : Element} (h : element lines n = .ok e) :
    ∃ es, elements lines n.children = .ok es ∧
      e.anchors ⊆ anchorOf lines n :: es.flatMap Element.anchors := by
  obtain ⟨es, hes, ⟨b, hb, hbuild⟩ | ⟨hb, ⟨hn, rfl⟩ | ⟨last, hlast, rfl⟩⟩⟩ := element_cases h
  · refine ⟨es, hes, ?_⟩
    obtain ⟨c', hgives⟩ := exists_gives_of_build hbuild
    have hanchor : anchorOf lines n = (received lines n es).anchor := by
      simp only [anchorOf, hb]
      cases n.children.getLast? <;> rfl
    rw [hanchor]
    refine List.Subset.trans (inherits_of_builder hb _ _ _ hgives) (List.cons_subset_cons _ ?_)
    cases hn : n.children with
    | nil => simp [received, construct, Children.ofList, hn, leafToken, Element.anchors]
    | cons m ms => simp [received, construct, Children.ofList, hn]
  · exact ⟨es, hes, List.nil_subset _⟩
  · refine ⟨es, hes, ?_⟩
    simp [Element.anchors, anchorOf, hb, hlast, rawNode]

/-- An element of a row comes from a node of the row that is no keyword. -/
theorem exists_of_mem_elements {ns : List Node} {es : List Element}
    (h : elements lines ns = .ok es) {e : Element} (he : e ∈ es) :
    ∃ m ∈ ns, m.rule.isKeyword = false ∧ element lines m = .ok e := by
  -- Keywords are skipped, so the element comes from the first node that is none, or from one behind
  -- it.
  induction ns generalizing es with
  | nil =>
      rw [elements_nil] at h
      cases h
      cases he
  | cons n ns ih =>
      rw [elements_cons_eq_ok] at h
      cases hn : n.rule.isKeyword with
      | true =>
          rw [if_pos hn] at h
          obtain ⟨m, hm, hrest⟩ := ih h he
          exact ⟨m, List.mem_cons_of_mem _ hm, hrest⟩
      | false =>
          rw [if_neg (by simp [hn])] at h
          obtain ⟨f, fs, hf, hfs, rfl⟩ := h
          rcases List.mem_cons.mp he with rfl | he
          · exact ⟨n, by simp, hn, hf⟩
          · obtain ⟨m, hm, hrest⟩ := ih hfs he
            exact ⟨m, List.mem_cons_of_mem _ hm, hrest⟩

/-- Children are smaller than their node, so a recursion over them ends. -/
theorem sizeOf_lt_of_mem_children {m n : Node} (h : m ∈ n.children) : sizeOf m < sizeOf n := by
  have hlt := List.sizeOf_lt_of_mem h
  obtain ⟨rule, start, stop, children⟩ := n
  simp only [Node.mk.sizeOf_spec] at hlt ⊢
  omega

/-- Every anchor of what is built for a node is the anchor of a node in it. -/
theorem anchors_of_element (n : Node) {e : Element} (h : element lines n = .ok e) {a : Anchor}
    (ha : a ∈ e.anchors) : ∃ k, Within k n ∧ a = anchorOf lines k := by
  obtain ⟨es, hes, hsub⟩ := anchors_of_children h
  rcases List.mem_cons.mp (hsub ha) with rfl | ha
  · exact ⟨n, .self n, rfl⟩
  · obtain ⟨f, hf, ha⟩ := List.mem_flatMap.mp ha
    obtain ⟨m, hm, hkeyword, hfm⟩ := exists_of_mem_elements hes hf
    have hlt := sizeOf_lt_of_mem_children hm
    obtain ⟨k, hk, rfl⟩ := anchors_of_element m hfm ha
    exact ⟨k, .child hm hkeyword hk, rfl⟩
termination_by sizeOf n

/-- Every anchor of a file is the anchor of a node of its derivation. -/
theorem anchors_of_sourceFile {root : Node} {f : SourceFile} (h : sourceFile lines root = .ok f)
    {p : Owner × Anchor} (hp : p ∈ f.anchors) : ∃ k, Within k root ∧ p.2 = anchorOf lines k := by
  have hroot : element lines root = .ok (.file f) := by
    cases he : element lines root with
    | error x => simp [sourceFile, he, bind, Except.bind] at h
    | ok e =>
        simp only [sourceFile, he] at h
        cases e <;> cases h
        rfl
  exact anchors_of_element root hroot (List.mem_map.mpr ⟨p, hp, rfl⟩)

end Nodes

end Build

end StructuredText
