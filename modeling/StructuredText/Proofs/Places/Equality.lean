import StructuredText.Proofs.Equality.Rendering
import StructuredText.Proofs.Ownership.FirstNode
import StructuredText.Proofs.Places.Trees

/-!
# Equality of trees without their places

A tree without its places has the wording of the tree. So trees that are alike up to their places are
equal, and they are written alike.

* `Item.wording_unplaced` — places do not belong to the wording.
* `SourceFile.unplaced_adopt` — files that differ in nothing but places take the same comments.
* `SourceFile.beq_and_render_of_unplaced` — they are equal, and written alike.
-/

namespace StructuredText

/-! ## Trees without places -/

/-- A comment is worded without its offsets. -/
@[simp] theorem Comment.wording_unplaced (c : Comment) : c.unplaced.wording = c.wording := rfl

/-- An anchor is worded by its comments alone. -/
@[simp] theorem Anchor.wording_unplaced (a : Anchor) : a.unplaced.wording = a.wording := by
  simp [Anchor.unplaced, Anchor.wording, Function.comp_def]

mutual

/-- The wording of a statement does not depend on the places in it. -/
theorem Statement.wording_unplaced (s : Statement) : s.unplaced.wording = s.wording := by
  cases s with
  | simple a s => simp [Statement.wording]
  | ifThen a c ss es o =>
      simp [Statement.wording, Statement.wordingAll_unplaced ss, ElseIf.wordingAll_unplaced es,
        Else.wordingOption_unplaced o]
  | caseOf a e cs o =>
      simp [Statement.wording, Case.wordingAll_unplaced cs, Else.wordingOption_unplaced o]
  | forTo a v e f g ss => simp [Statement.wording, Statement.wordingAll_unplaced ss]
  | whileDo a c ss => simp [Statement.wording, Statement.wordingAll_unplaced ss]
  | repeatUntil a ss c => simp [Statement.wording, Statement.wordingAll_unplaced ss]

theorem Statement.wordingAll_unplaced (ss : List Statement) :
    Statement.wordingAll (ss.map Statement.unplaced) = Statement.wordingAll ss := by
  cases ss with
  | nil => rfl
  | cons s ss =>
      simp [Statement.wordingAll, Statement.wording_unplaced s, Statement.wordingAll_unplaced ss]

theorem ElseIf.wordingAll_unplaced (es : List ElseIf) :
    ElseIf.wordingAll (es.map ElseIf.unplaced) = ElseIf.wordingAll es := by
  cases es with
  | nil => rfl
  | cons e es =>
      obtain ⟨a, c, ss⟩ := e
      simp [ElseIf.wordingAll, ElseIf.unplaced, Statement.wordingAll_unplaced ss,
        ElseIf.wordingAll_unplaced es]

theorem Else.wordingOption_unplaced (o : Option Else) :
    Else.wordingOption (o.map Else.unplaced) = Else.wordingOption o := by
  cases o with
  | none => rfl
  | some e =>
      obtain ⟨a, ss⟩ := e
      simp [Else.wordingOption, Else.unplaced, Statement.wordingAll_unplaced ss]

theorem Case.wordingAll_unplaced (cs : List Case) :
    Case.wordingAll (cs.map Case.unplaced) = Case.wordingAll cs := by
  cases cs with
  | nil => rfl
  | cons c cs =>
      obtain ⟨a, ls, ss⟩ := c
      simp [Case.wordingAll, Case.unplaced, Statement.wordingAll_unplaced ss,
        Case.wordingAll_unplaced cs]

end

section Anchored

variable {α : Type} (f : α → α)

/-- A node is worded as what it holds, places aside. -/
@[simp] theorem Anchored.wording_unplaced (x : Anchored α) :
    x.unplaced.wording f = x.wording f := by
  simp [Anchored.unplaced, Anchored.wording]

@[simp] theorem Block.wording_unplaced (b : Block α) : b.unplaced.wording f = b.wording f := by
  simp [Block.unplaced, Block.wording, Function.comp_def]

end Anchored

@[simp] theorem DeclarationBlock.wording_unplaced (b : DeclarationBlock) :
    b.unplaced.wording = b.wording := by
  cases b <;> simp [DeclarationBlock.unplaced, DeclarationBlock.wording]

/-- Only structures hold anchors, so only they are looked into. -/
@[simp] theorem TypeDefinition.wording_unplaced (d : TypeDefinition) :
    d.unplaced.wording = d.wording := by
  cases d <;> simp [TypeDefinition.unplaced, TypeDefinition.wording, Function.comp_def]

@[simp] theorem TypeDeclaration.wording_unplaced (t : TypeDeclaration) :
    t.unplaced.wording = t.wording := by
  simp [TypeDeclaration.unplaced, TypeDeclaration.wording]

@[simp] theorem TypeBlock.wording_unplaced (b : TypeBlock) : b.unplaced.wording = b.wording := by
  simp [TypeBlock.unplaced, TypeBlock.wording, Function.comp_def]

@[simp] theorem Body.wording_unplaced (b : Body) : b.unplaced.wording = b.wording := by
  simp [Body.unplaced, Body.wording, Statement.wording_unplaced, Function.comp_def]

@[simp] theorem ProgramUnit.wording_unplaced (u : ProgramUnit) :
    u.unplaced.wording = u.wording := by
  simp [ProgramUnit.unplaced, ProgramUnit.wording, Function.comp_def]

@[simp] theorem Action.wording_unplaced (a : Action) : a.unplaced.wording = a.wording := by
  simp [Action.unplaced, Action.wording, Function.comp_def]

/-- An item that is not kept as it was written has its wording without places. -/
theorem Item.wording_unplaced {i : Item} (hi : ∀ v, i ≠ .verbatim v) :
    i.unplaced.wording = i.wording := by
  cases i with
  | verbatim v => exact absurd rfl (hi v)
  | types | unit | action | globals => simp [Item.unplaced, Item.wording]

/-- A file has its wording without places, if none of its constructs is kept as it was written. -/
theorem SourceFile.wording_unplaced {f : SourceFile} (hf : ∀ v, .verbatim v ∉ f.items) :
    f.unplaced.wording = f.wording := by
  rw [SourceFile.wording, SourceFile.wording, SourceFile.unplaced, List.map_map]
  exact congrArg SourceFile.mk
    (List.map_congr_left fun i hi => Item.wording_unplaced fun v hv => hf v (hv ▸ hi))

/-! ## Files that are alike -/

namespace SourceFile

variable {f g : SourceFile}

/-- Whether something is kept as it was written. -/
def hasVerbatim (f : SourceFile) : Bool := f.items.any Item.isVerbatim

/-- No item of the file is passed through. -/
theorem hasVerbatim_eq_false : f.hasVerbatim = false ↔ ∀ v, .verbatim v ∉ f.items := by
  rw [hasVerbatim, List.any_eq_false]
  constructor
  · exact fun h v hv => h _ hv rfl
  · intro h i hi
    cases i with
    | verbatim v => exact absurd hi (h v)
    | _ => exact Bool.false_ne_true

/-- Taking the comments away makes no item one that is passed through. -/
theorem hasVerbatim_bare (f : SourceFile) : f.bare.hasVerbatim = f.hasVerbatim := by
  have hitem (i : Item) : (i.withAnchors Anchor.bare).isVerbatim = i.isVerbatim := by
    cases i <;> rfl
  simp [bare, withAnchors, hasVerbatim, hitem, Function.comp_def]

/-- Taking the places away makes no item one that is passed through. -/
theorem hasVerbatim_unplaced (f : SourceFile) : f.unplaced.hasVerbatim = f.hasVerbatim := by
  have hitem (i : Item) : i.unplaced.isVerbatim = i.isVerbatim := by
    cases i <;> rfl
  simp [unplaced, hasVerbatim, hitem, Function.comp_def]

/-- Comments that differ in nothing but their places are handed out alike to files that do. -/
theorem unplaced_adopt (hf : f.hasVerbatim = false) (h : g.unplaced = f.unplaced)
    {cs ds : List Comment} (hcs : ds.map Comment.unplaced = cs.map Comment.unplaced) :
    (g.adopt ds).1.unplaced = (f.adopt cs).1.unplaced := by
  have hg : g.hasVerbatim = false := by rw [← hasVerbatim_unplaced, h, hasVerbatim_unplaced, hf]
  calc (g.adopt ds).1.unplaced
    _ = (g.unplaced.adopt (ds.map Comment.unplaced)).1 :=
        (adopt_unplaced (hasVerbatim_eq_false.mp hg) ds).symm
    _ = (f.unplaced.adopt (cs.map Comment.unplaced)).1 := by rw [h, hcs]
    _ = (f.adopt cs).1.unplaced := adopt_unplaced (hasVerbatim_eq_false.mp hf) cs

/-- Files that differ in nothing but places are equal and written alike. -/
theorem beq_and_render_of_unplaced (hf : f.hasVerbatim = false) (h : g.unplaced = f.unplaced) :
    g == f ∧ g.render = f.render := by
  have hg : g.hasVerbatim = false := by rw [← hasVerbatim_unplaced, h, hasVerbatim_unplaced, hf]
  rw [hasVerbatim_eq_false] at hf hg
  have hwording : g.wording = f.wording := by
    rw [← wording_unplaced hg, h, wording_unplaced hf]
  refine ⟨(beq_iff_wording g f).mpr hwording, ?_⟩
  rw [← g.render_wording, hwording, f.render_wording]

end SourceFile

end StructuredText
