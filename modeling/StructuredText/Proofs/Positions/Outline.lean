import StructuredText.Proofs.Ownership.Anchors

/-!
# Outlines

The outline of a tree is what is left of it when nothing but the anchors is kept, nested as the nodes
of the tree are: each anchor with the outline of the parts of its node. It says how the nodes stand
to each other, which the plain list of the anchors does not.

* `Outline` — anchors one behind the other, each with those of its parts.
* `SourceFile.outline`, `SourceFile.anchors_outline` — the outline of a file, which lists its anchors
  in document order.
* `Laid` — the spans of an outline nest and follow each other.
* `SourceFile.outline_bare` — comments change nothing of an outline but themselves.
-/

namespace StructuredText

/-- Anchors one behind the other, each with the outline of the parts of its node. -/
inductive Outline where
  | empty
  | entry (anchor : Anchor) (parts behind : Outline)

namespace Outline

/-- The entries of one outline behind those of another. -/
def append : Outline → Outline → Outline
  | .empty, p => p
  | .entry a parts behind, p => .entry a parts (behind.append p)

instance : Append Outline := ⟨append⟩

/-- A single entry. -/
def one (a : Anchor) (parts : Outline) : Outline := .entry a parts .empty

/-- The outlines of the elements of a list, one behind the other. -/
def all {α : Type} (outline : α → Outline) : List α → Outline
  | [] => .empty
  | x :: xs => outline x ++ all outline xs

/-- The anchors of an outline: that of a node comes before those of its parts. -/
def anchors : Outline → List Anchor
  | .empty => []
  | .entry a parts behind => a :: (parts.anchors ++ behind.anchors)

/-- The outline with other anchors in the same places. -/
def map (f : Anchor → Anchor) : Outline → Outline
  | .empty => .empty
  | .entry a parts behind => .entry (f a) (parts.map f) (behind.map f)

variable {α : Type} {f : Anchor → Anchor}

@[simp] theorem empty_append (p : Outline) : .empty ++ p = p := rfl

@[simp] theorem entry_append (a : Anchor) (parts behind p : Outline) :
    entry a parts behind ++ p = .entry a parts (behind ++ p) := rfl

@[simp] theorem append_empty (o : Outline) : o ++ .empty = o := by
  induction o with
  | empty => rfl
  | entry a parts behind _ ih => rw [entry_append, ih]

theorem append_assoc (o p q : Outline) : o ++ p ++ q = o ++ (p ++ q) := by
  induction o with
  | empty => rfl
  | entry a parts behind _ ih => simp [ih]

/-- Outlines behind each other list their anchors behind each other. -/
@[simp] theorem anchors_append (o p : Outline) : (o ++ p).anchors = o.anchors ++ p.anchors := by
  induction o with
  | empty => rfl
  | entry a parts behind _ ih => simp [anchors, ih]

@[simp] theorem anchors_one (a : Anchor) (parts : Outline) :
    (one a parts).anchors = a :: parts.anchors := by
  simp [one, anchors]

/-- The anchors of a row of outlines, in order. -/
theorem anchors_all (outline : α → Outline) (xs : List α) :
    (all outline xs).anchors = xs.flatMap fun x => (outline x).anchors := by
  induction xs with
  | nil => rfl
  | cons x xs ih => simp [all, ih]

/-- Anchors are changed in each part. -/
@[simp] theorem map_append (o p : Outline) : (o ++ p).map f = o.map f ++ p.map f := by
  induction o with
  | empty => rfl
  | entry a parts behind _ ih => simp [map, ih]

@[simp] theorem map_one (a : Anchor) (parts : Outline) :
    (one a parts).map f = one (f a) (parts.map f) := rfl

/-- The list of the anchors is changed entry by entry. -/
@[simp] theorem anchors_map (o : Outline) : (o.map f).anchors = o.anchors.map f := by
  induction o with
  | empty => rfl
  | entry a parts behind ihparts ihbehind => simp [map, anchors, ihparts, ihbehind]

/-- The outline of two rows is that of the first row and then that of the second. -/
theorem all_append (outline : α → Outline) (xs ys : List α) :
    all outline (xs ++ ys) = all outline xs ++ all outline ys := by
  induction xs with
  | nil => rfl
  | cons x xs ih => simp [all, ih, append_assoc]

end Outline

/-! ## The outlines of trees -/

mutual

def Statement.outline : Statement → Outline
  | .simple a _ => .one a .empty
  | .ifThen a _ ss es o =>
    .one a (Statement.outlineAll ss ++ (ElseIf.outlineAll es ++ Else.outlineOption o))
  | .caseOf a _ cs o => .one a (Case.outlineAll cs ++ Else.outlineOption o)
  | .forTo a _ _ _ _ ss => .one a (Statement.outlineAll ss)
  | .whileDo a _ ss => .one a (Statement.outlineAll ss)
  | .repeatUntil a ss _ => .one a (Statement.outlineAll ss)

def Statement.outlineAll : List Statement → Outline
  | [] => .empty
  | s :: ss => s.outline ++ Statement.outlineAll ss

def ElseIf.outlineAll : List ElseIf → Outline
  | [] => .empty
  | ⟨a, _, ss⟩ :: es => .one a (Statement.outlineAll ss) ++ ElseIf.outlineAll es

def Else.outlineOption : Option Else → Outline
  | none => .empty
  | some ⟨a, ss⟩ => .one a (Statement.outlineAll ss)

def Case.outlineAll : List Case → Outline
  | [] => .empty
  | ⟨a, _, ss⟩ :: cs => .one a (Statement.outlineAll ss) ++ Case.outlineAll cs

end

/-- Something with an anchor and no parts that have one. -/
def Anchored.outline {α : Type} (x : Anchored α) : Outline := .one x.anchor .empty

def Block.outline {α : Type} (b : Block α) : Outline := .one b.anchor (.all Anchored.outline b.items)

def DeclarationBlock.outline : DeclarationBlock → Outline
  | .plain _ b => b.outline
  | .located b => b.outline
  | .global b => b.outline
  | .external b => b.outline
  | .access b => b.outline

def TypeDefinition.outline : TypeDefinition → Outline
  | .spec _ => .empty
  | .struct _ members => .all Anchored.outline members

def TypeDeclaration.outline (t : TypeDeclaration) : Outline := .one t.anchor t.definition.outline

def TypeBlock.outline (b : TypeBlock) : Outline := .one b.anchor (.all TypeDeclaration.outline b.items)

def Body.outline (b : Body) : Outline := .one b.anchor (Statement.outlineAll b.statements)

def Body.outlineOption : Option Body → Outline
  | none => .empty
  | some b => b.outline

def ProgramUnit.outline (u : ProgramUnit) : Outline :=
  .one u.anchor (.all DeclarationBlock.outline u.declarations ++ Body.outlineOption u.body)

def Action.outline (a : Action) : Outline := .one a.anchor (Body.outlineOption a.body)

def Item.outline : Item → Outline
  | .types b => b.outline
  | .unit u => u.outline
  | .action a => a.outline
  | .globals b => b.outline
  | .verbatim v => .one v.anchor .empty

/-- The anchors of a file, nested as its nodes are. -/
def SourceFile.outline (f : SourceFile) : Outline := .all Item.outline f.items

/-! ## Outlines list the anchors -/

mutual

/-- The outline of a statement lists the anchors of the statement, in their order. -/
theorem Statement.anchors_outline (s : Statement) : s.outline.anchors = s.anchors := by
  cases s with
  | simple a s => simp [Statement.outline, Statement.anchors, Outline.anchors]
  | ifThen a c ss es o =>
      simp [Statement.outline, Statement.anchors, Statement.anchors_outlineAll ss,
        ElseIf.anchors_outlineAll es, Else.anchors_outlineOption o]
  | caseOf a e cs o =>
      simp [Statement.outline, Statement.anchors, Case.anchors_outlineAll cs,
        Else.anchors_outlineOption o]
  | forTo a v e f g ss =>
      simp [Statement.outline, Statement.anchors, Statement.anchors_outlineAll ss]
  | whileDo a c ss =>
      simp [Statement.outline, Statement.anchors, Statement.anchors_outlineAll ss]
  | repeatUntil a ss c =>
      simp [Statement.outline, Statement.anchors, Statement.anchors_outlineAll ss]

theorem Statement.anchors_outlineAll (ss : List Statement) :
    (Statement.outlineAll ss).anchors = Statement.anchorsAll ss := by
  cases ss with
  | nil => rfl
  | cons s ss =>
      simp [Statement.outlineAll, Statement.anchorsAll, Statement.anchors_outline s,
        Statement.anchors_outlineAll ss]

theorem ElseIf.anchors_outlineAll (es : List ElseIf) :
    (ElseIf.outlineAll es).anchors = ElseIf.anchorsAll es := by
  match es with
  | [] => rfl
  | ⟨a, c, ss⟩ :: es =>
      simp [ElseIf.outlineAll, ElseIf.anchorsAll, Statement.anchors_outlineAll ss,
        ElseIf.anchors_outlineAll es]

theorem Else.anchors_outlineOption (o : Option Else) :
    (Else.outlineOption o).anchors = Else.anchorsOption o := by
  match o with
  | none => rfl
  | some ⟨a, ss⟩ =>
      simp [Else.outlineOption, Else.anchorsOption, Statement.anchors_outlineAll ss]

theorem Case.anchors_outlineAll (cs : List Case) :
    (Case.outlineAll cs).anchors = Case.anchorsAll cs := by
  match cs with
  | [] => rfl
  | ⟨a, ls, ss⟩ :: cs =>
      simp [Case.outlineAll, Case.anchorsAll, Statement.anchors_outlineAll ss,
        Case.anchors_outlineAll cs]

end

/-- Entries of a block have one anchor each. -/
theorem Anchored.anchors_all {α : Type} (xs : List (Anchored α)) :
    (Outline.all Anchored.outline xs).anchors = xs.map Anchored.anchor := by
  induction xs with
  | nil => rfl
  | cons x xs ih => simp [Outline.all, Anchored.outline, Outline.anchors, ih]

theorem Block.anchors_outline {α : Type} (b : Block α) : b.outline.anchors = b.anchors := by
  simp [Block.outline, Block.anchors, Anchored.anchors_all]

theorem DeclarationBlock.anchors_outline (b : DeclarationBlock) :
    b.outline.anchors = b.anchors := by
  cases b <;> exact Block.anchors_outline _

/-- Only the members of a structure have anchors of their own. -/
theorem TypeDeclaration.anchors_outline (t : TypeDeclaration) :
    t.outline.anchors = t.anchors := by
  obtain ⟨a, name, base, definition⟩ := t
  cases definition <;>
    simp [TypeDeclaration.outline, TypeDeclaration.anchors, TypeDefinition.outline,
      TypeDefinition.anchors, Anchored.anchors_all, Outline.anchors]

theorem Body.anchors_outlineOption (b : Option Body) :
    (Body.outlineOption b).anchors = Body.anchorsOption b := by
  cases b <;>
    simp [Body.outlineOption, Body.anchorsOption, Body.outline, Body.anchors, Outline.anchors,
      Statement.anchors_outlineAll]

/-- What is kept as written is a single entry of the outline. -/
theorem Item.anchors_outline (i : Item) : i.outline.anchors = i.anchors.map Prod.snd := by
  cases i with
  | types b =>
      simp [Item.outline, Item.anchors, TypeBlock.outline, TypeBlock.anchors, Outline.anchors_all,
        TypeDeclaration.anchors_outline, Function.comp_def]
  | unit u =>
      simp [Item.outline, Item.anchors, ProgramUnit.outline, ProgramUnit.anchors,
        Outline.anchors_all, DeclarationBlock.anchors_outline, Body.anchors_outlineOption,
        Function.comp_def]
  | action a =>
      simp [Item.outline, Item.anchors, Action.outline, Action.anchors, Body.anchors_outlineOption,
        Function.comp_def]
  | globals b => simp [Item.outline, Item.anchors, Block.anchors_outline, Function.comp_def]
  | verbatim v => simp [Item.outline, Item.anchors, Outline.anchors]

/-- The outline of a file lists its anchors in document order. -/
theorem SourceFile.anchors_outline (f : SourceFile) :
    f.outline.anchors = f.anchors.map Prod.snd := by
  simp [SourceFile.outline, SourceFile.anchors, Outline.anchors_all, Item.anchors_outline,
    List.map_flatMap]

/-! ## Outlines with changed anchors -/

section Changes

variable (change : Anchor → Anchor)

/-- If a change of the elements of a list shows in their outlines, it shows in the outlines of the
list. -/
theorem Outline.all_change {α : Type} {outline : α → Outline} {mark : α → α}
    (h : ∀ x, outline (mark x) = (outline x).map change) (xs : List α) :
    Outline.all outline (xs.map mark) = (Outline.all outline xs).map change := by
  induction xs with
  | nil => rfl
  | cons x xs ih => simp [Outline.all, h, ih]

mutual

/-- The outline of a statement takes a change of the anchors and nothing else: the parts stay where
they are. -/
theorem Statement.outline_withAnchors (s : Statement) :
    (s.withAnchors change).outline = s.outline.map change := by
  cases s with
  | simple a s => simp [Statement.withAnchors, Statement.outline, Outline.map]
  | ifThen a c ss es o =>
      simp [Statement.withAnchors, Statement.outline, Statement.outlineAll_withAnchorsAll ss,
        ElseIf.outlineAll_withAnchorsAll es, Else.outlineOption_withAnchorsOption o]
  | caseOf a e cs o =>
      simp [Statement.withAnchors, Statement.outline, Case.outlineAll_withAnchorsAll cs,
        Else.outlineOption_withAnchorsOption o]
  | forTo a v e f g ss =>
      simp [Statement.withAnchors, Statement.outline, Statement.outlineAll_withAnchorsAll ss]
  | whileDo a c ss =>
      simp [Statement.withAnchors, Statement.outline, Statement.outlineAll_withAnchorsAll ss]
  | repeatUntil a ss c =>
      simp [Statement.withAnchors, Statement.outline, Statement.outlineAll_withAnchorsAll ss]

/-- The outline of statements with changed anchors is their outline with changed anchors. -/
theorem Statement.outlineAll_withAnchorsAll (ss : List Statement) :
    Statement.outlineAll (Statement.withAnchorsAll change ss) =
      (Statement.outlineAll ss).map change := by
  cases ss with
  | nil => simp [Statement.withAnchorsAll, Statement.outlineAll, Outline.map]
  | cons s ss =>
      simp [Statement.withAnchorsAll, Statement.outlineAll, Statement.outline_withAnchors s,
        Statement.outlineAll_withAnchorsAll ss]

theorem ElseIf.outlineAll_withAnchorsAll (es : List ElseIf) :
    ElseIf.outlineAll (ElseIf.withAnchorsAll change es) = (ElseIf.outlineAll es).map change := by
  match es with
  | [] => simp [ElseIf.withAnchorsAll, ElseIf.outlineAll, Outline.map]
  | ⟨a, c, ss⟩ :: es =>
      simp [ElseIf.withAnchorsAll, ElseIf.outlineAll, Statement.outlineAll_withAnchorsAll ss,
        ElseIf.outlineAll_withAnchorsAll es]

theorem Else.outlineOption_withAnchorsOption (o : Option Else) :
    Else.outlineOption (Else.withAnchorsOption change o) = (Else.outlineOption o).map change := by
  match o with
  | none => simp [Else.withAnchorsOption, Else.outlineOption, Outline.map]
  | some ⟨a, ss⟩ =>
      simp [Else.withAnchorsOption, Else.outlineOption, Statement.outlineAll_withAnchorsAll ss]

theorem Case.outlineAll_withAnchorsAll (cs : List Case) :
    Case.outlineAll (Case.withAnchorsAll change cs) = (Case.outlineAll cs).map change := by
  match cs with
  | [] => simp [Case.withAnchorsAll, Case.outlineAll, Outline.map]
  | ⟨a, ls, ss⟩ :: cs =>
      simp [Case.withAnchorsAll, Case.outlineAll, Statement.outlineAll_withAnchorsAll ss,
        Case.outlineAll_withAnchorsAll cs]

end

theorem Anchored.outline_withAnchor {α : Type} (x : Anchored α) :
    (x.withAnchor change).outline = x.outline.map change := by
  simp [Anchored.withAnchor, Anchored.outline, Outline.map]

/-- A block and each of its entries change their anchors. -/
theorem Block.outline_withAnchors {α : Type} (b : Block α) :
    (b.withAnchors change).outline = b.outline.map change := by
  simp [Block.withAnchors, Block.outline,
    Outline.all_change change (Anchored.outline_withAnchor change)]

theorem DeclarationBlock.outline_withAnchors (b : DeclarationBlock) :
    (b.withAnchors change).outline = b.outline.map change := by
  cases b <;>
    simp [DeclarationBlock.withAnchors, DeclarationBlock.outline, Block.outline_withAnchors]

theorem TypeDeclaration.outline_withAnchors (t : TypeDeclaration) :
    (t.withAnchors change).outline = t.outline.map change := by
  obtain ⟨a, name, base, definition⟩ := t
  cases definition <;>
    simp [TypeDeclaration.withAnchors, TypeDeclaration.outline, TypeDefinition.withAnchors,
      TypeDefinition.outline, Outline.all_change change (Anchored.outline_withAnchor change),
      Outline.map]

theorem Body.outlineOption_withAnchors (b : Option Body) :
    Body.outlineOption (b.map (Body.withAnchors change)) = (Body.outlineOption b).map change := by
  cases b <;>
    simp [Body.outlineOption, Body.withAnchors, Body.outline, Outline.map,
      Statement.outlineAll_withAnchorsAll]

/-- An item of any kind changes its anchors, and its outline follows. -/
theorem Item.outline_withAnchors (i : Item) :
    (i.withAnchors change).outline = i.outline.map change := by
  cases i with
  | types b =>
      simp [Item.withAnchors, Item.outline, TypeBlock.withAnchors, TypeBlock.outline,
        Outline.all_change change (TypeDeclaration.outline_withAnchors change)]
  | unit u =>
      simp [Item.withAnchors, Item.outline, ProgramUnit.withAnchors, ProgramUnit.outline,
        Outline.all_change change (DeclarationBlock.outline_withAnchors change),
        Body.outlineOption_withAnchors]
  | action a =>
      simp [Item.withAnchors, Item.outline, Action.withAnchors, Action.outline,
        Body.outlineOption_withAnchors]
  | globals b => simp [Item.withAnchors, Item.outline, Block.outline_withAnchors]
  | verbatim v => simp [Item.withAnchors, Item.outline, Outline.map]

end Changes

/-- Without its comments a file has the same outline, but for the comments. -/
theorem SourceFile.outline_bare (f : SourceFile) : f.bare.outline = f.outline.map Anchor.bare := by
  simp [SourceFile.bare, SourceFile.withAnchors, SourceFile.outline,
    Outline.all_change Anchor.bare (Item.outline_withAnchors Anchor.bare)]

/-! ## Spans that nest and follow each other -/

/-- Between two offsets, the spans of an outline follow each other, and those of the parts of a node
lie inside its span in the same way. -/
inductive Laid : Nat → Outline → Nat → Prop where
  | empty {low high : Nat} (h : low ≤ high) : Laid low .empty high
  | entry {low high : Nat} {a : Anchor} {parts behind : Outline} (h : low ≤ a.span.start)
      (hparts : Laid a.span.start parts a.span.stop) (hbehind : Laid a.span.stop behind high) :
      Laid low (.entry a parts behind) high

namespace Laid

variable {low middle high : Nat} {o p : Outline}

/-- What is laid between two offsets leaves them in order. -/
theorem le (h : Laid low o high) : low ≤ high := by
  induction h with
  | empty h => exact h
  | entry h _ _ ihparts ihbehind => omega

/-- The lower bound may be lowered. -/
theorem low_le (hle : low ≤ middle) (h : Laid middle o high) : Laid low o high := by
  cases h with
  | empty h => exact .empty (Nat.le_trans hle h)
  | entry h hparts hbehind => exact .entry (Nat.le_trans hle h) hparts hbehind

/-- The upper bound may be raised. -/
theorem le_high (h : Laid low o middle) (hle : middle ≤ high) : Laid low o high := by
  induction h with
  | empty h => exact .empty (Nat.le_trans h hle)
  | entry h hparts _ _ ih => exact .entry h hparts (ih hle)

/-- Outlines are laid behind each other where the first one ends before the second one begins. -/
theorem append (h : Laid low o middle) (h' : Laid middle p high) : Laid low (o ++ p) high := by
  induction h with
  | empty h => exact h'.low_le h
  | entry h hparts _ _ ih => exact .entry h hparts (ih h')

/-- Where two outlines are laid behind each other, an offset divides them. -/
theorem append_iff :
    Laid low (o ++ p) high ↔ ∃ middle, Laid low o middle ∧ Laid middle p high := by
  constructor
  · intro h
    -- the second outline stays fixed while the first one is walked
    induction o generalizing low with
    | empty => exact ⟨low, .empty (Nat.le_refl low), h⟩
    | entry a parts behind _ ih =>
        cases h with
        | entry h hparts hbehind =>
            obtain ⟨middle, hfirst, hrest⟩ := ih hbehind
            exact ⟨middle, .entry h hparts hfirst, hrest⟩
  · rintro ⟨middle, h, h'⟩
    exact h.append h'

/-- What lies in front may be left out. -/
theorem drop (h : Laid low (o ++ p) high) : Laid low p high := by
  obtain ⟨middle, hfirst, hrest⟩ := append_iff.mp h
  exact hrest.low_le hfirst.le

/-- What lies behind may be left out. -/
theorem take (h : Laid low (o ++ p) high) : Laid low o high := by
  obtain ⟨middle, hfirst, hrest⟩ := append_iff.mp h
  exact hfirst.le_high hrest.le

/-- A node with its parts inside its span. -/
theorem one {a : Anchor} {parts : Outline} (hlow : low ≤ a.span.start)
    (h : Laid a.span.start parts a.span.stop) (hhigh : a.span.stop ≤ high) :
    Laid low (.one a parts) high := .entry hlow h (.empty hhigh)

/-- Comments do not matter to the spans. -/
theorem of_map_bare (h : Laid low (o.map Anchor.bare) high) : Laid low o high := by
  induction o generalizing low high with
  | empty =>
      cases h with
      | empty h => exact .empty h
  | entry a parts behind ihparts ihbehind =>
      cases h with
      | entry h hparts hbehind => exact .entry h (ihparts hparts) (ihbehind hbehind)

/-- Without comments, an outline is laid in the same way. -/
theorem map_bare (h : Laid low o high) : Laid low (o.map Anchor.bare) high := by
  induction h with
  | empty h => exact .empty h
  | entry h _ _ ihparts ihbehind => exact .entry h ihparts ihbehind

/-- All spans lie between the two offsets. -/
theorem mem_bounds (h : Laid low o high) {a : Anchor} (ha : a ∈ o.anchors) :
    low ≤ a.span.start ∧ a.span.start ≤ a.span.stop ∧ a.span.stop ≤ high := by
  induction h with
  | empty => cases ha
  | @entry low high b parts behind h hparts hbehind ihparts ihbehind =>
      have hin := hparts.le
      have hout := hbehind.le
      rcases List.mem_cons.mp ha with rfl | ha
      · exact ⟨h, hin, hout⟩
      · rcases List.mem_append.mp ha with ha | ha
        -- inside the span of the node
        · have := ihparts ha
          omega
        -- behind the span of the node
        · have := ihbehind ha
          omega

/-- In document order, nodes do not start before the nodes in front of them. -/
theorem pairwise_start (h : Laid low o high) :
    o.anchors.Pairwise (·.span.start ≤ ·.span.start) := by
  induction h with
  | empty => exact .nil
  | @entry low high a parts behind h hparts hbehind ihparts ihbehind =>
      refine .cons ?_ (List.pairwise_append.mpr ⟨ihparts, ihbehind, ?_⟩)
      -- the node starts before its parts and before everything behind it
      · intro b hb
        rcases List.mem_append.mp hb with hb | hb
        · exact (hparts.mem_bounds hb).1
        · have := hparts.le
          have := (hbehind.mem_bounds hb).1
          omega
      -- its parts end before what is behind it begins
      · intro b hb d hd
        have := hparts.mem_bounds hb
        have := (hbehind.mem_bounds hd).1
        omega

end Laid

/-- Something that is kept as it was written has no parts, so what comes behind it in document order
starts behind its end. -/
theorem pairwise_anchors_of_laid {items : List Item} {low high : Nat}
    (h : Laid low (.all Item.outline items) high) :
    (items.flatMap Item.anchors).Pairwise fun p q =>
      p.1 = .verbatim → p.2.span.stop ≤ q.2.span.start := by
  induction items generalizing low with
  | nil => exact .nil
  | cons i items ih =>
      obtain ⟨middle, hfirst, hrest⟩ := Laid.append_iff.mp h
      refine List.pairwise_append.mpr ⟨?_, ih hrest, ?_⟩
      -- Among the anchors of one item none is passed through, unless it is the only one.
      · cases i with
        | verbatim v => exact List.pairwise_singleton _ _
        | _ =>
            refine List.pairwise_map.mpr (List.pairwise_of_forall ?_)
            rintro _ _ ⟨⟩
      · intro p hp q hq _
        have hstop : p.2.span.stop ≤ middle := by
          refine (hfirst.mem_bounds ?_).2.2
          rw [Item.anchors_outline]
          exact List.mem_map_of_mem hp
        have hstart : middle ≤ q.2.span.start := by
          refine (hrest.mem_bounds ?_).1
          obtain ⟨j, hj, hq⟩ := List.mem_flatMap.mp hq
          rw [Outline.anchors_all]
          refine List.mem_flatMap.mpr ⟨j, hj, ?_⟩
          rw [Item.anchors_outline]
          exact List.mem_map_of_mem hq
        exact Nat.le_trans hstop hstart

end StructuredText
