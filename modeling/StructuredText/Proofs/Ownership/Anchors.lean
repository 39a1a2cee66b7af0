import StructuredText.Proofs.Ownership.Changes

/-!
# The anchors of a file, in document order

A walk over a file replaces its anchors one after the other. What it does to the file is therefore
known from the list of the anchors alone: the walk visits exactly these, in this order, and leaves
everything else as it is.

* `SourceFile.anchors` — the anchors of a file, each with what it belongs to.
* `SourceFile.mapM_anchors` — a walk over the file is a walk over this list.
* `SourceFile.bare` — a file without its comments.
* `SourceFile.bare_mapAnchors` — a walk that hands out comments changes nothing but the comments.
-/

namespace StructuredText

/-! ## The lists -/

mutual

/-- The anchors of a statement and of all statements and clauses in it, in document order. -/
def Statement.anchors : Statement → List Anchor
  | .simple a _ => [a]
  | .ifThen a _ ss es o =>
    a :: (Statement.anchorsAll ss ++ (ElseIf.anchorsAll es ++ Else.anchorsOption o))
  | .caseOf a _ cs o => a :: (Case.anchorsAll cs ++ Else.anchorsOption o)
  | .forTo a _ _ _ _ ss => a :: Statement.anchorsAll ss
  | .whileDo a _ ss => a :: Statement.anchorsAll ss
  | .repeatUntil a ss _ => a :: Statement.anchorsAll ss

def Statement.anchorsAll : List Statement → List Anchor
  | [] => []
  | s :: ss => s.anchors ++ Statement.anchorsAll ss

def ElseIf.anchorsAll : List ElseIf → List Anchor
  | [] => []
  | ⟨a, _, ss⟩ :: es => a :: (Statement.anchorsAll ss ++ ElseIf.anchorsAll es)

def Else.anchorsOption : Option Else → List Anchor
  | none => []
  | some ⟨a, ss⟩ => a :: Statement.anchorsAll ss

def Case.anchorsAll : List Case → List Anchor
  | [] => []
  | ⟨a, _, ss⟩ :: cs => a :: (Statement.anchorsAll ss ++ Case.anchorsAll cs)

end

def Block.anchors {α : Type} (b : Block α) : List Anchor := b.anchor :: b.items.map Anchored.anchor

def DeclarationBlock.anchors : DeclarationBlock → List Anchor
  | .plain _ b => b.anchors
  | .located b => b.anchors
  | .global b => b.anchors
  | .external b => b.anchors
  | .access b => b.anchors

/-- The anchors of the members of a structure. -/
def TypeDefinition.anchors : TypeDefinition → List Anchor
  | .spec _ => []
  | .struct _ members => members.map Anchored.anchor

def TypeDeclaration.anchors (t : TypeDeclaration) : List Anchor := t.anchor :: t.definition.anchors

def TypeBlock.anchors (b : TypeBlock) : List Anchor :=
  b.anchor :: b.items.flatMap TypeDeclaration.anchors

def Body.anchors (b : Body) : List Anchor := b.anchor :: Statement.anchorsAll b.statements

def Body.anchorsOption : Option Body → List Anchor
  | none => []
  | some b => b.anchors

def ProgramUnit.anchors (u : ProgramUnit) : List Anchor :=
  u.anchor :: (u.declarations.flatMap DeclarationBlock.anchors ++ Body.anchorsOption u.body)

def Action.anchors (a : Action) : List Anchor := a.anchor :: Body.anchorsOption a.body

/-- The anchors of an item, each with what it belongs to. -/
def Item.anchors : Item → List (Owner × Anchor)
  | .types b => b.anchors.map (Prod.mk .node)
  | .unit u => u.anchors.map (Prod.mk .node)
  | .action a => a.anchors.map (Prod.mk .node)
  | .globals b => b.anchors.map (Prod.mk .node)
  | .verbatim v => [(.verbatim, v.anchor)]

/-- The anchors of a file in document order: that of an item, block, declaration, body, statement
or clause comes before those of its parts. -/
def SourceFile.anchors (f : SourceFile) : List (Owner × Anchor) := f.items.flatMap Item.anchors

/-- The anchors of statements in a row, statement by statement. -/
theorem Statement.anchorsAll_eq_flatMap (ss : List Statement) :
    Statement.anchorsAll ss = ss.flatMap Statement.anchors := by
  induction ss with
  | nil => rfl
  | cons s ss ih => simp [Statement.anchorsAll, ih]

/-- The anchors of branches in a row, branch by branch. -/
theorem ElseIf.anchorsAll_eq_flatMap (es : List ElseIf) :
    ElseIf.anchorsAll es = es.flatMap fun e => ElseIf.anchorsAll [e] := by
  induction es with
  | nil => rfl
  | cons e es ih =>
      obtain ⟨a, c, ss⟩ := e
      simp [ElseIf.anchorsAll, ih]

/-- The anchors of cases in a row, case by case. -/
theorem Case.anchorsAll_eq_flatMap (cs : List Case) :
    Case.anchorsAll cs = cs.flatMap fun c => Case.anchorsAll [c] := by
  induction cs with
  | nil => rfl
  | cons c cs ih =>
      obtain ⟨a, ls, ss⟩ := c
      simp [Case.anchorsAll, ih]

/-! ## A walk visits the anchors in this order -/

section Visits

variable {m : Type → Type} [Monad m] [LawfulMonad m]

/-- A walk over a list visits what the walks over its elements visit. -/
theorem mapM_flatMap {α β : Type} {visit : β → m β} {anchors : α → List β} {walk : α → m α}
    (h : ∀ x, (anchors x).mapM visit = anchors <$> walk x) (xs : List α) :
    (xs.flatMap anchors).mapM visit = List.flatMap anchors <$> xs.mapM walk := by
  induction xs with
  | nil => simp
  | cons x xs ih => simp [h, ih]

variable (visit : Anchor → m Anchor)

mutual

/-- The walk over a statement visits its own anchor and then the anchors of its parts. -/
theorem Statement.mapM_anchors (s : Statement) :
    s.anchors.mapM visit = Statement.anchors <$> s.mapAnchors visit := by
  cases s with
  | simple a s => simp [Statement.anchors, Statement.mapAnchors]
  | ifThen a c ss es o =>
      simp [Statement.anchors, Statement.mapAnchors, Statement.mapM_anchorsAll ss,
        ElseIf.mapM_anchorsAll es, Else.mapM_anchorsOption o]
  | caseOf a e cs o =>
      simp [Statement.anchors, Statement.mapAnchors, Case.mapM_anchorsAll cs,
        Else.mapM_anchorsOption o]
  | forTo a v e f g ss =>
      simp [Statement.anchors, Statement.mapAnchors, Statement.mapM_anchorsAll ss]
  | whileDo a c ss =>
      simp [Statement.anchors, Statement.mapAnchors, Statement.mapM_anchorsAll ss]
  | repeatUntil a ss c =>
      simp [Statement.anchors, Statement.mapAnchors, Statement.mapM_anchorsAll ss]

theorem Statement.mapM_anchorsAll (ss : List Statement) :
    (Statement.anchorsAll ss).mapM visit =
      Statement.anchorsAll <$> Statement.mapAnchorsAll visit ss := by
  cases ss with
  | nil => simp [Statement.anchorsAll, Statement.mapAnchorsAll]
  | cons s ss =>
      simp [Statement.anchorsAll, Statement.mapAnchorsAll, Statement.mapM_anchors s,
        Statement.mapM_anchorsAll ss]

theorem ElseIf.mapM_anchorsAll (es : List ElseIf) :
    (ElseIf.anchorsAll es).mapM visit = ElseIf.anchorsAll <$> ElseIf.mapAnchorsAll visit es := by
  match es with
  | [] => simp [ElseIf.anchorsAll, ElseIf.mapAnchorsAll]
  | ⟨a, c, ss⟩ :: es =>
      simp [ElseIf.anchorsAll, ElseIf.mapAnchorsAll, Statement.mapM_anchorsAll ss,
        ElseIf.mapM_anchorsAll es]

theorem Else.mapM_anchorsOption (o : Option Else) :
    (Else.anchorsOption o).mapM visit = Else.anchorsOption <$> Else.mapAnchorsOption visit o := by
  match o with
  | none => simp [Else.anchorsOption, Else.mapAnchorsOption]
  | some ⟨a, ss⟩ =>
      simp [Else.anchorsOption, Else.mapAnchorsOption, Statement.mapM_anchorsAll ss]

theorem Case.mapM_anchorsAll (cs : List Case) :
    (Case.anchorsAll cs).mapM visit = Case.anchorsAll <$> Case.mapAnchorsAll visit cs := by
  match cs with
  | [] => simp [Case.anchorsAll, Case.mapAnchorsAll]
  | ⟨a, ls, ss⟩ :: cs =>
      simp [Case.anchorsAll, Case.mapAnchorsAll, Statement.mapM_anchorsAll ss,
        Case.mapM_anchorsAll cs]

end

/-- Nodes in a row have one anchor each. -/
theorem Anchored.mapM_anchor {α : Type} (xs : List (Anchored α)) :
    xs.mapM (visit ∘ Anchored.anchor) =
      List.map Anchored.anchor <$> xs.mapM (Anchored.mapAnchor visit) := by
  induction xs with
  | nil => simp
  | cons x xs ih => simp [Anchored.mapAnchor, ih]

/-- The anchor of a block is visited before those of its declarations. -/
theorem Block.mapM_anchors {α : Type} (b : Block α) :
    b.anchors.mapM visit = Block.anchors <$> b.mapAnchors visit := by
  simp [Block.anchors, Block.mapAnchors, Anchored.mapM_anchor]

theorem DeclarationBlock.mapM_anchors (b : DeclarationBlock) :
    b.anchors.mapM visit = DeclarationBlock.anchors <$> b.mapAnchors visit := by
  cases b <;>
    simp [DeclarationBlock.anchors, DeclarationBlock.mapAnchors, Block.mapM_anchors]

theorem TypeDefinition.mapM_anchors (t : TypeDefinition) :
    t.anchors.mapM visit = TypeDefinition.anchors <$> t.mapAnchors visit := by
  cases t <;>
    simp [TypeDefinition.anchors, TypeDefinition.mapAnchors, Anchored.mapM_anchor]

theorem TypeDeclaration.mapM_anchors (t : TypeDeclaration) :
    t.anchors.mapM visit = TypeDeclaration.anchors <$> t.mapAnchors visit := by
  simp [TypeDeclaration.anchors, TypeDeclaration.mapAnchors, TypeDefinition.mapM_anchors]

theorem TypeBlock.mapM_anchors (b : TypeBlock) :
    b.anchors.mapM visit = TypeBlock.anchors <$> b.mapAnchors visit := by
  simp [TypeBlock.anchors, TypeBlock.mapAnchors, mapM_flatMap (TypeDeclaration.mapM_anchors visit)]

theorem Body.mapM_anchors (b : Body) :
    b.anchors.mapM visit = Body.anchors <$> b.mapAnchors visit := by
  simp [Body.anchors, Body.mapAnchors, Statement.mapM_anchorsAll]

theorem Body.mapM_anchorsOption (b : Option Body) :
    (Body.anchorsOption b).mapM visit = Body.anchorsOption <$> Body.mapAnchorsOption visit b := by
  cases b <;> simp [Body.anchorsOption, Body.mapAnchorsOption, Body.mapM_anchors]

/-- The unit first, then its blocks, then its body. -/
theorem ProgramUnit.mapM_anchors (u : ProgramUnit) :
    u.anchors.mapM visit = ProgramUnit.anchors <$> u.mapAnchors visit := by
  simp [ProgramUnit.anchors, ProgramUnit.mapAnchors, Body.mapM_anchorsOption,
    mapM_flatMap (DeclarationBlock.mapM_anchors visit)]

theorem Action.mapM_anchors (a : Action) :
    a.anchors.mapM visit = Action.anchors <$> a.mapAnchors visit := by
  simp [Action.anchors, Action.mapAnchors, Body.mapM_anchorsOption]

/-- What a walk does at one place of the list of anchors. -/
def visitAt (visit : Owner → Anchor → m Anchor) (place : Owner × Anchor) : m (Owner × Anchor) :=
  Prod.mk place.1 <$> visit place.1 place.2

/-- Among nodes, the visit of owners is the visit of nodes. -/
theorem mapM_visitAt_node (visit : Owner → Anchor → m Anchor) (as : List Anchor) :
    as.mapM (visitAt visit ∘ Prod.mk .node) =
      List.map (Prod.mk .node) <$> as.mapM (visit .node) := by
  induction as with
  | nil => simp
  | cons a as ih => simp [visitAt, ih]

/-- The walk over an item visits its anchors in the order of the list; a pass-through item has one
that is visited in its own way. -/
theorem Item.mapM_anchors (visit : Owner → Anchor → m Anchor) (i : Item) :
    i.anchors.mapM (visitAt visit) = Item.anchors <$> i.mapAnchors visit := by
  cases i with
  | types b => simp [Item.anchors, Item.mapAnchors, mapM_visitAt_node, TypeBlock.mapM_anchors]
  | unit u => simp [Item.anchors, Item.mapAnchors, mapM_visitAt_node, ProgramUnit.mapM_anchors]
  | action a => simp [Item.anchors, Item.mapAnchors, mapM_visitAt_node, Action.mapM_anchors]
  | globals b => simp [Item.anchors, Item.mapAnchors, mapM_visitAt_node, Block.mapM_anchors]
  | verbatim v => simp [Item.anchors, Item.mapAnchors, visitAt]

/-- A walk over a file visits its anchors in document order, each once. -/
theorem SourceFile.mapM_anchors (visit : Owner → Anchor → m Anchor) (f : SourceFile) :
    f.anchors.mapM (visitAt visit) = SourceFile.anchors <$> f.mapAnchors visit := by
  simp [SourceFile.anchors, SourceFile.mapAnchors, mapM_flatMap (Item.mapM_anchors visit)]

end Visits

/-! ## A walk leaves everything else as it is -/

/-- An anchor without its comments. -/
def Anchor.bare (a : Anchor) : Anchor := { a with comments := [] }

/-- A file without its comments: every anchor loses them, and everything else stays. -/
def SourceFile.bare (f : SourceFile) : SourceFile := f.withAnchors Anchor.bare

/-- A walk whose visits change only comments changes only the comments of the file. -/
theorem SourceFile.bare_mapAnchors {σ : Type} {visit : Owner → Anchor → StateM σ Anchor}
    (h : ∀ o, Hides Anchor.bare (visit o)) (f : SourceFile) (q : σ) :
    ((f.mapAnchors visit).run q).run.1.bare = f.bare :=
  f.withAnchors_mapAnchors h q

end StructuredText
