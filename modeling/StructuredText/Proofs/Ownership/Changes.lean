import StructuredText.SourceFile.Basic

/-!
# Trees with changed anchors

A tree in which every anchor is changed is the same tree in all other respects. This is said here by
a recursion over the trees alone, so that it can be held against a walk: what a walk over a file does
is hidden by a change of the anchors if what it does at each anchor is, and so the walk touches
nothing else.

* `SourceFile.withAnchors` — a file with a change made to each of its anchors.
* `SourceFile.withAnchors_mapAnchors` — a change hides a walk if it hides its visits.
-/

namespace StructuredText

/-! ## Changing all anchors -/

section Changes

variable (change : Anchor → Anchor)

mutual

/-- A statement with a change made to its anchor and to those of all statements and clauses in
it. -/
def Statement.withAnchors : Statement → Statement
  | .simple a s => .simple (change a) s
  | .ifThen a c ss es o =>
    .ifThen (change a) c (Statement.withAnchorsAll ss) (ElseIf.withAnchorsAll es)
      (Else.withAnchorsOption o)
  | .caseOf a e cs o => .caseOf (change a) e (Case.withAnchorsAll cs) (Else.withAnchorsOption o)
  | .forTo a v e f s ss => .forTo (change a) v e f s (Statement.withAnchorsAll ss)
  | .whileDo a c ss => .whileDo (change a) c (Statement.withAnchorsAll ss)
  | .repeatUntil a ss c => .repeatUntil (change a) (Statement.withAnchorsAll ss) c

def Statement.withAnchorsAll : List Statement → List Statement
  | [] => []
  | s :: ss => s.withAnchors :: Statement.withAnchorsAll ss

def ElseIf.withAnchorsAll : List ElseIf → List ElseIf
  | [] => []
  | ⟨a, c, ss⟩ :: es => ⟨change a, c, Statement.withAnchorsAll ss⟩ :: ElseIf.withAnchorsAll es

def Else.withAnchorsOption : Option Else → Option Else
  | none => none
  | some ⟨a, ss⟩ => some ⟨change a, Statement.withAnchorsAll ss⟩

def Case.withAnchorsAll : List Case → List Case
  | [] => []
  | ⟨a, ls, ss⟩ :: cs => ⟨change a, ls, Statement.withAnchorsAll ss⟩ :: Case.withAnchorsAll cs

end

def Anchored.withAnchor {α : Type} (x : Anchored α) : Anchored α :=
  { x with anchor := change x.anchor }

def Block.withAnchors {α : Type} (b : Block α) : Block α :=
  { b with anchor := change b.anchor, items := b.items.map (Anchored.withAnchor change) }

def DeclarationBlock.withAnchors : DeclarationBlock → DeclarationBlock
  | .plain k b => .plain k (b.withAnchors change)
  | .located b => .located (b.withAnchors change)
  | .global b => .global (b.withAnchors change)
  | .external b => .external (b.withAnchors change)
  | .access b => .access (b.withAnchors change)

/-- A type definition with a change made to the anchors of its members. -/
def TypeDefinition.withAnchors : TypeDefinition → TypeDefinition
  | .spec init => .spec init
  | .struct i ms => .struct i (ms.map (Anchored.withAnchor change))

def TypeDeclaration.withAnchors (t : TypeDeclaration) : TypeDeclaration :=
  { t with anchor := change t.anchor, definition := t.definition.withAnchors change }

def TypeBlock.withAnchors (b : TypeBlock) : TypeBlock where
  anchor := change b.anchor
  items := b.items.map (TypeDeclaration.withAnchors change)

def Body.withAnchors (b : Body) : Body where
  anchor := change b.anchor
  statements := Statement.withAnchorsAll change b.statements

def ProgramUnit.withAnchors (u : ProgramUnit) : ProgramUnit :=
  { u with
    anchor := change u.anchor
    declarations := u.declarations.map (DeclarationBlock.withAnchors change)
    body := u.body.map (Body.withAnchors change) }

def Action.withAnchors (a : Action) : Action :=
  { a with anchor := change a.anchor, body := a.body.map (Body.withAnchors change) }

def Item.withAnchors : Item → Item
  | .types b => .types (b.withAnchors change)
  | .unit u => .unit (u.withAnchors change)
  | .action a => .action (a.withAnchors change)
  | .globals b => .globals (b.withAnchors change)
  | .verbatim v => .verbatim { v with anchor := change v.anchor }

/-- A file with a change made to each of its anchors, and nothing else changed. -/
def SourceFile.withAnchors (f : SourceFile) : SourceFile where
  items := f.items.map (Item.withAnchors change)

/-- The statements of a row are changed one by one. -/
theorem Statement.withAnchorsAll_eq_map (ss : List Statement) :
    Statement.withAnchorsAll change ss = ss.map (Statement.withAnchors change) := by
  induction ss with
  | nil => rfl
  | cons s ss ih => rw [Statement.withAnchorsAll, ih, List.map_cons]

end Changes

/-! ## Walks behind a change -/

section Walks

variable {σ : Type} {change : Anchor → Anchor} {visit : Anchor → StateM σ Anchor}

/-- The change hides the visits: an anchor cannot be told from what a visit makes of it. -/
def Hides (change : Anchor → Anchor) (visit : Anchor → StateM σ Anchor) : Prop :=
  ∀ a q, change ((visit a).run q).run.1 = change a

/-- What hides the walks over the elements of a list hides the walk over the list. -/
theorem map_run_mapM {α : Type} {walk : α → StateM σ α} {mark : α → α}
    (h : ∀ x q, mark ((walk x).run q).run.1 = mark x) (xs : List α) (q : σ) :
    ((xs.mapM walk).run q).run.1.map mark = xs.map mark := by
  induction xs generalizing q with
  | nil => simp
  | cons x xs ih => simp [h, ih]

mutual

/-- A change that hides the visits hides the walk over a statement: each of its parts is put back
where it was, and only anchors are replaced. -/
theorem Statement.withAnchors_mapAnchors (h : Hides change visit) (s : Statement) (q : σ) :
    ((s.mapAnchors visit).run q).run.1.withAnchors change = s.withAnchors change := by
  -- One case for each kind of statement; its bodies are walked by the lemmas that follow.
  cases s with
  | simple a s => simp [Statement.mapAnchors, Statement.withAnchors, h a]
  | ifThen a c ss es o =>
      simp [Statement.mapAnchors, Statement.withAnchors, h a,
        Statement.withAnchorsAll_mapAnchorsAll h ss, ElseIf.withAnchorsAll_mapAnchorsAll h es,
        Else.withAnchorsOption_mapAnchorsOption h o]
  | caseOf a e cs o =>
      simp [Statement.mapAnchors, Statement.withAnchors, h a,
        Case.withAnchorsAll_mapAnchorsAll h cs, Else.withAnchorsOption_mapAnchorsOption h o]
  | forTo a v e f g ss =>
      simp [Statement.mapAnchors, Statement.withAnchors, h a,
        Statement.withAnchorsAll_mapAnchorsAll h ss]
  | whileDo a c ss =>
      simp [Statement.mapAnchors, Statement.withAnchors, h a,
        Statement.withAnchorsAll_mapAnchorsAll h ss]
  | repeatUntil a ss c =>
      simp [Statement.mapAnchors, Statement.withAnchors, h a,
        Statement.withAnchorsAll_mapAnchorsAll h ss]

theorem Statement.withAnchorsAll_mapAnchorsAll (h : Hides change visit) (ss : List Statement)
    (q : σ) :
    Statement.withAnchorsAll change ((Statement.mapAnchorsAll visit ss).run q).run.1 =
      Statement.withAnchorsAll change ss := by
  cases ss with
  | nil => simp [Statement.mapAnchorsAll]
  | cons s ss =>
      simp [Statement.mapAnchorsAll, Statement.withAnchorsAll,
        Statement.withAnchors_mapAnchors h s, Statement.withAnchorsAll_mapAnchorsAll h ss]

theorem ElseIf.withAnchorsAll_mapAnchorsAll (h : Hides change visit) (es : List ElseIf) (q : σ) :
    ElseIf.withAnchorsAll change ((ElseIf.mapAnchorsAll visit es).run q).run.1 =
      ElseIf.withAnchorsAll change es := by
  match es with
  | [] => simp [ElseIf.mapAnchorsAll]
  | ⟨a, c, ss⟩ :: es =>
      simp [ElseIf.mapAnchorsAll, ElseIf.withAnchorsAll, h a,
        Statement.withAnchorsAll_mapAnchorsAll h ss, ElseIf.withAnchorsAll_mapAnchorsAll h es]

theorem Else.withAnchorsOption_mapAnchorsOption (h : Hides change visit) (o : Option Else)
    (q : σ) :
    Else.withAnchorsOption change ((Else.mapAnchorsOption visit o).run q).run.1 =
      Else.withAnchorsOption change o := by
  match o with
  | none => simp [Else.mapAnchorsOption]
  | some ⟨a, ss⟩ =>
      simp [Else.mapAnchorsOption, Else.withAnchorsOption, h a,
        Statement.withAnchorsAll_mapAnchorsAll h ss]

theorem Case.withAnchorsAll_mapAnchorsAll (h : Hides change visit) (cs : List Case) (q : σ) :
    Case.withAnchorsAll change ((Case.mapAnchorsAll visit cs).run q).run.1 =
      Case.withAnchorsAll change cs := by
  match cs with
  | [] => simp [Case.mapAnchorsAll]
  | ⟨a, ls, ss⟩ :: cs =>
      simp [Case.mapAnchorsAll, Case.withAnchorsAll, h a,
        Statement.withAnchorsAll_mapAnchorsAll h ss, Case.withAnchorsAll_mapAnchorsAll h cs]

end

/-- The walk changes the anchor of a node and nothing of what the node holds. -/
theorem Anchored.withAnchor_mapAnchor {α : Type} (h : Hides change visit) (x : Anchored α)
    (q : σ) : ((x.mapAnchor visit).run q).run.1.withAnchor change = x.withAnchor change := by
  simp [Anchored.mapAnchor, Anchored.withAnchor, h x.anchor]

/-- The walk keeps the flags of a block, and its declarations one by one. -/
theorem Block.withAnchors_mapAnchors {α : Type} (h : Hides change visit) (b : Block α) (q : σ) :
    ((b.mapAnchors visit).run q).run.1.withAnchors change = b.withAnchors change := by
  simp [Block.mapAnchors, Block.withAnchors, h b.anchor,
    map_run_mapM (Anchored.withAnchor_mapAnchor h)]

theorem DeclarationBlock.withAnchors_mapAnchors (h : Hides change visit) (b : DeclarationBlock)
    (q : σ) : ((b.mapAnchors visit).run q).run.1.withAnchors change = b.withAnchors change := by
  cases b <;>
    simp [DeclarationBlock.mapAnchors, DeclarationBlock.withAnchors,
      Block.withAnchors_mapAnchors h]

/-- The walk goes into structures and leaves other definitions alone. -/
theorem TypeDefinition.withAnchors_mapAnchors (h : Hides change visit) (t : TypeDefinition)
    (q : σ) : ((t.mapAnchors visit).run q).run.1.withAnchors change = t.withAnchors change := by
  cases t <;>
    simp [TypeDefinition.mapAnchors, TypeDefinition.withAnchors,
      map_run_mapM (Anchored.withAnchor_mapAnchor h)]

theorem TypeDeclaration.withAnchors_mapAnchors (h : Hides change visit) (t : TypeDeclaration)
    (q : σ) : ((t.mapAnchors visit).run q).run.1.withAnchors change = t.withAnchors change := by
  simp [TypeDeclaration.mapAnchors, TypeDeclaration.withAnchors, h t.anchor,
    TypeDefinition.withAnchors_mapAnchors h]

theorem TypeBlock.withAnchors_mapAnchors (h : Hides change visit) (b : TypeBlock) (q : σ) :
    ((b.mapAnchors visit).run q).run.1.withAnchors change = b.withAnchors change := by
  simp [TypeBlock.mapAnchors, TypeBlock.withAnchors, h b.anchor,
    map_run_mapM (TypeDeclaration.withAnchors_mapAnchors h)]

theorem Body.withAnchors_mapAnchors (h : Hides change visit) (b : Body) (q : σ) :
    ((b.mapAnchors visit).run q).run.1.withAnchors change = b.withAnchors change := by
  simp [Body.mapAnchors, Body.withAnchors, h b.anchor, Statement.withAnchorsAll_mapAnchorsAll h]

/-- A body that is missing stays missing. -/
theorem Body.withAnchors_mapAnchorsOption (h : Hides change visit) (b : Option Body) (q : σ) :
    ((Body.mapAnchorsOption visit b).run q).run.1.map (Body.withAnchors change) =
      b.map (Body.withAnchors change) := by
  cases b <;> simp [Body.mapAnchorsOption, Body.withAnchors_mapAnchors h]

/-- The walk keeps the kind of a unit, its name and all that belongs to its head. -/
theorem ProgramUnit.withAnchors_mapAnchors (h : Hides change visit) (u : ProgramUnit) (q : σ) :
    ((u.mapAnchors visit).run q).run.1.withAnchors change = u.withAnchors change := by
  simp [ProgramUnit.mapAnchors, ProgramUnit.withAnchors, h u.anchor,
    map_run_mapM (DeclarationBlock.withAnchors_mapAnchors h),
    Body.withAnchors_mapAnchorsOption h]

theorem Action.withAnchors_mapAnchors (h : Hides change visit) (a : Action) (q : σ) :
    ((a.mapAnchors visit).run q).run.1.withAnchors change = a.withAnchors change := by
  simp [Action.mapAnchors, Action.withAnchors, h a.anchor, Body.withAnchors_mapAnchorsOption h]

/-- Whatever the walk does to the anchors of an item, it does nothing else. -/
theorem Item.withAnchors_mapAnchors {visit : Owner → Anchor → StateM σ Anchor}
    (h : ∀ o, Hides change (visit o)) (i : Item) (q : σ) :
    ((i.mapAnchors visit).run q).run.1.withAnchors change = i.withAnchors change := by
  cases i with
  | types b =>
      simp [Item.mapAnchors, Item.withAnchors, TypeBlock.withAnchors_mapAnchors (h .node)]
  | unit u =>
      simp [Item.mapAnchors, Item.withAnchors, ProgramUnit.withAnchors_mapAnchors (h .node)]
  | action a =>
      simp [Item.mapAnchors, Item.withAnchors, Action.withAnchors_mapAnchors (h .node)]
  | globals b =>
      simp [Item.mapAnchors, Item.withAnchors, Block.withAnchors_mapAnchors (h .node)]
  | verbatim v => simp [Item.mapAnchors, Item.withAnchors, h .verbatim v.anchor]

/-- A walk over a file touches nothing but what its visits touch: a change that hides what they do
to an anchor hides the whole walk. -/
theorem SourceFile.withAnchors_mapAnchors {visit : Owner → Anchor → StateM σ Anchor}
    (h : ∀ o, Hides change (visit o)) (f : SourceFile) (q : σ) :
    ((f.mapAnchors visit).run q).run.1.withAnchors change = f.withAnchors change := by
  simp [SourceFile.mapAnchors, SourceFile.withAnchors, map_run_mapM (Item.withAnchors_mapAnchors h)]

end Walks

end StructuredText
