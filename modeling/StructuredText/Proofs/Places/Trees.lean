import StructuredText.Comment.Ownership
import StructuredText.Proofs.Ownership.Changes

/-!
# Trees without their places

Where something stands in the source is told by its line and by its span, which counts bytes. A tree
without its places keeps the lines and has no spans. Comments are handed out by lines, so this can be
done without the spans.

Only a construct that is kept as it was written is not told by its tree: its text is a piece of the
source, and is left out with its place.

* `SourceFile.unplaced` — a file without its places.
* `SourceFile.adopt_unplaced` — comments are handed out to it as to the file itself.
-/

namespace StructuredText

/-! ## Leaving places out -/

def Comment.unplaced (c : Comment) : Comment := { c with span := {} }

/-- An anchor without its span and those of its comments. -/
def Anchor.unplaced (a : Anchor) : Anchor :=
  { a with span := {}, comments := a.comments.map Comment.unplaced }

/-- A statement without the places of it and of all statements and clauses in it. -/
def Statement.unplaced (s : Statement) : Statement := s.withAnchors Anchor.unplaced

def ElseIf.unplaced : ElseIf → ElseIf
  | ⟨a, c, ss⟩ => ⟨a.unplaced, c, ss.map Statement.unplaced⟩

def Else.unplaced : Else → Else
  | ⟨a, ss⟩ => ⟨a.unplaced, ss.map Statement.unplaced⟩

def Case.unplaced : Case → Case
  | ⟨a, ls, ss⟩ => ⟨a.unplaced, ls, ss.map Statement.unplaced⟩

def Anchored.unplaced {α : Type} (x : Anchored α) : Anchored α :=
  { x with anchor := x.anchor.unplaced }

def Block.unplaced {α : Type} (b : Block α) : Block α :=
  { b with anchor := b.anchor.unplaced, items := b.items.map Anchored.unplaced }

def DeclarationBlock.unplaced : DeclarationBlock → DeclarationBlock
  | .plain k b => .plain k b.unplaced
  | .located b => .located b.unplaced
  | .global b => .global b.unplaced
  | .external b => .external b.unplaced
  | .access b => .access b.unplaced

def TypeDefinition.unplaced : TypeDefinition → TypeDefinition
  | .spec init => .spec init
  | .struct i ms => .struct i (ms.map Anchored.unplaced)

def TypeDeclaration.unplaced (t : TypeDeclaration) : TypeDeclaration :=
  { t with anchor := t.anchor.unplaced, definition := t.definition.unplaced }

def TypeBlock.unplaced (b : TypeBlock) : TypeBlock where
  anchor := b.anchor.unplaced
  items := b.items.map TypeDeclaration.unplaced

def Body.unplaced (b : Body) : Body where
  anchor := b.anchor.unplaced
  statements := b.statements.map Statement.unplaced

def ProgramUnit.unplaced (u : ProgramUnit) : ProgramUnit :=
  { u with
    anchor := u.anchor.unplaced
    declarations := u.declarations.map DeclarationBlock.unplaced
    body := u.body.map Body.unplaced }

def Action.unplaced (a : Action) : Action :=
  { a with anchor := a.anchor.unplaced, body := a.body.map Body.unplaced }

/-- A construct that is kept as it was written, without its place and what is written there. -/
def VerbatimItem.unplaced (v : VerbatimItem) : VerbatimItem :=
  { v with anchor := v.anchor.unplaced, text := [] }

def Item.unplaced : Item → Item
  | .types b => .types b.unplaced
  | .unit u => .unit u.unplaced
  | .action a => .action a.unplaced
  | .globals b => .globals b.unplaced
  | .verbatim v => .verbatim v.unplaced

/-- A file without its places. -/
def SourceFile.unplaced (f : SourceFile) : SourceFile where
  items := f.items.map Item.unplaced

/-! ## The parts of statements -/

/-- The statements of a body lose their places one by one. -/
theorem Statement.withAnchorsAll_unplaced (ss : List Statement) :
    Statement.withAnchorsAll Anchor.unplaced ss = ss.map Statement.unplaced :=
  Statement.withAnchorsAll_eq_map Anchor.unplaced ss

/-- So do the branches of a statement. -/
theorem ElseIf.withAnchorsAll_unplaced (es : List ElseIf) :
    ElseIf.withAnchorsAll Anchor.unplaced es = es.map ElseIf.unplaced := by
  induction es with
  | nil => rfl
  | cons e es ih =>
      obtain ⟨a, c, ss⟩ := e
      simp [ElseIf.withAnchorsAll, ElseIf.unplaced, Statement.withAnchorsAll_unplaced, ih]

theorem Else.withAnchorsOption_unplaced (o : Option Else) :
    Else.withAnchorsOption Anchor.unplaced o = o.map Else.unplaced := by
  cases o with
  | none => rfl
  | some e =>
      obtain ⟨a, ss⟩ := e
      simp [Else.withAnchorsOption, Else.unplaced, Statement.withAnchorsAll_unplaced]

theorem Case.withAnchorsAll_unplaced (cs : List Case) :
    Case.withAnchorsAll Anchor.unplaced cs = cs.map Case.unplaced := by
  induction cs with
  | nil => rfl
  | cons c cs ih =>
      obtain ⟨a, ls, ss⟩ := c
      simp [Case.withAnchorsAll, Case.unplaced, Statement.withAnchorsAll_unplaced, ih]

section Parts

variable (a : Anchor) (c e : Expression) (ss : List Statement) (o : Option Else)

@[simp] theorem Statement.unplaced_simple (s : SimpleStatement) :
    (Statement.simple a s).unplaced = .simple a.unplaced s := rfl

/-- A statement that holds others loses its place and those of all its parts. -/
@[simp] theorem Statement.unplaced_ifThen (es : List ElseIf) :
    (Statement.ifThen a c ss es o).unplaced =
      .ifThen a.unplaced c (ss.map unplaced) (es.map ElseIf.unplaced) (o.map Else.unplaced) := by
  simp [unplaced, withAnchors, withAnchorsAll_unplaced, ElseIf.withAnchorsAll_unplaced,
    Else.withAnchorsOption_unplaced]

@[simp] theorem Statement.unplaced_caseOf (cs : List Case) :
    (Statement.caseOf a e cs o).unplaced =
      .caseOf a.unplaced e (cs.map Case.unplaced) (o.map Else.unplaced) := by
  simp [unplaced, withAnchors, Case.withAnchorsAll_unplaced, Else.withAnchorsOption_unplaced]

@[simp] theorem Statement.unplaced_forTo (v : SymbolicVariable) (f : Expression)
    (step : Option Expression) :
    (Statement.forTo a v e f step ss).unplaced =
      .forTo a.unplaced v e f step (ss.map unplaced) := by
  simp [unplaced, withAnchors, withAnchorsAll_unplaced]

@[simp] theorem Statement.unplaced_whileDo :
    (Statement.whileDo a c ss).unplaced = .whileDo a.unplaced c (ss.map unplaced) := by
  simp [unplaced, withAnchors, withAnchorsAll_unplaced]

@[simp] theorem Statement.unplaced_repeatUntil :
    (Statement.repeatUntil a ss c).unplaced = .repeatUntil a.unplaced (ss.map unplaced) c := by
  simp [unplaced, withAnchors, withAnchorsAll_unplaced]

end Parts

/-! ## Handing out comments -/

section Adoption

/-- At a part of a file, a walk that hands out comments does without places what it does with
them. -/
def Blind {α : Type} (unplaced : α → α) (walk : α → StateM (List Comment) α) (x : α) : Prop :=
  ∀ q, ((walk (unplaced x)).run (q.map Comment.unplaced)).run =
    (unplaced ((walk x).run q).run.1, ((walk x).run q).run.2.map Comment.unplaced)

/-- A walk over a list is blind to places if it is for each entry: the comments left by one entry go
to the next. -/
theorem Blind.mapM {α : Type} {unplaced : α → α} {walk : α → StateM (List Comment) α} {xs : List α}
    (h : ∀ x ∈ xs, Blind unplaced walk x) (q : List Comment) :
    ((xs.mapM (walk ∘ unplaced)).run (q.map Comment.unplaced)).run =
      (((xs.mapM walk).run q).run.1.map unplaced,
        ((xs.mapM walk).run q).run.2.map Comment.unplaced) := by
  induction xs generalizing q with
  | nil => simp
  | cons x xs ih =>
      have hx := h x (by simp)
      have hxs := ih fun y hy => h y (List.mem_cons_of_mem _ hy)
      simp [hx _, hxs]

variable {visit : Anchor → StateM (List Comment) Anchor}

/-- The visits do without places what they do with them. -/
def Blinds (visit : Anchor → StateM (List Comment) Anchor) : Prop :=
  ∀ a, Blind Anchor.unplaced visit a

mutual

/-- The walk over a statement does not look at places, if the visit does not. -/
theorem Statement.blind_mapAnchors (h : Blinds visit) (s : Statement) :
    Blind Statement.unplaced (Statement.mapAnchors visit) s := by
  intro q
  cases s with
  | simple a s => simp [Statement.mapAnchors, h a _]
  | ifThen a c ss es o =>
      simp [Statement.mapAnchors, h a _, Statement.blind_mapAnchorsAll h ss _,
        ElseIf.blind_mapAnchorsAll h es _, Else.blind_mapAnchorsOption h o _]
  | caseOf a e cs o =>
      simp [Statement.mapAnchors, h a _, Case.blind_mapAnchorsAll h cs _,
        Else.blind_mapAnchorsOption h o _]
  | forTo a v e f g ss =>
      simp [Statement.mapAnchors, h a _, Statement.blind_mapAnchorsAll h ss _]
  | whileDo a c ss => simp [Statement.mapAnchors, h a _, Statement.blind_mapAnchorsAll h ss _]
  | repeatUntil a ss c => simp [Statement.mapAnchors, h a _, Statement.blind_mapAnchorsAll h ss _]

/-- Nor does the walk over a row of statements, from the first to the last. -/
theorem Statement.blind_mapAnchorsAll (h : Blinds visit) (ss : List Statement) :
    Blind (List.map Statement.unplaced) (Statement.mapAnchorsAll visit) ss := by
  intro q
  cases ss with
  | nil => simp [Statement.mapAnchorsAll]
  | cons s ss =>
      simp [Statement.mapAnchorsAll, Statement.blind_mapAnchors h s _,
        Statement.blind_mapAnchorsAll h ss _]

theorem ElseIf.blind_mapAnchorsAll (h : Blinds visit) (es : List ElseIf) :
    Blind (List.map ElseIf.unplaced) (ElseIf.mapAnchorsAll visit) es := by
  intro q
  cases es with
  | nil => simp [ElseIf.mapAnchorsAll]
  | cons e es =>
      obtain ⟨a, c, ss⟩ := e
      simp [ElseIf.mapAnchorsAll, ElseIf.unplaced, h a _, Statement.blind_mapAnchorsAll h ss _,
        ElseIf.blind_mapAnchorsAll h es _]

theorem Else.blind_mapAnchorsOption (h : Blinds visit) (o : Option Else) :
    Blind (Option.map Else.unplaced) (Else.mapAnchorsOption visit) o := by
  intro q
  cases o with
  | none => simp [Else.mapAnchorsOption]
  | some e =>
      obtain ⟨a, ss⟩ := e
      simp [Else.mapAnchorsOption, Else.unplaced, h a _, Statement.blind_mapAnchorsAll h ss _]

theorem Case.blind_mapAnchorsAll (h : Blinds visit) (cs : List Case) :
    Blind (List.map Case.unplaced) (Case.mapAnchorsAll visit) cs := by
  intro q
  cases cs with
  | nil => simp [Case.mapAnchorsAll]
  | cons c cs =>
      obtain ⟨a, ls, ss⟩ := c
      simp [Case.mapAnchorsAll, Case.unplaced, h a _, Statement.blind_mapAnchorsAll h ss _,
        Case.blind_mapAnchorsAll h cs _]

end

/-- An entry of a block has one anchor. -/
theorem Anchored.blind_mapAnchor {α : Type} (h : Blinds visit) (x : Anchored α) :
    Blind Anchored.unplaced (Anchored.mapAnchor visit) x := by
  intro q
  simp [Anchored.mapAnchor, Anchored.unplaced, h x.anchor _]

/-- The anchor of a block is visited before those of its entries. -/
theorem Block.blind_mapAnchors {α : Type} (h : Blinds visit) (b : Block α) :
    Blind Block.unplaced (Block.mapAnchors visit) b := by
  intro q
  simp [Block.mapAnchors, Block.unplaced, h b.anchor _,
    Blind.mapM fun x _ => Anchored.blind_mapAnchor h x]

/-- So it is in a block of any kind. -/
theorem DeclarationBlock.blind_mapAnchors (h : Blinds visit) (b : DeclarationBlock) :
    Blind DeclarationBlock.unplaced (DeclarationBlock.mapAnchors visit) b := by
  intro q
  cases b with
  | plain k b =>
      simp [DeclarationBlock.mapAnchors, DeclarationBlock.unplaced, Block.blind_mapAnchors h b _]
  | located b | global b | external b | access b =>
      simp [DeclarationBlock.mapAnchors, DeclarationBlock.unplaced, Block.blind_mapAnchors h b _]

/-- Only a structure has anchors inside. -/
theorem TypeDefinition.blind_mapAnchors (h : Blinds visit) (t : TypeDefinition) :
    Blind TypeDefinition.unplaced (TypeDefinition.mapAnchors visit) t := by
  intro q
  cases t with
  | spec i => simp [TypeDefinition.mapAnchors, TypeDefinition.unplaced]
  | struct i ms =>
      simp [TypeDefinition.mapAnchors, TypeDefinition.unplaced,
        Blind.mapM fun x _ => Anchored.blind_mapAnchor h x]

theorem TypeDeclaration.blind_mapAnchors (h : Blinds visit) (t : TypeDeclaration) :
    Blind TypeDeclaration.unplaced (TypeDeclaration.mapAnchors visit) t := by
  intro q
  simp [TypeDeclaration.mapAnchors, TypeDeclaration.unplaced, h t.anchor _,
    TypeDefinition.blind_mapAnchors h t.definition _]

theorem TypeBlock.blind_mapAnchors (h : Blinds visit) (b : TypeBlock) :
    Blind TypeBlock.unplaced (TypeBlock.mapAnchors visit) b := by
  intro q
  simp [TypeBlock.mapAnchors, TypeBlock.unplaced, h b.anchor _,
    Blind.mapM fun t _ => TypeDeclaration.blind_mapAnchors h t]

/-- The anchor of a body is visited before those of its statements. -/
theorem Body.blind_mapAnchors (h : Blinds visit) (b : Body) :
    Blind Body.unplaced (Body.mapAnchors visit) b := by
  intro q
  simp [Body.mapAnchors, Body.unplaced, h b.anchor _, Statement.blind_mapAnchorsAll h b.statements _]

theorem Body.blind_mapAnchorsOption (h : Blinds visit) (b : Option Body) :
    Blind (Option.map Body.unplaced) (Body.mapAnchorsOption visit) b := by
  intro q
  cases b with
  | none => simp [Body.mapAnchorsOption]
  | some b => simp [Body.mapAnchorsOption, Body.blind_mapAnchors h b _]

/-- A unit, its blocks and its body are visited in this order. -/
theorem ProgramUnit.blind_mapAnchors (h : Blinds visit) (u : ProgramUnit) :
    Blind ProgramUnit.unplaced (ProgramUnit.mapAnchors visit) u := by
  intro q
  simp [ProgramUnit.mapAnchors, ProgramUnit.unplaced, h u.anchor _,
    Blind.mapM fun b _ => DeclarationBlock.blind_mapAnchors h b,
    Body.blind_mapAnchorsOption h u.body _]

theorem Action.blind_mapAnchors (h : Blinds visit) (a : Action) :
    Blind Action.unplaced (Action.mapAnchors visit) a := by
  intro q
  simp [Action.mapAnchors, Action.unplaced, h a.anchor _, Body.blind_mapAnchorsOption h a.body _]

/-- A node takes its share by lines. -/
theorem Anchor.blinds_adopt : Blinds (Anchor.adopt .node) := by
  intro a q
  have hrun (a : Anchor) (q : List Comment) : ((a.adopt .node).run q).run =
      ({ a with comments := a.comments ++ q.takeWhile (·.line ≤ a.line) },
        q.dropWhile (·.line ≤ a.line)) := rfl
  rw [hrun, hrun, List.takeWhile_map, List.dropWhile_map]
  simp only [Anchor.unplaced, List.map_append]
  rfl

/-- Items are walked without a look at places, but for those that are kept as written: these take
comments by their span. -/
theorem Item.blind_mapAnchors {i : Item} (hi : ∀ v, i ≠ .verbatim v) :
    Blind Item.unplaced (Item.mapAnchors Anchor.adopt) i := by
  intro q
  cases i with
  | types b =>
      simp [Item.mapAnchors, Item.unplaced, TypeBlock.blind_mapAnchors Anchor.blinds_adopt b _]
  | unit u =>
      simp [Item.mapAnchors, Item.unplaced, ProgramUnit.blind_mapAnchors Anchor.blinds_adopt u _]
  | action a =>
      simp [Item.mapAnchors, Item.unplaced, Action.blind_mapAnchors Anchor.blinds_adopt a _]
  | globals b =>
      simp [Item.mapAnchors, Item.unplaced, Block.blind_mapAnchors Anchor.blinds_adopt b _]
  | verbatim v => exact absurd rfl (hi v)

/-- Comments are handed out to a file without places as they are to the file, if none of its
constructs is kept as it was written. -/
theorem SourceFile.adopt_unplaced {f : SourceFile} (hf : ∀ v, .verbatim v ∉ f.items)
    (cs : List Comment) :
    (f.unplaced.adopt (cs.map Comment.unplaced)).1 = (f.adopt cs).1.unplaced := by
  have hitems : ∀ i ∈ f.items, Blind Item.unplaced (Item.mapAnchors Anchor.adopt) i :=
    fun i hi => Item.blind_mapAnchors fun v hv => hf v (hv ▸ hi)
  simp only [SourceFile.adopt, SourceFile.mapAnchors, SourceFile.unplaced, bind_pure_comp,
    StateT.run_map, List.mapM_map]
  exact congrArg (fun p => SourceFile.mk p.1) (Blind.mapM hitems cs)

end Adoption

end StructuredText
