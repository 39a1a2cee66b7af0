import StructuredText.Proofs.Build.Forms
import StructuredText.Proofs.Ownership.Anchors

/-!
# Well-formed trees

What holds of every tree that was read, though the types of the trees do not say so: lists that the
grammar never leaves empty are not empty, and what may stand only in some places stands only there.
There is one predicate for each type, and it says the same of all parts. Of anchors nothing is said.

A body of a statement or clause without statements is the empty list, so there is nothing to say of
it; a unit or action has no body rather than an empty one. An item that is a block of variables is a
global block by its type.

* `SourceFile.WellFormed` — well-formed files.
* `SourceFile.wellFormed_bare` — comments do not matter.
-/

namespace StructuredText

/-! ## Expressions -/

/-- A duration has at least one part. -/
def Literal.WellFormed : Literal → Prop
  | .duration d => d.parts ≠ []
  | _ => True

/-- A hardware address. -/
def Variable.isDirect : Variable → Bool
  | .direct _ => true
  | _ => false

/-- An enumerated value that names its type and has no number, as in an expression. -/
def EnumeratedValue.Qualified : EnumeratedValue → Prop
  | ⟨typeName, _, value⟩ => typeName.isSome ∧ value.isNone

mutual

/-- An enumerated value that is an expression is qualified. -/
def Expression.WellFormed : Expression → Prop
  | .literal v => v.WellFormed
  | .reference v => v.WellFormed
  | .enumerated v => v.Qualified
  | .unary _ x => x.WellFormed
  | .binary x _ y => x.WellFormed ∧ y.WellFormed
  | .parenthesized x => x.WellFormed
  | .call c => c.WellFormed

/-- From a name with selectors something is selected. -/
def Variable.WellFormed : Variable → Prop
  | .symbolic _ | .direct _ => True
  | .multiElement _ ss => ss ≠ [] ∧ Selector.WellFormedAll ss

/-- A list of subscripts is not empty. -/
def Selector.WellFormed : Selector → Prop
  | .subscript is _ => is ≠ [] ∧ Expression.WellFormedAll is
  | .field .. => True

def EnumeratedValue.WellFormed : EnumeratedValue → Prop
  | ⟨_, _, v⟩ => Expression.WellFormedOption v

def Parameter.WellFormed : Parameter → Prop
  | .input _ x => x.WellFormed
  | .output _ _ v => Variable.WellFormedOption v

/-- What is called is no hardware address. -/
def Call.WellFormed : Call → Prop
  | ⟨f, ps⟩ => f.isDirect = false ∧ f.WellFormed ∧ Parameter.WellFormedAll ps

def Expression.WellFormedAll : List Expression → Prop
  | [] => True
  | x :: xs => x.WellFormed ∧ Expression.WellFormedAll xs

def Selector.WellFormedAll : List Selector → Prop
  | [] => True
  | s :: ss => s.WellFormed ∧ Selector.WellFormedAll ss

def Parameter.WellFormedAll : List Parameter → Prop
  | [] => True
  | p :: ps => p.WellFormed ∧ Parameter.WellFormedAll ps

def Expression.WellFormedOption : Option Expression → Prop
  | none => True
  | some x => x.WellFormed

def Variable.WellFormedOption : Option Variable → Prop
  | none => True
  | some v => v.WellFormed

end

/-- Expressions in a row are well formed if each one is. -/
theorem Expression.wellFormedAll_iff {xs : List Expression} :
    Expression.WellFormedAll xs ↔ ∀ x ∈ xs, x.WellFormed := by
  induction xs with
  | nil => simp [Expression.WellFormedAll]
  | cons x xs ih => simp [Expression.WellFormedAll, ih]

/-- Selectors in a row are well formed if each one is. -/
theorem Selector.wellFormedAll_iff {ss : List Selector} :
    Selector.WellFormedAll ss ↔ ∀ s ∈ ss, s.WellFormed := by
  induction ss with
  | nil => simp [Selector.WellFormedAll]
  | cons s ss ih => simp [Selector.WellFormedAll, ih]

/-- Parameters in a row are well formed if each one is. -/
theorem Parameter.wellFormedAll_iff {ps : List Parameter} :
    Parameter.WellFormedAll ps ↔ ∀ p ∈ ps, p.WellFormed := by
  induction ps with
  | nil => simp [Parameter.WellFormedAll]
  | cons p ps ih => simp [Parameter.WellFormedAll, ih]

/-- An expression that may be missing is well formed if it is where it is there. -/
theorem Expression.wellFormedOption_iff {x : Option Expression} :
    Expression.WellFormedOption x ↔ ∀ y ∈ x, y.WellFormed := by
  cases x <;> simp [Expression.WellFormedOption]

theorem Variable.wellFormedOption_iff {v : Option Variable} :
    Variable.WellFormedOption v ↔ ∀ w ∈ v, w.WellFormed := by
  cases v <;> simp [Variable.WellFormedOption]

/-! ## Types and first values -/

def Subrange.WellFormed : Subrange → Prop
  | .full => True
  | .limits low high => low.WellFormed ∧ high.WellFormed

/-- Only the dimensions of an array may be left open. -/
def SubrangeType.WellFormed (t : SubrangeType) : Prop := t.range ≠ .full ∧ t.range.WellFormed

/-- An enumeration has values. -/
def EnumeratedType.WellFormed (t : EnumeratedType) : Prop :=
  t.values ≠ [] ∧ ∀ v ∈ t.values, v.WellFormed

mutual

/-- An array has dimensions. -/
def ArrayType.WellFormed : ArrayType → Prop
  | ⟨ds, t⟩ => ds ≠ [] ∧ (∀ d ∈ ds, d.WellFormed) ∧ t.WellFormed

def TypeSpecification.WellFormed : TypeSpecification → Prop
  | .data _ | .string _ => True
  | .array t => t.WellFormed
  | .subrange t => t.WellFormed
  | .enumerated t => t.WellFormed

end

mutual

def Initializer.WellFormed : Initializer → Prop
  | .expression x => x.WellFormed
  | .array v => v.WellFormed
  | .struct v => v.WellFormed

/-- The first value of an array has elements. -/
def ArrayInitialization.WellFormed : ArrayInitialization → Prop
  | ⟨es⟩ => es ≠ [] ∧ ArrayInitialElement.WellFormedAll es

def ArrayInitialElement.WellFormed : ArrayInitialElement → Prop
  | .single v => v.WellFormed
  | .repeated _ v => Initializer.WellFormedOption v

/-- The first value of a structure has elements. -/
def StructureInitialization.WellFormed : StructureInitialization → Prop
  | ⟨es⟩ => es ≠ [] ∧ StructureElementInitialization.WellFormedAll es

def StructureElementInitialization.WellFormed : StructureElementInitialization → Prop
  | ⟨_, v⟩ => v.WellFormed

def Initializer.WellFormedOption : Option Initializer → Prop
  | none => True
  | some v => v.WellFormed

def ArrayInitialElement.WellFormedAll : List ArrayInitialElement → Prop
  | [] => True
  | e :: es => e.WellFormed ∧ ArrayInitialElement.WellFormedAll es

def StructureElementInitialization.WellFormedAll : List StructureElementInitialization → Prop
  | [] => True
  | e :: es => e.WellFormed ∧ StructureElementInitialization.WellFormedAll es

end

/-- A first value that may be missing is well formed if it is where it is there. -/
theorem Initializer.wellFormedOption_iff {v : Option Initializer} :
    Initializer.WellFormedOption v ↔ ∀ w ∈ v, w.WellFormed := by
  cases v <;> simp [Initializer.WellFormedOption]

/-- Elements of an array are well formed if each one is. -/
theorem ArrayInitialElement.wellFormedAll_iff {es : List ArrayInitialElement} :
    ArrayInitialElement.WellFormedAll es ↔ ∀ e ∈ es, e.WellFormed := by
  induction es with
  | nil => simp [ArrayInitialElement.WellFormedAll]
  | cons e es ih => simp [ArrayInitialElement.WellFormedAll, ih]

theorem StructureElementInitialization.wellFormedAll_iff
    {es : List StructureElementInitialization} :
    StructureElementInitialization.WellFormedAll es ↔ ∀ e ∈ es, e.WellFormed := by
  induction es with
  | nil => simp [StructureElementInitialization.WellFormedAll]
  | cons e es ih => simp [StructureElementInitialization.WellFormedAll, ih]

def SpecInit.WellFormed : SpecInit → Prop
  | .simple _ v => ∀ x ∈ v, x.WellFormed
  | .subrange _ t v => t.WellFormed ∧ ∀ x ∈ v, x.WellFormed
  | .enumerated _ t v => t.WellFormed ∧ ∀ x ∈ v, x.WellFormed
  | .array _ t v => t.WellFormed ∧ ∀ x ∈ v, x.WellFormed
  | .string .. => True
  | .struct v => v.value.WellFormed

/-! ## Declarations -/

/-- A declaration declares something. -/
def VariableDeclaration.WellFormed : VariableDeclaration → Prop
  | .init declared type => declared ≠ [] ∧ type.WellFormed
  | .edge declared _ => declared ≠ []
  | .fbInstance names _ value => names ≠ [] ∧ value.WellFormed
  | .invocation names call => names ≠ [] ∧ call.WellFormed

def GlobalNames.WellFormed : GlobalNames → Prop
  | .located .. | .incomplete .. => True
  | .names ns => ns ≠ []

def GlobalInit.WellFormed : GlobalInit → Prop
  | .spec type => type.WellFormed
  | .invocation call => call.WellFormed

def GlobalDeclaration.WellFormed (d : GlobalDeclaration) : Prop :=
  d.names.WellFormed ∧ d.init.WellFormed

def LocatedDeclaration.WellFormed (d : LocatedDeclaration) : Prop := d.init.WellFormed

def ExternalDeclaration.WellFormed (d : ExternalDeclaration) : Prop := d.type.WellFormed

def AccessDeclaration.WellFormed (d : AccessDeclaration) : Prop := d.place.WellFormed

/-- The declarations of a block satisfy a predicate. -/
def Block.All {α : Type} (good : α → Prop) (b : Block α) : Prop := ∀ d ∈ b.items, good d.body

/-- A block of located variables has entries; blocks of temporary variables, of instances and of
access paths have no attributes. -/
def DeclarationBlock.WellFormed : DeclarationBlock → Prop
  | .plain kind b =>
    (kind = .temp ∨ kind = .inst → b.attributes = {}) ∧ b.All VariableDeclaration.WellFormed
  | .located b => b.items ≠ [] ∧ b.All LocatedDeclaration.WellFormed
  | .global b => b.All GlobalDeclaration.WellFormed
  | .external b => b.All ExternalDeclaration.WellFormed
  | .access b => b.attributes = {} ∧ b.All AccessDeclaration.WellFormed

/-! ## Type declarations -/

def Member.WellFormed (m : Member) : Prop := m.init.WellFormed

def TypeDefinition.WellFormed : TypeDefinition → Prop
  | .spec init => init.WellFormed
  | .struct _ members => ∀ m ∈ members, m.body.WellFormed

/-- Something is declared between `TYPE` and `END_TYPE`. -/
def TypeBlock.WellFormed (b : TypeBlock) : Prop :=
  b.items ≠ [] ∧ ∀ t ∈ b.items, t.definition.WellFormed

/-! ## Statements -/

/-- There is something to assign to, no hardware address is called, and a call of a function block
has parameters. -/
def SimpleStatement.WellFormed : SimpleStatement → Prop
  | .assignment targets value => targets ≠ [] ∧ (∀ t ∈ targets, t.WellFormed) ∧ value.WellFormed
  | .targeted _ target value => target.WellFormed ∧ value.WellFormed
  | .methodCall method => method.isDirect = false ∧ method.WellFormed
  | .invocation ⟨callee, parameters⟩ =>
    parameters ≠ [] ∧ Call.WellFormed ⟨callee, parameters⟩
  | .noOp place => place.WellFormed
  | .jump _ => True

/-- A range of values is not left open. -/
def CaseLabel.WellFormed : CaseLabel → Prop
  | .value x => x.WellFormed
  | .range r => r ≠ .full ∧ r.WellFormed

mutual

def Statement.WellFormed : Statement → Prop
  | .simple _ s => s.WellFormed
  | .ifThen _ c ss es o =>
    c.WellFormed ∧ Statement.WellFormedAll ss ∧ ElseIf.WellFormedAll es ∧ Else.WellFormedOption o
  | .caseOf _ x cs o => x.WellFormed ∧ Case.WellFormedAll cs ∧ Else.WellFormedOption o
  | .forTo _ _ x y step ss =>
    x.WellFormed ∧ y.WellFormed ∧ (∀ z ∈ step, z.WellFormed) ∧ Statement.WellFormedAll ss
  | .whileDo _ c ss => c.WellFormed ∧ Statement.WellFormedAll ss
  | .repeatUntil _ ss c => Statement.WellFormedAll ss ∧ c.WellFormed

def Statement.WellFormedAll : List Statement → Prop
  | [] => True
  | s :: ss => s.WellFormed ∧ Statement.WellFormedAll ss

def ElseIf.WellFormedAll : List ElseIf → Prop
  | [] => True
  | ⟨_, c, ss⟩ :: es =>
    (c.WellFormed ∧ Statement.WellFormedAll ss) ∧ ElseIf.WellFormedAll es

def Else.WellFormedOption : Option Else → Prop
  | none => True
  | some ⟨_, ss⟩ => Statement.WellFormedAll ss

/-- A case has labels. -/
def Case.WellFormedAll : List Case → Prop
  | [] => True
  | ⟨_, ls, ss⟩ :: cs =>
    (ls ≠ [] ∧ (∀ l ∈ ls, l.WellFormed) ∧ Statement.WellFormedAll ss) ∧ Case.WellFormedAll cs

end

def ElseIf.WellFormed (e : ElseIf) : Prop := ElseIf.WellFormedAll [e]

def Else.WellFormed (e : Else) : Prop := Else.WellFormedOption (some e)

def Case.WellFormed (c : Case) : Prop := Case.WellFormedAll [c]

/-- Statements in a row are well formed if each one is. -/
theorem Statement.wellFormedAll_iff {ss : List Statement} :
    Statement.WellFormedAll ss ↔ ∀ s ∈ ss, s.WellFormed := by
  induction ss with
  | nil => simp [Statement.WellFormedAll]
  | cons s ss ih => simp [Statement.WellFormedAll, ih]

/-- Branches in a row are well formed if their conditions and bodies are. -/
theorem ElseIf.wellFormedAll_iff {es : List ElseIf} :
    ElseIf.WellFormedAll es ↔ ∀ e ∈ es, e.WellFormed := by
  induction es with
  | nil => simp [ElseIf.WellFormedAll]
  | cons e es ih =>
      obtain ⟨a, c, ss⟩ := e
      simp [ElseIf.WellFormedAll, ElseIf.WellFormed, ih]

/-- Cases in a row are well formed if each one is. -/
theorem Case.wellFormedAll_iff {cs : List Case} :
    Case.WellFormedAll cs ↔ ∀ c ∈ cs, c.WellFormed := by
  induction cs with
  | nil => simp [Case.WellFormedAll]
  | cons c cs ih =>
      obtain ⟨a, ls, ss⟩ := c
      simp [Case.WellFormedAll, Case.WellFormed, ih]

/-! ## Files -/

/-- A unit or action that has a body has statements. -/
def Body.WellFormed (b : Body) : Prop := b.statements ≠ [] ∧ Statement.WellFormedAll b.statements

def ProgramUnit.WellFormed (u : ProgramUnit) : Prop :=
  (∀ t ∈ u.kind.returnType?, t.WellFormed) ∧ (∀ b ∈ u.declarations, b.WellFormed) ∧
    ∀ b ∈ u.body, b.WellFormed

def Action.WellFormed (a : Action) : Prop := ∀ b ∈ a.body, b.WellFormed

def Item.WellFormed : Item → Prop
  | .types b => b.WellFormed
  | .unit u => u.WellFormed
  | .action a => a.WellFormed
  | .globals b => (DeclarationBlock.global b).WellFormed
  | .verbatim _ => True

/-- A well-formed file. -/
def SourceFile.WellFormed (f : SourceFile) : Prop := ∀ i ∈ f.items, i.WellFormed

/-! ## Anchors do not matter -/

section Changes

variable (change : Anchor → Anchor)

mutual

/-- No condition on a statement looks at an anchor. -/
theorem Statement.wellFormed_withAnchors (s : Statement) :
    (s.withAnchors change).WellFormed ↔ s.WellFormed := by
  cases s with
  | simple a s => simp [Statement.withAnchors, Statement.WellFormed]
  | ifThen a c ss es o =>
      simp [Statement.withAnchors, Statement.WellFormed, Statement.wellFormedAll_withAnchorsAll ss,
        ElseIf.wellFormedAll_withAnchorsAll es, Else.wellFormedOption_withAnchorsOption o]
  | caseOf a e cs o =>
      simp [Statement.withAnchors, Statement.WellFormed, Case.wellFormedAll_withAnchorsAll cs,
        Else.wellFormedOption_withAnchorsOption o]
  | forTo a v e f g ss =>
      simp [Statement.withAnchors, Statement.WellFormed, Statement.wellFormedAll_withAnchorsAll ss]
  | whileDo a c ss =>
      simp [Statement.withAnchors, Statement.WellFormed, Statement.wellFormedAll_withAnchorsAll ss]
  | repeatUntil a ss c =>
      simp [Statement.withAnchors, Statement.WellFormed, Statement.wellFormedAll_withAnchorsAll ss]

theorem Statement.wellFormedAll_withAnchorsAll (ss : List Statement) :
    Statement.WellFormedAll (Statement.withAnchorsAll change ss) ↔ Statement.WellFormedAll ss := by
  cases ss with
  | nil => simp [Statement.withAnchorsAll]
  | cons s ss =>
      simp [Statement.withAnchorsAll, Statement.WellFormedAll, Statement.wellFormed_withAnchors s,
        Statement.wellFormedAll_withAnchorsAll ss]

theorem ElseIf.wellFormedAll_withAnchorsAll (es : List ElseIf) :
    ElseIf.WellFormedAll (ElseIf.withAnchorsAll change es) ↔ ElseIf.WellFormedAll es := by
  match es with
  | [] => simp [ElseIf.withAnchorsAll]
  | ⟨a, c, ss⟩ :: es =>
      simp [ElseIf.withAnchorsAll, ElseIf.WellFormedAll, Statement.wellFormedAll_withAnchorsAll ss,
        ElseIf.wellFormedAll_withAnchorsAll es]

theorem Else.wellFormedOption_withAnchorsOption (o : Option Else) :
    Else.WellFormedOption (Else.withAnchorsOption change o) ↔ Else.WellFormedOption o := by
  match o with
  | none => simp [Else.withAnchorsOption]
  | some ⟨a, ss⟩ =>
      simp [Else.withAnchorsOption, Else.WellFormedOption,
        Statement.wellFormedAll_withAnchorsAll ss]

theorem Case.wellFormedAll_withAnchorsAll (cs : List Case) :
    Case.WellFormedAll (Case.withAnchorsAll change cs) ↔ Case.WellFormedAll cs := by
  match cs with
  | [] => simp [Case.withAnchorsAll]
  | ⟨a, ls, ss⟩ :: cs =>
      simp [Case.withAnchorsAll, Case.WellFormedAll, Statement.wellFormedAll_withAnchorsAll ss,
        Case.wellFormedAll_withAnchorsAll cs]

end

/-- A body keeps its statements when its anchors change. -/
theorem Body.wellFormed_withAnchors (b : Body) :
    (b.withAnchors change).WellFormed ↔ b.WellFormed := by
  have hnil : Statement.withAnchorsAll change b.statements = [] ↔ b.statements = [] := by
    rw [Statement.withAnchorsAll_eq_map, List.map_eq_nil_iff]
  simp [Body.withAnchors, Body.WellFormed, Statement.wellFormedAll_withAnchorsAll, hnil]

/-- A block keeps its declarations when its anchors change. -/
theorem Block.all_withAnchors {α : Type} {good : α → Prop} (b : Block α) :
    (b.withAnchors change).All good ↔ b.All good := by
  simp [Block.withAnchors, Block.All, Anchored.withAnchor]

theorem DeclarationBlock.wellFormed_withAnchors (b : DeclarationBlock) :
    (b.withAnchors change).WellFormed ↔ b.WellFormed := by
  cases b <;>
    simp [DeclarationBlock.withAnchors, DeclarationBlock.WellFormed, Block.all_withAnchors] <;>
    simp [Block.withAnchors]

/-- A type keeps its definition when its anchors change. -/
theorem TypeDeclaration.wellFormed_withAnchors (t : TypeDeclaration) :
    (t.withAnchors change).definition.WellFormed ↔ t.definition.WellFormed := by
  obtain ⟨a, name, base, definition⟩ := t
  cases definition <;>
    simp [TypeDeclaration.withAnchors, TypeDefinition.withAnchors, TypeDefinition.WellFormed,
      Anchored.withAnchor]

/-- Whether an item is well formed does not depend on its anchors. -/
theorem Item.wellFormed_withAnchors (i : Item) :
    (i.withAnchors change).WellFormed ↔ i.WellFormed := by
  cases i with
  | types b =>
      simp [Item.withAnchors, Item.WellFormed, TypeBlock.withAnchors, TypeBlock.WellFormed,
        TypeDeclaration.wellFormed_withAnchors]
  | unit u =>
      simp [Item.withAnchors, Item.WellFormed, ProgramUnit.withAnchors, ProgramUnit.WellFormed,
        DeclarationBlock.wellFormed_withAnchors, Body.wellFormed_withAnchors]
  | action a =>
      simp [Item.withAnchors, Item.WellFormed, Action.withAnchors, Action.WellFormed,
        Body.wellFormed_withAnchors]
  | globals b =>
      simp [Item.withAnchors, Item.WellFormed, DeclarationBlock.WellFormed, Block.all_withAnchors]
  | verbatim v => simp [Item.withAnchors, Item.WellFormed]

end Changes

/-- A file is well-formed with its comments and without them. -/
theorem SourceFile.wellFormed_bare (f : SourceFile) : f.bare.WellFormed ↔ f.WellFormed := by
  simp [SourceFile.bare, SourceFile.withAnchors, SourceFile.WellFormed,
    Item.wellFormed_withAnchors]

end StructuredText
