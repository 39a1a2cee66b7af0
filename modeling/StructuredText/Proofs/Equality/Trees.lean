import StructuredText.Proofs.Equality.Expressions
import StructuredText.SourceFile.Basic

/-!
# What the equality of files compares

The wordings of types, statements, declarations and units, made of those of their parts. An anchor
keeps what its comments say, and a construct that is kept as it was written keeps its text.

* `Statement.wording`, `SourceFile.wording` — without any lines and spans.
* `Statement.beq_iff` — statements are equal when their wordings are the same. For files this is
  `beq_iff_wording`, as for everything else that has a wording.
-/

namespace StructuredText

/-! ## Types and first values -/

def DataType.wording (t : DataType) : DataType := { t with typeName := t.typeName.wording }

instance : ComparedBy DataType DataType.wording where
  beq_iff a b := by cases a; cases b; simp [reduceBEq, beq_iff_wording, DataType.wording]

def StringType.wording (t : StringType) : StringType where
  name := t.name.wording
  length := t.length.map Token.wording

instance : ComparedBy StringType StringType.wording where
  beq_iff a b := by cases a; cases b; simp [reduceBEq, beq_iff_wording, StringType.wording]

def Subrange.wording : Subrange → Subrange
  | .full => .full
  | .limits low high => .limits low.wording high.wording

instance : ComparedBy Subrange Subrange.wording where
  beq_iff a b := by cases a <;> cases b <;> simp [reduceBEq, beq_iff_wording, Subrange.wording]

def SubrangeType.wording (t : SubrangeType) : SubrangeType where
  typeName := t.typeName.wording
  range := t.range.wording

instance : ComparedBy SubrangeType SubrangeType.wording where
  beq_iff a b := by cases a; cases b; simp [reduceBEq, beq_iff_wording, SubrangeType.wording]

def EnumeratedType.wording (t : EnumeratedType) : EnumeratedType where
  values := t.values.map EnumeratedValue.wording
  baseType := t.baseType.map Token.wording

instance : ComparedBy EnumeratedType EnumeratedType.wording where
  beq_iff a b := by cases a; cases b; simp [reduceBEq, beq_iff_wording, EnumeratedType.wording]

mutual

def ArrayType.wording : ArrayType → ArrayType
  | ⟨ds, t⟩ => ⟨ds.map Subrange.wording, t.wording⟩
termination_by structural t => t

def TypeSpecification.wording : TypeSpecification → TypeSpecification
  | .data t => .data t.wording
  | .string t => .string t.wording
  | .array t => .array t.wording
  | .subrange t => .subrange t.wording
  | .enumerated t => .enumerated t.wording
termination_by structural t => t

end

mutual

/-- Arrays are equal if their dimensions and the types of their elements are. -/
theorem ArrayType.beq_iff (a b : ArrayType) : a.beq b = true ↔ a.wording = b.wording := by
  obtain ⟨ds, t⟩ := a
  obtain ⟨es, u⟩ := b
  simp [ArrayType.beq, ArrayType.wording, beq_iff_wording, TypeSpecification.beq_iff t]

theorem TypeSpecification.beq_iff (a b : TypeSpecification) :
    a.beq b = true ↔ a.wording = b.wording := by
  cases a with
  | array t =>
      cases b <;> simp [TypeSpecification.beq, TypeSpecification.wording, ArrayType.beq_iff t]
  | data t | string t | subrange t | enumerated t =>
      cases b <;> simp [TypeSpecification.beq, TypeSpecification.wording, beq_iff_wording]

end

instance : ComparedBy ArrayType ArrayType.wording := ⟨ArrayType.beq_iff⟩
instance : ComparedBy TypeSpecification TypeSpecification.wording := ⟨TypeSpecification.beq_iff⟩

mutual

def Initializer.wording : Initializer → Initializer
  | .expression e => .expression e.wording
  | .array a => .array a.wording
  | .struct s => .struct s.wording
termination_by structural i => i

def ArrayInitialization.wording : ArrayInitialization → ArrayInitialization
  | ⟨es⟩ => ⟨ArrayInitialElement.wordingAll es⟩
termination_by structural a => a

def ArrayInitialElement.wording : ArrayInitialElement → ArrayInitialElement
  | .single i => .single i.wording
  | .repeated n i => .repeated n.wording (Initializer.wordingOption i)
termination_by structural e => e

def StructureInitialization.wording : StructureInitialization → StructureInitialization
  | ⟨es⟩ => ⟨StructureElementInitialization.wordingAll es⟩
termination_by structural s => s

def StructureElementInitialization.wording :
    StructureElementInitialization → StructureElementInitialization
  | ⟨n, i⟩ => ⟨n.map Token.wording, i.wording⟩
termination_by structural e => e

def Initializer.wordingOption : Option Initializer → Option Initializer
  | none => none
  | some i => some i.wording
termination_by structural o => o

def ArrayInitialElement.wordingAll : List ArrayInitialElement → List ArrayInitialElement
  | [] => []
  | e :: es => e.wording :: ArrayInitialElement.wordingAll es
termination_by structural es => es

def StructureElementInitialization.wordingAll :
    List StructureElementInitialization → List StructureElementInitialization
  | [] => []
  | e :: es => e.wording :: StructureElementInitialization.wordingAll es
termination_by structural es => es

end

mutual

/-- First values are equal if they are of one kind and their parts are equal. -/
theorem Initializer.beq_iff (i j : Initializer) : i.beq j = true ↔ i.wording = j.wording := by
  cases i with
  | expression e => cases j <;> simp [Initializer.beq, Initializer.wording, beq_iff_wording]
  | array a => cases j <;> simp [Initializer.beq, Initializer.wording, ArrayInitialization.beq_iff a]
  | struct s =>
      cases j <;> simp [Initializer.beq, Initializer.wording, StructureInitialization.beq_iff s]

theorem ArrayInitialization.beq_iff (a b : ArrayInitialization) :
    a.beq b = true ↔ a.wording = b.wording := by
  obtain ⟨es⟩ := a
  obtain ⟨fs⟩ := b
  simp [ArrayInitialization.beq, ArrayInitialization.wording, ArrayInitialElement.beqAll_iff es]

theorem ArrayInitialElement.beq_iff (e f : ArrayInitialElement) :
    e.beq f = true ↔ e.wording = f.wording := by
  cases e with
  | single i =>
      cases f <;> simp [ArrayInitialElement.beq, ArrayInitialElement.wording, Initializer.beq_iff i]
  | repeated n i =>
      cases f <;> simp [ArrayInitialElement.beq, ArrayInitialElement.wording, beq_iff_wording,
        Initializer.beqOption_iff i]

theorem StructureInitialization.beq_iff (s t : StructureInitialization) :
    s.beq t = true ↔ s.wording = t.wording := by
  obtain ⟨es⟩ := s
  obtain ⟨fs⟩ := t
  simp [StructureInitialization.beq, StructureInitialization.wording,
    StructureElementInitialization.beqAll_iff es]

theorem StructureElementInitialization.beq_iff (e f : StructureElementInitialization) :
    e.beq f = true ↔ e.wording = f.wording := by
  obtain ⟨n, i⟩ := e
  obtain ⟨m, j⟩ := f
  simp [StructureElementInitialization.beq, StructureElementInitialization.wording,
    beq_iff_wording, Initializer.beq_iff i]

theorem Initializer.beqOption_iff (o p : Option Initializer) :
    Initializer.beqOption o p = true ↔
      Initializer.wordingOption o = Initializer.wordingOption p := by
  cases o with
  | none => cases p <;> simp [Initializer.beqOption, Initializer.wordingOption]
  | some i =>
      cases p <;> simp [Initializer.beqOption, Initializer.wordingOption, Initializer.beq_iff i]

theorem ArrayInitialElement.beqAll_iff (es fs : List ArrayInitialElement) :
    ArrayInitialElement.beqAll es fs = true ↔
      ArrayInitialElement.wordingAll es = ArrayInitialElement.wordingAll fs := by
  cases es with
  | nil => cases fs <;> simp [ArrayInitialElement.beqAll, ArrayInitialElement.wordingAll]
  | cons e es =>
      cases fs <;> simp [ArrayInitialElement.beqAll, ArrayInitialElement.wordingAll,
        ArrayInitialElement.beq_iff e, ArrayInitialElement.beqAll_iff es]

theorem StructureElementInitialization.beqAll_iff (es fs : List StructureElementInitialization) :
    StructureElementInitialization.beqAll es fs = true ↔
      StructureElementInitialization.wordingAll es =
        StructureElementInitialization.wordingAll fs := by
  cases es with
  | nil =>
      cases fs <;> simp [StructureElementInitialization.beqAll,
        StructureElementInitialization.wordingAll]
  | cons e es =>
      cases fs <;> simp [StructureElementInitialization.beqAll,
        StructureElementInitialization.wordingAll, StructureElementInitialization.beq_iff e,
        StructureElementInitialization.beqAll_iff es]

end

instance : ComparedBy ArrayInitialization ArrayInitialization.wording :=
  ⟨ArrayInitialization.beq_iff⟩
instance : ComparedBy StructureInitialization StructureInitialization.wording :=
  ⟨StructureInitialization.beq_iff⟩

def InitializedStructure.wording (s : InitializedStructure) : InitializedStructure where
  typeName := s.typeName.wording
  value := s.value.wording

instance : ComparedBy InitializedStructure InitializedStructure.wording where
  beq_iff a b := by
    cases a; cases b; simp [reduceBEq, beq_iff_wording, InitializedStructure.wording]

def SpecInit.wording : SpecInit → SpecInit
  | .simple t v => .simple t.wording (v.map Expression.wording)
  | .subrange i t v => .subrange i t.wording (v.map Expression.wording)
  | .enumerated i t v => .enumerated i t.wording (v.map Expression.wording)
  | .array i t v => .array i t.wording (v.map ArrayInitialization.wording)
  | .string t v => .string t.wording (v.map StringLiteral.wording)
  | .struct v => .struct v.wording

instance : ComparedBy SpecInit SpecInit.wording where
  beq_iff a b := by cases a <;> cases b <;> simp [reduceBEq, beq_iff_wording, SpecInit.wording]

/-! ## Statements -/

def SimpleStatement.wording : SimpleStatement → SimpleStatement
  | .assignment vs e => .assignment (vs.map Variable.wording) e.wording
  | .targeted op v e => .targeted op v.wording e.wording
  | .methodCall v => .methodCall v.wording
  | .invocation c => .invocation c.wording
  | .noOp v => .noOp v.wording
  | .jump j => .jump j

instance : ComparedBy SimpleStatement SimpleStatement.wording where
  beq_iff a b := by
    cases a <;> cases b <;> simp [reduceBEq, beq_iff_wording, SimpleStatement.wording]

def CaseLabel.wording : CaseLabel → CaseLabel
  | .value e => .value e.wording
  | .range r => .range r.wording

instance : ComparedBy CaseLabel CaseLabel.wording where
  beq_iff a b := by cases a <;> cases b <;> simp [reduceBEq, beq_iff_wording, CaseLabel.wording]

mutual

/-- A statement without its place and those of its parts. -/
def Statement.wording : Statement → Statement
  | .simple a s => .simple a.wording s.wording
  | .ifThen a c ss es o =>
    .ifThen a.wording c.wording (Statement.wordingAll ss) (ElseIf.wordingAll es)
      (Else.wordingOption o)
  | .caseOf a e cs o =>
    .caseOf a.wording e.wording (Case.wordingAll cs) (Else.wordingOption o)
  | .forTo a v e f s ss =>
    .forTo a.wording v.wording e.wording f.wording (s.map Expression.wording)
      (Statement.wordingAll ss)
  | .whileDo a c ss => .whileDo a.wording c.wording (Statement.wordingAll ss)
  | .repeatUntil a ss c => .repeatUntil a.wording (Statement.wordingAll ss) c.wording
termination_by structural s => s

def Statement.wordingAll : List Statement → List Statement
  | [] => []
  | s :: ss => s.wording :: Statement.wordingAll ss
termination_by structural ss => ss

def ElseIf.wordingAll : List ElseIf → List ElseIf
  | [] => []
  | ⟨a, c, ss⟩ :: es => ⟨a.wording, c.wording, Statement.wordingAll ss⟩ :: ElseIf.wordingAll es
termination_by structural es => es

def Else.wordingOption : Option Else → Option Else
  | none => none
  | some ⟨a, ss⟩ => some ⟨a.wording, Statement.wordingAll ss⟩
termination_by structural o => o

def Case.wordingAll : List Case → List Case
  | [] => []
  | ⟨a, ls, ss⟩ :: cs =>
    ⟨a.wording, ls.map CaseLabel.wording, Statement.wordingAll ss⟩ :: Case.wordingAll cs
termination_by structural cs => cs

end

/-- The wording of statements in a row, statement by statement. -/
theorem Statement.wordingAll_eq (ss : List Statement) :
    Statement.wordingAll ss = ss.map Statement.wording := by
  induction ss with
  | nil => rfl
  | cons s ss ih => rw [Statement.wordingAll, ih, List.map_cons]

mutual

/-- Statements are equal if they are of one kind, and their parts and their comments are equal. -/
theorem Statement.beq_iff (s t : Statement) : s.beq t = true ↔ s.wording = t.wording := by
  cases s with
  | simple a s => cases t <;> simp [Statement.beq, Statement.wording, beq_iff_wording]
  | ifThen a c ss es o =>
      cases t <;> simp [Statement.beq, Statement.wording, beq_iff_wording,
        Statement.beqAll_iff ss, ElseIf.beqAll_iff es, Else.beqOption_iff o, and_assoc]
  | caseOf a e cs o =>
      cases t <;> simp [Statement.beq, Statement.wording, beq_iff_wording, Case.beqAll_iff cs,
        Else.beqOption_iff o, and_assoc]
  | forTo a v e f g ss =>
      cases t <;> simp [Statement.beq, Statement.wording, beq_iff_wording,
        Statement.beqAll_iff ss, and_assoc]
  | whileDo a c ss =>
      cases t <;> simp [Statement.beq, Statement.wording, beq_iff_wording,
        Statement.beqAll_iff ss, and_assoc]
  | repeatUntil a ss c =>
      cases t <;> simp [Statement.beq, Statement.wording, beq_iff_wording,
        Statement.beqAll_iff ss, and_assoc]

/-- Statements in a row are equal if they are equal one by one. -/
theorem Statement.beqAll_iff (ss ts : List Statement) :
    Statement.beqAll ss ts = true ↔ Statement.wordingAll ss = Statement.wordingAll ts := by
  cases ss with
  | nil => cases ts <;> simp [Statement.beqAll, Statement.wordingAll]
  | cons s ss =>
      cases ts <;> simp [Statement.beqAll, Statement.wordingAll, Statement.beq_iff s,
        Statement.beqAll_iff ss]

/-- Branches in a row are equal if they are equal one by one. -/
theorem ElseIf.beqAll_iff (es fs : List ElseIf) :
    ElseIf.beqAll es fs = true ↔ ElseIf.wordingAll es = ElseIf.wordingAll fs := by
  cases es with
  | nil => rcases fs with _ | ⟨⟨_, _, _⟩, _⟩ <;> simp [ElseIf.beqAll, ElseIf.wordingAll]
  | cons e es =>
      obtain ⟨a, c, ss⟩ := e
      rcases fs with _ | ⟨⟨_, _, _⟩, _⟩ <;> simp [ElseIf.beqAll, ElseIf.wordingAll,
        beq_iff_wording, Statement.beqAll_iff ss, ElseIf.beqAll_iff es, and_assoc]

theorem Else.beqOption_iff (o p : Option Else) :
    Else.beqOption o p = true ↔ Else.wordingOption o = Else.wordingOption p := by
  cases o with
  | none => rcases p with _ | ⟨⟨_, _⟩⟩ <;> simp [Else.beqOption, Else.wordingOption]
  | some e =>
      obtain ⟨a, ss⟩ := e
      rcases p with _ | ⟨⟨_, _⟩⟩ <;> simp [Else.beqOption, Else.wordingOption, beq_iff_wording,
        Statement.beqAll_iff ss]

/-- Cases in a row are equal if they are equal one by one. -/
theorem Case.beqAll_iff (cs ds : List Case) :
    Case.beqAll cs ds = true ↔ Case.wordingAll cs = Case.wordingAll ds := by
  cases cs with
  | nil => rcases ds with _ | ⟨⟨_, _, _⟩, _⟩ <;> simp [Case.beqAll, Case.wordingAll]
  | cons c cs =>
      obtain ⟨a, ls, ss⟩ := c
      rcases ds with _ | ⟨⟨_, _, _⟩, _⟩ <;> simp [Case.beqAll, Case.wordingAll, beq_iff_wording,
        Statement.beqAll_iff ss, Case.beqAll_iff cs, and_assoc]

end

instance : ComparedBy Statement Statement.wording := ⟨Statement.beq_iff⟩

/-! ## Declarations -/

section Anchored

variable {α : Type} (f : α → α)

def Anchored.wording (x : Anchored α) : Anchored α where
  anchor := x.anchor.wording
  body := f x.body

def Block.wording (b : Block α) : Block α :=
  { b with anchor := b.anchor.wording, items := b.items.map (Anchored.wording f) }

variable {f} [BEq α] [ComparedBy α f]

instance : ComparedBy (Anchored α) (Anchored.wording f) where
  beq_iff a b := by cases a; cases b; simp [reduceBEq, beq_iff_wording, Anchored.wording]

instance : ComparedBy (Block α) (Block.wording f) where
  beq_iff a b := by cases a; cases b; simp [reduceBEq, beq_iff_wording, Block.wording]

end Anchored

def Location.wording (l : Location) : Location := ⟨l.address.wording⟩

instance : ComparedBy Location Location.wording where
  beq_iff a b := by cases a; cases b; simp [reduceBEq, beq_iff_wording, Location.wording]

def IncompleteLocation.wording (l : IncompleteLocation) : IncompleteLocation := ⟨l.address.wording⟩

instance : ComparedBy IncompleteLocation IncompleteLocation.wording where
  beq_iff a b := by cases a; cases b; simp [reduceBEq, beq_iff_wording, IncompleteLocation.wording]

def DeclaredVariable.wording (v : DeclaredVariable) : DeclaredVariable where
  name := v.name.wording
  location := v.location.map IncompleteLocation.wording

instance : ComparedBy DeclaredVariable DeclaredVariable.wording where
  beq_iff a b := by cases a; cases b; simp [reduceBEq, beq_iff_wording, DeclaredVariable.wording]

def VariableDeclaration.wording : VariableDeclaration → VariableDeclaration
  | .init vs i => .init (vs.map DeclaredVariable.wording) i.wording
  | .edge vs e => .edge (vs.map DeclaredVariable.wording) e
  | .fbInstance ns t i => .fbInstance (ns.map Token.wording) t.wording i.wording
  | .invocation ns c => .invocation (ns.map Token.wording) c.wording

instance : ComparedBy VariableDeclaration VariableDeclaration.wording where
  beq_iff a b := by
    cases a <;> cases b <;> simp [reduceBEq, beq_iff_wording, VariableDeclaration.wording]

def GlobalNames.wording : GlobalNames → GlobalNames
  | .located n l => .located n.wording l.wording
  | .incomplete n l => .incomplete n.wording l.wording
  | .names ns => .names (ns.map Token.wording)

instance : ComparedBy GlobalNames GlobalNames.wording where
  beq_iff a b := by cases a <;> cases b <;> simp [reduceBEq, beq_iff_wording, GlobalNames.wording]

def GlobalInit.wording : GlobalInit → GlobalInit
  | .spec i => .spec i.wording
  | .invocation c => .invocation c.wording

instance : ComparedBy GlobalInit GlobalInit.wording where
  beq_iff a b := by cases a <;> cases b <;> simp [reduceBEq, beq_iff_wording, GlobalInit.wording]

def GlobalDeclaration.wording (d : GlobalDeclaration) : GlobalDeclaration where
  names := d.names.wording
  init := d.init.wording

instance : ComparedBy GlobalDeclaration GlobalDeclaration.wording where
  beq_iff a b := by cases a; cases b; simp [reduceBEq, beq_iff_wording, GlobalDeclaration.wording]

def LocatedDeclaration.wording (d : LocatedDeclaration) : LocatedDeclaration where
  name := d.name.map Token.wording
  location := d.location.wording
  init := d.init.wording

instance : ComparedBy LocatedDeclaration LocatedDeclaration.wording where
  beq_iff a b := by cases a; cases b; simp [reduceBEq, beq_iff_wording, LocatedDeclaration.wording]

def ExternalDeclaration.wording (d : ExternalDeclaration) : ExternalDeclaration where
  name := d.name.wording
  type := d.type.wording

instance : ComparedBy ExternalDeclaration ExternalDeclaration.wording where
  beq_iff a b := by
    cases a; cases b; simp [reduceBEq, beq_iff_wording, ExternalDeclaration.wording]

def AccessDeclaration.wording (d : AccessDeclaration) : AccessDeclaration :=
  { d with name := d.name.wording, place := d.place.wording, type := d.type.wording }

instance : ComparedBy AccessDeclaration AccessDeclaration.wording where
  beq_iff a b := by cases a; cases b; simp [reduceBEq, beq_iff_wording, AccessDeclaration.wording]

def DeclarationBlock.wording : DeclarationBlock → DeclarationBlock
  | .plain k b => .plain k (b.wording VariableDeclaration.wording)
  | .located b => .located (b.wording LocatedDeclaration.wording)
  | .global b => .global (b.wording GlobalDeclaration.wording)
  | .external b => .external (b.wording ExternalDeclaration.wording)
  | .access b => .access (b.wording AccessDeclaration.wording)

instance : ComparedBy DeclarationBlock DeclarationBlock.wording where
  beq_iff a b := by
    cases a <;> cases b <;> simp [reduceBEq, beq_iff_wording, DeclarationBlock.wording]

def Member.wording (m : Member) : Member where
  name := m.name.wording
  location := m.location.map IncompleteLocation.wording
  init := m.init.wording

instance : ComparedBy Member Member.wording where
  beq_iff a b := by cases a; cases b; simp [reduceBEq, beq_iff_wording, Member.wording]

def TypeDefinition.wording : TypeDefinition → TypeDefinition
  | .spec i => .spec i.wording
  | .struct i ms => .struct i (ms.map (Anchored.wording Member.wording))

instance : ComparedBy TypeDefinition TypeDefinition.wording where
  beq_iff a b := by
    cases a <;> cases b <;> simp [reduceBEq, beq_iff_wording, TypeDefinition.wording]

def TypeDeclaration.wording (t : TypeDeclaration) : TypeDeclaration where
  anchor := t.anchor.wording
  name := t.name.wording
  extends? := t.extends?.map Token.wording
  definition := t.definition.wording

instance : ComparedBy TypeDeclaration TypeDeclaration.wording where
  beq_iff a b := by cases a; cases b; simp [reduceBEq, beq_iff_wording, TypeDeclaration.wording]

def TypeBlock.wording (b : TypeBlock) : TypeBlock where
  anchor := b.anchor.wording
  items := b.items.map TypeDeclaration.wording

instance : ComparedBy TypeBlock TypeBlock.wording where
  beq_iff a b := by cases a; cases b; simp [reduceBEq, beq_iff_wording, TypeBlock.wording]

/-! ## Files -/

def Body.wording (b : Body) : Body where
  anchor := b.anchor.wording
  statements := b.statements.map Statement.wording

instance : ComparedBy Body Body.wording where
  beq_iff a b := by cases a; cases b; simp [reduceBEq, beq_iff_wording, Body.wording]

def UnitKind.wording : UnitKind → UnitKind
  | .function t => .function (t.map TypeSpecification.wording)
  | .functionBlock isAbstract e is =>
    .functionBlock isAbstract (e.map Token.wording) (is.map Token.wording)
  | .program => .program
  | .method access t => .method access (t.map TypeSpecification.wording)

instance : ComparedBy UnitKind UnitKind.wording where
  beq_iff a b := by cases a <;> cases b <;> simp [reduceBEq, beq_iff_wording, UnitKind.wording]

def ProgramUnit.wording (u : ProgramUnit) : ProgramUnit where
  anchor := u.anchor.wording
  kind := u.kind.wording
  name := u.name.wording
  declarations := u.declarations.map DeclarationBlock.wording
  body := u.body.map Body.wording

instance : ComparedBy ProgramUnit ProgramUnit.wording where
  beq_iff a b := by cases a; cases b; simp [reduceBEq, beq_iff_wording, ProgramUnit.wording]

def ActionKind.wording : ActionKind → ActionKind
  | .named name => .named name.wording
  | .entry => .entry
  | .exit => .exit

instance : ComparedBy ActionKind ActionKind.wording where
  beq_iff a b := by cases a <;> cases b <;> simp [reduceBEq, beq_iff_wording, ActionKind.wording]

def Action.wording (a : Action) : Action where
  anchor := a.anchor.wording
  kind := a.kind.wording
  body := a.body.map Body.wording

instance : ComparedBy Action Action.wording where
  beq_iff a b := by cases a; cases b; simp [reduceBEq, beq_iff_wording, Action.wording]

def VerbatimItem.wording (v : VerbatimItem) : VerbatimItem := { v with anchor := v.anchor.wording }

instance : ComparedBy VerbatimItem VerbatimItem.wording where
  beq_iff a b := by cases a; cases b; simp [reduceBEq, beq_iff_wording, VerbatimItem.wording]

def Item.wording : Item → Item
  | .types b => .types b.wording
  | .unit u => .unit u.wording
  | .action a => .action a.wording
  | .globals b => .globals (b.wording GlobalDeclaration.wording)
  | .verbatim v => .verbatim v.wording

instance : ComparedBy Item Item.wording where
  beq_iff a b := by cases a <;> cases b <;> simp [reduceBEq, beq_iff_wording, Item.wording]

/-- A file without any lines and spans. -/
def SourceFile.wording (f : SourceFile) : SourceFile where
  items := f.items.map Item.wording

instance : ComparedBy SourceFile SourceFile.wording where
  beq_iff a b := by cases a; cases b; simp [reduceBEq, beq_iff_wording, SourceFile.wording]

end StructuredText
