import StructuredText.Proofs.Equality.Trees
import StructuredText.SourceFile.Layout

/-!
# Equal files are written alike

The text of a tree is made of its wording, as no renderer looks at a line or a span. Since equality
compares wordings, trees that are equal have the same text.

* `Statement.render_wording`, `Item.render_wording` — a tree and its wording have the same text.
* `SourceFile.equivalence_beq` — equality is an equivalence which rendering respects.
-/

namespace StructuredText

/-- What is written for an optional part may be computed from the part itself. -/
theorem Text.optional_map {α β : Type} (text : β → Text) (f : α → β) (o : Option α) :
    Text.optional text (o.map f) = Text.optional (text ∘ f) o := by
  cases o <;> rfl

/-! ## Literals and expressions -/

/-- The mark of a type in front of a literal shows only the text of its token. -/
@[simp] theorem typeMark_map_wording (t : Option Token) :
    typeMark (t.map Token.wording) = typeMark t := by
  cases t <;> rfl

@[simp] theorem Duration.part_map_wording (unit : Text) (number : Option Token) :
    Duration.part unit (number.map Token.wording) = Duration.part unit number := by
  cases number <;> rfl

@[simp] theorem Integer.render_wording (i : Integer) : i.wording.render = i.render := by
  simp [Integer.render, Integer.wording]

@[simp] theorem Duration.render_wording (d : Duration) : d.wording.render = d.render := by
  unfold render wording
  simp only [part_map_wording]

@[simp] theorem Literal.render_wording (l : Literal) : l.wording.render = l.render := by
  cases l with
  | integer v => exact v.render_wording
  | real v => simp [Literal.render, Literal.wording, Real.render, Real.wording]
  | duration v => exact v.render_wording
  | bitString | boolean | timeOfDay | date | dateTime | string => rfl

@[simp] theorem SymbolicVariable.render_wording (v : SymbolicVariable) :
    v.wording.render = v.render := rfl

@[simp] theorem DirectVariable.render_wording (v : DirectVariable) :
    v.wording.render = v.render := by
  simp [DirectVariable.render, DirectVariable.wording, Function.comp_def]

@[simp] theorem unaryGap_wording (op : Token) : unaryGap op.wording = unaryGap op := rfl

mutual

/-- An expression is written like its wording: lines and spans are not written. -/
theorem Expression.render_wording (e : Expression) : e.wording.render = e.render := by
  cases e with
  | literal v => simp [Expression.wording, Expression.render]
  | reference v => simp [Expression.wording, Expression.render, Variable.render_wording v]
  | enumerated v => simp [Expression.wording, Expression.render, EnumeratedValue.render_wording v]
  | unary op e => simp [Expression.wording, Expression.render, Expression.render_wording e]
  | binary a op b =>
      simp [Expression.wording, Expression.render, Expression.render_wording a,
        Expression.render_wording b]
  | parenthesized e => simp [Expression.wording, Expression.render, Expression.render_wording e]
  | call c => simp [Expression.wording, Expression.render, Call.render_wording c]

theorem Variable.render_wording (v : Variable) : v.wording.render = v.render := by
  cases v with
  | symbolic v => rfl
  | multiElement v ss => simp [Variable.wording, Variable.render, Selector.renderAll_wording ss]
  | direct v => simp [Variable.wording, Variable.render]

theorem Selector.render_wording (s : Selector) : s.wording.render = s.render := by
  cases s with
  | subscript es d => simp [Selector.wording, Selector.render, Expression.renderAll_wording es]
  | field a d => simp [Selector.wording, Selector.render]

theorem EnumeratedValue.render_wording (v : EnumeratedValue) : v.wording.render = v.render := by
  obtain ⟨t, a, e⟩ := v
  simp only [EnumeratedValue.wording, EnumeratedValue.render, typeMark_map_wording,
    Token.text_wording, Expression.renderValue_wording e]

theorem Parameter.render_wording (p : Parameter) : p.wording.render = p.render := by
  cases p with
  | input a e => cases a <;> simp [Parameter.wording, Parameter.render, Expression.render_wording e]
  | output i a v =>
      simp [Parameter.wording, Parameter.render, Variable.renderTarget_wording v]

theorem Call.render_wording (c : Call) : c.wording.render = c.render := by
  obtain ⟨f, ps⟩ := c
  simp [Call.wording, Call.render, Variable.render_wording f, Parameter.renderAll_wording ps]

theorem Expression.renderAll_wording (es : List Expression) :
    Expression.renderAll (Expression.wordingAll es) = Expression.renderAll es := by
  cases es with
  | nil => rfl
  | cons e es =>
      simp [Expression.wordingAll, Expression.renderAll, Expression.render_wording e,
        Expression.renderAll_wording es]

theorem Selector.renderAll_wording (ss : List Selector) :
    Selector.renderAll (Selector.wordingAll ss) = Selector.renderAll ss := by
  cases ss with
  | nil => rfl
  | cons s ss =>
      simp [Selector.wordingAll, Selector.renderAll, Selector.render_wording s,
        Selector.renderAll_wording ss]

theorem Parameter.renderAll_wording (ps : List Parameter) :
    Parameter.renderAll (Parameter.wordingAll ps) = Parameter.renderAll ps := by
  cases ps with
  | nil => rfl
  | cons p ps =>
      simp [Parameter.wordingAll, Parameter.renderAll, Parameter.render_wording p,
        Parameter.renderAll_wording ps]

theorem Expression.renderValue_wording (o : Option Expression) :
    Expression.renderValue (Expression.wordingOption o) = Expression.renderValue o := by
  cases o with
  | none => rfl
  | some e => simp [Expression.renderValue, Expression.render_wording e]

theorem Variable.renderTarget_wording (o : Option Variable) :
    Variable.renderTarget (Variable.wordingOption o) = Variable.renderTarget o := by
  cases o with
  | none => rfl
  | some v => simp [Variable.wordingOption, Variable.renderTarget, Variable.render_wording v]

end

attribute [simp] Expression.render_wording Variable.render_wording EnumeratedValue.render_wording
  Call.render_wording

/-- The same of a first value, given as an optional expression. -/
@[simp] theorem Expression.renderValue_map_wording (o : Option Expression) :
    Expression.renderValue (o.map Expression.wording) = Expression.renderValue o := by
  rw [← Expression.wordingOption_eq, Expression.renderValue_wording]

/-! ## Types and first values -/

@[simp] theorem DataType.render_wording (t : DataType) : t.wording.render = t.render := rfl

@[simp] theorem StringType.render_wording (t : StringType) : t.wording.render = t.render := by
  simp [StringType.render, StringType.wording, Text.optional_map, Function.comp_def]

@[simp] theorem Subrange.render_wording (r : Subrange) : r.wording.render = r.render := by
  cases r <;> simp [Subrange.render, Subrange.wording]

@[simp] theorem SubrangeType.render_wording (t : SubrangeType) : t.wording.render = t.render := by
  simp [SubrangeType.render, SubrangeType.wording]

@[simp] theorem EnumeratedType.render_wording (t : EnumeratedType) :
    t.wording.render = t.render := by
  simp [EnumeratedType.render, EnumeratedType.wording, Text.optional_map, Function.comp_def]

mutual

/-- An array type is written like its wording, with the type of its elements. -/
theorem ArrayType.render_wording (t : ArrayType) : t.wording.render = t.render := by
  obtain ⟨ds, t⟩ := t
  unfold ArrayType.wording ArrayType.render
  simp only [List.map_map, Function.comp_def, Subrange.render_wording,
    TypeSpecification.render_wording t]

theorem TypeSpecification.render_wording (t : TypeSpecification) :
    t.wording.render = t.render := by
  cases t with
  | array t =>
      simp [TypeSpecification.wording, TypeSpecification.render, ArrayType.render_wording t]
  | data t | string t | subrange t | enumerated t =>
      simp [TypeSpecification.wording, TypeSpecification.render]

end

attribute [simp] ArrayType.render_wording TypeSpecification.render_wording

mutual

/-- A first value is written like its wording, however deep it is nested. -/
theorem Initializer.render_wording (i : Initializer) : i.wording.render = i.render := by
  cases i with
  | expression e => simp [Initializer.wording, Initializer.render]
  | array a => simp [Initializer.wording, Initializer.render, ArrayInitialization.render_wording a]
  | struct s =>
      simp [Initializer.wording, Initializer.render, StructureInitialization.render_wording s]

theorem ArrayInitialization.render_wording (a : ArrayInitialization) :
    a.wording.render = a.render := by
  obtain ⟨es⟩ := a
  simp [ArrayInitialization.wording, ArrayInitialization.render,
    ArrayInitialElement.renderAll_wording es]

theorem ArrayInitialElement.render_wording (e : ArrayInitialElement) :
    e.wording.render = e.render := by
  cases e with
  | single i =>
      simp [ArrayInitialElement.wording, ArrayInitialElement.render, Initializer.render_wording i]
  | repeated n i =>
      simp [ArrayInitialElement.wording, ArrayInitialElement.render,
        Initializer.renderOption_wording i]

theorem StructureInitialization.render_wording (s : StructureInitialization) :
    s.wording.render = s.render := by
  obtain ⟨es⟩ := s
  simp [StructureInitialization.wording, StructureInitialization.render,
    StructureElementInitialization.renderAll_wording es]

theorem StructureElementInitialization.render_wording (e : StructureElementInitialization) :
    e.wording.render = e.render := by
  obtain ⟨n, i⟩ := e
  cases n <;> simp [StructureElementInitialization.wording, StructureElementInitialization.render,
    Initializer.render_wording i]

theorem Initializer.renderOption_wording (o : Option Initializer) :
    Initializer.renderOption (Initializer.wordingOption o) = Initializer.renderOption o := by
  cases o with
  | none => rfl
  | some i =>
      simp [Initializer.wordingOption, Initializer.renderOption, Initializer.render_wording i]

theorem ArrayInitialElement.renderAll_wording (es : List ArrayInitialElement) :
    ArrayInitialElement.renderAll (ArrayInitialElement.wordingAll es) =
      ArrayInitialElement.renderAll es := by
  cases es with
  | nil => rfl
  | cons e es =>
      simp [ArrayInitialElement.wordingAll, ArrayInitialElement.renderAll,
        ArrayInitialElement.render_wording e, ArrayInitialElement.renderAll_wording es]

theorem StructureElementInitialization.renderAll_wording
    (es : List StructureElementInitialization) :
    StructureElementInitialization.renderAll (StructureElementInitialization.wordingAll es) =
      StructureElementInitialization.renderAll es := by
  cases es with
  | nil => rfl
  | cons e es =>
      simp [StructureElementInitialization.wordingAll, StructureElementInitialization.renderAll,
        StructureElementInitialization.render_wording e,
        StructureElementInitialization.renderAll_wording es]

end

attribute [simp] ArrayInitialization.render_wording StructureInitialization.render_wording

@[simp] theorem SpecInit.render_wording (s : SpecInit) : s.wording.render = s.render := by
  cases s <;> simp [SpecInit.wording, SpecInit.render, Text.optional_map, Function.comp_def,
    StringLiteral.render, StringLiteral.wording, InitializedStructure.render,
    InitializedStructure.wording]

/-! ## Statements -/

/-- The comments above a node are written by their texts, so their places do not matter. -/
@[simp] theorem Anchor.above_wording (a : Anchor) (body : Text) :
    a.wording.above body = a.above body := by
  simp [Anchor.above, Anchor.wording, Function.comp_def]

@[simp] theorem SimpleStatement.render_wording (s : SimpleStatement) :
    s.wording.render = s.render := by
  cases s <;> simp [SimpleStatement.wording, SimpleStatement.render, Function.comp_def]

@[simp] theorem CaseLabel.render_wording (l : CaseLabel) : l.wording.render = l.render := by
  cases l <;> simp [CaseLabel.wording, CaseLabel.render]

mutual

/-- A statement is written like its wording, with the statements inside it. -/
theorem Statement.render_wording (s : Statement) : s.wording.render = s.render := by
  cases s with
  | simple a s => simp [Statement.wording, Statement.render]
  | ifThen a c ss es o =>
      simp [Statement.wording, Statement.render, Statement.renderAll_wording ss,
        ElseIf.renderAll_wording es, Else.renderOption_wording o]
  | caseOf a e cs o =>
      simp [Statement.wording, Statement.render, Case.renderAll_wording cs,
        Else.renderOption_wording o]
  | forTo a v e f g ss =>
      simp [Statement.wording, Statement.render, Statement.renderAll_wording ss,
        Text.optional_map, Function.comp_def]
  | whileDo a c ss => simp [Statement.wording, Statement.render, Statement.renderAll_wording ss]
  | repeatUntil a ss c => simp [Statement.wording, Statement.render, Statement.renderAll_wording ss]

theorem Statement.renderAll_wording (ss : List Statement) :
    Statement.renderAll (Statement.wordingAll ss) = Statement.renderAll ss := by
  cases ss with
  | nil => rfl
  | cons s ss =>
      have hss := Statement.renderAll_wording ss
      -- a lone statement is written without the separator
      cases ss with
      | nil => simp [Statement.wordingAll, Statement.renderAll, Statement.render_wording s]
      | cons t ss =>
          rw [Statement.wordingAll] at hss
          simp [Statement.wordingAll, Statement.renderAll, Statement.render_wording s, hss]

theorem ElseIf.renderAll_wording (es : List ElseIf) :
    ElseIf.renderAll (ElseIf.wordingAll es) = ElseIf.renderAll es := by
  cases es with
  | nil => rfl
  | cons e es =>
      obtain ⟨a, c, ss⟩ := e
      simp [ElseIf.wordingAll, ElseIf.renderAll, ElseIf.render, Statement.renderAll_wording ss,
        ElseIf.renderAll_wording es]

theorem Else.renderOption_wording (o : Option Else) :
    Else.renderOption (Else.wordingOption o) = Else.renderOption o := by
  cases o with
  | none => rfl
  | some e =>
      obtain ⟨a, ss⟩ := e
      simp [Else.wordingOption, Else.renderOption, Else.render, Statement.renderAll_wording ss]

theorem Case.renderAll_wording (cs : List Case) :
    Case.renderAll (Case.wordingAll cs) = Case.renderAll cs := by
  cases cs with
  | nil => rfl
  | cons c cs =>
      obtain ⟨a, ls, ss⟩ := c
      simp [Case.wordingAll, Case.renderAll, Case.render, Statement.renderAll_wording ss,
        Case.renderAll_wording cs, Function.comp_def]

end

/-! ## Declarations -/

@[simp] theorem IncompleteLocation.render_wording (l : IncompleteLocation) :
    l.wording.render = l.render := rfl

@[simp] theorem Location.render_wording (l : Location) : l.wording.render = l.render := by
  simp [Location.render, Location.wording]

/-- A name with a location is written by the texts of its tokens. -/
@[simp] theorem nameAt_wording (name : Token) (location : Option IncompleteLocation) :
    nameAt name.wording (location.map IncompleteLocation.wording) = nameAt name location := by
  simp [nameAt, Text.optional_map, Function.comp_def]

@[simp] theorem DeclaredVariable.render_wording (v : DeclaredVariable) :
    v.wording.render = v.render :=
  nameAt_wording v.name v.location

/-- A list of names is written by their texts. -/
@[simp] theorem renderNames_map_wording (ns : List Token) :
    renderNames (ns.map Token.wording) = renderNames ns := by
  simp [renderNames, Function.comp_def]

@[simp] theorem VariableDeclaration.render_wording (d : VariableDeclaration) :
    d.wording.render = d.render := by
  cases d <;> simp [VariableDeclaration.wording, VariableDeclaration.render, Function.comp_def]

@[simp] theorem GlobalNames.render_wording (ns : GlobalNames) : ns.wording.render = ns.render := by
  cases ns <;> simp [GlobalNames.wording, GlobalNames.render]

@[simp] theorem GlobalInit.render_wording (i : GlobalInit) : i.wording.render = i.render := by
  cases i <;> simp [GlobalInit.wording, GlobalInit.render]

@[simp] theorem GlobalDeclaration.render_wording (d : GlobalDeclaration) :
    d.wording.render = d.render := by
  simp [GlobalDeclaration.render, GlobalDeclaration.wording]

@[simp] theorem LocatedDeclaration.render_wording (d : LocatedDeclaration) :
    d.wording.render = d.render := by
  simp [LocatedDeclaration.render, LocatedDeclaration.wording, Text.optional_map, Function.comp_def]

@[simp] theorem ExternalDeclaration.render_wording (d : ExternalDeclaration) :
    d.wording.render = d.render := by
  simp [ExternalDeclaration.render, ExternalDeclaration.wording]

@[simp] theorem AccessDeclaration.render_wording (d : AccessDeclaration) :
    d.wording.render = d.render := by
  simp [AccessDeclaration.render, AccessDeclaration.wording]

section Anchored

variable {α : Type} {f : α → α} {render : α → Text}

theorem Anchored.render_wording (h : ∀ x, render (f x) = render x) (x : Anchored α) :
    (x.wording f).render render = x.render render := by
  simp [Anchored.render, Anchored.wording, h]

/-- A block is written like its wording, if its entries are. -/
theorem Block.render_wording (h : ∀ x, render (f x) = render x) (keyword : Text) (b : Block α) :
    (b.wording f).render render keyword = b.render render keyword := by
  simp [Block.render, Block.wording, Anchored.render_wording h, Function.comp_def]

end Anchored

@[simp] theorem DeclarationBlock.render_wording (b : DeclarationBlock) :
    b.wording.render = b.render := by
  cases b with
  | plain k b => exact Block.render_wording VariableDeclaration.render_wording _ b
  | located b => exact Block.render_wording LocatedDeclaration.render_wording _ b
  | global b => exact Block.render_wording GlobalDeclaration.render_wording _ b
  | external b => exact Block.render_wording ExternalDeclaration.render_wording _ b
  | access b => exact Block.render_wording AccessDeclaration.render_wording _ b

/-! ## Type declarations -/

@[simp] theorem Member.render_wording (m : Member) : m.wording.render = m.render := by
  simp [Member.render, Member.wording]

/-- Whether a semicolon is written behind a type depends on its kind alone. -/
@[simp] theorem TypeDeclaration.terminated_wording (t : TypeDeclaration) :
    t.wording.terminated = t.terminated := by
  obtain ⟨a, name, base, definition⟩ := t
  cases definition <;> simp [TypeDeclaration.terminated, TypeDeclaration.render,
    TypeDeclaration.wording, TypeDefinition.wording, Text.optional_map, Function.comp_def,
    Anchored.render_wording Member.render_wording]

/-- A block of types is written like its wording. -/
@[simp] theorem TypeBlock.render_wording (b : TypeBlock) : b.wording.render = b.render := by
  -- whether a lone declaration owns comments decides how its block is written
  have hempty (t : TypeDeclaration) :
      t.wording.anchor.comments.isEmpty = t.anchor.comments.isEmpty := List.isEmpty_map
  obtain ⟨a, ts⟩ := b
  cases ts with
  | nil => simp [TypeBlock.render, TypeBlock.wording]
  | cons t ts =>
      cases ts with
      | nil => simp only [TypeBlock.render, TypeBlock.wording, List.map_cons, List.map_nil,
          Anchor.above_wording, TypeDeclaration.terminated_wording, hempty]
      | cons u ts => simp [TypeBlock.render, TypeBlock.wording, Function.comp_def]

/-! ## Files -/

@[simp] theorem Body.render_wording (b : Body) : b.wording.render = b.render := by
  simp [Body.render, Body.wording, ← Statement.wordingAll_eq, Statement.renderAll_wording]

/-- The first line of a unit shows texts only. -/
@[simp] theorem UnitKind.heading_wording (k : UnitKind) (name : Token) :
    k.wording.heading name.wording = k.heading name := by
  cases k with
  | program => rfl
  | function | functionBlock | method =>
      unfold heading wording
      simp only [returnMark, Text.optional_map, Function.comp_def, Token.text_wording,
        TypeSpecification.render_wording, List.isEmpty_map, renderNames_map_wording]

@[simp] theorem UnitKind.ending_wording (k : UnitKind) : k.wording.ending = k.ending := by
  cases k <;> rfl

@[simp] theorem ActionKind.heading_wording (k : ActionKind) : k.wording.heading = k.heading := by
  cases k <;> rfl

/-- A unit is written like its wording, given that its heading is. -/
@[simp] theorem renderUnit_wording (a : Anchor) (heading : Text) (ds : List DeclarationBlock)
    (body : Option Body) (ending : Text) :
    renderUnit a.wording heading (ds.map DeclarationBlock.wording) (body.map Body.wording) ending =
      renderUnit a heading ds body ending := by
  simp [renderUnit, Text.optional_map, Function.comp_def]

/-- An item is written like its wording. One that is kept as written has its text in both. -/
theorem Item.render_wording (i : Item) : i.wording.render = i.render := by
  cases i with
  | types b => exact b.render_wording
  | unit u => simp [Item.render, Item.wording, ProgramUnit.render, ProgramUnit.wording]
  | action a =>
      have hunit := renderUnit_wording a.anchor a.kind.heading [] a.body "END_ACTION"
      simpa [Item.render, Item.wording, Action.render, Action.wording] using hunit
  | globals b => exact (DeclarationBlock.global b).render_wording
  | verbatim v => exact v.anchor.above_wording v.text

namespace SourceFile

/-- No line and no span has an influence on the text of a file. -/
theorem render_wording (f : SourceFile) : f.wording.render = f.render := by
  simp [render, wording, Item.render_wording, Function.comp_def]

/-- Equality of files is an equivalence, and files that are equal are written alike. It compares all
of a file but its lines and spans, and these have no influence on the text. -/
theorem equivalence_beq :
    Equivalence (fun f g : SourceFile => f == g) ∧
      (∀ f g : SourceFile, f == g → f.render = g.render) ∧
      (∀ f g : SourceFile, f == g ↔ f.wording = g.wording) ∧
      ∀ f : SourceFile, f.wording.render = f.render := by
  refine ⟨⟨fun _ => BEq.rfl, BEq.symm, BEq.trans⟩, ?_, beq_iff_wording, render_wording⟩
  intro f g hfg
  rw [← f.render_wording, (beq_iff_wording f g).mp hfg, g.render_wording]

end SourceFile

end StructuredText
