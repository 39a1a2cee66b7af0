import StructuredText.Proofs.Grammar.Guards
import StructuredText.Proofs.WellFormed.Trees

/-!
# Well-formed elements

A builder checks some of what makes a tree well-formed, such as that a list has entries. The rest it
leaves to the grammar: which constructs may stand where. So besides being well-formed, an element
tells by which rule it was made, where only one rule makes such elements, and a construct has only
children of rules that its production calls.

* `Element.WellFormed` — the node in an element is well-formed.
* `Element.maker?`, `Suits` — which rule an element was made by.
* `Formed` — what a well-formed element serves as is well-formed.
* `Fit` — children that a construct of a rule may have.
-/

namespace StructuredText

open Grammar (Rule)

/-! ## Elements by themselves -/

/-- The node in an element is well-formed. A list of names is not empty; of raw nodes only those of
the labels of a case become part of a tree. -/
def Element.WellFormed : Element → Prop
  | .tokens _ names => names ≠ []
  | .raw n => n.rule = .caseList → ∀ labels : List CaseLabel, Serve n.children labels →
      labels ≠ [] ∧ ∀ l ∈ labels, l.WellFormed
  | .literal v => v.WellFormed
  | .expression x => x.WellFormed
  | .place v => v.WellFormed
  | .selector s => s.WellFormed
  | .enumeratedValue v => v.WellFormed
  | .parameter p => p.WellFormed
  | .invocation c => c.WellFormed
  | .subrange r => r.WellFormed
  | .subrangeType t => t.WellFormed
  | .enumeratedType t => t.WellFormed
  | .arrayType t => t.WellFormed
  | .arrayInitialElement v => v.WellFormed
  | .arrayInitialization v => v.WellFormed
  | .structureElementInitialization v => v.WellFormed
  | .structureInitialization v => v.WellFormed
  | .initializedStructure v => v.value.WellFormed
  | .specInit i => i.WellFormed
  | .declaredVariables vs => vs ≠ []
  | .declaration d => d.body.WellFormed
  | .globalNames ns => ns.WellFormed
  | .globalDeclaration d => d.body.WellFormed
  | .locatedDeclaration d => d.body.WellFormed
  | .externalDeclaration d => d.body.WellFormed
  | .accessDeclaration d => d.body.WellFormed
  | .member m => m.body.WellFormed
  | .typeDeclaration t => t.definition.WellFormed
  | .block b => b.WellFormed
  | .statement s => s.WellFormed
  | .statements ss => Statement.WellFormedAll ss
  | .elseIf e => e.WellFormed
  | .otherwise e => e.WellFormed
  | .case c => c.WellFormed
  | .body b => Statement.WellFormedAll b.statements
  | .item i => i.WellFormed
  | .file f => f.WellFormed
  | _ => True

/-- The one rule that makes such elements. -/
def Element.maker? : Element → Option Rule
  | .subrange .full => some .fullSubrange
  | .enumeratedValue ⟨some _, _, none⟩ => none
  | .enumeratedValue _ => some .enumeratedValue
  | .attributes _ => some .variableAttribute
  | .invocation _ => some .fbInvocation
  | _ => none

/-- Neither a range left open nor an enumerated value that may not be an expression. -/
def Element.Plain (e : Element) : Prop :=
  e.maker? ≠ some .fullSubrange ∧ e.maker? ≠ some .enumeratedValue

theorem EnumeratedValue.qualified_of_plain {v : EnumeratedValue}
    (h : (Element.enumeratedValue v).Plain) : v.Qualified := by
  match v with
  | ⟨some _, _, none⟩ => exact ⟨rfl, rfl⟩
  | ⟨none, _, _⟩ | ⟨some _, _, some _⟩ => exact absurd rfl h.2

/-! ## What an element serves as -/

/-- Types whose values are well-formed when a well-formed plain element serves as them. -/
class Formed (α : Type) [OfElement α] where
  good : α → Prop
  of_element : ∀ {e : Element} {v : α}, ofElement? e = some v → e.WellFormed → e.Plain → good v

instance : Formed Selector where
  good := Selector.WellFormed
  of_element {e _} h hwf _ := by cases e <;> cases h; exact hwf

instance : Formed EnumeratedValue where
  good := EnumeratedValue.WellFormed
  of_element {e _} h hwf _ := by cases e <;> cases h; exact hwf

instance : Formed Parameter where
  good := Parameter.WellFormed
  of_element {e _} h hwf _ := by cases e <;> cases h; exact hwf

instance : Formed Call where
  good := Call.WellFormed
  of_element {e _} h hwf _ := by cases e <;> cases h; exact hwf

instance : Formed Expression where
  good := Expression.WellFormed
  of_element {e _} h hwf hplain := by
    cases e with
    | literal | expression | place =>
        cases h
        exact hwf
    | enumeratedValue v =>
        cases h
        exact v.qualified_of_plain hplain
    | _ => cases h

instance : Formed Variable where
  good := Variable.WellFormed
  of_element {e _} h hwf _ := by
    cases e with
    | place =>
        cases h
        exact hwf
    | expression x =>
        cases x <;> cases h
        exact hwf
    | _ => cases h

instance : Formed Subrange where
  good := Subrange.WellFormed
  of_element {e _} h hwf _ := by cases e <;> cases h; exact hwf

instance : Formed SubrangeType where
  good := SubrangeType.WellFormed
  of_element {e _} h hwf _ := by cases e <;> cases h; exact hwf

instance : Formed EnumeratedType where
  good := EnumeratedType.WellFormed
  of_element {e _} h hwf _ := by cases e <;> cases h; exact hwf

instance : Formed ArrayType where
  good := ArrayType.WellFormed
  of_element {e _} h hwf _ := by cases e <;> cases h; exact hwf

instance : Formed TypeSpecification where
  good := TypeSpecification.WellFormed
  of_element {e _} h hwf _ := by
    cases e with
    | dataType | stringType =>
        cases h
        trivial
    | arrayType | subrangeType | enumeratedType =>
        cases h
        exact hwf
    | _ => cases h

instance : Formed ArrayInitialElement where
  good := ArrayInitialElement.WellFormed
  of_element {e _} h hwf _ := by cases e <;> cases h; exact hwf

instance : Formed ArrayInitialization where
  good := ArrayInitialization.WellFormed
  of_element {e _} h hwf _ := by cases e <;> cases h; exact hwf

instance : Formed StructureElementInitialization where
  good := StructureElementInitialization.WellFormed
  of_element {e _} h hwf _ := by cases e <;> cases h; exact hwf

instance : Formed StructureInitialization where
  good := StructureInitialization.WellFormed
  of_element {e _} h hwf _ := by cases e <;> cases h; exact hwf

instance : Formed Initializer where
  good := Initializer.WellFormed
  of_element {e _} h hwf hplain := by
    cases e with
    | arrayInitialization | structureInitialization =>
        cases h
        exact hwf
    | literal | expression | place | enumeratedValue =>
        cases h
        exact Formed.of_element (α := Expression) rfl hwf hplain
    | _ => cases h

instance : Formed SpecInit where
  good := SpecInit.WellFormed
  of_element {e _} h hwf _ := by
    cases e with
    | specInit | initializedStructure =>
        cases h
        exact hwf
    | _ => cases h

instance : Formed (List DeclaredVariable) where
  good := (· ≠ [])
  of_element {e _} h hwf _ := by cases e <;> cases h; exact hwf

instance : Formed GlobalNames where
  good := GlobalNames.WellFormed
  of_element {e _} h hwf _ := by cases e <;> cases h; exact hwf

instance : Formed (Anchored VariableDeclaration) where
  good d := d.body.WellFormed
  of_element {e _} h hwf _ := by cases e <;> cases h; exact hwf

instance : Formed (Anchored GlobalDeclaration) where
  good d := d.body.WellFormed
  of_element {e _} h hwf _ := by cases e <;> cases h; exact hwf

instance : Formed (Anchored LocatedDeclaration) where
  good d := d.body.WellFormed
  of_element {e _} h hwf _ := by cases e <;> cases h; exact hwf

instance : Formed (Anchored ExternalDeclaration) where
  good d := d.body.WellFormed
  of_element {e _} h hwf _ := by cases e <;> cases h; exact hwf

instance : Formed (Anchored AccessDeclaration) where
  good d := d.body.WellFormed
  of_element {e _} h hwf _ := by cases e <;> cases h; exact hwf

instance : Formed (Anchored Member) where
  good m := m.body.WellFormed
  of_element {e _} h hwf _ := by cases e <;> cases h; exact hwf

instance : Formed TypeDeclaration where
  good t := t.definition.WellFormed
  of_element {e _} h hwf _ := by cases e <;> cases h; exact hwf

instance : Formed DeclarationBlock where
  good := DeclarationBlock.WellFormed
  of_element {e _} h hwf _ := by cases e <;> cases h; exact hwf

instance : Formed CaseLabel where
  good := CaseLabel.WellFormed
  of_element {e _} h hwf hplain := by
    cases e with
    | subrange r =>
        cases h
        cases r with
        | full => exact absurd rfl hplain.1
        | limits => exact ⟨nofun, hwf⟩
    | literal | expression | place | enumeratedValue =>
        cases h
        exact Formed.of_element (α := Expression) rfl hwf hplain
    | _ => cases h

instance : Formed Statement where
  good := Statement.WellFormed
  of_element {e _} h hwf _ := by cases e <;> cases h; exact hwf

instance : Formed (List Statement) where
  good := Statement.WellFormedAll
  of_element {e _} h hwf _ := by cases e <;> cases h; exact hwf

instance : Formed ElseIf where
  good := ElseIf.WellFormed
  of_element {e _} h hwf _ := by cases e <;> cases h; exact hwf

instance : Formed Else where
  good := Else.WellFormed
  of_element {e _} h hwf _ := by cases e <;> cases h; exact hwf

instance : Formed Case where
  good := Case.WellFormed
  of_element {e _} h hwf _ := by cases e <;> cases h; exact hwf

instance : Formed Body where
  good b := Statement.WellFormedAll b.statements
  of_element {e _} h hwf _ := by cases e <;> cases h; exact hwf

instance : Formed Item where
  good := Item.WellFormed
  of_element {e _} h hwf _ := by
    cases e with
    | item =>
        cases h
        exact hwf
    | raw =>
        cases h
        trivial
    | block b =>
        cases b <;> cases h
        exact hwf
    | _ => cases h

theorem good_of_serve {α : Type} [OfElement α] [Formed α] {es : List Element} {vs : List α}
    (h : Serve es vs) (hes : ∀ e ∈ es, e.WellFormed ∧ e.Plain) : ∀ v ∈ vs, Formed.good v := by
  intro v hv
  obtain ⟨e, he, hserves⟩ := h.exists_element hv
  exact Formed.of_element hserves (hes e he).1 (hes e he).2

/-! ## Elements as children -/

/-- An element may be what became of a node of the rule: it is not the work of another rule, and
addresses are passed on, or they are written as such. -/
structure Suits (r : Rule) (x : Element) : Prop where
  maker : ∀ k, x.maker? = some k → r = k
  direct : ∀ d, ofElement? x = some (Variable.direct d) → r = .directVariable ∨ r.passes = true

/-- The elements may be what became of the children of a construct of the rule: all are well-formed
and made by rules of which the construct may have children. What is called is no hardware address,
a block of located variables has an entry, and a statement calls a function block with parameters. -/
structure Fit (r : Rule) (es : List Element) : Prop where
  wellFormed : ∀ e ∈ es, e.WellFormed
  makers : ∀ e ∈ es, ∀ k, e.maker? = some k → r.mayHold k = true
  callees : r = .functionCall ∨ r = .fbInvocation ∨ r = .methodStatement →
    ∀ e ∈ es, ∀ v : Variable, ofElement? e = some v → v.isDirect = false
  entries : r = .locatedVarDeclarations → ∃ e ∈ es, ∀ f, e ≠ .attributes f
  parameters : r = .fbInvocationStatement → ∀ f ps, .invocation ⟨f, ps⟩ ∈ es → ps ≠ []

/-! ### Where elements of one maker stand -/

/-- Of the rules that alone make elements of a kind, constructs that pass children on have none. -/
theorem not_mayHold_of_passes {r k : Rule} (hr : r.passes = true) {e : Element}
    (he : e.maker? = some k) : r.mayHold k = false := by
  have hall : (Rule.inOrder.all fun r => !r.passes ||
      !(r.mayHold .fullSubrange || r.mayHold .enumeratedValue || r.mayHold .variableAttribute ||
        r.mayHold .fbInvocation)) = true := by
    decide +kernel
  have hr' := Rule.of_all hall r
  simp only [hr, Bool.not_true, Bool.false_or, Bool.not_eq_true', Bool.or_eq_false_iff] at hr'
  obtain ⟨⟨⟨hfull, hvalue⟩, hattribute⟩, hcall⟩ := hr'
  unfold Element.maker? at he
  split at he <;> cases he <;> assumption

theorem mayHold_fullSubrange {r : Rule} (h : r.mayHold .fullSubrange = true) :
    r = .arraySpecification := by
  have hall : (Rule.inOrder.all fun r =>
      !r.mayHold .fullSubrange || r == .arraySpecification) = true := by
    decide +kernel
  have hr := Rule.of_all hall r
  simpa [h] using hr

theorem mayHold_enumeratedValue {r : Rule} (h : r.mayHold .enumeratedValue = true) :
    r = .enumeratedSpecification := by
  have hall : (Rule.inOrder.all fun r =>
      !r.mayHold .enumeratedValue || r == .enumeratedSpecification) = true := by
    decide +kernel
  have hr := Rule.of_all hall r
  simpa [h] using hr

namespace Fit

variable {r : Rule} {es fs : List Element} {e : Element}

theorem plain (h : Fit r es) (he : e ∈ es) (harray : r ≠ .arraySpecification)
    (henumerated : r ≠ .enumeratedSpecification) : e.Plain :=
  ⟨fun hmaker => harray (mayHold_fullSubrange (h.makers e he _ hmaker)),
    fun hmaker => henumerated (mayHold_enumeratedValue (h.makers e he _ hmaker))⟩

variable {α : Type} [OfElement α] [Formed α]

/-- What a child serves as is well-formed. -/
theorem good (h : Fit r es) {v : α} (hv : ofElement? e = some v)
    (he : e ∈ es := by simp) (harray : r ≠ .arraySpecification := by nofun)
    (henumerated : r ≠ .enumeratedSpecification := by nofun) : Formed.good v :=
  Formed.of_element hv (h.wellFormed e he) (h.plain he harray henumerated)

/-- What some of the children serve as is well-formed. -/
theorem all (h : Fit r es) {vs : List α} (hvs : Serve fs vs)
    (hfs : ∀ e ∈ fs, e ∈ es := by intro e he; simp [he])
    (harray : r ≠ .arraySpecification := by nofun)
    (henumerated : r ≠ .enumeratedSpecification := by nofun) : ∀ v ∈ vs, Formed.good v :=
  good_of_serve hvs fun e he =>
    ⟨h.wellFormed e (hfs e he), h.plain (hfs e he) harray henumerated⟩

/-- What a child that may be missing serves as is well-formed. -/
theorem option (h : Fit r es) {v : Option α} (hv : Serve fs v.toList)
    (hfs : ∀ e ∈ fs, e ∈ es := by intro e he; simp [he])
    (harray : r ≠ .arraySpecification := by nofun)
    (henumerated : r ≠ .enumeratedSpecification := by nofun) : ∀ w ∈ v, Formed.good w := by
  intro w hw
  exact h.all hv hfs harray henumerated w (Option.mem_toList.mpr hw)

end Fit

end StructuredText
