import StructuredText.Proofs.WellFormed.Elements

/-!
# Well-formed constructs

What is built of fitting children is well-formed, for each row of the table of the builders.

* `wellFormed_of_forms`, `suits_of_forms` — what is built of fitting children.
-/

namespace StructuredText.Build

open Grammar (Rule)

variable {a : Anchor} {r : Rule} {es fs : List Element} {x : Element}

/-! ## Parts of constructs -/

theorem wellFormed_of_chained {left x : Expression} (h : Chained left es x)
    (hleft : left.WellFormed) (hes : ∀ e ∈ es, e.WellFormed ∧ e.Plain) : x.WellFormed := by
  induction h with
  | done => exact hleft
  | next hf he _ ih =>
      obtain ⟨-, ⟨hwf, hplain⟩, hrest⟩ :=
        (List.forall_mem_cons.trans (and_congr_right' List.forall_mem_cons)).mp hes
      exact ih ⟨hleft, Formed.of_element he hwf hplain⟩ hrest

/-- An element of an array is a repeated one, or a value. -/
theorem wellFormed_of_arrayElement? {e : Element} {v : ArrayInitialElement}
    (h : arrayElement? e = some v) (hwf : e.WellFormed) (hplain : e.Plain) : v.WellFormed := by
  rw [arrayElement?, Option.or_eq_some_iff] at h
  rcases h with h | ⟨-, h⟩
  · exact Formed.of_element h hwf hplain
  · obtain ⟨w, hw, rfl⟩ := Option.map_eq_some_iff.mp h
    exact Formed.of_element (α := Initializer) hw hwf hplain

/-- The dimensions of an array may be left open. -/
theorem wellFormed_of_dimensions {dimensions : List Subrange} (h : Serve es dimensions)
    (hes : ∀ e ∈ es, e.WellFormed) : ∀ d ∈ dimensions, d.WellFormed := by
  intro d hd
  obtain ⟨e, he, hserves⟩ := h.exists_element hd
  have hwf := hes e he
  cases e <;> cases hserves
  exact hwf

/-- In the list of an enumeration, values need not be qualified. -/
theorem wellFormed_of_values {values : List EnumeratedValue} (h : Serve es values)
    (hes : ∀ e ∈ es, e.WellFormed) : ∀ v ∈ values, v.WellFormed := by
  intro v hv
  obtain ⟨e, he, hserves⟩ := h.exists_element hv
  have hwf := hes e he
  cases e <;> cases hserves
  exact hwf

/-- What serves as a type is plain. -/
theorem plain_of_type {e : Element} {type : TypeSpecification} (h : ofElement? e = some type) :
    e.Plain := by
  cases e <;> cases h <;> exact ⟨nofun, nofun⟩

/-- A range by itself is not left open. -/
theorem wellFormed_of_range {e : Element} {range : Subrange} (h : ofElement? e = some range)
    (hwf : e.WellFormed) (hplain : e.Plain) : range ≠ .full ∧ range.WellFormed := by
  cases e <;> cases h
  refine ⟨?_, hwf⟩
  rintro rfl
  exact hplain.1 rfl

theorem wellFormed_of_otherwise {o : Option Else} (h : ∀ e ∈ o, e.WellFormed) :
    Else.WellFormedOption o := by
  cases o with
  | none => trivial
  | some e => exact h e rfl

theorem wellFormed_of_body {body : Option (List Statement)}
    (h : ∀ ss ∈ body, Statement.WellFormedAll ss) : Statement.WellFormedAll (body.getD []) := by
  cases body with
  | none => trivial
  | some ss => exact h ss rfl

/-- A body that is kept has statements. -/
theorem wellFormed_of_unitBody {body : Option Body}
    (h : ∀ b ∈ body, Statement.WellFormedAll b.statements) :
    ∀ b ∈ body.filter (!·.statements.isEmpty), b.WellFormed := by
  intro b hb
  obtain ⟨hb, hne⟩ := Option.mem_filter_iff.mp hb
  exact ⟨by simpa using hne, h b hb⟩

/-- The declarations of a block are what its children serve as. -/
theorem all_of_blocks {α : Type} [OfElement (Anchored α)] [Formed (Anchored α)] {block : Block α}
    (h : Blocks a es block) (hfit : Fit r es) {good : α → Prop}
    (hgood : ∀ d : Anchored α, Formed.good d → good d.body) (harray : r ≠ .arraySpecification)
    (henumerated : r ≠ .enumeratedSpecification) : block.All good := by
  obtain ⟨hes, hfs⟩ := h
  intro d hd
  exact hgood d (hfit.all hfs (by intro e he; simp [he]) harray henumerated d hd)

/-- Where a construct has no attributes, its block has none. -/
theorem attributes_of_blocks {α : Type} [OfElement (Anchored α)] {block : Block α}
    (h : Blocks a es block) (hfit : Fit r es) (hr : r.mayHold .variableAttribute = false) :
    block.attributes = {} := by
  obtain @⟨es, fs, attributes, items, hes, hfs⟩ := h
  cases attributes with
  | nil => rfl
  | cons f attributes =>
      obtain ⟨e, es, rfl, he, -⟩ := serve_cons_iff.mp hes
      have hholds : r.mayHold .variableAttribute = true := by
        refine hfit.makers e (by simp) _ ?_
        cases e <;> cases he
        rfl
      rw [hr] at hholds
      cases hholds

/-- A child that is no attribute is an entry. -/
theorem ne_nil_of_blocks {α : Type} [OfElement (Anchored α)] {block : Block α}
    (h : Blocks a es block) (hentry : ∃ e ∈ es, ∀ f, e ≠ .attributes f) : block.items ≠ [] := by
  obtain @⟨es, fs, attributes, items, hes, hfs⟩ := h
  rintro rfl
  obtain rfl := serve_nil_iff.mp hfs
  obtain ⟨e, he, hattribute⟩ := hentry
  rw [List.append_nil] at he
  obtain ⟨f, -, hf⟩ := hes.exists_value he
  cases e <;> cases hf
  exact hattribute f rfl

/-! ## Constructs -/

/-- What is built of fitting children is well-formed. -/
theorem wellFormed_of_forms (hx : Forms a r es x) (hfit : Fit r es) : x.WellFormed := by
  cases hx with
  | literal v _ hv =>
      cases v with
      | duration d => exact hv d rfl
      | _ => trivial
  | direct | location | incompleteLocation | variableName | field | plainVariable | indirection
  | dataType | stringType | fullSubrange | extendsClause | var1 | edge | accessDirection
  | «attribute» | access | globalLocated | globalIncomplete | jump => trivial
  | subscript mark hes hne => exact ⟨hne, Expression.wellFormedAll_iff.mpr (hfit.all hes)⟩
  | multiElement he hes hne => exact ⟨hne, Selector.wellFormedAll_iff.mpr (hfit.all hes)⟩
  -- expressions
  | pass => exact hfit.wellFormed x (by simp)
  | @chain _ e es _ _ hr he hne h =>
      obtain ⟨harray, henumerated⟩ : r ≠ .arraySpecification ∧ r ≠ .enumeratedSpecification := by
        constructor <;> (rintro rfl; cases hr)
      refine wellFormed_of_chained h (hfit.good he (by simp) harray henumerated) ?_
      intro f hf
      have hmem : f ∈ e :: es := .tail e hf
      exact ⟨hfit.wellFormed f hmem, hfit.plain hmem harray henumerated⟩
  | unary op he => exact hfit.good he
  | parenthesized he => exact hfit.good he
  | qualified => trivial
  | input name he => exact hfit.good he
  | output inverter name hes => exact Variable.wellFormedOption_iff.mpr (hfit.option hes)
  | functionCall he hes =>
      exact ⟨hfit.callees (.inl rfl) _ (by simp) _ he, hfit.good he,
        Parameter.wellFormedAll_iff.mpr (hfit.all hes)⟩
  | fbInvocation he hes =>
      exact ⟨hfit.callees (.inr (.inl rfl)) _ (by simp) _ he, hfit.good he,
        Parameter.wellFormedAll_iff.mpr (hfit.all hes)⟩
  -- types and first values
  | subrange he hf => exact ⟨hfit.good he, hfit.good hf⟩
  | arrayType hes hne he =>
      refine ⟨hne, wellFormed_of_dimensions hes fun e he => hfit.wellFormed e (by simp [he]), ?_⟩
      exact Formed.of_element he (hfit.wellFormed _ (by simp)) (plain_of_type he)
  | subrangeType typeName he =>
      exact wellFormed_of_range he (hfit.wellFormed _ (by simp)) (hfit.plain (by simp) nofun nofun)
  | enumeratedValue typeName name hes =>
      exact Expression.wellFormedOption_iff.mpr (hfit.option hes)
  | enumeratedType baseType hes hne =>
      exact ⟨hne, wellFormed_of_values hes fun e he => hfit.wellFormed e (by simp [he])⟩
  | repeated he hes => exact Initializer.wellFormedOption_iff.mpr (hfit.option hes)
  | arrayInitialization hes hne =>
      refine ⟨hne, ArrayInitialElement.wellFormedAll_iff.mpr ?_⟩
      intro v hv
      have hmem : some v ∈ es.map arrayElement? := by
        rw [hes]
        exact List.mem_map_of_mem hv
      obtain ⟨e, he, hserves⟩ := List.mem_map.mp hmem
      exact wellFormed_of_arrayElement? hserves (hfit.wellFormed e he) (hfit.plain he nofun nofun)
  | structureElement name he => exact hfit.good he
  | structureInitialization hes hne =>
      exact ⟨hne, StructureElementInitialization.wellFormedAll_iff.mpr (hfit.all hes)⟩
  | initializedStructure typeName he => exact hfit.good he
  | stringSpecInit => trivial
  | arraySpecInit hes he hfs => exact ⟨hfit.good he, hfit.option hfs⟩
  | subrangeSpecInit hes he hfs => exact ⟨hfit.good he, hfit.option hfs⟩
  | enumeratedSpecInit hes he hfs => exact ⟨hfit.good he, hfit.option hfs⟩
  | simpleSpecInit typeName hes hfs => exact hfit.option hfs
  -- declarations
  | names hr hes hne => exact hne
  | var1List hes hne => exact hne
  | initDeclaration hr he hf =>
      obtain ⟨harray, henumerated⟩ : r ≠ .arraySpecification ∧ r ≠ .enumeratedSpecification := by
        constructor <;> (rintro rfl; cases hr)
      exact ⟨hfit.good he (by simp) harray henumerated, hfit.good hf (by simp) harray henumerated⟩
  | edgeDeclaration he hf => exact hfit.good he
  | fbInstance names typeName he => exact ⟨hfit.wellFormed (.tokens _ names) (.head _), hfit.good he⟩
  | fbInvocationDecl names he => exact ⟨hfit.wellFormed (.tokens _ names) (.head _), hfit.good he⟩
  | locatedDeclaration name he hf => exact hfit.good hf
  | externalDeclaration name he => exact hfit.good he
  | accessDeclaration name he hf hes => exact hfit.good he
  | globalNames names => exact hfit.wellFormed (.tokens _ names) (.head _)
  | globalSpec he hf => exact ⟨hfit.good he, hfit.good hf⟩
  | globalInvocation he hf => exact ⟨hfit.good he, hfit.good hf⟩
  | plainBlock hr h =>
      refine ⟨?_, all_of_blocks h hfit (fun _ => id) ?_ ?_⟩
      · intro hkind
        refine attributes_of_blocks h hfit ?_
        unfold Rule.plainKind? at hr
        split at hr <;> cases hr
        all_goals first | rfl | (rcases hkind with hkind | hkind <;> cases hkind)
      all_goals (rintro rfl; cases hr)
  | locatedBlock h =>
      exact ⟨ne_nil_of_blocks h (hfit.entries rfl), all_of_blocks h hfit (fun _ => id) nofun nofun⟩
  | globalBlock h => exact all_of_blocks h hfit (fun _ => id) nofun nofun
  | externalBlock h => exact all_of_blocks h hfit (fun _ => id) nofun nofun
  | accessBlock h =>
      exact ⟨attributes_of_blocks h hfit rfl, all_of_blocks h hfit (fun _ => id) nofun nofun⟩
  | member name hes hf => exact hfit.good hf
  | «structure» name base hes hfs => exact hfit.all hfs
  | namedType name base hr he =>
      refine hfit.good he (by simp) ?_ ?_
      all_goals (rintro rfl; cases hr)
  | types hes hne => exact ⟨hne, hfit.all hes⟩
  -- statements
  | assignment hes hne he => exact ⟨hne, hfit.all hes, hfit.good he⟩
  | targeted hr he hf =>
      obtain ⟨harray, henumerated⟩ : r ≠ .arraySpecification ∧ r ≠ .enumeratedSpecification := by
        constructor <;> (rintro rfl; cases hr)
      exact ⟨hfit.good he (by simp) harray henumerated, hfit.good hf (by simp) harray henumerated⟩
  | methodCall he => exact ⟨hfit.callees (.inr (.inr rfl)) _ (by simp) _ he, hfit.good he⟩
  | @invocation e call he =>
      obtain ⟨f, ps⟩ := call
      refine ⟨hfit.parameters rfl f ps ?_, hfit.good he⟩
      cases e <;> cases he
      exact .head _
  | noOp he => exact hfit.good he
  | elseIf he hes => exact ⟨⟨hfit.good he, wellFormed_of_body (hfit.option hes)⟩, trivial⟩
  | otherwise hes => exact wellFormed_of_body (hfit.option hes)
  | ifThen he hbs hes hfs =>
      exact ⟨hfit.good he, wellFormed_of_body (hfit.option hbs),
        ElseIf.wellFormedAll_iff.mpr (hfit.all hes), wellFormed_of_otherwise (hfit.option hfs)⟩
  | @case list _ _ _ hrule hlabels hes =>
      obtain ⟨hne, hall⟩ := hfit.wellFormed (.raw list) (.head _) hrule _ hlabels
      exact ⟨⟨hne, hall, wellFormed_of_body (hfit.option hes)⟩, trivial⟩
  | caseOf he hes hfs =>
      exact ⟨hfit.good he, Case.wellFormedAll_iff.mpr (hfit.all hes),
        wellFormed_of_otherwise (hfit.option hfs)⟩
  | forTo he hf hg hes hfs =>
      exact ⟨hfit.good hf, hfit.good hg, hfit.option hes, wellFormed_of_body (hfit.option hfs)⟩
  | whileDo he hes => exact ⟨hfit.good he, wellFormed_of_body (hfit.option hes)⟩
  | repeatUntil hes he => exact ⟨wellFormed_of_body (hfit.option hes), hfit.good he⟩
  | statements t hes => exact Statement.wellFormedAll_iff.mpr (hfit.all hes)
  -- units and files
  | body he => exact hfit.good he
  | unit hr hds hbs =>
      cases hr with
      | function name hes | method name _ hes =>
          exact ⟨hfit.option hes, hfit.all hds, wellFormed_of_unitBody (hfit.option hbs)⟩
      | functionBlock | program =>
          exact ⟨nofun, hfit.all hds, wellFormed_of_unitBody (hfit.option hbs)⟩
  | action hr hbs => cases hr <;> exact wellFormed_of_unitBody (hfit.option hbs)
  | file hes => exact hfit.all hes

/-- What is built of fitting children is the work of its rule. -/
theorem suits_of_forms (hx : Forms a r es x) (hfit : Fit r es) : Suits r x := by
  -- Most elements have no maker and no address; the others name their rule.
  cases hx with
  | direct d => exact ⟨nofun, fun _ _ => .inl rfl⟩
  | pass _ hr =>
      refine ⟨?_, fun _ _ => .inr hr⟩
      intro k hk
      have hholds := hfit.makers x (.head _) k hk
      rw [not_mayHold_of_passes hr hk] at hholds
      cases hholds
  | chain hr =>
      refine ⟨nofun, fun _ _ => .inr ?_⟩
      unfold Rule.isLevel at hr
      split at hr <;> first | rfl | cases hr
  | fullSubrange | «attribute» | fbInvocation =>
      refine ⟨?_, nofun⟩
      intro k hk
      exact Option.some.inj hk
  | enumeratedValue typeName name hes =>
      refine ⟨?_, nofun⟩
      intro k hk
      unfold Element.maker? at hk
      split at hk <;> simp_all
  | _ =>
      constructor
      · intro k hk
        cases hk
      · intro d hd
        cases hd

end StructuredText.Build
