import StructuredText.Build.Types
import StructuredText.Proofs.Build.Children

/-!
# What types and first values are built from

The type or first value that each builder makes of the elements it accepts. An indirection in front,
a first value behind and most names may be missing.
-/

namespace StructuredText.Build

open Builder

variable {c : Children} {e : Element} {es is : List Element}

/-! ## Types -/

/-- The words of an indirection, in capital letters. -/
def wordsOf : Indirection → Text
  | .pointer => "POINTER TO"
  | .reference => "REFERENCE TO"
  | .refTo => "REF_TO"

theorem indirectionType_gives (i : Indirection) {t : Token}
    (ht : Text.joinWith [' '] (t.text.words.map Text.upperCase) = wordsOf i) :
    indirectionType.Gives (c.holding [.token .indirectionType t]) (.indirection i)
      (c.holding []) := by
  refine token_gives.bind ?_
  simp only [ht]
  cases i <;> exact pure_gives.bind (finish_gives.bind pure_gives)

theorem nonGenericTypeName_gives {indirection : Option Indirection}
    (his : Serve is indirection.toList) (typeName : Token) :
    nonGenericTypeName.Gives (c.holding (is ++ [.token .typeName typeName]))
      (.dataType { indirection, typeName }) (c.holding []) :=
  (takeIf_gives his fun _ => .cons rfl).bind (token_gives.bind (finish_gives.bind pure_gives))

theorem stringTypeSpecification_gives (name : Token) (length : Option Token) :
    stringTypeSpecification.Gives
      (c.holding (.token .stringType name :: length.toList.map (.token .stringLength)))
      (.stringType { name, length }) (c.holding []) :=
  token_gives.bind (tokenIf_gives_last.bind (finish_gives.bind pure_gives))

theorem fullSubrange_gives (t : Token) :
    fullSubrange.Gives (c.holding [.token .fullSubrange t]) (.subrange .full) (c.holding []) :=
  token_gives.bind (finish_gives.bind pure_gives)

theorem subrange_gives {f : Element} {low high : Expression} (he : ofElement? e = some low)
    (hf : ofElement? f = some high) :
    subrange.Gives (c.holding [e, f]) (.subrange (.limits low high)) (c.holding []) :=
  (take_gives he).bind ((take_gives hf).bind (finish_gives.bind pure_gives))

/-- A type is no range. -/
theorem stops_subrange {t : TypeSpecification} (he : ofElement? e = some t) :
    Stops Subrange [e] := by
  apply Stops.cons
  cases e <;> first | rfl | cases he

theorem arraySpecification_gives {dimensions : List Subrange} (hes : Serve es dimensions)
    (hne : dimensions ≠ []) {elementType : TypeSpecification}
    (he : ofElement? e = some elementType) :
    arraySpecification.Gives (c.holding (es ++ [e])) (.arrayType ⟨dimensions, elementType⟩)
      (c.holding []) :=
  (takeWhile_gives hes (stops_subrange he)).bind
    ((nonEmpty_gives hne).bind ((take_gives he).bind (finish_gives.bind pure_gives)))

theorem subrangeSpecification_gives (typeName : Token) (range : Subrange) :
    subrangeSpecification.Gives (c.holding [.token .typeName typeName, .subrange range])
      (.subrangeType { typeName, range }) (c.holding []) :=
  token_gives.bind ((take_gives rfl).bind (finish_gives.bind pure_gives))

theorem enumeratedValue_gives (typeName : Option Token) (name : Token) {value : Option Expression}
    (hes : Serve es value.toList) :
    enumeratedValue.Gives
      (c.holding (typeName.toList.map (.token .typeName) ++ .token .identifier name :: es))
      (.enumeratedValue ⟨typeName, name, value⟩) (c.holding []) := by
  refine (tokenIf_gives ?_).bind
    (token_gives.bind ((takeIf_gives_last hes).bind (finish_gives.bind pure_gives)))
  simp [StopsToken]

theorem enumeratedSpecification_gives {values : List EnumeratedValue} (hes : Serve es values)
    (hne : values ≠ []) (baseType : Option Token) :
    enumeratedSpecification.Gives
      (c.holding (es ++ baseType.toList.map (.token .typeName)))
      (.enumeratedType { values, baseType }) (c.holding []) := by
  refine (takeWhile_gives hes ?_).bind
    ((nonEmpty_gives hne).bind (tokenIf_gives_last.bind (finish_gives.bind pure_gives)))
  cases baseType with
  | none => exact .nil
  | some t => exact .cons rfl

/-! ## First values -/

/-- The array element that an element serves as: a repeated one, or a value. -/
def arrayElementOf? (e : Element) : Option ArrayInitialElement :=
  match (ofElement? e : Option ArrayInitialElement) with
  | some a => some a
  | none => (ofElement? e).map .single

theorem arrayElement_gives {a : ArrayInitialElement} (he : arrayElementOf? e = some a)
    {rest : List Element} :
    arrayElement.Gives (c.holding (e :: rest)) a (c.holding rest) := by
  cases hrep : (ofElement? e : Option ArrayInitialElement) with
  | some a' =>
      obtain rfl : a' = a := by simpa [arrayElementOf?, hrep] using he
      have htake : (takeIf ArrayInitialElement).Gives (c.holding ([e] ++ rest)) (some a')
          (c.holding rest) := takeIf_gives (.one hrep) (by simp)
      exact htake.bind pure_gives
  | none =>
      obtain ⟨v, hv, rfl⟩ : ∃ v, ofElement? e = some v ∧ ArrayInitialElement.single v = a := by
        simpa [arrayElementOf?, hrep] using he
      exact (takeIf_gives_none (.cons hrep)).bind ((take_gives hv).bind pure_gives)

theorem arrayElements_gives {elements : List ArrayInitialElement}
    (hes : es.map arrayElementOf? = elements.map some) {bound : List Element}
    (hbound : es.length ≤ bound.length) :
    (arrayElements bound).Gives (c.holding es) elements (c.holding []) := by
  -- Every element uses up one of the bound, which is as long as the row.
  induction es generalizing elements bound with
  | nil =>
      obtain rfl : elements = [] := by simpa using hes
      rw [arrayElements.eq_def]
      exact get_gives.bind pure_gives
  | cons e es ih =>
      cases elements with
      | nil => simp at hes
      | cons a elements =>
          obtain ⟨he, hes⟩ : arrayElementOf? e = some a ∧ es.map arrayElementOf? =
              elements.map some := by simpa using hes
          cases bound with
          | nil => simp at hbound
          | cons _ bound =>
              rw [arrayElements.eq_def]
              exact get_gives.bind ((arrayElement_gives he).bind
                ((ih hes (by simpa using hbound)).bind pure_gives))

theorem arrayInitialization_gives {elements : List ArrayInitialElement}
    (hes : es.map arrayElementOf? = elements.map some) (hne : elements ≠ []) :
    arrayInitialization.Gives (c.holding es) (.arrayInitialization ⟨elements⟩) (c.holding []) :=
  get_gives.bind ((arrayElements_gives hes (Nat.le_refl _)).bind
    ((nonEmpty_gives hne).bind pure_gives))

theorem arrayInitialElementCount_gives (count : Integer) {element : Option Initializer}
    (hes : Serve es element.toList) :
    arrayInitialElementCount.Gives (c.holding (.literal (.integer count) :: es))
      (.arrayInitialElement (.repeated count element)) (c.holding []) :=
  (take_gives rfl).bind ((takeIf_gives_last hes).bind (finish_gives.bind pure_gives))

/-- A first value is no token. -/
theorem not_token_of_initializer {v : Initializer} (he : ofElement? e = some v)
    (r : Grammar.Rule) (t : Token) : e ≠ .token r t := by
  rintro rfl
  cases he

theorem structureElementInitialization_gives (name : Option Token) {value : Initializer}
    (he : ofElement? e = some value) :
    structureElementInitialization.Gives
      (c.holding (name.toList.map (.token .identifier) ++ [e]))
      (.structureElementInitialization ⟨name, value⟩) (c.holding []) := by
  refine (tokenIf_gives ?_).bind ((take_gives he).bind (finish_gives.bind pure_gives))
  intro _ t
  simpa using not_token_of_initializer he .identifier t

theorem structureInitialization_gives {elements : List StructureElementInitialization}
    (hes : Serve es elements) (hne : elements ≠ []) :
    structureInitialization.Gives (c.holding es) (.structureInitialization ⟨elements⟩)
      (c.holding []) :=
  (takeWhile_gives_all hes).bind
    ((nonEmpty_gives hne).bind (finish_gives.bind pure_gives))

theorem initializedStructure_gives (typeName : Token) (value : StructureInitialization) :
    initializedStructure.Gives
      (c.holding [.token .typeName typeName, .structureInitialization value])
      (.initializedStructure { typeName, value }) (c.holding []) :=
  token_gives.bind ((take_gives rfl).bind (finish_gives.bind pure_gives))

/-! ## Types with first values -/

theorem stringSpecInit_gives (type : StringType) {value : Option StringLiteral}
    (hes : Serve es value.toList) :
    stringSpecInit.Gives (c.holding (.stringType type :: es)) (.specInit (.string type value))
      (c.holding []) :=
  (take_gives rfl).bind ((takeIf_gives_last hes).bind (finish_gives.bind pure_gives))

variable {indirection : Option Indirection}

theorem arraySpecInit_gives (his : Serve is indirection.toList) (type : ArrayType)
    {value : Option ArrayInitialization} (hes : Serve es value.toList) :
    arraySpecInit.Gives (c.holding (is ++ .arrayType type :: es))
      (.specInit (.array indirection type value)) (c.holding []) :=
  (takeIf_gives his fun _ => .cons rfl).bind
    ((take_gives rfl).bind ((takeIf_gives_last hes).bind (finish_gives.bind pure_gives)))

theorem subrangeSpecInit_gives (his : Serve is indirection.toList) (type : SubrangeType)
    {value : Option Expression} (hes : Serve es value.toList) :
    subrangeSpecInit.Gives (c.holding (is ++ .subrangeType type :: es))
      (.specInit (.subrange indirection type value)) (c.holding []) :=
  (takeIf_gives his fun _ => .cons rfl).bind
    ((take_gives rfl).bind ((takeIf_gives_last hes).bind (finish_gives.bind pure_gives)))

theorem enumeratedSpecInit_gives (his : Serve is indirection.toList) (type : EnumeratedType)
    {value : Option Expression} (hes : Serve es value.toList) :
    enumeratedSpecInit.Gives (c.holding (is ++ .enumeratedType type :: es))
      (.specInit (.enumerated indirection type value)) (c.holding []) :=
  (takeIf_gives his fun _ => .cons rfl).bind
    ((take_gives rfl).bind ((takeIf_gives_last hes).bind (finish_gives.bind pure_gives)))

theorem simpleSpecInit_gives (his : Serve is indirection.toList) (typeName : Token)
    {value : Option Expression} (hes : Serve es value.toList) :
    simpleSpecInit.Gives (c.holding (is ++ .token .typeName typeName :: es))
      (.specInit (.simple { indirection, typeName } value)) (c.holding []) :=
  (takeIf_gives his fun _ => .cons rfl).bind
    (token_gives.bind ((takeIf_gives_last hes).bind (finish_gives.bind pure_gives)))

end StructuredText.Build
