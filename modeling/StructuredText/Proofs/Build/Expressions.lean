import StructuredText.Build.Expressions
import StructuredText.Proofs.Build.Children

/-!
# What variables, expressions and calls are built from

The variable, expression or call that each builder makes of the elements it accepts.

* `binaryChain_gives` — operands with operators between them fold to the left.
-/

namespace StructuredText.Build

open Grammar (Rule)
open Builder

variable {c : Children}

/-! ## Variables -/

/-- A name, with or without the mark that dereferences it. -/
theorem variableName_gives (name : Token) (mark : Option Token) :
    variableName.Gives (c.holding (.token .identifier name :: mark.toList.map (.token .deref)))
      (.place (.symbolic { name, dereferenced := mark.isSome })) (c.holding []) :=
  token_gives.bind (tokenIf_gives_last.bind (finish_gives.bind pure_gives))

/-- The mark stands in front of the field, and the field is what comes last. -/
theorem fieldSelector_gives (mark : Option Token) {r : Rule} (hr : r ≠ .deref) (name : Token) :
    fieldSelector.Gives (c.holding (mark.toList.map (.token .deref) ++ [.token r name]))
      (.selector (.field name mark.isSome)) (c.holding []) := by
  refine (tokenIf_gives ?_).bind ((take_gives rfl).bind pure_gives)
  intro _ t
  simpa using fun h => absurd h hr

/-- Indices in brackets; a mark behind them dereferences the element. -/
theorem subscriptList_gives {es : List Element} {indices : List Expression}
    (hes : Serve es indices) (hne : indices ≠ []) (mark : Option Token) :
    subscriptList.Gives (c.holding (es ++ mark.toList.map (.token .deref)))
      (.selector (.subscript indices mark.isSome)) (c.holding []) := by
  refine (takeWhile_gives hes ?_).bind
    (tokenIf_gives_last.bind ((nonEmpty_gives hne).bind (finish_gives.bind pure_gives)))
  cases mark with
  | none => exact .nil
  | some t => exact .cons rfl

/-- A name without selectors stays a plain name. -/
theorem multiElementVariable_gives {e : Element} {name : SymbolicVariable}
    (he : ofElement? e = some name) {es : List Element} {selectors : List Selector}
    (hes : Serve es selectors) :
    multiElementVariable.Gives (c.holding (e :: es))
      (.place (if selectors.isEmpty then .symbolic name else .multiElement name selectors))
      (c.holding []) :=
  (take_gives he).bind ((takeWhile_gives_all hes).bind (finish_gives.bind pure_gives))

/-! ## Addresses -/

theorem letterOf_gives {α : Type} {what : String} {value? : Text → Option α} {t : Token} {a : α}
    (h : value? t.text.upperCase = some a) : (letterOf what value? t).Gives c a c := by
  simp only [letterOf, h]
  exact pure_gives

/-- A row of tokens of one rule is taken whole. -/
theorem splitTokens_map (r : Rule) (ts : List Token) :
    splitTokens r (ts.map (.token r)) = (ts, []) := by
  induction ts with
  | nil => rfl
  | cons t ts ih => simp only [List.map_cons, splitTokens, if_true, ih]

/-- All tokens of one rule are taken, and nothing is left. -/
theorem takeTokens_gives (r : Rule) (ts : List Token) :
    (takeTokens r).Gives (c.holding (ts.map (.token r))) ts (c.holding []) := by
  have h : (takeTokens r).Gives (c.holding (ts.map (.token r)))
      (splitTokens r (ts.map (.token r))).1
      (c.holding (splitTokens r (ts.map (.token r))).2) := rfl
  rwa [splitTokens_map] at h

/-- The size of an address for its letter, single bits without one. -/
def sizeFor (letter : Option Token) (size : AddressSize) : Prop :=
  match letter with
  | none => size = .X
  | some t => sizeOf? t.text.upperCase = some size

/-- An address: the letter of its area, perhaps that of its size, and its numbers. -/
theorem directVariable_gives {areaLetter : Token} {area : AddressArea}
    (harea : areaOf? areaLetter.text.upperCase = some area) {sizeLetter : Option Token}
    {size : AddressSize} (hsize : sizeFor sizeLetter size) (location : Token)
    (bits : List Token) :
    directVariable.Gives
      (c.holding (.token .locationPrefix areaLetter ::
        (sizeLetter.toList.map (.token .sizePrefix) ++
          .token .directLocation location :: bits.map (.token .directBit))))
      (.place (.direct { area, size, location, bits })) (c.holding []) := by
  refine token_gives.bind ((letterOf_gives harea).bind ((tokenIf_gives ?_).bind ?_))
  · simp [StopsToken]
  · have htail : ∀ size, (do
        let location ← token .directLocation
        let bits ← takeTokens .directBit
        finish
        pure (.place (.direct { area, size, location, bits })) : Builder Element).Gives
        (c.holding (.token .directLocation location :: bits.map (.token .directBit)))
        (.place (.direct { area, size, location, bits })) (c.holding []) := fun _ =>
      token_gives.bind ((takeTokens_gives .directBit bits).bind (finish_gives.bind pure_gives))
    -- Without a letter the size is that of a bit.
    cases sizeLetter with
    | none =>
        obtain rfl : size = .X := hsize
        exact pure_gives.bind (htail _)
    | some t => exact (letterOf_gives hsize).bind (htail _)

theorem location_gives {e : Element} {address : DirectVariable} (he : ofElement? e = some address) :
    location.Gives (c.holding [e]) (.location { address }) (c.holding []) :=
  (take_gives he).bind (finish_gives.bind pure_gives)

/-- An address that is left open is kept as it is written. -/
theorem incompleteLocation_gives (address : Token) :
    incompleteLocation.Gives (c.holding [.token .incompleteAddress address])
      (.incompleteLocation { address }) (c.holding []) :=
  token_gives.bind (finish_gives.bind pure_gives)

/-! ## Operators -/

/-- The elements of operators and operands, each operand behind its operator. -/
def roundElements (rounds : List (Element × Element)) : List Element :=
  rounds.flatMap fun (op, operand) => [op, operand]

/-- Each round of a chain brings at least one element, so a bound on the elements bounds the rounds.
-/
theorem length_le_roundElements (rounds : List (Element × Element)) :
    rounds.length ≤ (roundElements rounds).length := by
  induction rounds with
  | nil => simp
  | cons r rounds ih =>
      have hes : roundElements (r :: rounds) = r.1 :: r.2 :: roundElements rounds := rfl
      rw [hes]
      simp only [List.length_cons]
      omega

/-- The elements of the rounds serve as operators and right operands. -/
def ServeRounds (rounds : List (Element × Element)) (ops : List (Token × Expression)) : Prop :=
  rounds.map (fun r => (ofElement? r.1, ofElement? r.2)) = ops.map fun o => (some o.1, some o.2)

/-- No rounds serve no rounds. -/
theorem ServeRounds.nil : ServeRounds [] [] := rfl

/-- The first round serves an operator and an operand, and the others serve the rest. -/
theorem serveRounds_cons_iff {r : Element × Element} {rounds : List (Element × Element)}
    {ops : List (Token × Expression)} :
    ServeRounds (r :: rounds) ops ↔
      ∃ op right ops', ops = (op, right) :: ops' ∧ ofElement? r.1 = some op ∧
        ofElement? r.2 = some right ∧ ServeRounds rounds ops' := by
  cases ops with
  | nil => simp [ServeRounds]
  | cons o ops =>
      obtain ⟨op, right⟩ := o
      constructor
      · intro h
        simp only [ServeRounds, List.map_cons, List.cons.injEq, Prod.mk.injEq] at h
        exact ⟨op, right, ops, rfl, h.1.1, h.1.2, h.2⟩
      · rintro ⟨_, _, _, ⟨rfl, rfl⟩, hop, hright, h⟩
        simp only [ServeRounds, List.map_cons, hop, hright] at h ⊢
        rw [h]

/-- Operators and right operands added to a left operand, from left to right. -/
def foldRounds (left : Expression) (ops : List (Token × Expression)) : Expression :=
  ops.foldl (fun left (op, right) => .binary left op right) left

/-- The chain folds to the left: each round makes the tree so far the left operand of the next. -/
theorem chainOnto_gives {rounds : List (Element × Element)} {ops : List (Token × Expression)}
    (h : ServeRounds rounds ops) (left : Expression) {bound : List Element}
    (hbound : rounds.length ≤ bound.length) :
    (chainOnto left bound).Gives (c.holding (roundElements rounds)) (foldRounds left ops)
      (c.holding []) := by
  induction rounds generalizing ops left bound with
  | nil =>
      obtain rfl : ops = [] := by simpa [ServeRounds] using h.symm
      rw [chainOnto.eq_def]
      exact get_gives.bind pure_gives
  | cons r rounds ih =>
      obtain ⟨op, right, ops, rfl, hop, hright, h⟩ := serveRounds_cons_iff.mp h
      rw [chainOnto.eq_def]
      refine get_gives.bind ?_
      cases bound with
      | nil => simp at hbound
      | cons _ bound =>
          exact (take_gives hop).bind
            ((take_gives hright).bind (ih h _ (by simpa using hbound)))

/-- Operands and operators by turns make a chain; a single operand stays as it is. -/
theorem binaryChain_gives {e : Element} {left : Expression} (he : ofElement? e = some left)
    {rounds : List (Element × Element)} (hne : rounds ≠ []) {ops : List (Token × Expression)}
    (h : ServeRounds rounds ops) :
    binaryChain.Gives (c.holding (e :: roundElements rounds))
      (.expression (foldRounds left ops)) (c.holding []) := by
  cases rounds with
  | nil => exact absurd rfl hne
  | cons r rounds =>
      have hes : roundElements (r :: rounds) = r.1 :: r.2 :: roundElements rounds := rfl
      have hlength := length_le_roundElements (r :: rounds)
      refine get_gives.bind ?_
      simp only [hes, Children.holding_rest] at hlength ⊢
      rw [← hes] at hlength ⊢
      refine (take_gives he).bind ((chainOnto_gives h left ?_).bind pure_gives)
      simp only [List.length_cons] at hlength ⊢
      omega

/-- A chain of one operand is handed through untouched. -/
theorem binaryChain_gives_single (e : Element) :
    binaryChain.Gives (c.holding [e]) e (c.holding [e]) :=
  get_gives.bind single_gives

/-- An expression is no token. -/
theorem not_token_of_expression {e : Element} {x : Expression} (he : ofElement? e = some x)
    (r : Rule) (t : Token) : e ≠ .token r t := by
  rintro rfl
  cases he

/-- An operator in front of its operand. -/
theorem unaryExpression_gives (op : Token) {e : Element} {operand : Expression}
    (he : ofElement? e = some operand) :
    unaryExpression.Gives (c.holding [.token .unaryOperator op, e])
      (.expression (.unary op operand)) (c.holding []) :=
  (tokenIf_gives (t := some op) (by simp)).bind
    ((take_gives he).bind (finish_gives.bind pure_gives))

/-- Without an operator the operand is handed through untouched. -/
theorem unaryExpression_gives_single {e : Element} {x : Expression} (he : ofElement? e = some x) :
    unaryExpression.Gives (c.holding [e]) e (c.holding [e]) := by
  refine (tokenIf_gives (t := none) ?_).bind single_gives
  intro _ t
  simpa using not_token_of_expression he .unaryOperator t

theorem parenthesizedExpression_gives {e : Element} {inner : Expression}
    (he : ofElement? e = some inner) :
    parenthesizedExpression.Gives (c.holding [e]) (.expression (.parenthesized inner))
      (c.holding []) :=
  (take_gives he).bind (finish_gives.bind pure_gives)

theorem qualifiedEnumeratedValue_gives (typeName name : Token) :
    qualifiedEnumeratedValue.Gives
      (c.holding [.token .typeName typeName, .token .identifier name])
      (.enumeratedValue ⟨some typeName, name, none⟩) (c.holding []) :=
  token_gives.bind (token_gives.bind (finish_gives.bind pure_gives))

/-! ## Calls -/

/-- An input parameter, with or without its name. -/
theorem paramAssignment_gives (name : Option Token) {e : Element} {value : Expression}
    (he : ofElement? e = some value) :
    paramAssignment.Gives (c.holding (name.toList.map (.token .identifier) ++ [e]))
      (.parameter (.input name value)) (c.holding []) := by
  refine (tokenIf_gives ?_).bind ((take_gives he).bind (finish_gives.bind pure_gives))
  intro _ t
  simpa using not_token_of_expression he .identifier t

/-- An output parameter: perhaps `NOT`, its name, and perhaps the place it goes to. -/
theorem outputParameterAssignment_gives (inverter : Option Token) (name : Token)
    {es : List Element} {target : Option Variable} (hes : Serve es target.toList) :
    outputParameterAssignment.Gives
      (c.holding (inverter.toList.map (.token .outputInverter) ++ .token .identifier name :: es))
      (.parameter (.output inverter.isSome name target)) (c.holding []) := by
  refine (tokenIf_gives ?_).bind
    (token_gives.bind ((takeIf_gives_last hes).bind (finish_gives.bind pure_gives)))
  simp [StopsToken]

/-- A call: who is called, and with which parameters. -/
theorem callOf_gives {e : Element} {callee : Variable} (he : ofElement? e = some callee)
    {es : List Element} {parameters : List Parameter} (hes : Serve es parameters) :
    callOf.Gives (c.holding (e :: es)) ⟨callee, parameters⟩ (c.holding []) :=
  (take_gives he).bind ((takeWhile_gives_all hes).bind (finish_gives.bind pure_gives))

theorem functionCall_gives {e : Element} {callee : Variable} (he : ofElement? e = some callee)
    {es : List Element} {parameters : List Parameter} (hes : Serve es parameters) :
    functionCall.Gives (c.holding (e :: es)) (.expression (.call ⟨callee, parameters⟩))
      (c.holding []) :=
  (callOf_gives he hes).bind pure_gives

theorem fbInvocation_gives {e : Element} {callee : Variable} (he : ofElement? e = some callee)
    {es : List Element} {parameters : List Parameter} (hes : Serve es parameters) :
    fbInvocation.Gives (c.holding (e :: es)) (.invocation ⟨callee, parameters⟩) (c.holding []) :=
  (callOf_gives he hes).bind pure_gives

end StructuredText.Build
