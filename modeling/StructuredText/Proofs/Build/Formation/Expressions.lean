import StructuredText.Proofs.Build.Forms

/-!
# Builders make what the table says: literals, variables and expressions

A builder that succeeded is followed from the first child it takes to the last: its children were in
the row of the table, and what it made is what the table says.
-/

namespace StructuredText.Build

open Grammar Builder

variable {c c' : Children} {es : List Element} {x : Element}

/-! ## Literals -/

/-- The builder makes literals, and of durations only those with a part. -/
def Literally (b : Builder Element) : Prop :=
  Always b fun x => ∃ v, x = .literal v ∧ ∀ d, v = .duration d → d.parts ≠ []

/-- It is the last step that makes a literal. -/
theorem Literally.bind {α : Type} {b : Builder α} {f : α → Builder Element}
    (h : ∀ a, Literally (f a)) : Literally (b >>= f) := Always.bind h

/-- Any literal but a duration needs no part. -/
theorem literally_pure {v : Literal} (h : ∀ d, v ≠ .duration d) :
    Literally (pure (.literal v)) :=
  .pure ⟨v, rfl, fun d hd => absurd hd (h d)⟩

theorem integerOf_literally (digitsOf : Rule) (base : NumberBase) :
    Literally (integerOf digitsOf base) :=
  .bind fun _ => .bind fun _ => literally_pure (by simp)

theorem integerLiteral_literally : Literally integerLiteral :=
  .bind fun _ => .bind fun _ => .bind fun _ => literally_pure (by simp)

theorem realLiteral_literally : Literally realLiteral :=
  .bind fun _ => .bind fun _ => .bind fun _ => literally_pure (by simp)

theorem bitStringOf_literally (digitsOf : Rule) (base : NumberBase) :
    Literally (bitStringOf digitsOf base) :=
  .bind fun _ => .bind fun _ => .bind fun _ => literally_pure (by simp)

theorem booleanOf_literally (rule : Rule) (value : Bool) : Literally (booleanOf rule value) :=
  .bind fun _ => .bind fun _ => literally_pure (by simp)

theorem timeOfDay_literally : Literally timeOfDay :=
  .bind fun _ => .bind fun _ => literally_pure (by simp)

theorem date_literally : Literally date :=
  .bind fun _ => .bind fun _ => literally_pure (by simp)

theorem dateAndTime_literally : Literally dateAndTime :=
  .bind fun _ => .bind fun _ => .bind fun _ => literally_pure (by simp)

theorem stringLiteral_literally : Literally stringLiteral :=
  .bind fun _ => .bind fun _ => literally_pure (by simp)

/-- A part that is set is present. -/
theorem parts_ne_nil_of_setPart? {d d' : Duration} {t : Token} {r : Rule}
    (h : setPart? d t r = some d') : d'.parts ≠ [] := by
  obtain ⟨days, hours, minutes, seconds, milliseconds⟩ := d
  unfold setPart? at h
  split at h <;> cases h
  all_goals
    cases days <;> cases hours <;> cases minutes <;> cases seconds <;> cases milliseconds <;>
      simp [Duration.parts]

/-- A duration that a part was added to has one. -/
theorem addPart_always (d : Duration) (part : RawNode Element) :
    Always (addPart d part) fun d => d.parts ≠ [] := by
  rw [addPart]
  split
  · exact .fail
  · split
    · exact .fail
    · rename_i hset
      exact .pure (parts_ne_nil_of_setPart? hset)

/-- Adding parts one by one leaves a duration with a part if there was one to add. -/
theorem foldlM_addPart_always {parts : List (RawNode Element)} (hne : parts ≠ []) (d : Duration) :
    Always (parts.foldlM addPart d) fun d => d.parts ≠ [] := by
  induction parts generalizing d with
  | nil => exact absurd rfl hne
  | cons part parts ih =>
      rw [List.foldlM_cons]
      -- the last part decides, so the induction starts at a single one
      cases parts with
      | nil =>
          intro c d' c' h
          obtain ⟨d₁, c₁, hpart, hrest⟩ := gives_bind_iff.mp h
          obtain ⟨rfl, -⟩ := of_pure hrest
          exact addPart_always d part _ _ _ hpart
      | cons part' parts => exact .bind fun d => ih (by simp) d

/-- The builder of durations refuses an empty list of parts. -/
theorem duration_literally : Literally duration := by
  intro c x c' h
  rw [duration] at h
  obtain ⟨parts, c₁, -, h₁⟩ := gives_bind_iff.mp h
  replace h₁ := of_get h₁
  split at h₁
  · exact (not_gives_fail_bind h₁).elim
  -- the check in front has passed
  · rename_i hparts
    have hne : parts ≠ [] := by
      rintro rfl
      simp at hparts
    obtain ⟨d, c₂, hd, hx⟩ := gives_bind_iff.mp (of_pure_bind h₁)
    obtain ⟨rfl, -⟩ := of_pure hx
    refine ⟨.duration d, rfl, ?_⟩
    rintro _ ⟨⟩
    exact foldlM_addPart_always hne {} _ _ _ hd

/-- A builder of literals makes a row of the table whatever its children are. -/
theorem forms_of_literally {b : Builder Element} (hb : Literally b) {r : Rule}
    (hr : r.isLiteral = true) (h : b.Gives (c.holding es) x c') : Forms c.anchor r es x := by
  obtain ⟨v, rfl, hv⟩ := hb _ _ _ h
  exact .literal v hr hv

/-! ## Variables and addresses -/

theorem variableName_forms (h : variableName.Gives (c.holding es) x c') :
    Forms c.anchor .variableName es x := by
  obtain ⟨name, es, rfl, h₁⟩ := of_token h
  obtain ⟨mark, es, rfl, h₂⟩ := of_tokenIf h₁
  obtain ⟨rfl, rfl⟩ := of_finish_pure h₂
  rw [List.append_nil]
  exact .variableName name mark

theorem fieldSelector_forms (h : fieldSelector.Gives (c.holding es) x c') :
    Forms c.anchor .fieldSelector es x := by
  obtain ⟨mark, es, rfl, h₁⟩ := of_tokenIf h
  obtain ⟨e, es, name, rfl, he, h₂⟩ := of_take h₁
  obtain ⟨rfl, rfl⟩ := of_finish_pure h₂
  exact .field mark he

theorem subscriptList_forms (h : subscriptList.Gives (c.holding es) x c') :
    Forms c.anchor .subscriptList es x := by
  obtain ⟨fs, es, indices, rfl, hfs, -, h₁⟩ := of_takeWhile h
  obtain ⟨mark, es, rfl, h₂⟩ := of_tokenIf h₁
  obtain ⟨hne, h₃⟩ := of_nonEmpty h₂
  obtain ⟨rfl, rfl⟩ := of_finish_pure h₃
  rw [List.append_nil]
  exact .subscript mark hfs hne

/-- A name and its selectors, in the order of the children. -/
theorem multiElementVariable_forms (h : multiElementVariable.Gives (c.holding es) x c') :
    Forms c.anchor .multiElementVariable es x := by
  obtain ⟨e, es, name, rfl, he, h₁⟩ := of_take h
  obtain ⟨fs, es, selectors, rfl, hfs, -, h₂⟩ := of_takeWhile h₁
  obtain ⟨rfl, rfl⟩ := of_finish_pure h₂
  rw [List.append_nil]
  cases selectors with
  | nil =>
      obtain rfl := serve_nil_iff.mp hfs
      exact .plainVariable he
  | cons selector selectors => exact .multiElement he hfs (by simp)

theorem directVariable_forms (h : directVariable.Gives (c.holding es) x c') :
    Forms c.anchor .directVariable es x := by
  have hdirect : Always directVariable fun x => ∃ d, x = .place (.direct d) := by
    refine .bind fun _ => .bind fun area => .bind fun o => ?_
    split
    · exact .bind fun size => .bind fun location => .bind fun bits => .bind fun _ => .pure ⟨_, rfl⟩
    · exact .bind fun size => .bind fun location => .bind fun bits => .bind fun _ => .pure ⟨_, rfl⟩
  obtain ⟨d, rfl⟩ := hdirect _ _ _ h
  exact .direct d

theorem location_forms (h : location.Gives (c.holding es) x c') :
    Forms c.anchor .location es x := by
  obtain ⟨e, es, d, rfl, he, h₁⟩ := of_take h
  obtain ⟨rfl, rfl⟩ := of_finish_pure h₁
  exact .location he

theorem incompleteLocation_forms (h : incompleteLocation.Gives (c.holding es) x c') :
    Forms c.anchor .incompleteLocation es x := by
  obtain ⟨t, es, rfl, h₁⟩ := of_token h
  obtain ⟨rfl, rfl⟩ := of_finish_pure h₁
  exact .incompleteLocation t

/-! ## Expressions -/

/-- The elements that count the rounds are enough for all operands. -/
theorem chained_of_chainOnto {left y : Expression} {bound : List Element}
    (hbound : es.length ≤ bound.length) (h : (chainOnto left bound).Gives (c.holding es) y c') :
    Chained left es y := by
  -- The bound has as many elements as the chain at first, and loses one a round while the chain
  -- loses two.
  induction bound generalizing left es with
  | nil =>
      obtain rfl : es = [] := List.length_eq_zero_iff.mp (Nat.le_zero.mp hbound)
      replace h := of_get h
      obtain ⟨rfl, -⟩ := of_pure h
      exact .done y
  | cons _ bound ih =>
      replace h := of_get h
      cases es with
      | nil =>
          obtain ⟨rfl, -⟩ := of_pure h
          exact .done y
      | cons f es =>
          obtain ⟨_, _, op, ⟨rfl, rfl⟩, hf, h₁⟩ := of_take h
          obtain ⟨e, es, right, rfl, he, h₂⟩ := of_take h₁
          simp only [List.length_cons] at hbound
          exact .next hf he (ih (by omega) h₂)

/-- A level of operators passed on a single child, or chained several. -/
theorem of_binaryChain (h : binaryChain.Gives (c.holding es) x c') :
    es = [x] ∨ ∃ e fs, ∃ left y : Expression, es = e :: fs ∧ fs ≠ [] ∧ ofElement? e = some left ∧
      Chained left fs y ∧ x = .expression y := by
  rw [binaryChain] at h
  replace h := of_get h
  simp only [Children.holding_rest] at h
  split at h
  · cases of_single h
    exact .inl rfl
  · rename_i hne
    obtain ⟨e, fs, left, rfl, he, h₁⟩ := of_take h
    obtain ⟨y, c₁, hchain, hx⟩ := gives_bind_iff.mp h₁
    obtain ⟨rfl, -⟩ := of_pure hx
    refine .inr ⟨e, fs, left, y, rfl, ?_, he, chained_of_chainOnto (by simp) hchain, rfl⟩
    rintro rfl
    exact hne e rfl

/-- A level of operators makes a chain, or passes its only child on. -/
theorem binaryChain_forms {r : Rule} (hr : r.isLevel = true)
    (h : binaryChain.Gives (c.holding es) x c') : Forms c.anchor r es x := by
  have hpass : r.passes = true := by
    unfold Rule.isLevel at hr
    split at hr <;> first | rfl | cases hr
  obtain rfl | ⟨e, fs, left, y, rfl, hne, he, hchain, rfl⟩ := of_binaryChain h
  · exact .pass _ hpass
  · exact .chain hr he hne hchain

/-- With an operator an operand becomes an expression, and without one it is passed on. -/
theorem unaryExpression_forms (h : unaryExpression.Gives (c.holding es) x c') :
    Forms c.anchor .unaryExpression es x := by
  obtain ⟨o, es, rfl, h₁⟩ := of_tokenIf h
  cases o with
  | none =>
      cases of_single h₁
      exact .pass _ rfl
  | some op =>
      obtain ⟨e, es, operand, rfl, he, h₂⟩ := of_take h₁
      obtain ⟨rfl, rfl⟩ := of_finish_pure h₂
      exact .unary op he

theorem parenthesizedExpression_forms (h : parenthesizedExpression.Gives (c.holding es) x c') :
    Forms c.anchor .parenthesizedExpression es x := by
  obtain ⟨e, es, inner, rfl, he, h₁⟩ := of_take h
  obtain ⟨rfl, rfl⟩ := of_finish_pure h₁
  exact .parenthesized he

theorem qualifiedEnumeratedValue_forms (h : qualifiedEnumeratedValue.Gives (c.holding es) x c') :
    Forms c.anchor .qualifiedEnumeratedValue es x := by
  obtain ⟨typeName, es, rfl, h₁⟩ := of_token h
  obtain ⟨name, es, rfl, h₂⟩ := of_token h₁
  obtain ⟨rfl, rfl⟩ := of_finish_pure h₂
  exact .qualified typeName name

theorem paramAssignment_forms (h : paramAssignment.Gives (c.holding es) x c') :
    Forms c.anchor .paramAssignment es x := by
  obtain ⟨name, es, rfl, h₁⟩ := of_tokenIf h
  obtain ⟨e, es, value, rfl, he, h₂⟩ := of_take h₁
  obtain ⟨rfl, rfl⟩ := of_finish_pure h₂
  exact .input name he

theorem outputParameterAssignment_forms (h : outputParameterAssignment.Gives (c.holding es) x c') :
    Forms c.anchor .outputParameterAssignment es x := by
  obtain ⟨inverter, es, rfl, h₁⟩ := of_tokenIf h
  obtain ⟨name, es, rfl, h₂⟩ := of_token h₁
  obtain ⟨fs, es, target, rfl, hfs, -, h₃⟩ := of_takeIf h₂
  obtain ⟨rfl, rfl⟩ := of_finish_pure h₃
  rw [List.append_nil]
  exact .output inverter name hfs

/-- What a call was made of: its callee and its parameters. -/
theorem of_callOf {β : Type} {f : Call → Builder β} {y : β}
    (h : (callOf >>= f).Gives (c.holding es) y c') :
    ∃ e fs callee parameters, es = e :: fs ∧ ofElement? e = some callee ∧ Serve fs parameters ∧
      (f ⟨callee, parameters⟩).Gives (c.holding []) y c' := by
  rw [callOf] at h
  obtain ⟨e, es, callee, rfl, he, h₁⟩ := of_take (of_bind h)
  obtain ⟨fs, es, parameters, rfl, hfs, -, h₂⟩ := of_takeWhile (of_bind h₁)
  obtain ⟨rfl, h₃⟩ := of_finish (of_bind h₂)
  exact ⟨e, fs, callee, parameters, by rw [List.append_nil], he, hfs, of_pure_bind h₃⟩

theorem functionCall_forms (h : functionCall.Gives (c.holding es) x c') :
    Forms c.anchor .functionCall es x := by
  obtain ⟨e, fs, callee, parameters, rfl, he, hfs, h₁⟩ := of_callOf h
  obtain ⟨rfl, -⟩ := of_pure h₁
  exact .functionCall he hfs

theorem fbInvocation_forms (h : fbInvocation.Gives (c.holding es) x c') :
    Forms c.anchor .fbInvocation es x := by
  obtain ⟨e, fs, callee, parameters, rfl, he, hfs, h₁⟩ := of_callOf h
  obtain ⟨rfl, -⟩ := of_pure h₁
  exact .fbInvocation he hfs

end StructuredText.Build
