import StructuredText.Build.Statements
import StructuredText.Proofs.Build.Children

/-!
# What statements are built from

The statement or clause that each builder makes of the elements it accepts. A body that was not
written is the empty list of statements.
-/

namespace StructuredText.Build

open Builder

variable {c : Children} {e : Element} {es fs : List Element}

/-! ## What is no what -/

/-- An expression is no list of statements. -/
theorem statements_of_expression {x : Expression} (he : ofElement? e = some x) :
    (ofElement? e : Option (List Statement)) = none := by
  cases e <;> first | rfl | cases he

/-- An expression is no last clause. -/
theorem else_of_expression {x : Expression} (he : ofElement? e = some x) :
    (ofElement? e : Option Else) = none := by
  cases e <;> first | rfl | cases he

/-- A list of statements is no last clause. -/
theorem else_of_statements {ss : List Statement} (he : ofElement? e = some ss) :
    (ofElement? e : Option Else) = none := by
  cases e <;> first | rfl | cases he

/-- A further condition is no list of statements. -/
theorem statements_of_elseIf {x : ElseIf} (he : ofElement? e = some x) :
    (ofElement? e : Option (List Statement)) = none := by
  cases e <;> first | rfl | cases he

/-- A further condition is no last clause. -/
theorem else_of_elseIf {x : ElseIf} (he : ofElement? e = some x) :
    (ofElement? e : Option Else) = none := by
  cases e <;> first | rfl | cases he

/-- A case is no last clause. -/
theorem else_of_case {x : Case} (he : ofElement? e = some x) :
    (ofElement? e : Option Else) = none := by
  cases e <;> first | rfl | cases he

/-- A list of statements is no expression. -/
theorem expression_of_statements {ss : List Statement} (he : ofElement? e = some ss) :
    (ofElement? e : Option Expression) = none := by
  cases e <;> first | rfl | cases he

/-! ## Bodies -/

/-- A body in front of other children; where none is written, the body is empty. -/
theorem takeBody_gives {body : Option (List Statement)} (hes : Serve es body.toList)
    {rest : List Element} (hstop : body = none → Stops (List Statement) rest) :
    takeBody.Gives (c.holding (es ++ rest)) (body.getD []) (c.holding rest) :=
  (takeIf_gives hes hstop).bind pure_gives

/-- A body behind which nothing stands. -/
theorem takeBody_gives_last {body : Option (List Statement)} (hes : Serve es body.toList) :
    takeBody.Gives (c.holding es) (body.getD []) (c.holding []) :=
  (takeIf_gives_last hes).bind pure_gives

/-- Empty statements leave nothing; a list of nothing else is a token. -/
theorem statementList_gives (t : Option Token) {statements : List Statement}
    (hes : Serve es statements) (hstop : t = none → StopsToken .statementList es) :
    statementList.Gives (c.holding (t.toList.map (.token .statementList) ++ es))
      (.statements statements) (c.holding []) :=
  (tokenIf_gives hstop).bind ((takeWhile_gives_all hes).bind (finish_gives.bind pure_gives))

/-! ## Simple statements -/

/-- A simple statement gets the anchor of its node. -/
theorem simpleOf_gives {b : Builder SimpleStatement} {s : SimpleStatement}
    (h : b.Gives (c.holding es) s (c.holding [])) :
    (simpleOf b).Gives (c.holding es) (.statement (.simple c.anchor s)) (c.holding []) :=
  anchor_gives.bind (h.bind (finish_gives.bind pure_gives))

/-- The value is read off the end, so that the targets in front are a row of variables. -/
theorem assignmentStatement_gives {targets : List Variable} (hes : Serve es targets)
    (hne : targets ≠ []) {value : Expression} (he : ofElement? e = some value) :
    assignmentStatement.Gives (c.holding (es ++ [e]))
      (.statement (.simple c.anchor (.assignment targets value))) (c.holding []) :=
  simpleOf_gives ((takeLast_gives he).bind ((takeWhile_gives_all hes).bind
    ((nonEmpty_gives hne).bind pure_gives)))

/-- Three statements share this handler; the operator says which. -/
theorem targetedStatement_gives (op : TargetOperator) {target : Variable}
    (he : ofElement? e = some target) {f : Element} {value : Expression}
    (hf : ofElement? f = some value) :
    (targetedStatement op).Gives (c.holding [e, f])
      (.statement (.simple c.anchor (.targeted op target value))) (c.holding []) :=
  simpleOf_gives ((take_gives he).bind ((take_gives hf).bind pure_gives))

theorem methodStatement_gives {method : Variable} (he : ofElement? e = some method) :
    methodStatement.Gives (c.holding [e])
      (.statement (.simple c.anchor (.methodCall method))) (c.holding []) :=
  simpleOf_gives ((take_gives he).bind pure_gives)

theorem fbInvocationStatement_gives (call : Call) :
    fbInvocationStatement.Gives (c.holding [.invocation call])
      (.statement (.simple c.anchor (.invocation call))) (c.holding []) :=
  simpleOf_gives ((take_gives rfl).bind pure_gives)

theorem noOpStatement_gives {place : Variable} (he : ofElement? e = some place) :
    noOpStatement.Gives (c.holding [e]) (.statement (.simple c.anchor (.noOp place)))
      (c.holding []) :=
  simpleOf_gives ((take_gives he).bind pure_gives)

/-- A jump has no children. -/
theorem jumpStatement_gives (jump : Jump) :
    (jumpStatement jump).Gives (c.holding []) (.statement (.simple c.anchor (.jump jump)))
      (c.holding []) :=
  simpleOf_gives pure_gives

/-! ## Statements that hold others -/

/-- A branch with an empty body has no statements. -/
theorem elseIfClause_gives {condition : Expression} (he : ofElement? e = some condition)
    {body : Option (List Statement)} (hes : Serve es body.toList) :
    elseIfClause.Gives (c.holding (e :: es)) (.elseIf ⟨c.anchor, condition, body.getD []⟩)
      (c.holding []) :=
  anchor_gives.bind ((take_gives he).bind
    ((takeBody_gives_last hes).bind (finish_gives.bind pure_gives)))

theorem elseClause_gives {body : Option (List Statement)} (hes : Serve es body.toList) :
    elseClause.Gives (c.holding es) (.otherwise ⟨c.anchor, body.getD []⟩) (c.holding []) :=
  anchor_gives.bind ((takeBody_gives_last hes).bind (finish_gives.bind pure_gives))

/-- The condition, the body, the branches and the last branch are told apart by their kinds. -/
theorem ifStatement_gives {condition : Expression} (he : ofElement? e = some condition)
    {bs : List Element} {body : Option (List Statement)} (hbs : Serve bs body.toList)
    {elseIfs : List ElseIf} (hes : Serve es elseIfs) {otherwise : Option Else}
    (hfs : Serve fs otherwise.toList) :
    ifStatement.Gives (c.holding (e :: (bs ++ es) ++ fs))
      (.statement (.ifThen c.anchor condition (body.getD []) elseIfs otherwise))
      (c.holding []) := by
  refine anchor_gives.bind ((takeLastIf_gives hfs ?_).bind ((take_gives he).bind
    ((takeBody_gives hbs ?_).bind ((takeWhile_gives_all hes).bind
      (finish_gives.bind pure_gives)))))
  · intro _
    exact .cons (else_of_expression he)
      ((hbs.lacks fun _ _ => else_of_statements).append (hes.lacks fun _ _ => else_of_elseIf))
  · intro _
    exact (hes.lacks fun _ _ => statements_of_elseIf).stops

/-- A label is read off one element. -/
theorem caseLabel_gives {label : CaseLabel} (he : ofElement? e = some label) :
    (caseLabel e).Gives c label c := by
  simp only [caseLabel, he]
  exact pure_gives

/-- Labels in a row, element by element. -/
theorem mapM_caseLabel_gives {labels : List CaseLabel} (hes : Serve es labels) :
    (es.mapM caseLabel).Gives c labels c := by
  induction labels generalizing es with
  | nil =>
      obtain rfl := serve_nil_iff.mp hes
      exact pure_gives
  | cons label labels ih =>
      obtain ⟨e, es, rfl, he, hes⟩ := serve_cons_iff.mp hes
      rw [List.mapM_cons]
      exact (caseLabel_gives he).bind ((ih hes).bind pure_gives)

/-- The labels are the children of a raw node, the statements stand behind it. -/
theorem caseElement_gives {list : RawNode Element} (hrule : list.rule = .caseList)
    {labels : List CaseLabel} (hlabels : Serve list.children labels)
    {body : Option (List Statement)} (hes : Serve es body.toList) :
    caseElement.Gives (c.holding (.raw list :: es)) (.case ⟨c.anchor, labels, body.getD []⟩)
      (c.holding []) := by
  refine anchor_gives.bind ((take_gives rfl).bind ?_)
  simp only [hrule, ne_eq, not_true_eq_false, if_false]
  exact (mapM_caseLabel_gives hlabels).bind
    ((takeBody_gives_last hes).bind (finish_gives.bind pure_gives))

theorem caseStatement_gives {selector : Expression} (he : ofElement? e = some selector)
    {cases : List Case} (hes : Serve es cases) {otherwise : Option Else}
    (hfs : Serve fs otherwise.toList) :
    caseStatement.Gives (c.holding (e :: es ++ fs))
      (.statement (.caseOf c.anchor selector cases otherwise)) (c.holding []) := by
  refine anchor_gives.bind ((takeLastIf_gives hfs ?_).bind ((take_gives he).bind
    ((takeWhile_gives_all hes).bind (finish_gives.bind pure_gives))))
  intro _
  exact .cons (else_of_expression he) (hes.lacks fun _ _ => else_of_case)

/-- The step is an expression and the body is none, so the one is never taken for the other. -/
theorem forStatement_gives {f g : Element} {control : SymbolicVariable}
    (he : ofElement? e = some control) {first last : Expression} (hf : ofElement? f = some first)
    (hg : ofElement? g = some last) {step : Option Expression} (hes : Serve es step.toList)
    {body : Option (List Statement)} (hfs : Serve fs body.toList) :
    forStatement.Gives (c.holding (e :: f :: g :: (es ++ fs)))
      (.statement (.forTo c.anchor control first last step (body.getD []))) (c.holding []) := by
  refine anchor_gives.bind ((take_gives he).bind ((take_gives hf).bind ((take_gives hg).bind
    ((takeIf_gives hes ?_).bind ((takeBody_gives_last hfs).bind
      (finish_gives.bind pure_gives))))))
  intro _
  exact (hfs.lacks fun _ _ => expression_of_statements).stops

theorem whileStatement_gives {condition : Expression} (he : ofElement? e = some condition)
    {body : Option (List Statement)} (hes : Serve es body.toList) :
    whileStatement.Gives (c.holding (e :: es))
      (.statement (.whileDo c.anchor condition (body.getD []))) (c.holding []) :=
  anchor_gives.bind ((take_gives he).bind
    ((takeBody_gives_last hes).bind (finish_gives.bind pure_gives)))

/-- The condition stands behind the body and is read off the end. -/
theorem repeatStatement_gives {condition : Expression} (he : ofElement? e = some condition)
    {body : Option (List Statement)} (hes : Serve es body.toList) :
    repeatStatement.Gives (c.holding (es ++ [e]))
      (.statement (.repeatUntil c.anchor (body.getD []) condition)) (c.holding []) :=
  anchor_gives.bind ((takeBody_gives hes fun _ => .cons (statements_of_expression he)).bind
    ((take_gives he).bind (finish_gives.bind pure_gives)))

end StructuredText.Build
