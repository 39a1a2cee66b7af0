import StructuredText.Proofs.Build.Forms

/-!
# Builders make what the table says: statements, units and files
-/

namespace StructuredText.Build

open Grammar Builder

variable {c c' : Children} {es : List Element} {x : Element}

/-! ## Statements -/

/-- Children in front served as the statements of a body, or there were none. -/
theorem of_takeBody {β : Type} {f : List Statement → Builder β} {y : β}
    (h : (takeBody >>= f).Gives (c.holding es) y c') :
    ∃ fs rest body, es = fs ++ rest ∧ Serve fs (Option.toList body) ∧
      (f (body.getD [])).Gives (c.holding rest) y c' := by
  rw [takeBody] at h
  obtain ⟨fs, rest, body, rfl, hfs, -, h₁⟩ := of_takeIf (of_bind h)
  exact ⟨fs, rest, body, rfl, hfs, of_pure_bind h₁⟩

/-- A simple statement leaves nothing over. -/
theorem of_simpleOf {b : Builder SimpleStatement} (h : (simpleOf b).Gives (c.holding es) x c') :
    ∃ s c₁, b.Gives (c.holding es) s c₁ ∧ c₁.rest = [] ∧
      x = .statement (.simple c.anchor s) := by
  rw [simpleOf] at h
  replace h := of_anchor h
  obtain ⟨s, c₁, hs, h₁⟩ := gives_bind_iff.mp h
  have h₂ : (finish >>= fun _ => pure (.statement (.simple c.anchor s))).Gives
      (c₁.holding c₁.rest) x c' := h₁
  obtain ⟨hrest, rfl⟩ := of_finish_pure h₂
  exact ⟨s, c₁, hs, hrest, rfl⟩

/-- The value is the last child and all in front of it are targets, one at least. -/
theorem assignmentStatement_forms (h : assignmentStatement.Gives (c.holding es) x c') :
    Forms c.anchor .assignmentStatement es x := by
  obtain ⟨s, c₁, h₁, hrest, rfl⟩ := of_simpleOf h
  obtain ⟨e, es, value, rfl, he, h₂⟩ := of_takeLast h₁
  obtain ⟨fs, es, targets, rfl, hfs, -, h₃⟩ := of_takeWhile h₂
  obtain ⟨hne, h₄⟩ := of_nonEmpty h₃
  obtain ⟨rfl, rfl⟩ := of_pure h₄
  obtain rfl : es = [] := hrest
  rw [List.append_nil]
  exact .assignment hfs hne he

/-- A target and a value; the operator goes by the rule. -/
theorem targetedStatement_forms {r : Rule} {op : TargetOperator}
    (hr : r.targetOperator? = some op) (h : (targetedStatement op).Gives (c.holding es) x c') :
    Forms c.anchor r es x := by
  obtain ⟨s, c₁, h₁, hrest, rfl⟩ := of_simpleOf h
  obtain ⟨e, es, target, rfl, he, h₂⟩ := of_take h₁
  obtain ⟨f, es, value, rfl, hf, h₃⟩ := of_take h₂
  obtain ⟨rfl, rfl⟩ := of_pure h₃
  obtain rfl : es = [] := hrest
  exact .targeted hr he hf

/-- A simple statement of one child leaves no other behind. -/
theorem methodStatement_forms (h : methodStatement.Gives (c.holding es) x c') :
    Forms c.anchor .methodStatement es x := by
  obtain ⟨s, c₁, h₁, hrest, rfl⟩ := of_simpleOf h
  obtain ⟨e, es, method, rfl, he, h₂⟩ := of_take h₁
  obtain ⟨rfl, rfl⟩ := of_pure h₂
  obtain rfl : es = [] := hrest
  exact .methodCall he

theorem fbInvocationStatement_forms (h : fbInvocationStatement.Gives (c.holding es) x c') :
    Forms c.anchor .fbInvocationStatement es x := by
  obtain ⟨s, c₁, h₁, hrest, rfl⟩ := of_simpleOf h
  obtain ⟨e, es, call, rfl, he, h₂⟩ := of_take h₁
  obtain ⟨rfl, rfl⟩ := of_pure h₂
  obtain rfl : es = [] := hrest
  exact .invocation he

theorem noOpStatement_forms (h : noOpStatement.Gives (c.holding es) x c') :
    Forms c.anchor .noOpStatement es x := by
  obtain ⟨s, c₁, h₁, hrest, rfl⟩ := of_simpleOf h
  obtain ⟨e, es, place, rfl, he, h₂⟩ := of_take h₁
  obtain ⟨rfl, rfl⟩ := of_pure h₂
  obtain rfl : es = [] := hrest
  exact .noOp he

/-- A statement of one keyword has no children. -/
theorem jumpStatement_forms {r : Rule} {j : Jump} (hr : r.jump? = some j)
    (h : (jumpStatement j).Gives (c.holding es) x c') : Forms c.anchor r es x := by
  obtain ⟨s, c₁, h₁, hrest, rfl⟩ := of_simpleOf h
  obtain ⟨rfl, rfl⟩ := of_pure h₁
  obtain rfl : es = [] := hrest
  exact .jump hr

/-- The condition is the first child, and the statements behind it are the body. -/
theorem elseIfClause_forms (h : elseIfClause.Gives (c.holding es) x c') :
    Forms c.anchor .elseIfClause es x := by
  replace h := of_anchor h
  obtain ⟨e, es, condition, rfl, he, h₁⟩ := of_take h
  obtain ⟨fs, es, body, rfl, hfs, h₂⟩ := of_takeBody h₁
  obtain ⟨rfl, rfl⟩ := of_finish_pure h₂
  rw [List.append_nil]
  exact .elseIf he hfs

theorem elseClause_forms (h : elseClause.Gives (c.holding es) x c') :
    Forms c.anchor .elseClause es x := by
  replace h := of_anchor h
  obtain ⟨fs, es, body, rfl, hfs, h₁⟩ := of_takeBody h
  obtain ⟨rfl, rfl⟩ := of_finish_pure h₁
  rw [List.append_nil]
  exact .otherwise hfs

/-- The last branch is taken from the end, before the condition, the body and the further branches
are taken from the front. -/
theorem ifStatement_forms (h : ifStatement.Gives (c.holding es) x c') :
    Forms c.anchor .ifStatement es x := by
  replace h := of_anchor h
  -- in the order in which the children are taken
  obtain ⟨gs, es, otherwise, rfl, hgs, h₁⟩ := of_takeLastIf h
  obtain ⟨e, es, condition, rfl, he, h₂⟩ := of_take h₁
  obtain ⟨bs, es, body, rfl, hbs, h₃⟩ := of_takeBody h₂
  obtain ⟨fs, es, elseIfs, rfl, hfs, -, h₄⟩ := of_takeWhile h₃
  obtain ⟨rfl, rfl⟩ := of_finish_pure h₄
  rw [List.append_nil]
  exact .ifThen he hbs hfs hgs

/-- The labels are values that the elements serve as. -/
theorem serve_of_mapM_caseLabel {c₁ : Children} {labels : List CaseLabel}
    (h : (es.mapM caseLabel).Gives c labels c₁) : Serve es labels ∧ c₁ = c := by
  -- label by label; a child that is no label would have failed
  induction es generalizing labels c₁ with
  | nil =>
      obtain ⟨rfl, rfl⟩ := of_pure h
      exact ⟨.nil, rfl⟩
  | cons e es ih =>
      rw [List.mapM_cons] at h
      obtain ⟨label, c₂, hlabel, h₁⟩ := gives_bind_iff.mp h
      rw [caseLabel] at hlabel
      split at hlabel
      · rename_i label' he
        obtain ⟨rfl, rfl⟩ := of_pure hlabel
        obtain ⟨labels, c₃, hlabels, h₂⟩ := gives_bind_iff.mp h₁
        obtain ⟨hserve, rfl⟩ := ih hlabels
        obtain ⟨rfl, rfl⟩ := of_pure h₂
        exact ⟨.cons he hserve, rfl⟩
      · exact (not_gives_fail hlabel).elim

/-- The labels are the children of a raw node of the right rule, and the body stands behind it. -/
theorem caseElement_forms (h : caseElement.Gives (c.holding es) x c') :
    Forms c.anchor .caseElement es x := by
  replace h := of_anchor h
  obtain ⟨e, es, list, rfl, he, h₁⟩ := of_take h
  -- only a raw node is taken as a list of labels
  obtain rfl : e = .raw list := by
    cases e <;> first | (cases he; rfl) | cases he
  dsimp only at h₁
  split at h₁
  · exact (not_gives_fail_bind h₁).elim
  · rename_i hrule
    obtain ⟨labels, c₁, hlabels, h₂⟩ := gives_bind_iff.mp (of_pure_bind h₁)
    obtain ⟨hserve, rfl⟩ := serve_of_mapM_caseLabel hlabels
    obtain ⟨fs, es, body, rfl, hfs, h₃⟩ := of_takeBody h₂
    obtain ⟨rfl, rfl⟩ := of_finish_pure h₃
    rw [List.append_nil]
    exact .case (Decidable.not_not.mp hrule) hserve hfs

/-- The last branch is taken from the end, the cases from the front. -/
theorem caseStatement_forms (h : caseStatement.Gives (c.holding es) x c') :
    Forms c.anchor .caseStatement es x := by
  replace h := of_anchor h
  obtain ⟨gs, es, otherwise, rfl, hgs, h₁⟩ := of_takeLastIf h
  obtain ⟨e, es, selector, rfl, he, h₂⟩ := of_take h₁
  obtain ⟨fs, es, cases, rfl, hfs, -, h₃⟩ := of_takeWhile h₂
  obtain ⟨rfl, rfl⟩ := of_finish_pure h₃
  rw [List.append_nil]
  exact .caseOf he hfs hgs

/-- The control variable, two bounds, a step if there is one, and the body. -/
theorem forStatement_forms (h : forStatement.Gives (c.holding es) x c') :
    Forms c.anchor .forStatement es x := by
  replace h := of_anchor h
  obtain ⟨e, es, control, rfl, he, h₁⟩ := of_take h
  obtain ⟨f, es, first, rfl, hf, h₂⟩ := of_take h₁
  obtain ⟨g, es, last, rfl, hg, h₃⟩ := of_take h₂
  obtain ⟨fs, es, step, rfl, hfs, -, h₄⟩ := of_takeIf h₃
  obtain ⟨bs, es, body, rfl, hbs, h₅⟩ := of_takeBody h₄
  obtain ⟨rfl, rfl⟩ := of_finish_pure h₅
  rw [List.append_nil]
  exact .forTo he hf hg hfs hbs

theorem whileStatement_forms (h : whileStatement.Gives (c.holding es) x c') :
    Forms c.anchor .whileStatement es x := by
  replace h := of_anchor h
  obtain ⟨e, es, condition, rfl, he, h₁⟩ := of_take h
  obtain ⟨fs, es, body, rfl, hfs, h₂⟩ := of_takeBody h₁
  obtain ⟨rfl, rfl⟩ := of_finish_pure h₂
  rw [List.append_nil]
  exact .whileDo he hfs

/-- The condition is taken behind the body. -/
theorem repeatStatement_forms (h : repeatStatement.Gives (c.holding es) x c') :
    Forms c.anchor .repeatStatement es x := by
  replace h := of_anchor h
  obtain ⟨fs, es, body, rfl, hfs, h₁⟩ := of_takeBody h
  obtain ⟨e, es, condition, rfl, he, h₂⟩ := of_take h₁
  obtain ⟨rfl, rfl⟩ := of_finish_pure h₂
  exact .repeatUntil hfs he

/-- The token of an empty list is dropped, and all other children are statements. -/
theorem statementList_forms (h : statementList.Gives (c.holding es) x c') :
    Forms c.anchor .statementList es x := by
  obtain ⟨t, es, rfl, h₁⟩ := of_tokenIf h
  obtain ⟨fs, es, statements, rfl, hfs, -, h₂⟩ := of_takeWhile h₁
  obtain ⟨rfl, rfl⟩ := of_finish_pure h₂
  rw [List.append_nil]
  exact .statements t hfs

/-! ## Units and files -/

theorem functionBlockBody_forms (h : functionBlockBody.Gives (c.holding es) x c') :
    Forms c.anchor .functionBlockBody es x := by
  replace h := of_anchor h
  obtain ⟨e, es, statements, rfl, he, h₁⟩ := of_take h
  obtain ⟨rfl, rfl⟩ := of_finish_pure h₁
  exact .body he

/-- A child in front served as the body of a unit; a body without statements counts as none. -/
theorem of_takeUnitBody {β : Type} {f : Option Body → Builder β} {y : β}
    (h : (takeUnitBody >>= f).Gives (c.holding es) y c') :
    ∃ fs rest body, es = fs ++ rest ∧ Serve fs (Option.toList body) ∧
      (f (body.filter (!·.statements.isEmpty))).Gives (c.holding rest) y c' := by
  rw [takeUnitBody] at h
  obtain ⟨fs, rest, body, rfl, hfs, -, h₁⟩ := of_takeIf (of_bind h)
  exact ⟨fs, rest, body, rfl, hfs, of_pure_bind h₁⟩

/-- A unit is built once its heading is. -/
theorem unitOf_forms {r : Rule} {heading : Builder (UnitKind × Token)}
    (hhead : ∀ {es : List Element} {p : UnitKind × Token} {c₁ : Children},
      heading.Gives (c.holding es) p c₁ →
        ∃ fs rest, es = fs ++ rest ∧ Heads r fs p.1 p.2 ∧ c₁ = c.holding rest)
    (h : (unitOf heading).Gives (c.holding es) x c') : Forms c.anchor r es x := by
  rw [unitOf] at h
  replace h := of_anchor h
  obtain ⟨⟨kind, name⟩, c₁, hp, h₁⟩ := gives_bind_iff.mp h
  obtain ⟨fs, es, rfl, hfs, rfl⟩ := hhead hp
  dsimp only at h₁ hfs
  -- behind the heading all units are alike
  obtain ⟨ds, es, declarations, rfl, hds, -, h₂⟩ := of_takeWhile h₁
  obtain ⟨bs, es, body, rfl, hbs, h₃⟩ := of_takeUnitBody h₂
  obtain ⟨rfl, rfl⟩ := of_finish_pure h₃
  rw [List.append_nil]
  exact .unit hfs hds hbs

/-- The optional parts of the heading are told apart by their rules. -/
theorem functionBlockTypeDeclaration_forms
    (h : functionBlockTypeDeclaration.Gives (c.holding es) x c') :
    Forms c.anchor .functionBlockTypeDeclaration es x := by
  refine unitOf_forms ?_ h
  intro es p c₁ hp
  obtain ⟨qualifier, es, rfl, h₁⟩ := of_tokenIf hp
  obtain ⟨name, es, rfl, h₂⟩ := of_token h₁
  obtain ⟨base, es, rfl, h₃⟩ := of_tokenIf h₂
  obtain ⟨implements, es, rfl, h₄⟩ := of_tokenListIf h₃
  obtain ⟨rfl, rfl⟩ := of_pure h₄
  exact ⟨_, es, by simp, .functionBlock qualifier base implements name, rfl⟩

/-- The type of the result is the only child of the heading behind the name. -/
theorem functionDeclaration_forms (h : functionDeclaration.Gives (c.holding es) x c') :
    Forms c.anchor .functionDeclaration es x := by
  refine unitOf_forms ?_ h
  intro es p c₁ hp
  obtain ⟨name, es, rfl, h₁⟩ := of_token hp
  obtain ⟨fs, es, returnType, rfl, hfs, -, h₂⟩ := of_takeIf h₁
  obtain ⟨rfl, rfl⟩ := of_pure h₂
  exact ⟨_, es, rfl, .function name hfs, rfl⟩

theorem programDeclaration_forms (h : programDeclaration.Gives (c.holding es) x c') :
    Forms c.anchor .programDeclaration es x := by
  refine unitOf_forms ?_ h
  intro es p c₁ hp
  obtain ⟨name, es, rfl, h₁⟩ := of_token hp
  obtain ⟨rfl, rfl⟩ := of_pure h₁
  exact ⟨_, es, rfl, .program name, rfl⟩

/-- Access specifiers in front of the name, the type of the result behind it. -/
theorem functionBlockMethodDeclaration_forms
    (h : functionBlockMethodDeclaration.Gives (c.holding es) x c') :
    Forms c.anchor .functionBlockMethodDeclaration es x := by
  refine unitOf_forms ?_ h
  intro es p c₁ hp
  obtain ⟨fs, es, access, rfl, hfs, -, h₁⟩ := of_takeIf hp
  obtain ⟨name, es, rfl, h₂⟩ := of_token h₁
  obtain ⟨gs, es, returnType, rfl, hgs, -, h₃⟩ := of_takeIf h₂
  obtain ⟨rfl, rfl⟩ := of_pure h₃
  exact ⟨_, es, by simp, .method name hfs hgs, rfl⟩

/-- An action is built once its kind is known. -/
theorem actionOf_forms {r : Rule} {kind : Builder ActionKind}
    (hkind : ∀ {es : List Element} {k : ActionKind} {c₁ : Children},
      kind.Gives (c.holding es) k c₁ →
        ∃ fs rest, es = fs ++ rest ∧ Acts r fs k ∧ c₁ = c.holding rest)
    (h : (actionOf kind).Gives (c.holding es) x c') : Forms c.anchor r es x := by
  rw [actionOf] at h
  replace h := of_anchor h
  obtain ⟨k, c₁, hk, h₁⟩ := gives_bind_iff.mp h
  obtain ⟨fs, es, rfl, hfs, rfl⟩ := hkind hk
  obtain ⟨bs, es, body, rfl, hbs, h₂⟩ := of_takeUnitBody h₁
  obtain ⟨rfl, rfl⟩ := of_finish_pure h₂
  rw [List.append_nil]
  exact .action hfs hbs

/-- An action by name takes its name from the first child. -/
theorem action_forms
    (h : (actionOf do pure (.named (← Builder.token .identifier))).Gives (c.holding es) x c') :
    Forms c.anchor .action es x := by
  refine actionOf_forms ?_ h
  intro es k c₁ hk
  obtain ⟨name, es, rfl, h₁⟩ := of_token hk
  obtain ⟨rfl, rfl⟩ := of_pure h₁
  exact ⟨_, es, rfl, .named name, rfl⟩

theorem entryAction_forms (h : (actionOf (pure .entry)).Gives (c.holding es) x c') :
    Forms c.anchor .entryAction es x := by
  refine actionOf_forms ?_ h
  intro es k c₁ hk
  obtain ⟨rfl, rfl⟩ := of_pure hk
  exact ⟨[], es, rfl, .entry, rfl⟩

theorem exitAction_forms (h : (actionOf (pure .exit)).Gives (c.holding es) x c') :
    Forms c.anchor .exitAction es x := by
  refine actionOf_forms ?_ h
  intro es k c₁ hk
  obtain ⟨rfl, rfl⟩ := of_pure hk
  exact ⟨[], es, rfl, .exit, rfl⟩

/-- All children of a file are items. -/
theorem iecSource_forms (h : iecSource.Gives (c.holding es) x c') :
    Forms c.anchor .iecSource es x := by
  obtain ⟨fs, es, items, rfl, hfs, -, h₁⟩ := of_takeWhile h
  obtain ⟨rfl, rfl⟩ := of_finish_pure h₁
  rw [List.append_nil]
  exact .file hfs

end StructuredText.Build
