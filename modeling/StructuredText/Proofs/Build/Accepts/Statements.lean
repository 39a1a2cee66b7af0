import StructuredText.Proofs.Build.Accepts.Expressions
import StructuredText.Proofs.Build.Statements
import StructuredText.Proofs.Build.Units

/-!
# Builders accept what their rules leave: statements, units and files
-/

namespace StructuredText.Build

open Grammar Expr Builder

variable {r : Rule} {e : Expr} {es : List Element}

/-! ## Simple statements -/

/-- The targets of an assignment behind the first. -/
theorem targets_of_many (h : (many (spaced [Rule.anyVariable, ":="])).Leaves es) :
    ∃ vs : List Variable, Serve es vs := by
  apply serve_of_many h
  intro xs hxs
  obtain ⟨_, rfl, v, rfl⟩ := row_of_spaced hxs
  exact ⟨[v], .one rfl⟩

/-- An assignment to one target or to several. -/
theorem assignmentStatement_accepts : Accepts .assignmentStatement := by
  rintro b e es c ⟨⟩ ⟨⟩ h - -
  obtain ⟨_, _, ⟨_, rfl, v, rfl⟩, ⟨ts, _, hts, ⟨x, rfl, a, ha⟩, rfl⟩, rfl⟩ := row_of_spaced h
  obtain ⟨targets, hts⟩ := targets_of_many hts
  have hall : Serve (.place v :: ts) (v :: targets) := .cons rfl hts
  exact ⟨_, _, assignmentStatement_gives hall (by simp) ha, _, rfl⟩

/-- An assignment to one target is accepted. -/
theorem targetedStatement_accepts {op : TargetOperator} {operator : Text}
    (hb : builder? r = some (targetedStatement op)) (hr : r.production = targeted operator)
    (hmakes : ∀ s, r.Makes (.statement s)) : Accepts r := by
  intro b e' es c hb' hr' h _ _
  obtain rfl := Option.some.inj (hb.symm.trans hb')
  obtain rfl := Production.node.inj (hr.symm.trans hr')
  obtain ⟨_, _, ⟨_, rfl, v, rfl⟩, ⟨x, rfl, a, ha⟩, rfl⟩ := row_of_spaced h
  exact ⟨_, _, targetedStatement_gives op rfl ha, hmakes _⟩

theorem setStatement_accepts : Accepts .setStatement :=
  targetedStatement_accepts rfl rfl fun s => ⟨s, rfl⟩

theorem resetStatement_accepts : Accepts .resetStatement :=
  targetedStatement_accepts rfl rfl fun s => ⟨s, rfl⟩

theorem referenceAssignmentStatement_accepts : Accepts .referenceAssignmentStatement :=
  targetedStatement_accepts rfl rfl fun s => ⟨s, rfl⟩

/-- A statement of one keyword is accepted. -/
theorem jumpStatement_accepts {j : Jump} {k : Keyword}
    (hb : builder? r = some (jumpStatement j)) (hr : r.production = Grammar.jump k)
    (hmakes : ∀ s, r.Makes (.statement s)) : Accepts r := by
  intro b e' es c hb' hr' h _ _
  obtain rfl := Option.some.inj (hb.symm.trans hb')
  obtain rfl := Production.node.inj (hr.symm.trans hr')
  obtain rfl : es = [] := row_of_spaced h
  exact ⟨_, _, jumpStatement_gives j, hmakes _⟩

theorem exitStatement_accepts : Accepts .exitStatement :=
  jumpStatement_accepts rfl rfl fun s => ⟨s, rfl⟩

theorem continueStatement_accepts : Accepts .continueStatement :=
  jumpStatement_accepts rfl rfl fun s => ⟨s, rfl⟩

theorem returnStatement_accepts : Accepts .returnStatement :=
  jumpStatement_accepts rfl rfl fun s => ⟨s, rfl⟩

/-- A call of a method is a variable with empty parentheses. -/
theorem methodStatement_accepts : Accepts .methodStatement := by
  rintro b e es c ⟨⟩ ⟨⟩ h - -
  obtain ⟨_, rfl, v, rfl⟩ := row_of_spaced h
  exact ⟨_, _, methodStatement_gives rfl, _, rfl⟩

theorem fbInvocationStatement_accepts : Accepts .fbInvocationStatement := by
  rintro b e es c ⟨⟩ ⟨⟩ h - -
  obtain ⟨_, rfl, call, rfl⟩ := row_of_spaced h
  exact ⟨_, _, fbInvocationStatement_gives call, _, rfl⟩

theorem noOpStatement_accepts : Accepts .noOpStatement := by
  rintro b e es c ⟨⟩ ⟨⟩ h - -
  obtain ⟨_, rfl, v, rfl⟩ := row_of_spaced h
  exact ⟨_, _, noOpStatement_gives rfl, _, rfl⟩

/-! ## Statements that hold others -/

/-- The statements between two keywords, if there are any. -/
theorem body_of_opt (h : (opt Rule.statementList).Leaves es) :
    ∃ ss : Option (List Statement), Serve es ss.toList :=
  serve_of_opt h (by
    rintro xs ⟨_, rfl, ss, rfl⟩
    exact ⟨_, rfl, ss, rfl⟩)

/-- A last branch, if there is one. -/
theorem else_of_opt (h : (opt Rule.elseClause).Leaves es) :
    ∃ x : Option Else, Serve es x.toList := serve_of_opt h fun _ h => h

/-- A further branch: its condition and its body. -/
theorem elseIfClause_accepts : Accepts .elseIfClause := by
  rintro b e es c ⟨⟩ ⟨⟩ h - -
  obtain ⟨_, ss, ⟨_, rfl, a, ha⟩, hss, rfl⟩ := row_of_spaced h
  obtain ⟨body, hss⟩ := body_of_opt hss
  exact ⟨_, _, elseIfClause_gives ha hss, _, rfl⟩

theorem elseClause_accepts : Accepts .elseClause := by
  rintro b e es c ⟨⟩ ⟨⟩ h - -
  obtain ⟨body, hss⟩ := body_of_opt (row_of_spaced h)
  exact ⟨_, _, elseClause_gives hss, _, rfl⟩

/-- A condition, a body, any number of further branches and perhaps a last one. -/
theorem ifStatement_accepts : Accepts .ifStatement := by
  rintro b e es c ⟨⟩ ⟨⟩ h - -
  obtain ⟨_, _, ⟨x, rfl, a, ha⟩, ⟨ss, _, hss, ⟨is, os, his, hos, rfl⟩, rfl⟩, rfl⟩ :=
    row_of_spaced h
  obtain ⟨body, hss⟩ := body_of_opt hss
  obtain ⟨elseIfs, his⟩ := serve_of_many (α := ElseIf) his fun _ h => serve_of_one h
  obtain ⟨otherwise, hos⟩ := else_of_opt hos
  have hgives := ifStatement_gives (c := c) ha hss his hos
  -- the row of the grammar nests to the right, the row of the builder is flat
  rw [List.cons_append, List.append_assoc] at hgives
  exact ⟨_, _, hgives, _, rfl⟩

/-- A case: its labels, which are one raw node, and its body. -/
theorem caseElement_accepts : Accepts .caseElement := by
  rintro b e es c ⟨⟩ ⟨⟩ h - -
  obtain ⟨_, ss, ⟨_, rfl, n, rfl, hrule, labels, hlabels⟩, hss, rfl⟩ := row_of_spaced h
  obtain ⟨body, hss⟩ := body_of_opt hss
  exact ⟨_, _, caseElement_gives hrule hlabels hss, _, rfl⟩

/-- A value, any number of cases and perhaps a last branch. -/
theorem caseStatement_accepts : Accepts .caseStatement := by
  rintro b e es c ⟨⟩ ⟨⟩ h - -
  obtain ⟨_, _, ⟨x, rfl, a, ha⟩, ⟨cs, os, hcs, hos, rfl⟩, rfl⟩ := row_of_spaced h
  obtain ⟨cases, hcs⟩ := serve_of_many (α := Case) hcs fun _ h => serve_of_one h
  obtain ⟨otherwise, hos⟩ := else_of_opt hos
  exact ⟨_, _, caseStatement_gives ha hcs hos, _, rfl⟩

/-- A variable, two bounds, perhaps a step, and a body. -/
theorem forStatement_accepts : Accepts .forStatement := by
  rintro b e es c ⟨⟩ ⟨⟩ h - -
  obtain ⟨_, _, ⟨_, rfl, v, rfl⟩, ⟨_, _, ⟨_, rfl, first, hfirst⟩, ⟨_, _, ⟨_, rfl, last, hlast⟩,
    ⟨ts, ss, hts, hss, rfl⟩, rfl⟩, rfl⟩, rfl⟩ := row_of_spaced h
  obtain ⟨step, hts⟩ := serve_of_opt (α := Expression) hts fun _ h => row_of_spaced h
  obtain ⟨body, hss⟩ := body_of_opt hss
  exact ⟨_, _, forStatement_gives rfl hfirst hlast hts hss, _, rfl⟩

theorem whileStatement_accepts : Accepts .whileStatement := by
  rintro b e es c ⟨⟩ ⟨⟩ h - -
  obtain ⟨_, ss, ⟨_, rfl, a, ha⟩, hss, rfl⟩ := row_of_spaced h
  obtain ⟨body, hss⟩ := body_of_opt hss
  exact ⟨_, _, whileStatement_gives ha hss, _, rfl⟩

/-- Here the condition stands behind the body. -/
theorem repeatStatement_accepts : Accepts .repeatStatement := by
  rintro b e es c ⟨⟩ ⟨⟩ h - -
  obtain ⟨ss, _, hss, ⟨_, rfl, a, ha⟩, rfl⟩ := row_of_spaced h
  obtain ⟨body, hss⟩ := body_of_opt hss
  exact ⟨_, _, repeatStatement_gives ha hss, _, rfl⟩

/-- A list of statements never begins with a token, so it is not taken for an empty one. -/
theorem statementList_accepts : Accepts .statementList := by
  rintro b e es c ⟨⟩ ⟨⟩ h - -
  obtain ⟨xs, _, ⟨ss, hss⟩, hys, rfl⟩ := row_of_spaced h
  obtain ⟨ts, hts⟩ := serve_of_many (α := Statement) hys fun _ h => h
  have hall := hss.append hts
  have hlacks : Lacks Token _ := hall.lacks fun x s hx => by
    cases x <;> first | rfl | cases hx
  exact ⟨_, _, statementList_gives none hall fun _ => hlacks.stopsToken, _, rfl⟩

/-! ## Units -/

/-- The body of a unit is one list of statements. -/
theorem functionBlockBody_accepts : Accepts .functionBlockBody := by
  rintro b e es c ⟨⟩ ⟨⟩ ⟨_, rfl, ss, rfl⟩ - -
  exact ⟨_, _, functionBlockBody_gives rfl, _, rfl⟩

/-- The blocks and the body of a unit. -/
theorem parts_of_unit {xs ys : List Element} (hxs : (many Rule.varDeclarationBlock).Leaves xs)
    (hys : (opt Rule.functionBlockBody).Leaves ys) :
    ∃ declarations body, xs ++ ys = partElements declarations body := by
  obtain ⟨rows, hrows, rfl⟩ := rows_of_many hxs
  have hblocks : ∃ declarations : List DeclarationBlock, rows.flatten = declarations.map .block := by
    clear hxs
    -- one block for each round
    induction rows with
    | nil => exact ⟨[], rfl⟩
    | cons zs rows ih =>
        obtain ⟨_, rfl, d, rfl⟩ := hrows zs (by simp)
        obtain ⟨ds, hds⟩ := ih fun ws hws => hrows ws (by simp [hws])
        exact ⟨d :: ds, by simp [hds]⟩
  obtain ⟨declarations, hdeclarations⟩ := hblocks
  rcases hys with ⟨_, rfl, body, rfl⟩ | rfl
  · exact ⟨declarations, some body, by rw [hdeclarations]; rfl⟩
  · exact ⟨declarations, none, by rw [hdeclarations]; rfl⟩

/-- A qualifier, the name, a base type, interfaces, blocks and a body: all but the name may be left
out. -/
theorem functionBlockTypeDeclaration_accepts : Accepts .functionBlockTypeDeclaration := by
  rintro b e es c ⟨⟩ ⟨⟩ h - -
  obtain ⟨qs, _, hqs, ⟨_, _, ⟨_, rfl, name, rfl, -⟩, ⟨xs, _, hxs, ⟨is, _, his, ⟨ds, bs, hds, hbs,
    rfl⟩, rfl⟩, rfl⟩, rfl⟩, rfl⟩ := row_of_spaced h
  obtain ⟨qualifier, rfl⟩ := token_of_opt hqs (leavesToken_rule fun _ h => h)
  obtain ⟨base, rfl⟩ : ∃ t : Option Token, xs = t.toList.map (.token .extendsClause) := by
    apply token_of_opt hxs
    rintro xs ⟨_, rfl, t, rfl⟩
    exact ⟨t, rfl⟩
  -- the interfaces come as one list of tokens, or not at all
  obtain ⟨names, rfl⟩ : ∃ names, is = implementsElements names := by
    rcases his with ⟨_, rfl, ts, rfl⟩ | rfl
    · exact ⟨some ts, rfl⟩
    · exact ⟨none, rfl⟩
  obtain ⟨declarations, body, hparts⟩ := parts_of_unit hds hbs
  have hgives := functionBlockTypeDeclaration_gives (c := c) declarations body qualifier name base
    names
  rw [hparts]
  simp only [List.append_assoc, List.cons_append, List.nil_append] at hgives ⊢
  exact ⟨_, _, hgives, _, rfl⟩

/-- A type behind a colon. -/
theorem returnType_of_opt (h : (opt (spaced [":", Rule.returnType])).Leaves es) :
    ∃ t : Option TypeSpecification, Serve es t.toList := serve_of_opt h fun _ h => row_of_spaced h

/-- A name, perhaps a type of result, blocks and a body. -/
theorem functionDeclaration_accepts : Accepts .functionDeclaration := by
  rintro b e es c ⟨⟩ ⟨⟩ h - -
  obtain ⟨_, _, ⟨_, rfl, name, rfl, -⟩, ⟨ts, _, hts, ⟨ds, bs, hds, hbs, rfl⟩, rfl⟩, rfl⟩ :=
    row_of_spaced h
  obtain ⟨t, hts⟩ := returnType_of_opt hts
  obtain ⟨declarations, body, hparts⟩ := parts_of_unit hds hbs
  rw [hparts]
  exact ⟨_, _, functionDeclaration_gives name hts, _, rfl⟩

/-- A name, blocks and a body. -/
theorem programDeclaration_accepts : Accepts .programDeclaration := by
  rintro b e es c ⟨⟩ ⟨⟩ h - -
  obtain ⟨_, _, ⟨_, rfl, name, rfl, -⟩, ⟨ds, bs, hds, hbs, rfl⟩, rfl⟩ := row_of_spaced h
  obtain ⟨declarations, body, hparts⟩ := parts_of_unit hds hbs
  rw [hparts]
  exact ⟨_, _, programDeclaration_gives name, _, rfl⟩

/-- Each word of an access specifier names a flag. -/
theorem flag_of_accessSpecifier {t : Token}
    (ht : ∀ p, Rule.production .accessSpecifier = .token p → p.Spells t.text) :
    ∃ flag : Flags AccessSpecifier, Flags.ofKeyword? t.text = some flag := by
  rcases Pattern.spells_boundary (ht _ rfl) with h | h | h | h | h | h <;>
    exact ⟨_, by rw [ofKeyword?_congr (Pattern.word_spells h)]; rfl⟩

/-- The tokens of rows of access specifiers, each with its flag. -/
theorem specifiers_of_rows {rows : List (List Element)}
    (h : ∀ xs ∈ rows, (rule .accessSpecifier).Leaves xs) :
    ∃ (ts : List Token) (flags : List (Flags AccessSpecifier)), Serve rows.flatten ts ∧
      ts.map (fun t => Flags.ofKeyword? t.text) = flags.map some := by
  -- tokens and flags grow together
  induction rows with
  | nil => exact ⟨[], [], .nil, rfl⟩
  | cons xs rows ih =>
      obtain ⟨_, rfl, t, rfl, ht⟩ := h xs (by simp)
      obtain ⟨flag, hflag⟩ := flag_of_accessSpecifier ht
      obtain ⟨ts, flags, hts, hflags⟩ := ih fun ys hys => h ys (by simp [hys])
      exact ⟨t :: ts, flag :: flags, .cons rfl hts, by simp [hflag, hflags]⟩

/-- One access specifier or more: each word is a flag, and the flags are put together. -/
theorem methodAccess_accepts : Accepts .methodAccess := by
  rintro b e es c ⟨⟩ ⟨⟩ h - -
  obtain ⟨xs, ys, hxs, hys, rfl⟩ := row_of_spaced h
  obtain ⟨rows, hrows, rfl⟩ := rows_of_many hys
  have hall : ∀ zs ∈ xs :: rows, (rule .accessSpecifier).Leaves zs :=
    List.forall_mem_cons.mpr ⟨hxs, hrows⟩
  obtain ⟨ts, flags, hts, hflags⟩ := specifiers_of_rows hall
  exact ⟨_, _, methodAccess_gives hts hflags, _, rfl⟩

/-- Access specifiers, the name, perhaps a type of result, blocks and a body. -/
theorem functionBlockMethodDeclaration_accepts : Accepts .functionBlockMethodDeclaration := by
  rintro b e es c ⟨⟩ ⟨⟩ h - -
  obtain ⟨xs, _, hxs, ⟨_, _, ⟨_, rfl, name, rfl, -⟩, ⟨ts, _, hts, ⟨ds, bs, hds, hbs, rfl⟩, rfl⟩,
    rfl⟩, rfl⟩ := row_of_spaced h
  obtain ⟨access, hxs⟩ := serve_of_opt (α := Flags AccessSpecifier) hxs fun _ h => h
  obtain ⟨t, hts⟩ := returnType_of_opt hts
  obtain ⟨declarations, body, hparts⟩ := parts_of_unit hds hbs
  have hgives := functionBlockMethodDeclaration_gives (c := c) declarations body hxs name hts
  rw [hparts]
  simp only [List.append_assoc, List.cons_append, List.nil_append] at hgives ⊢
  exact ⟨_, _, hgives, _, rfl⟩

/-! ## Actions and files -/

/-- The body of a unit, if it has one. -/
theorem unitBody_of_opt (h : (opt Rule.functionBlockBody).Leaves es) :
    ∃ body : Option Body, Serve es body.toList :=
  serve_of_opt h (by
    rintro xs ⟨_, rfl, b, rfl⟩
    exact ⟨_, rfl, b, rfl⟩)

/-- An action has a name, and the two special ones below have none. -/
theorem action_accepts : Accepts .action := by
  rintro b e es c ⟨⟩ ⟨⟩ h - -
  obtain ⟨_, bs, ⟨_, rfl, name, rfl, -⟩, hbs, rfl⟩ := row_of_spaced h
  obtain ⟨body, hbs⟩ := unitBody_of_opt hbs
  exact ⟨_, _, actionOf_gives [.token .identifier name] (token_gives.bind pure_gives) hbs, _, rfl⟩

theorem entryAction_accepts : Accepts .entryAction := by
  rintro b e es c ⟨⟩ ⟨⟩ h - -
  obtain ⟨body, hbs⟩ := unitBody_of_opt (row_of_spaced h)
  exact ⟨_, _, actionOf_gives [] pure_gives hbs, _, rfl⟩

theorem exitAction_accepts : Accepts .exitAction := by
  rintro b e es c ⟨⟩ ⟨⟩ h - -
  obtain ⟨body, hbs⟩ := unitBody_of_opt (row_of_spaced h)
  exact ⟨_, _, actionOf_gives [] pure_gives hbs, _, rfl⟩

/-- A file is any number of items. -/
theorem iecSource_accepts : Accepts .iecSource := by
  rintro b e es c ⟨⟩ ⟨⟩ h - -
  obtain ⟨items, hes⟩ := serve_of_many (α := Item) (row_of_spaced h) fun _ h => serve_of_one h
  exact ⟨_, _, iecSource_gives hes, _, rfl⟩

end StructuredText.Build
