import StructuredText.Proofs.Build.Accepts.Types
import StructuredText.Proofs.Build.Declarations

/-!
# Builders accept what their rules leave: declarations
-/

namespace StructuredText.Build

open Grammar Expr Builder

variable {r : Rule} {e : Expr} {es : List Element}

/-! ## Names -/

theorem extendsClause_accepts : Accepts .extendsClause := by
  rintro b e es c ⟨⟩ ⟨⟩ h - -
  obtain ⟨_, rfl, t, rfl, -⟩ := row_of_spaced h
  exact ⟨_, _, extendsClause_gives t, _, rfl⟩

/-- A list of names is accepted, and goes by its rule. -/
theorem nameList_accepts {name : Rule} (hb : builder? r = some nameList)
    (hr : r.production = .node e) (he : ∀ es, e.Leaves es → (commaList name).Leaves es)
    (hname : LeavesToken name name) (hmakes : ∀ ts, r.Makes (.tokens r ts)) : Accepts r := by
  intro b e' es c hb' hr' h hc _
  obtain rfl := Option.some.inj (hb.symm.trans hb')
  obtain rfl := Production.node.inj (hr.symm.trans hr')
  obtain ⟨names, hne, hes⟩ := serve_of_commaList (α := Token) (he es h) (by
    intro xs hxs
    obtain ⟨t, rfl⟩ := hname xs hxs
    exact ⟨_, rfl, t, rfl⟩)
  have hgives := nameList_gives (c := c) hes hne
  rw [hc] at hgives
  exact ⟨_, _, hgives, hmakes names⟩

theorem implementsClause_accepts : Accepts .implementsClause :=
  nameList_accepts rfl rfl (fun _ h => row_of_spaced h) (leavesToken_rule fun _ h => h)
    fun ts => ⟨ts, rfl⟩

theorem fbDeclNameList_accepts : Accepts .fbDeclNameList :=
  nameList_accepts rfl rfl (fun _ h => h) (leavesToken_rule fun _ h => h) fun ts => ⟨ts, rfl⟩

theorem globalVarList_accepts : Accepts .globalVarList :=
  nameList_accepts rfl rfl (fun _ h => h) (leavesToken_rule fun _ h => h) fun ts => ⟨ts, rfl⟩

/-- An incomplete address behind a name, if there is one. -/
theorem address_of_opt (h : (opt Rule.incompleteLocation).Leaves es) :
    ∃ l : Option IncompleteLocation, Serve es l.toList :=
  serve_of_opt h (by
    rintro xs ⟨_, rfl, l, rfl⟩
    exact ⟨_, rfl, l, rfl⟩)

theorem var1_accepts : Accepts .var1 := by
  rintro b e es c ⟨⟩ ⟨⟩ h - -
  obtain ⟨_, ls, ⟨_, rfl, name, rfl, -⟩, hls, rfl⟩ := row_of_spaced h
  obtain ⟨l, hls⟩ := address_of_opt hls
  exact ⟨_, _, var1_gives name hls, _, rfl⟩

/-- Declared names with commas between them, one at least. -/
theorem var1List_accepts : Accepts .var1List := by
  rintro b e es c ⟨⟩ ⟨⟩ h - -
  obtain ⟨declared, hne, hes⟩ := serve_of_commaList (α := DeclaredVariable) h fun _ h => h
  exact ⟨_, _, var1List_gives hes hne, _, rfl⟩

/-! ## Declarations in plain blocks -/

/-- Names with a type behind them are accepted. -/
theorem initDeclaration_accepts {type : Expr} (hb : builder? r = some initDeclaration)
    (hr : r.production = .node (spaced [Rule.var1List, ":", type]))
    (htype : ∀ xs, type.Leaves xs → ∃ x, xs = [x] ∧ Serves SpecInit x)
    (hmakes : ∀ d, r.Makes (.declaration d)) : Accepts r := by
  intro b e' es c hb' hr' h _ _
  obtain rfl := Option.some.inj (hb.symm.trans hb')
  obtain rfl := Production.node.inj (hr.symm.trans hr')
  obtain ⟨_, _, ⟨_, rfl, declared, rfl⟩, ⟨_, _, rfl, hxs, rfl⟩, rfl⟩ := parts_of_spaced h
  obtain ⟨x, rfl, init, hinit⟩ := htype _ hxs
  exact ⟨_, _, initDeclaration_gives declared hinit, hmakes _⟩

/-- The three kinds of types that are left when arrays and strings are excluded. -/
theorem var1InitDecl_accepts : Accepts .var1InitDecl := by
  refine initDeclaration_accepts rfl rfl ?_ fun d => ⟨d, rfl⟩
  -- subranges, enumerations and plain types
  rintro xs (⟨_, rfl, i, t, v, rfl⟩ | ⟨_, rfl, i, t, v, rfl⟩ | ⟨_, rfl, t, v, rfl⟩) <;>
    exact ⟨_, rfl, _, rfl⟩

theorem arrayVarInitDecl_accepts : Accepts .arrayVarInitDecl := by
  refine initDeclaration_accepts rfl rfl ?_ fun d => ⟨d, rfl⟩
  rintro xs ⟨_, rfl, i, t, v, rfl⟩
  exact ⟨_, rfl, _, rfl⟩

theorem stringVarDeclaration_accepts : Accepts .stringVarDeclaration := by
  refine initDeclaration_accepts rfl rfl ?_ fun d => ⟨d, rfl⟩
  rintro xs ⟨_, rfl, t, v, rfl⟩
  exact ⟨_, rfl, _, rfl⟩

/-- Inputs that watch for an edge have no type of their own. -/
theorem edgeDeclaration_accepts : Accepts .edgeDeclaration := by
  rintro b e es c ⟨⟩ ⟨⟩ h - -
  obtain ⟨_, _, ⟨_, rfl, declared, rfl⟩, ⟨_, rfl, side, rfl⟩, rfl⟩ := row_of_spaced h
  exact ⟨_, _, edgeDeclaration_gives declared side, _, rfl⟩

/-- Names of function blocks with the type of the block and the values it begins with. -/
theorem fbNameDecl_accepts : Accepts .fbNameDecl := by
  rintro b e es c ⟨⟩ ⟨⟩ h - -
  obtain ⟨_, _, ⟨_, rfl, names, rfl⟩, ⟨_, _, ⟨_, rfl, t, rfl, -⟩, ⟨_, rfl, v, rfl⟩, rfl⟩, rfl⟩ :=
    row_of_spaced h
  exact ⟨_, _, fbNameDecl_gives names t v, _, rfl⟩

/-- Names of function blocks with a call in the place of a type. -/
theorem fbInvocationDecl_accepts : Accepts .fbInvocationDecl := by
  rintro b e es c ⟨⟩ ⟨⟩ h - -
  obtain ⟨_, _, ⟨_, rfl, names, rfl⟩, ⟨_, rfl, call, rfl⟩, rfl⟩ := row_of_spaced h
  exact ⟨_, _, fbInvocationDecl_gives names call, _, rfl⟩

/-! ## Declarations in other blocks -/

/-- The name in front of an address may be left out. -/
theorem locatedVarDecl_accepts : Accepts .locatedVarDecl := by
  rintro b e es c ⟨⟩ ⟨⟩ h - -
  obtain ⟨ns, _, hns, ⟨_, _, ⟨_, rfl, l, rfl⟩, ⟨_, rfl, init, hinit⟩, rfl⟩, rfl⟩ :=
    row_of_spaced h
  obtain ⟨name, rfl⟩ := token_of_opt hns (leavesToken_rule fun _ h => h)
  exact ⟨_, _, locatedVarDecl_gives name l hinit, _, rfl⟩

theorem externalDeclaration_accepts : Accepts .externalDeclaration := by
  rintro b e es c ⟨⟩ ⟨⟩ h - -
  obtain ⟨_, _, ⟨_, rfl, name, rfl, -⟩, ⟨_, rfl, t, ht⟩, rfl⟩ := row_of_spaced h
  exact ⟨_, _, externalDeclaration_gives name ht, _, rfl⟩

/-- A path of access: its name, the variable, the type and perhaps a direction. -/
theorem programAccessDecl_accepts : Accepts .programAccessDecl := by
  rintro b e es c ⟨⟩ ⟨⟩ h - -
  obtain ⟨_, _, ⟨_, rfl, name, rfl, -⟩, ⟨_, _, ⟨_, rfl, v, rfl⟩, ⟨_, ds, ⟨_, rfl, t, rfl⟩, hds,
    rfl⟩, rfl⟩, rfl⟩ := row_of_spaced h
  obtain ⟨direction, hds⟩ := serve_of_opt (α := AccessDirection) hds fun _ h => h
  exact ⟨_, _, programAccessDecl_gives name rfl t hds, _, rfl⟩

/-- One name with an address of either kind, or a list of names. -/
theorem globalVarSpec_accepts : Accepts .globalVarSpec := by
  rintro b e es c ⟨⟩ ⟨⟩ h - -
  rcases h with h | ⟨_, rfl, names, rfl⟩
  · obtain ⟨_, _, ⟨_, rfl, name, rfl, -⟩, hl, rfl⟩ := row_of_spaced h
    -- the address may be whole or incomplete
    rcases hl with ⟨_, rfl, l, rfl⟩ | ⟨_, rfl, l, rfl⟩
    · exact ⟨_, _, globalVarSpec_gives_located name l, _, rfl⟩
    · exact ⟨_, _, globalVarSpec_gives_incomplete name l, _, rfl⟩
  · exact ⟨_, _, globalVarSpec_gives_names names, _, rfl⟩

/-- A call is built into an invocation and anything else into a type with a first value. -/
theorem globalVarDecl_accepts : Accepts .globalVarDecl := by
  rintro b e es c ⟨⟩ ⟨⟩ h - -
  obtain ⟨_, _, ⟨_, rfl, names, rfl⟩, ⟨_, rfl, hinit⟩, rfl⟩ := row_of_spaced h
  rcases hinit with ⟨call, rfl⟩ | ⟨init, hinit⟩
  · exact ⟨_, _, globalVarDecl_gives_invocation names call, _, rfl⟩
  · exact ⟨_, _, globalVarDecl_gives_spec names hinit, _, rfl⟩

/-! ## Blocks -/

/-- The entries between the keywords of a block, with its attributes. -/
theorem blockOf_accepts {α : Type} [OfElement (Anchored α)] {opening : Keyword} {attributes : Bool}
    {entries : Expr} {c : Children} (hr : block opening attributes entries = .node e)
    (h : e.Leaves es)
    (hentries : ∀ xs, entries.Leaves xs → ∃ as : List (Anchored α), Serve xs as)
    (hdisjoint : ∀ (x : Element) (a : Anchored α), ofElement? x = some a →
      (ofElement? x : Option (Flags VariableAttribute)) = none) :
    ∃ b, (blockOf α).Gives (c.holding es) b (c.holding []) := by
  obtain rfl := Production.node.inj hr
  have hrow : ∃ xs ys, (∃ as : List (Flags VariableAttribute), Serve xs as) ∧
      entries.Leaves ys ∧ es = xs ++ ys := by
    -- a block without attributes has no place for them in its row
    cases attributes with
    | false =>
        obtain ⟨_, _, rfl, ⟨ys, _, hys, rfl, rfl⟩, rfl⟩ := parts_of_spaced h
        exact ⟨[], ys, ⟨[], .nil⟩, hys, by simp⟩
    | true =>
        obtain ⟨_, _, rfl, ⟨xs, _, hxs, ⟨ys, _, hys, rfl, rfl⟩, rfl⟩, rfl⟩ := parts_of_spaced h
        exact ⟨xs, ys, serve_of_many hxs fun _ h => serve_of_one h, hys, by simp⟩
  obtain ⟨xs, ys, ⟨flags, hflags⟩, hys, rfl⟩ := hrow
  obtain ⟨items, hitems⟩ := hentries ys hys
  exact ⟨_, blockOf_gives hflags hitems (hitems.lacks hdisjoint).stops⟩

/-- The entries of a block, each with its semicolon. -/
theorem serve_of_entries {α : Type} [OfElement α] {r : Rule}
    (h : ∀ xs, r.Leaves xs → ∃ x, xs = [x] ∧ Serves α x) :
    ∀ xs, (entriesOf r).Leaves xs → ∃ as : List α, Serve xs as := by
  intro xs hxs
  apply serve_of_many hxs
  intro ys hys
  obtain ⟨zs, _, hzs, rfl, rfl⟩ := parts_of_spaced hys
  rw [List.append_nil]
  exact serve_of_one (h zs hzs)

/-- A declaration is no attribute of its block. -/
theorem flags_of_declaration {x : Element} {d : Anchored VariableDeclaration}
    (hx : ofElement? x = some d) : (ofElement? x : Option (Flags VariableAttribute)) = none := by
  cases x <;> first | rfl | cases hx

/-- A block of plain declarations is accepted. -/
theorem plainBlock_accepts {opening : Keyword} {attributes : Bool} {declaration : Rule}
    {kind : PlainKind} (hb : builder? r = some (plainBlock kind))
    (hr : r.production = block opening attributes (entriesOf declaration))
    (h : ∀ xs, declaration.Leaves xs → ∃ x, xs = [x] ∧ Serves (Anchored VariableDeclaration) x)
    (hmakes : ∀ d, r.Makes (.block d)) : Accepts r := by
  intro b e' es c hb' hr' hes _ _
  obtain rfl := Option.some.inj (hb.symm.trans hb')
  obtain ⟨d, hd⟩ := blockOf_accepts (c := c) (hr.symm.trans hr') hes (serve_of_entries h)
    fun _ _ => flags_of_declaration
  exact ⟨_, _, hd.bind pure_gives, hmakes _⟩

theorem varDeclarations_accepts : Accepts .varDeclarations :=
  plainBlock_accepts rfl rfl (fun _ h => h) fun d => ⟨d, rfl⟩

theorem tempVarDecls_accepts : Accepts .tempVarDecls :=
  plainBlock_accepts rfl rfl (fun _ h => h) fun d => ⟨d, rfl⟩

theorem varInstDeclaration_accepts : Accepts .varInstDeclaration :=
  plainBlock_accepts rfl rfl (fun _ h => h) fun d => ⟨d, rfl⟩

theorem inputDeclarations_accepts : Accepts .inputDeclarations :=
  plainBlock_accepts rfl rfl (fun _ h => h) fun d => ⟨d, rfl⟩

theorem outputDeclarations_accepts : Accepts .outputDeclarations :=
  plainBlock_accepts rfl rfl (fun _ h => h) fun d => ⟨d, rfl⟩

theorem inputOutputDeclarations_accepts : Accepts .inputOutputDeclarations :=
  plainBlock_accepts rfl rfl (fun _ h => h) fun d => ⟨d, rfl⟩

/-- A block of variables at addresses has one entry at least. -/
theorem locatedVarDeclarations_accepts : Accepts .locatedVarDeclarations := by
  rintro b e es c ⟨⟩ hr hes - -
  have hentries : ∀ xs, (many1 (spaced [Rule.locatedVarDecl, ";"])).Leaves xs →
      ∃ as : List (Anchored LocatedDeclaration), Serve xs as := by
    intro xs hxs
    obtain ⟨as, -, has⟩ := serve_of_many1 hxs fun ys hys => row_of_spaced hys
    exact ⟨as, has⟩
  obtain ⟨d, hd⟩ := blockOf_accepts (c := c) hr hes hentries
    fun x d hx => by cases x <;> first | rfl | cases hx
  exact ⟨_, _, hd.bind pure_gives, _, rfl⟩

theorem externalVarDeclarations_accepts : Accepts .externalVarDeclarations := by
  rintro b e es c ⟨⟩ hr hes - -
  obtain ⟨d, hd⟩ := blockOf_accepts (α := ExternalDeclaration) (c := c) hr hes
    (serve_of_entries fun _ h => h) fun x d hx => by cases x <;> first | rfl | cases hx
  exact ⟨_, _, hd.bind pure_gives, _, rfl⟩

theorem programAccessDecls_accepts : Accepts .programAccessDecls := by
  rintro b e es c ⟨⟩ hr hes - -
  obtain ⟨d, hd⟩ := blockOf_accepts (α := AccessDeclaration) (c := c) hr hes
    (serve_of_entries fun _ h => h) fun x d hx => by cases x <;> first | rfl | cases hx
  exact ⟨_, _, hd.bind pure_gives, _, rfl⟩

theorem globalVarDeclarations_accepts : Accepts .globalVarDeclarations := by
  rintro b e es c ⟨⟩ hr hes - -
  obtain ⟨d, hd⟩ := blockOf_accepts (α := GlobalDeclaration) (c := c) hr hes
    (serve_of_entries fun _ h => h) fun x d hx => by cases x <;> first | rfl | cases hx
  exact ⟨_, _, hd.bind pure_gives, _, rfl⟩

/-! ## Type declarations -/

/-- A member of a structure, with an address or without one. -/
theorem structureElementDeclaration_accepts : Accepts .structureElementDeclaration := by
  rintro b e es c ⟨⟩ ⟨⟩ h - -
  obtain ⟨_, _, ⟨_, rfl, name, rfl, -⟩, ⟨ls, _, hls, ⟨x, rfl, init, hinit⟩, rfl⟩, rfl⟩ :=
    row_of_spaced h
  obtain ⟨l, hls⟩ := address_of_opt hls
  exact ⟨_, _, structureElementDeclaration_gives name hls hinit, _, rfl⟩

/-- A base type in front of the definition. -/
theorem base_of_opt (h : (opt Rule.extendsClause).Leaves es) :
    ∃ t : Option Token, es = t.toList.map (.token .extendsClause) := by
  apply token_of_opt h
  rintro xs ⟨_, rfl, t, rfl⟩
  exact ⟨t, rfl⟩

/-- Name, base type, indirection and members are taken in this order, and each stops in front of the
next. -/
theorem structureTypeDeclaration_accepts : Accepts .structureTypeDeclaration := by
  rintro b e es c ⟨⟩ ⟨⟩ h - -
  obtain ⟨_, _, ⟨_, rfl, name, rfl, -⟩, ⟨bs, _, hbs, ⟨is, ms, his, hms, rfl⟩, rfl⟩, rfl⟩ :=
    row_of_spaced h
  obtain ⟨base, rfl⟩ := base_of_opt hbs
  obtain ⟨i, his⟩ := indirection_of_opt his
  obtain ⟨members, hms⟩ : ∃ members : List (Anchored Member), Serve ms members :=
    serve_of_entries (r := .structureElementDeclaration) (fun _ h => h) _ hms
  -- none of the members can be taken for the optional parts in front of them
  have hlacks : Lacks Indirection ms := hms.lacks fun x m hx => by
    cases x <;> first | rfl | cases hx
  have htoken : Lacks Token (is ++ ms) :=
    (his.lacks fun x i hx => by cases x <;> first | rfl | cases hx).append
      (hms.lacks fun x m hx => by cases x <;> first | rfl | cases hx)
  exact ⟨_, _, structureTypeDeclaration_gives name base his hms hlacks.stops
    htoken.stopsToken, _, rfl⟩

/-- A name with a type of the promised kind behind it is accepted. -/
theorem namedType_accepts {what : String} {fits : SpecInit → Bool} {type : Rule}
    (hb : builder? r = some (namedType what fits)) (hr : r.production = .node e)
    (he : ∀ es, e.Leaves es → ∃ (name : Token) (base : Option Token) (xs : List Element),
      es = .token .identifier name :: (base.toList.map (.token .extendsClause) ++ xs) ∧
        type.Leaves xs)
    (htype : ∀ xs, type.Leaves xs → ∃ x init, xs = [x] ∧ ofElement? x = some init ∧ fits init)
    (hmakes : ∀ d, r.Makes (.typeDeclaration d)) : Accepts r := by
  intro b e' es c hb' hr' h _ _
  obtain rfl := Option.some.inj (hb.symm.trans hb')
  obtain rfl := Production.node.inj (hr.symm.trans hr')
  obtain ⟨name, base, xs, rfl, hxs⟩ := he es h
  obtain ⟨x, init, rfl, hinit, hfits⟩ := htype xs hxs
  exact ⟨_, _, namedType_gives name base hinit hfits, hmakes _⟩

/-- A type that has no base type. -/
theorem named_of_row {type : Rule} (h : (spaced [Rule.identifier, ":", type]).Leaves es) :
    ∃ (name : Token) (base : Option Token) (xs : List Element),
      es = .token .identifier name :: (base.toList.map (.token .extendsClause) ++ xs) ∧
        type.Leaves xs := by
  obtain ⟨_, _, ⟨_, rfl, name, rfl, -⟩, ⟨_, _, rfl, hxs, rfl⟩, rfl⟩ := parts_of_spaced h
  exact ⟨name, none, _, rfl, hxs⟩

/-- A type that may have a base type. -/
theorem named_of_extended {type : Rule}
    (h : (spaced [Rule.identifier, opt Rule.extendsClause, ":", type]).Leaves es) :
    ∃ (name : Token) (base : Option Token) (xs : List Element),
      es = .token .identifier name :: (base.toList.map (.token .extendsClause) ++ xs) ∧
        type.Leaves xs := by
  obtain ⟨_, _, ⟨_, rfl, name, rfl, -⟩, ⟨bs, _, hbs, ⟨_, _, rfl, hxs, rfl⟩, rfl⟩, rfl⟩ :=
    parts_of_spaced h
  obtain ⟨base, rfl⟩ := base_of_opt hbs
  exact ⟨name, base, _, rfl, hxs⟩

theorem arrayTypeDeclaration_accepts : Accepts .arrayTypeDeclaration := by
  refine namedType_accepts rfl rfl (fun _ h => named_of_row h) ?_ fun d => ⟨d, rfl⟩
  rintro xs ⟨_, rfl, i, t, v, rfl⟩
  exact ⟨_, _, rfl, rfl, rfl⟩

theorem stringTypeDeclaration_accepts : Accepts .stringTypeDeclaration := by
  refine namedType_accepts rfl rfl (fun _ h => named_of_row h) ?_ fun d => ⟨d, rfl⟩
  rintro xs ⟨_, rfl, t, v, rfl⟩
  exact ⟨_, _, rfl, rfl, rfl⟩

theorem subrangeTypeDeclaration_accepts : Accepts .subrangeTypeDeclaration := by
  refine namedType_accepts rfl rfl (fun _ h => named_of_row h) ?_ fun d => ⟨d, rfl⟩
  rintro xs ⟨_, rfl, i, t, v, rfl⟩
  exact ⟨_, _, rfl, rfl, rfl⟩

theorem enumeratedTypeDeclaration_accepts : Accepts .enumeratedTypeDeclaration := by
  refine namedType_accepts rfl rfl (fun _ h => named_of_row h) ?_ fun d => ⟨d, rfl⟩
  rintro xs ⟨_, rfl, i, t, v, rfl⟩
  exact ⟨_, _, rfl, rfl, rfl⟩

theorem initializedStructureTypeDeclaration_accepts :
    Accepts .initializedStructureTypeDeclaration := by
  refine namedType_accepts rfl rfl (fun _ h => named_of_extended h) ?_ fun d => ⟨d, rfl⟩
  rintro xs ⟨_, rfl, v, rfl⟩
  exact ⟨_, _, rfl, rfl, rfl⟩

theorem simpleTypeDeclaration_accepts : Accepts .simpleTypeDeclaration := by
  refine namedType_accepts rfl rfl (fun _ h => named_of_extended h) ?_ fun d => ⟨d, rfl⟩
  rintro xs ⟨_, rfl, t, v, rfl⟩
  exact ⟨_, _, rfl, rfl, rfl⟩

/-- A block of types has one declaration at least. -/
theorem dataTypeDeclaration_accepts : Accepts .dataTypeDeclaration := by
  rintro b e es c ⟨⟩ ⟨⟩ h - -
  obtain ⟨items, hne, hes⟩ := serve_of_many1 (α := TypeDeclaration) (row_of_spaced h)
    fun xs hxs => row_of_spaced hxs
  exact ⟨_, _, dataTypeDeclaration_gives hes hne, _, rfl⟩

end StructuredText.Build
