import StructuredText.Build.Units
import StructuredText.Proofs.Build.Children

/-!
# What units and files are built from

The unit, action or file that each builder makes of the elements it accepts. A body without
statements counts as none.
-/

namespace StructuredText.Build

open Builder

variable {c : Children} {e : Element} {es fs : List Element}

theorem functionBlockBody_gives {statements : List Statement}
    (he : ofElement? e = some statements) :
    functionBlockBody.Gives (c.holding [e]) (.body { anchor := c.anchor, statements })
      (c.holding []) :=
  anchor_gives.bind ((take_gives he).bind (finish_gives.bind pure_gives))

/-- The body that a unit keeps. -/
def keptBody (body : Option Body) : Option Body := body.filter fun b => !b.statements.isEmpty

theorem takeUnitBody_gives {body : Option Body} (hes : Serve es body.toList) :
    takeUnitBody.Gives (c.holding es) (keptBody body) (c.holding []) :=
  (takeIf_gives_last hes).bind pure_gives

/-! ## Units -/

/-- The elements of the blocks and of the body of a unit. -/
def partElements (declarations : List DeclarationBlock) (body : Option Body) : List Element :=
  declarations.map .block ++ body.toList.map .body

section Parts

variable {declarations : List DeclarationBlock} {body : Option Body}

theorem mem_partElements (h : e ∈ partElements declarations body) :
    (∃ b, e = .block b) ∨ ∃ b, e = .body b := by
  rcases List.mem_append.mp h with h | h
  · obtain ⟨b, -, rfl⟩ := List.mem_map.mp h
    exact .inl ⟨b, rfl⟩
  · obtain ⟨b, -, rfl⟩ := List.mem_map.mp h
    exact .inr ⟨b, rfl⟩

theorem stopsToken_partElements (r : Grammar.Rule) :
    StopsToken r (partElements declarations body) := by
  intro t ht
  rcases mem_partElements (List.mem_of_head? ht) with ⟨b, hb⟩ | ⟨b, hb⟩ <;> cases hb

theorem stopsTokens_partElements (r : Grammar.Rule) (ts : List Token) :
    (partElements declarations body).head? ≠ some (.tokens r ts) := by
  intro ht
  rcases mem_partElements (List.mem_of_head? ht) with ⟨b, hb⟩ | ⟨b, hb⟩ <;> cases hb

theorem stops_type_partElements : Stops TypeSpecification (partElements declarations body) := by
  intro e he
  rcases mem_partElements (List.mem_of_head? he) with ⟨b, rfl⟩ | ⟨b, rfl⟩ <;> rfl

/-- A unit is its heading, its blocks and its body. -/
theorem unitOf_gives {heading : Builder (UnitKind × Token)} {kind : UnitKind} {name : Token}
    (hheading : heading.Gives (c.holding (es ++ partElements declarations body)) (kind, name)
      (c.holding (partElements declarations body))) :
    (unitOf heading).Gives (c.holding (es ++ partElements declarations body))
      (.item (.unit { anchor := c.anchor, kind, name, declarations, body := keptBody body }))
      (c.holding []) := by
  have hblocks : (takeWhile DeclarationBlock).Gives (c.holding (partElements declarations body))
      declarations (c.holding (body.toList.map .body)) := by
    refine takeWhile_gives (serve_map (fun _ => rfl) declarations) ?_
    cases body with
    | none => exact .nil
    | some b => exact .cons rfl
  exact anchor_gives.bind (hheading.bind (hblocks.bind
    ((takeUnitBody_gives (serve_map (fun _ => rfl) _)).bind
      (finish_gives.bind pure_gives))))

/-- The elements of the names behind `IMPLEMENTS`. -/
def implementsElements (names : Option (List Token)) : List Element :=
  names.toList.map (.tokens .implementsClause)

theorem functionBlockTypeDeclaration_gives (declarations : List DeclarationBlock)
    (body : Option Body) (qualifier : Option Token) (name : Token) (extends? : Option Token)
    (names : Option (List Token)) :
    functionBlockTypeDeclaration.Gives
      (c.holding (qualifier.toList.map (.token .abstractQualifier) ++
        .token .identifier name :: (extends?.toList.map (.token .extendsClause) ++
          implementsElements names) ++ partElements declarations body))
      (.item (.unit
        { anchor := c.anchor, name, declarations, body := keptBody body
          kind := .functionBlock qualifier.isSome extends? (names.getD []) }))
      (c.holding []) := by
  refine unitOf_gives ?_
  rw [List.append_assoc, List.cons_append, List.append_assoc]
  -- What a block implements is a list of tokens, and no declaration and no body is one.
  have hnames : (tokenListIf .implementsClause).Gives
      (c.holding (implementsElements names ++ partElements declarations body)) names
      (c.holding (partElements declarations body)) := by
    cases names with
    | none => exact tokenListIf_none (stopsTokens_partElements _)
    | some names => exact tokenListIf_some
  refine (tokenIf_gives ?_).bind (token_gives.bind ((tokenIf_gives ?_).bind
    (hnames.bind pure_gives)))
  · simp [StopsToken]
  · intro _
    cases names with
    | none => exact stopsToken_partElements _
    | some names => simp [StopsToken, implementsElements]

theorem functionDeclaration_gives (name : Token) {returnType : Option TypeSpecification}
    (hes : Serve es returnType.toList) :
    functionDeclaration.Gives
      (c.holding (.token .identifier name :: es ++ partElements declarations body))
      (.item (.unit
        { anchor := c.anchor, kind := .function returnType, name, declarations
          body := keptBody body }))
      (c.holding []) :=
  unitOf_gives (token_gives.bind
    ((takeIf_gives hes fun _ => stops_type_partElements).bind pure_gives))

theorem programDeclaration_gives (name : Token) :
    programDeclaration.Gives
      (c.holding ([.token .identifier name] ++ partElements declarations body))
      (.item (.unit
        { anchor := c.anchor, kind := .program, name, declarations, body := keptBody body }))
      (c.holding []) :=
  unitOf_gives (token_gives.bind pure_gives)

theorem functionBlockMethodDeclaration_gives (declarations : List DeclarationBlock)
    (body : Option Body) {access : Option (Flags AccessSpecifier)} (hfs : Serve fs access.toList) (name : Token) {returnType : Option TypeSpecification}
    (hes : Serve es returnType.toList) :
    functionBlockMethodDeclaration.Gives
      (c.holding (fs ++ .token .identifier name :: es ++ partElements declarations body))
      (.item (.unit
        { anchor := c.anchor, kind := .method (access.getD {}) returnType, name, declarations
          body := keptBody body }))
      (c.holding []) := by
  refine unitOf_gives ?_
  rw [List.append_assoc, List.cons_append]
  exact (takeIf_gives hfs fun _ => .cons rfl).bind (token_gives.bind
    ((takeIf_gives hes fun _ => stops_type_partElements).bind pure_gives))

end Parts

/-! ## Access specifiers -/

theorem addSpecifier_gives {t : Token} {flag : Flags AccessSpecifier}
    (ht : Flags.ofKeyword? t.text = some flag) (access : Flags AccessSpecifier) :
    (addSpecifier access t).Gives c (access.union flag) c := by
  simp only [addSpecifier, ht]
  exact pure_gives

theorem foldlM_addSpecifier_gives {ts : List Token} {flags : List (Flags AccessSpecifier)}
    (h : ts.map (fun t => Flags.ofKeyword? t.text) = flags.map some)
    (access : Flags AccessSpecifier) :
    (ts.foldlM addSpecifier access).Gives c (flags.foldl Flags.union access) c := by
  induction ts generalizing flags access with
  | nil =>
      obtain rfl : flags = [] := by simpa using h
      exact pure_gives
  | cons t ts ih =>
      cases flags with
      | nil => simp at h
      | cons flag flags =>
          simp only [List.map_cons, List.cons.injEq] at h
          rw [List.foldlM_cons]
          exact (addSpecifier_gives h.1 access).bind (ih h.2 _)

theorem methodAccess_gives {ts : List Token} (hes : Serve es ts)
    {flags : List (Flags AccessSpecifier)}
    (h : ts.map (fun t => Flags.ofKeyword? t.text) = flags.map some) :
    methodAccess.Gives (c.holding es) (.access (flags.foldl Flags.union {})) (c.holding []) :=
  (takeWhile_gives_all hes).bind ((foldlM_addSpecifier_gives h {}).bind
    (finish_gives.bind pure_gives))

/-! ## Actions and files -/

theorem actionOf_gives (es : List Element) {b : Builder ActionKind} {kind : ActionKind}
    {body : Option Body} (hb : b.Gives (c.holding (es ++ fs)) kind (c.holding fs)) (hfs : Serve fs body.toList) :
    (actionOf b).Gives (c.holding (es ++ fs))
      (.item (.action { anchor := c.anchor, kind, body := keptBody body })) (c.holding []) :=
  anchor_gives.bind (hb.bind ((takeUnitBody_gives hfs).bind (finish_gives.bind pure_gives)))

theorem iecSource_gives {items : List Item} (hes : Serve es items) :
    iecSource.Gives (c.holding es) (.file { items }) (c.holding []) :=
  (takeWhile_gives_all hes).bind (finish_gives.bind pure_gives)

end StructuredText.Build
