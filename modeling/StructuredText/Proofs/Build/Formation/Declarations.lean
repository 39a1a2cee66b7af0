import StructuredText.Proofs.Build.Forms

/-!
# Builders make what the table says: declarations
-/

namespace StructuredText.Build

open Grammar Builder

variable {c c' : Children} {es : List Element} {x : Element}

/-! ## Names and parts of declarations -/

theorem extendsClause_forms (h : extendsClause.Gives (c.holding es) x c') :
    Forms c.anchor .extendsClause es x := by
  obtain ⟨base, es, rfl, h₁⟩ := of_token h
  obtain ⟨rfl, rfl⟩ := of_finish_pure h₁
  exact .extendsClause base

/-- The names are tokens of the rule of the construct. -/
theorem nameList_forms (hr : c.rule.isNameList = true) (h : nameList.Gives (c.holding es) x c') :
    Forms c.anchor c.rule es x := by
  obtain ⟨fs, es, names, rfl, hfs, -, h₁⟩ := of_takeWhile h
  obtain ⟨hne, h₂⟩ := of_nonEmpty h₁
  obtain ⟨rfl, h₃⟩ := of_finish h₂
  replace h₃ := of_get h₃
  obtain ⟨rfl, -⟩ := of_pure h₃
  rw [List.append_nil]
  exact .names hr hfs hne

theorem var1_forms (h : var1.Gives (c.holding es) x c') : Forms c.anchor .var1 es x := by
  obtain ⟨name, es, rfl, h₁⟩ := of_token h
  obtain ⟨fs, es, location, rfl, hfs, -, h₂⟩ := of_takeIf h₁
  obtain ⟨rfl, rfl⟩ := of_finish_pure h₂
  rw [List.append_nil]
  exact .var1 name hfs

theorem var1List_forms (h : var1List.Gives (c.holding es) x c') :
    Forms c.anchor .var1List es x := by
  obtain ⟨fs, es, declared, rfl, hfs, -, h₁⟩ := of_takeWhile h
  obtain ⟨hne, h₂⟩ := of_nonEmpty h₁
  obtain ⟨rfl, rfl⟩ := of_finish_pure h₂
  rw [List.append_nil]
  exact .var1List hfs hne

/-- The edge is known by its keyword, whatever its case. -/
theorem edge_forms (h : edge.Gives (c.holding es) x c') : Forms c.anchor .edge es x := by
  obtain ⟨t, es, rfl, h₁⟩ := of_token h
  dsimp only at h₁
  split at h₁
  · obtain ⟨rfl, rfl⟩ := of_finish_pure (of_pure_bind h₁)
    exact .edge t _
  · split at h₁
    · obtain ⟨rfl, rfl⟩ := of_finish_pure (of_pure_bind h₁)
      exact .edge t _
    · exact (not_gives_fail_bind h₁).elim

/-- The direction is known by its keyword, whatever its case. -/
theorem accessDirection_forms (h : accessDirection.Gives (c.holding es) x c') :
    Forms c.anchor .accessDirection es x := by
  obtain ⟨t, es, rfl, h₁⟩ := of_token h
  dsimp only at h₁
  split at h₁
  · obtain ⟨rfl, rfl⟩ := of_finish_pure (of_pure_bind h₁)
    exact .accessDirection t _
  · split at h₁
    · obtain ⟨rfl, rfl⟩ := of_finish_pure (of_pure_bind h₁)
      exact .accessDirection t _
    · exact (not_gives_fail_bind h₁).elim

/-- A keyword of an attribute gives the one flag it stands for. -/
theorem variableAttribute_forms (h : variableAttribute.Gives (c.holding es) x c') :
    Forms c.anchor .variableAttribute es x := by
  obtain ⟨t, es, rfl, h₁⟩ := of_token h
  split at h₁
  · exact (not_gives_fail h₁).elim
  · rename_i flag _
    obtain ⟨rfl, rfl⟩ := of_finish_pure h₁
    exact .attribute t flag

/-- Whatever specifiers are written, what is built is a set of them. -/
theorem methodAccess_forms (h : methodAccess.Gives (c.holding es) x c') :
    Forms c.anchor .methodAccess es x := by
  have haccess : Always methodAccess fun x => ∃ access, x = .access access :=
    .bind fun _ => .bind fun access => .bind fun _ => .pure ⟨access, rfl⟩
  obtain ⟨access, rfl⟩ := haccess _ _ _ h
  exact .access access

/-! ## Declarations -/

/-- Three rules share this handler: names, then a type with its first value. -/
theorem initDeclaration_forms {r : Rule} (hr : r.isInitDeclaration = true)
    (h : initDeclaration.Gives (c.holding es) x c') : Forms c.anchor r es x := by
  replace h := of_anchor h
  obtain ⟨e, es, declared, rfl, he, h₁⟩ := of_take h
  obtain ⟨f, es, init, rfl, hf, h₂⟩ := of_take h₁
  obtain ⟨rfl, rfl⟩ := of_finish_pure h₂
  exact .initDeclaration hr he hf

theorem edgeDeclaration_forms (h : edgeDeclaration.Gives (c.holding es) x c') :
    Forms c.anchor .edgeDeclaration es x := by
  replace h := of_anchor h
  obtain ⟨e, es, declared, rfl, he, h₁⟩ := of_take h
  obtain ⟨f, es, edge, rfl, hf, h₂⟩ := of_take h₁
  obtain ⟨rfl, rfl⟩ := of_finish_pure h₂
  exact .edgeDeclaration he hf

/-- Instances of a function block: their names, its type and what its parts begin with. -/
theorem fbNameDecl_forms (h : fbNameDecl.Gives (c.holding es) x c') :
    Forms c.anchor .fbNameDecl es x := by
  replace h := of_anchor h
  obtain ⟨names, es, rfl, h₁⟩ := of_tokenList h
  obtain ⟨typeName, es, rfl, h₂⟩ := of_token h₁
  obtain ⟨e, es, init, rfl, he, h₃⟩ := of_take h₂
  obtain ⟨rfl, rfl⟩ := of_finish_pure h₃
  exact .fbInstance names typeName he

theorem fbInvocationDecl_forms (h : fbInvocationDecl.Gives (c.holding es) x c') :
    Forms c.anchor .fbInvocationDecl es x := by
  replace h := of_anchor h
  obtain ⟨names, es, rfl, h₁⟩ := of_tokenList h
  obtain ⟨e, es, call, rfl, he, h₂⟩ := of_take h₁
  obtain ⟨rfl, rfl⟩ := of_finish_pure h₂
  exact .fbInvocationDecl names he

/-- A name may stand in front of the address, and a type with its first value follows. -/
theorem locatedVarDecl_forms (h : locatedVarDecl.Gives (c.holding es) x c') :
    Forms c.anchor .locatedVarDecl es x := by
  replace h := of_anchor h
  obtain ⟨name, es, rfl, h₁⟩ := of_tokenIf h
  obtain ⟨e, es, location, rfl, he, h₂⟩ := of_take h₁
  obtain ⟨f, es, init, rfl, hf, h₃⟩ := of_take h₂
  obtain ⟨rfl, rfl⟩ := of_finish_pure h₃
  exact .locatedDeclaration name he hf

theorem externalDeclaration_forms (h : externalDeclaration.Gives (c.holding es) x c') :
    Forms c.anchor .externalDeclaration es x := by
  replace h := of_anchor h
  obtain ⟨name, es, rfl, h₁⟩ := of_token h
  obtain ⟨e, es, type, rfl, he, h₂⟩ := of_take h₁
  obtain ⟨rfl, rfl⟩ := of_finish_pure h₂
  exact .externalDeclaration name he

/-- An access path: its name, the place it opens, the type and perhaps a direction. -/
theorem programAccessDecl_forms (h : programAccessDecl.Gives (c.holding es) x c') :
    Forms c.anchor .programAccessDecl es x := by
  replace h := of_anchor h
  obtain ⟨name, es, rfl, h₁⟩ := of_token h
  obtain ⟨e, es, place, rfl, he, h₂⟩ := of_take h₁
  obtain ⟨f, es, type, rfl, hf, h₃⟩ := of_take h₂
  obtain ⟨gs, es, direction, rfl, hgs, -, h₄⟩ := of_takeIf h₃
  obtain ⟨rfl, rfl⟩ := of_finish_pure h₄
  rw [List.append_nil]
  exact .accessDeclaration name he hf hgs

/-- Names alone, or one name with an address, known in full or not. -/
theorem globalVarSpec_forms (h : globalVarSpec.Gives (c.holding es) x c') :
    Forms c.anchor .globalVarSpec es x := by
  obtain ⟨o, es, rfl, h₁⟩ := of_tokenListIf h
  dsimp only at h₁
  -- A list of names is a child of its own kind, so it is not mistaken for a single name.
  cases o with
  | some names =>
      obtain ⟨rfl, rfl⟩ := of_finish_pure (of_pure_bind h₁)
      exact .globalNames names
  | none =>
      obtain ⟨name, es, rfl, h₂⟩ := of_token h₁
      rw [globalAddress] at h₂
      obtain ⟨fs, es, location, rfl, hfs, -, h₃⟩ := of_takeIf (of_bind h₂)
      cases location with
      | some location =>
          obtain ⟨e, rfl, he⟩ := serve_one_iff.mp hfs
          obtain ⟨rfl, rfl⟩ := of_finish_pure (of_pure_bind h₃)
          exact .globalLocated name he
      | none =>
          obtain rfl := serve_nil_iff.mp hfs
          obtain ⟨e, es, location, rfl, he, h₄⟩ := of_take (of_bind h₃)
          obtain ⟨rfl, rfl⟩ := of_finish_pure (of_pure_bind h₄)
          exact .globalIncomplete name he

/-- Behind the names stands a call or a type, and the handler looks for the call first. -/
theorem globalVarDecl_forms (h : globalVarDecl.Gives (c.holding es) x c') :
    Forms c.anchor .globalVarDecl es x := by
  replace h := of_anchor h
  obtain ⟨e, es, names, rfl, he, h₁⟩ := of_take h
  rw [globalInit] at h₁
  obtain ⟨fs, es, call, rfl, hfs, -, h₂⟩ := of_takeIf (of_bind h₁)
  cases call with
  | some call =>
      obtain ⟨f, rfl, hf⟩ := serve_one_iff.mp hfs
      replace h₂ := of_pure_bind h₂
      obtain ⟨rfl, rfl⟩ := of_finish_pure h₂
      exact .globalInvocation he hf
  | none =>
      obtain rfl := serve_nil_iff.mp hfs
      obtain ⟨f, es, init, rfl, hf, h₃⟩ := of_take (of_bind h₂)
      replace h₃ := of_pure_bind h₃
      obtain ⟨rfl, rfl⟩ := of_finish_pure h₃
      exact .globalSpec he hf

/-! ## Blocks -/

/-- A builder that starts with a block has read its flags and its declarations, and nothing is left
for what follows. -/
theorem of_blockOf {α β : Type} [OfElement (Anchored α)] {f : Block α → Builder β} {y : β}
    (h : (blockOf α >>= f).Gives (c.holding es) y c') :
    ∃ block, Blocks c.anchor es block ∧ (f block).Gives (c.holding []) y c' := by
  rw [blockOf] at h
  replace h := of_anchor (of_bind h)
  obtain ⟨fs, es, attributes, rfl, hfs, -, h₁⟩ := of_takeWhile (of_bind h)
  obtain ⟨gs, es, items, rfl, hgs, -, h₂⟩ := of_takeWhile (of_bind h₁)
  obtain ⟨rfl, h₃⟩ := of_finish (of_bind h₂)
  rw [List.append_nil]
  exact ⟨_, .mk hfs hgs, of_pure_bind h₃⟩

/-- Six kinds of blocks share this handler; the rule says which kind it is. -/
theorem plainBlock_forms {r : Rule} {kind : PlainKind} (hr : r.plainKind? = some kind)
    (h : (plainBlock kind).Gives (c.holding es) x c') : Forms c.anchor r es x := by
  obtain ⟨block, hblock, h₁⟩ := of_blockOf h
  obtain ⟨rfl, -⟩ := of_pure h₁
  exact .plainBlock hr hblock

theorem locatedBlock_forms (h : locatedBlock.Gives (c.holding es) x c') :
    Forms c.anchor .locatedVarDeclarations es x := by
  obtain ⟨block, hblock, h₁⟩ := of_blockOf h
  obtain ⟨rfl, -⟩ := of_pure h₁
  exact .locatedBlock hblock

theorem globalBlock_forms (h : globalBlock.Gives (c.holding es) x c') :
    Forms c.anchor .globalVarDeclarations es x := by
  obtain ⟨block, hblock, h₁⟩ := of_blockOf h
  obtain ⟨rfl, -⟩ := of_pure h₁
  exact .globalBlock hblock

theorem externalBlock_forms (h : externalBlock.Gives (c.holding es) x c') :
    Forms c.anchor .externalVarDeclarations es x := by
  obtain ⟨block, hblock, h₁⟩ := of_blockOf h
  obtain ⟨rfl, -⟩ := of_pure h₁
  exact .externalBlock hblock

theorem accessBlock_forms (h : accessBlock.Gives (c.holding es) x c') :
    Forms c.anchor .programAccessDecls es x := by
  obtain ⟨block, hblock, h₁⟩ := of_blockOf h
  obtain ⟨rfl, -⟩ := of_pure h₁
  exact .accessBlock hblock

/-! ## Type declarations -/

theorem structureElementDeclaration_forms
    (h : structureElementDeclaration.Gives (c.holding es) x c') :
    Forms c.anchor .structureElementDeclaration es x := by
  replace h := of_anchor h
  obtain ⟨name, es, rfl, h₁⟩ := of_token h
  obtain ⟨fs, es, location, rfl, hfs, -, h₂⟩ := of_takeIf h₁
  obtain ⟨f, es, init, rfl, hf, h₃⟩ := of_take h₂
  obtain ⟨rfl, rfl⟩ := of_finish_pure h₃
  exact .member name hfs hf

/-- A structure: its name, what it extends, an indirection and its members. -/
theorem structureTypeDeclaration_forms (h : structureTypeDeclaration.Gives (c.holding es) x c') :
    Forms c.anchor .structureTypeDeclaration es x := by
  replace h := of_anchor h
  obtain ⟨name, es, rfl, h₁⟩ := of_token h
  obtain ⟨base, es, rfl, h₂⟩ := of_tokenIf h₁
  obtain ⟨fs, es, indirection, rfl, hfs, -, h₃⟩ := of_takeIf h₂
  obtain ⟨gs, es, members, rfl, hgs, -, h₄⟩ := of_takeWhile h₃
  obtain ⟨rfl, rfl⟩ := of_finish_pure h₄
  rw [List.append_nil]
  exact .structure name base hfs hgs

/-- The handler checks what kind of type stands behind the name, and the rule names the kind. -/
theorem namedType_forms {r : Rule} (hr : r.isNamedType = true) {what : String}
    {fits : SpecInit → Bool} (h : (namedType what fits).Gives (c.holding es) x c') :
    Forms c.anchor r es x := by
  rw [namedType] at h
  replace h := of_anchor h
  obtain ⟨name, es, rfl, h₁⟩ := of_token h
  obtain ⟨base, es, rfl, h₂⟩ := of_tokenIf h₁
  obtain ⟨e, es, init, rfl, he, h₃⟩ := of_take h₂
  split at h₃
  · exact (not_gives_fail_bind h₃).elim
  · obtain ⟨rfl, rfl⟩ := of_finish_pure (of_pure_bind h₃)
    exact .namedType name base hr he

/-- A `TYPE` block holds its types in the order in which they are declared. -/
theorem dataTypeDeclaration_forms (h : dataTypeDeclaration.Gives (c.holding es) x c') :
    Forms c.anchor .dataTypeDeclaration es x := by
  replace h := of_anchor h
  obtain ⟨fs, es, items, rfl, hfs, -, h₁⟩ := of_takeWhile h
  obtain ⟨hne, h₂⟩ := of_nonEmpty h₁
  obtain ⟨rfl, rfl⟩ := of_finish_pure h₂
  rw [List.append_nil]
  exact .types hfs hne

end StructuredText.Build
