import StructuredText.Proofs.Build.Forms

/-!
# Builders make what the table says: types and first values
-/

namespace StructuredText.Build

open Grammar Builder

variable {c c' : Children} {es : List Element} {x : Element}

/-! ## Types and first values -/

/-- The words of an indirection are compared in upper case with single blanks between them. -/
theorem indirectionType_forms (h : indirectionType.Gives (c.holding es) x c') :
    Forms c.anchor .indirectionType es x := by
  obtain ⟨t, es, rfl, h₁⟩ := of_token h
  dsimp only at h₁
  split at h₁
  · obtain ⟨rfl, rfl⟩ := of_finish_pure (of_pure_bind h₁)
    exact .indirection t _
  · split at h₁
    · obtain ⟨rfl, rfl⟩ := of_finish_pure (of_pure_bind h₁)
      exact .indirection t _
    · split at h₁
      · obtain ⟨rfl, rfl⟩ := of_finish_pure (of_pure_bind h₁)
        exact .indirection t _
      · exact (not_gives_fail_bind h₁).elim

theorem nonGenericTypeName_forms (h : nonGenericTypeName.Gives (c.holding es) x c') :
    Forms c.anchor .nonGenericTypeName es x := by
  obtain ⟨fs, es, indirection, rfl, hfs, -, h₁⟩ := of_takeIf h
  obtain ⟨typeName, es, rfl, h₂⟩ := of_token h₁
  obtain ⟨rfl, rfl⟩ := of_finish_pure h₂
  exact .dataType typeName hfs

/-- The keyword of the string type, and the length if one is written. -/
theorem stringTypeSpecification_forms (h : stringTypeSpecification.Gives (c.holding es) x c') :
    Forms c.anchor .stringTypeSpecification es x := by
  obtain ⟨name, es, rfl, h₁⟩ := of_token h
  obtain ⟨length, es, rfl, h₂⟩ := of_tokenIf h₁
  obtain ⟨rfl, rfl⟩ := of_finish_pure h₂
  rw [List.append_nil]
  exact .stringType name length

/-- A full range says nothing but that it is one. -/
theorem fullSubrange_forms (h : fullSubrange.Gives (c.holding es) x c') :
    Forms c.anchor .fullSubrange es x := by
  obtain ⟨t, es, rfl, h₁⟩ := of_token h
  obtain ⟨rfl, rfl⟩ := of_finish_pure h₁
  exact .fullSubrange t

theorem subrange_forms (h : subrange.Gives (c.holding es) x c') :
    Forms c.anchor .subrange es x := by
  obtain ⟨e, es, low, rfl, he, h₁⟩ := of_take h
  obtain ⟨f, es, high, rfl, hf, h₂⟩ := of_take h₁
  obtain ⟨rfl, rfl⟩ := of_finish_pure h₂
  exact .subrange he hf

/-- An array has its dimensions first and the type of its elements last. -/
theorem arraySpecification_forms (h : arraySpecification.Gives (c.holding es) x c') :
    Forms c.anchor .arraySpecification es x := by
  obtain ⟨fs, es, dimensions, rfl, hfs, -, h₁⟩ := of_takeWhile h
  obtain ⟨hne, h₂⟩ := of_nonEmpty h₁
  obtain ⟨e, es, elementType, rfl, he, h₃⟩ := of_take h₂
  obtain ⟨rfl, rfl⟩ := of_finish_pure h₃
  exact .arrayType hfs hne he

theorem subrangeSpecification_forms (h : subrangeSpecification.Gives (c.holding es) x c') :
    Forms c.anchor .subrangeSpecification es x := by
  obtain ⟨typeName, es, rfl, h₁⟩ := of_token h
  obtain ⟨e, es, range, rfl, he, h₂⟩ := of_take h₁
  obtain ⟨rfl, rfl⟩ := of_finish_pure h₂
  exact .subrangeType typeName he

/-- A value of an enumeration: perhaps its type, its name, and perhaps a number. -/
theorem enumeratedValue_forms (h : enumeratedValue.Gives (c.holding es) x c') :
    Forms c.anchor .enumeratedValue es x := by
  obtain ⟨typeName, es, rfl, h₁⟩ := of_tokenIf h
  obtain ⟨name, es, rfl, h₂⟩ := of_token h₁
  obtain ⟨fs, es, value, rfl, hfs, -, h₃⟩ := of_takeIf h₂
  obtain ⟨rfl, rfl⟩ := of_finish_pure h₃
  rw [List.append_nil]
  exact .enumeratedValue typeName name hfs

/-- A base type is looked for behind the values; it is a token, and no value is one. -/
theorem enumeratedSpecification_forms (h : enumeratedSpecification.Gives (c.holding es) x c') :
    Forms c.anchor .enumeratedSpecification es x := by
  obtain ⟨fs, es, values, rfl, hfs, -, h₁⟩ := of_takeWhile h
  obtain ⟨hne, h₂⟩ := of_nonEmpty h₁
  obtain ⟨baseType, es, rfl, h₃⟩ := of_tokenIf h₂
  obtain ⟨rfl, rfl⟩ := of_finish_pure h₃
  rw [List.append_nil]
  exact .enumeratedType baseType hfs hne

/-- The elements that count the rounds are enough for all elements of an array. -/
theorem arrayElements_found {bound : List Element} {elements : List ArrayInitialElement}
    (hbound : es.length ≤ bound.length)
    (h : (arrayElements bound).Gives (c.holding es) elements c') :
    es.map arrayElement? = elements.map some := by
  induction bound generalizing es elements c' with
  | nil =>
      obtain rfl : es = [] := List.length_eq_zero_iff.mp (Nat.le_zero.mp hbound)
      replace h := of_get h
      obtain ⟨rfl, -⟩ := of_pure h
      rfl
  | cons _ bound ih =>
      replace h := of_get h
      cases es with
      | nil =>
          obtain ⟨rfl, -⟩ := of_pure h
          rfl
      | cons e es =>
          obtain ⟨element, c₁, helement, h₁⟩ := gives_bind_iff.mp h
          -- A repeated element is looked for first, and any other value is a single one.
          have hfirst : arrayElement? e = some element ∧ c₁ = c.holding es := by
            obtain ⟨fs, rest, o, heq, hfs, hstop, h₂⟩ := of_takeIf helement
            cases o with
            | some a =>
                obtain ⟨e, rfl, he⟩ := serve_one_iff.mp hfs
                obtain ⟨rfl, rfl⟩ := List.cons.inj heq
                obtain ⟨rfl, rfl⟩ := of_pure h₂
                exact ⟨by rw [arrayElement?, he]; rfl, rfl⟩
            | none =>
                obtain rfl := serve_nil_iff.mp hfs
                subst heq
                obtain ⟨_, _, v, ⟨rfl, rfl⟩, hv, h₃⟩ := of_take h₂
                obtain ⟨rfl, rfl⟩ := of_pure h₃
                have hlacks : (ofElement? e : Option ArrayInitialElement) = none := hstop rfl e rfl
                exact ⟨by rw [arrayElement?, hlacks, hv]; rfl, rfl⟩
          obtain ⟨he, rfl⟩ := hfirst
          obtain ⟨elements', c₂, hrest, h₂⟩ := gives_bind_iff.mp h₁
          obtain ⟨rfl, rfl⟩ := of_pure h₂
          simp only [List.length_cons] at hbound
          rw [List.map_cons, List.map_cons, he, ih (by omega) hrest]

/-- The first value of an array holds at least one element. -/
theorem arrayInitialization_forms (h : arrayInitialization.Gives (c.holding es) x c') :
    Forms c.anchor .arrayInitialization es x := by
  rw [arrayInitialization] at h
  replace h := of_get h
  obtain ⟨elements, c₁, helements, h₁⟩ := gives_bind_iff.mp h
  obtain ⟨hne, h₂⟩ := of_nonEmpty h₁
  obtain ⟨rfl, -⟩ := of_pure h₂
  exact .arrayInitialization (arrayElements_found (Nat.le_refl _) helements) hne

/-- A count in front of brackets, with what they repeat, if anything. -/
theorem arrayInitialElementCount_forms (h : arrayInitialElementCount.Gives (c.holding es) x c') :
    Forms c.anchor .arrayInitialElementCount es x := by
  obtain ⟨e, es, count, rfl, he, h₁⟩ := of_take h
  obtain ⟨fs, es, element, rfl, hfs, -, h₂⟩ := of_takeIf h₁
  obtain ⟨rfl, rfl⟩ := of_finish_pure h₂
  rw [List.append_nil]
  exact .repeated he hfs

/-- The first value of one member: perhaps its name, then the value. -/
theorem structureElementInitialization_forms
    (h : structureElementInitialization.Gives (c.holding es) x c') :
    Forms c.anchor .structureElementInitialization es x := by
  obtain ⟨name, es, rfl, h₁⟩ := of_tokenIf h
  obtain ⟨e, es, value, rfl, he, h₂⟩ := of_take h₁
  obtain ⟨rfl, rfl⟩ := of_finish_pure h₂
  exact .structureElement name he

theorem structureInitialization_forms (h : structureInitialization.Gives (c.holding es) x c') :
    Forms c.anchor .structureInitialization es x := by
  obtain ⟨fs, es, elements, rfl, hfs, -, h₁⟩ := of_takeWhile h
  obtain ⟨hne, h₂⟩ := of_nonEmpty h₁
  obtain ⟨rfl, rfl⟩ := of_finish_pure h₂
  rw [List.append_nil]
  exact .structureInitialization hfs hne

theorem initializedStructure_forms (h : initializedStructure.Gives (c.holding es) x c') :
    Forms c.anchor .initializedStructure es x := by
  obtain ⟨typeName, es, rfl, h₁⟩ := of_token h
  obtain ⟨e, es, value, rfl, he, h₂⟩ := of_take h₁
  obtain ⟨rfl, rfl⟩ := of_finish_pure h₂
  exact .initializedStructure typeName he

/-- A string type with the literal it starts from. -/
theorem stringSpecInit_forms (h : stringSpecInit.Gives (c.holding es) x c') :
    Forms c.anchor .stringSpecInit es x := by
  obtain ⟨e, es, type, rfl, he, h₁⟩ := of_take h
  obtain ⟨fs, es, value, rfl, hfs, -, h₂⟩ := of_takeIf h₁
  obtain ⟨rfl, rfl⟩ := of_finish_pure h₂
  rw [List.append_nil]
  exact .stringSpecInit he hfs

theorem arraySpecInit_forms (h : arraySpecInit.Gives (c.holding es) x c') :
    Forms c.anchor .arraySpecInit es x := by
  obtain ⟨fs, es, indirection, rfl, hfs, -, h₁⟩ := of_takeIf h
  obtain ⟨e, es, type, rfl, he, h₂⟩ := of_take h₁
  obtain ⟨gs, es, value, rfl, hgs, -, h₃⟩ := of_takeIf h₂
  obtain ⟨rfl, rfl⟩ := of_finish_pure h₃
  rw [List.append_nil]
  exact .arraySpecInit hfs he hgs

/-- The indirection in front of a type is put down once, for all four kinds of types. -/
theorem subrangeSpecInit_forms (h : subrangeSpecInit.Gives (c.holding es) x c') :
    Forms c.anchor .subrangeSpecInit es x := by
  obtain ⟨fs, es, indirection, rfl, hfs, -, h₁⟩ := of_takeIf h
  obtain ⟨e, es, type, rfl, he, h₂⟩ := of_take h₁
  obtain ⟨gs, es, value, rfl, hgs, -, h₃⟩ := of_takeIf h₂
  obtain ⟨rfl, rfl⟩ := of_finish_pure h₃
  rw [List.append_nil]
  exact .subrangeSpecInit hfs he hgs

theorem enumeratedSpecInit_forms (h : enumeratedSpecInit.Gives (c.holding es) x c') :
    Forms c.anchor .enumeratedSpecInit es x := by
  obtain ⟨fs, es, indirection, rfl, hfs, -, h₁⟩ := of_takeIf h
  obtain ⟨e, es, type, rfl, he, h₂⟩ := of_take h₁
  obtain ⟨gs, es, value, rfl, hgs, -, h₃⟩ := of_takeIf h₂
  obtain ⟨rfl, rfl⟩ := of_finish_pure h₃
  rw [List.append_nil]
  exact .enumeratedSpecInit hfs he hgs

/-- A type that is only named, with the expression it starts from. -/
theorem simpleSpecInit_forms (h : simpleSpecInit.Gives (c.holding es) x c') :
    Forms c.anchor .simpleSpecInit es x := by
  obtain ⟨fs, es, indirection, rfl, hfs, -, h₁⟩ := of_takeIf h
  obtain ⟨typeName, es, rfl, h₂⟩ := of_token h₁
  obtain ⟨gs, es, value, rfl, hgs, -, h₃⟩ := of_takeIf h₂
  obtain ⟨rfl, rfl⟩ := of_finish_pure h₃
  rw [List.append_nil]
  exact .simpleSpecInit typeName hfs hgs

end StructuredText.Build
