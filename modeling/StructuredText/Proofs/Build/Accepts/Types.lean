import StructuredText.Proofs.Build.Accepts.Expressions
import StructuredText.Proofs.Build.Types

/-!
# Builders accept what their rules leave: types and first values
-/

namespace StructuredText.Build

open Grammar Expr

variable {e : Expr} {es : List Element}

/-! ## Types -/

theorem indirection_of_opt (h : (opt Rule.indirectionType).Leaves es) :
    ∃ i : Option Indirection, Serve es i.toList := serve_of_opt h fun _ h => h

theorem nonGenericTypeName_accepts : Accepts .nonGenericTypeName := by
  rintro b e es c ⟨⟩ ⟨⟩ h - -
  obtain ⟨is, _, his, ⟨_, rfl, t, rfl, -⟩, rfl⟩ := row_of_spaced h
  obtain ⟨i, his⟩ := indirection_of_opt his
  exact ⟨_, _, nonGenericTypeName_gives his t, _, rfl⟩

/-- The keyword and perhaps a length. -/
theorem stringTypeSpecification_accepts : Accepts .stringTypeSpecification := by
  rintro b e es c ⟨⟩ ⟨⟩ h - -
  obtain ⟨_, ls, ⟨_, rfl, t, rfl, -⟩, hls, rfl⟩ := row_of_spaced h
  obtain ⟨length, rfl⟩ := token_of_opt hls (leavesToken_rule fun _ h => h)
  exact ⟨_, _, stringTypeSpecification_gives t length, _, rfl⟩

theorem subrange_accepts : Accepts .subrange := by
  rintro b e es c ⟨⟩ ⟨⟩ h - -
  obtain ⟨_, _, ⟨_, rfl, _, hlow⟩, ⟨_, rfl, _, hhigh⟩, rfl⟩ := row_of_spaced h
  exact ⟨_, _, subrange_gives hlow hhigh, _, rfl⟩

theorem arraySpecification_accepts : Accepts .arraySpecification := by
  rintro b e es c ⟨⟩ ⟨⟩ h - -
  obtain ⟨ds, _, hds, ⟨_, rfl, _, ht⟩, rfl⟩ := row_of_spaced h
  obtain ⟨dimensions, hne, hds⟩ := serve_of_commaList (α := Subrange) hds (by
    rintro xs ⟨_, rfl, v, rfl⟩
    exact ⟨_, rfl, v, rfl⟩)
  exact ⟨_, _, arraySpecification_gives hds hne ht, _, rfl⟩

theorem subrangeSpecification_accepts : Accepts .subrangeSpecification := by
  rintro b e es c ⟨⟩ ⟨⟩ h - -
  obtain ⟨_, _, ⟨_, rfl, t, rfl, -⟩, ⟨_, rfl, range, rfl⟩, rfl⟩ := row_of_spaced h
  exact ⟨_, _, subrangeSpecification_gives t range, _, rfl⟩

/-- A value behind its mark. -/
theorem value_of_opt {mark : Pattern} (h : (opt (spaced [mark, Rule.expression])).Leaves es) :
    ∃ v : Option Expression, Serve es v.toList := serve_of_opt h fun _ h => row_of_spaced h

theorem enumeratedValue_accepts : Accepts .enumeratedValue := by
  rintro b e es c ⟨⟩ ⟨⟩ h - -
  obtain ⟨ts, _, hts, ⟨_, vs, ⟨_, rfl, name, rfl, -⟩, hvs, rfl⟩, rfl⟩ := row_of_spaced h
  obtain ⟨t, rfl⟩ := token_of_opt (r := .typeName) hts (by
    intro xs hxs
    obtain ⟨_, rfl, t, rfl, -⟩ := row_of_spaced hxs
    exact ⟨t, rfl⟩)
  obtain ⟨value, hvs⟩ := value_of_opt hvs
  exact ⟨_, _, enumeratedValue_gives t name hvs, _, rfl⟩

/-- Values in a row, and perhaps a base type behind them that is no value. -/
theorem enumeratedSpecification_accepts : Accepts .enumeratedSpecification := by
  rintro b e es c ⟨⟩ ⟨⟩ h - -
  obtain ⟨vs, ts, hvs, hts, rfl⟩ := row_of_spaced h
  obtain ⟨values, hne, hvs⟩ := serve_of_commaList (α := EnumeratedValue) hvs (by
    rintro xs ⟨_, rfl, v, rfl⟩
    exact ⟨_, rfl, v, rfl⟩)
  obtain ⟨base, rfl⟩ := token_of_opt hts (leavesToken_rule fun _ h => h)
  exact ⟨_, _, enumeratedSpecification_gives hvs hne base, _, rfl⟩

/-! ## First values -/

/-- Whatever is written for a first value serves as one. -/
theorem initializer_of_oneOf {xs : List Element}
    (h : (∃ x, xs = [x] ∧ ∃ v, x = .structureInitialization v) ∨
      (∃ x, xs = [x] ∧ ∃ v, x = .arrayInitialization v) ∨ ∃ x, xs = [x] ∧ Serves Expression x) :
    ∃ x, xs = [x] ∧ Serves Initializer x := by
  rcases h with ⟨_, rfl, v, rfl⟩ | ⟨_, rfl, v, rfl⟩ | ⟨x, rfl, v, hv⟩
  · exact ⟨_, rfl, .struct v, rfl⟩
  · exact ⟨_, rfl, .array v, rfl⟩
  · refine ⟨x, rfl, .expression v, ?_⟩
    cases x <;> first | (cases hv; rfl) | cases hv

theorem arrayInitialElement_accepts : Accepts .arrayInitialElement := by
  rintro b e es c ⟨⟩ ⟨⟩ h - -
  obtain ⟨x, rfl, hx⟩ := initializer_of_oneOf h
  exact ⟨x, _, Builder.single_gives, hx⟩

theorem arrayInitialElementCount_accepts : Accepts .arrayInitialElementCount := by
  rintro b e es c ⟨⟩ ⟨⟩ h - -
  obtain ⟨_, vs, ⟨_, rfl, count, rfl⟩, hvs, rfl⟩ := row_of_spaced h
  obtain ⟨value, hvs⟩ := serve_of_opt (α := Initializer) hvs fun _ h => h
  exact ⟨_, _, arrayInitialElementCount_gives count hvs, _, rfl⟩

/-- A repeated element and a first value are both elements of an array. -/
theorem arrayElement_of_oneOf {xs : List Element}
    (h : (oneOf [Rule.arrayInitialElementCount, Rule.arrayInitialElement]).Leaves xs) :
    ∃ x a, xs = [x] ∧ arrayElementOf? x = some a := by
  rcases h with ⟨x, rfl, a, ha⟩ | ⟨x, rfl, v, hv⟩
  · exact ⟨x, a, rfl, by simp only [arrayElementOf?, ha]⟩
  · cases hrep : (ofElement? x : Option ArrayInitialElement) with
    | some a => exact ⟨x, a, rfl, by simp only [arrayElementOf?, hrep]⟩
    | none => exact ⟨x, .single v, rfl, by simp only [arrayElementOf?, hrep, hv, Option.map_some]⟩

/-- Elements that come one to a row are elements in one row. -/
theorem arrayElements_of_rows {rows : List (List Element)}
    (h : ∀ xs ∈ rows, ∃ x a, xs = [x] ∧ arrayElementOf? x = some a) :
    ∃ as : List ArrayInitialElement, rows.flatten.map arrayElementOf? = as.map some := by
  induction rows with
  | nil => exact ⟨[], rfl⟩
  | cons xs rows ih =>
      obtain ⟨x, a, rfl, ha⟩ := h xs (by simp)
      obtain ⟨as, has⟩ := ih fun ys hys => h ys (by simp [hys])
      exact ⟨a :: as, by simp [ha, has]⟩

/-- The elements of an array are one to a row, for nothing else stands between the commas. -/
theorem arrayInitialization_accepts : Accepts .arrayInitialization := by
  rintro b e es c ⟨⟩ ⟨⟩ h - -
  obtain ⟨xs, _, hxs, ⟨_, ys, rfl, hys, rfl⟩, rfl⟩ := row_of_spaced h
  obtain ⟨rows, hrows, rfl⟩ := rows_of_many hys
  obtain ⟨x, a, rfl, ha⟩ := arrayElement_of_oneOf hxs
  obtain ⟨as, has⟩ := arrayElements_of_rows fun zs hzs =>
    arrayElement_of_oneOf (row_of_spaced (hrows zs hzs))
  have helements : (x :: List.flatten rows).map arrayElementOf? = (a :: as).map some := by
    simp [ha, has]
  exact ⟨_, _, arrayInitialization_gives helements (by simp), _, rfl⟩

theorem structureElementInitialization_accepts : Accepts .structureElementInitialization := by
  rintro b e es c ⟨⟩ ⟨⟩ h - -
  obtain ⟨ns, _, hns, hv, rfl⟩ := row_of_spaced h
  obtain ⟨name, rfl⟩ := name_of_opt hns
  obtain ⟨x, rfl, v, hv⟩ := initializer_of_oneOf (or_left_comm.mp hv)
  exact ⟨_, _, structureElementInitialization_gives name hv, _, rfl⟩

theorem structureInitialization_accepts : Accepts .structureInitialization := by
  rintro b e es c ⟨⟩ ⟨⟩ h - -
  obtain ⟨elements, hne, hes⟩ :=
    serve_of_commaList (α := StructureElementInitialization) (row_of_spaced h) fun _ h => h
  exact ⟨_, _, structureInitialization_gives hes hne, _, rfl⟩

theorem initializedStructure_accepts : Accepts .initializedStructure := by
  rintro b e es c ⟨⟩ ⟨⟩ h - -
  obtain ⟨_, _, ⟨_, rfl, t, rfl, -⟩, ⟨_, rfl, v, rfl⟩, rfl⟩ := row_of_spaced h
  exact ⟨_, _, initializedStructure_gives t v, _, rfl⟩

/-! ## Types with first values -/

/-- A string type and perhaps a literal. -/
theorem stringSpecInit_accepts : Accepts .stringSpecInit := by
  rintro b e es c ⟨⟩ ⟨⟩ h - -
  obtain ⟨_, vs, ⟨_, rfl, t, rfl⟩, hvs, rfl⟩ := row_of_spaced h
  obtain ⟨value, hvs⟩ := serve_of_opt (α := StringLiteral) hvs (by
    intro xs hxs
    obtain ⟨_, rfl, s, rfl⟩ := row_of_spaced hxs
    exact ⟨_, rfl, s, rfl⟩)
  exact ⟨_, _, stringSpecInit_gives t hvs, _, _, rfl⟩

/-- The indirection, the type and the value are of three kinds, so none is taken for another. -/
theorem arraySpecInit_accepts : Accepts .arraySpecInit := by
  rintro b e es c ⟨⟩ ⟨⟩ h - -
  obtain ⟨is, _, his, ⟨_, vs, ⟨_, rfl, t, rfl⟩, hvs, rfl⟩, rfl⟩ := row_of_spaced h
  obtain ⟨i, his⟩ := indirection_of_opt his
  obtain ⟨value, hvs⟩ := serve_of_opt (α := ArrayInitialization) hvs (by
    intro xs hxs
    obtain ⟨_, rfl, v, rfl⟩ := row_of_spaced hxs
    exact ⟨_, rfl, v, rfl⟩)
  exact ⟨_, _, arraySpecInit_gives his t hvs, _, _, _, rfl⟩

theorem subrangeSpecInit_accepts : Accepts .subrangeSpecInit := by
  rintro b e es c ⟨⟩ ⟨⟩ h - -
  obtain ⟨is, _, his, ⟨_, vs, ⟨_, rfl, t, rfl⟩, hvs, rfl⟩, rfl⟩ := row_of_spaced h
  obtain ⟨i, his⟩ := indirection_of_opt his
  obtain ⟨value, hvs⟩ := value_of_opt hvs
  exact ⟨_, _, subrangeSpecInit_gives his t hvs, _, _, _, rfl⟩

theorem enumeratedSpecInit_accepts : Accepts .enumeratedSpecInit := by
  rintro b e es c ⟨⟩ ⟨⟩ h - -
  obtain ⟨is, _, his, ⟨_, vs, ⟨_, rfl, t, rfl⟩, hvs, rfl⟩, rfl⟩ := row_of_spaced h
  obtain ⟨i, his⟩ := indirection_of_opt his
  obtain ⟨value, hvs⟩ := value_of_opt hvs
  exact ⟨_, _, enumeratedSpecInit_gives his t hvs, _, _, _, rfl⟩

theorem simpleSpecInit_accepts : Accepts .simpleSpecInit := by
  rintro b e es c ⟨⟩ ⟨⟩ h - -
  obtain ⟨is, _, his, ⟨_, vs, ⟨_, rfl, t, rfl, -⟩, hvs, rfl⟩, rfl⟩ := row_of_spaced h
  obtain ⟨i, his⟩ := indirection_of_opt his
  obtain ⟨value, hvs⟩ := value_of_opt hvs
  exact ⟨_, _, simpleSpecInit_gives his t hvs, _, _, rfl⟩

end StructuredText.Build
