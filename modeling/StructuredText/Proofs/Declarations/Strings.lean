import StructuredText.Proofs.Build.Formation
import StructuredText.Proofs.Declarations.StringTexts
import StructuredText.Proofs.Equality.Trees
import StructuredText.SourceFile.Parse

/-!
# Where a string is declared

A string is declared as `names : STRING(80) := 'text';` in blocks of variables, in structures and in
type declarations, and each of these places has alternatives of its own. Nearly all that stand in
front of the one for strings fail at the name of a string type, because they begin with other words.
A block of global variables looks for a call first, and a string type with a length in parentheses
can be read as one.

* `StringAt.parses_inputDeclaration`, `StringAt.parses_typeDeclaration` and so on — where a string
  stands, the result in each of the places is a declaration whose last child is its node.
* `StringAt.parses_globalVarDecl` — so it is in a global block, unless there is a call.
* `Introduces` — names stand in front of a cursor, in one of the places.
* `Build.DeclaredAs` — every declaration between two cursors has the given type and first value.
* `Build.declared_of_introduces` — in each of the places the declaration has the same type and first
  value, and an equal one in every file that has the text of the string.
-/

namespace StructuredText.Grammar

open StructuredText.Grammar.Expr

variable {p s s' : Cursor} {n v : Node}

/-! ## Failing in front of a string -/

/-- A character whose capital letter is known is that letter or the small one. -/
theorem eq_or_eq_of_toUpper {c upper : Char} (lower : Char) (h : c.toUpper = upper)
    (hlower : lower.val = upper.val + ('a'.val - 'A'.val)) : c = upper ∨ c = lower := by
  unfold Char.toUpper at h
  split at h
  · right
    apply Char.ext
    rw [hlower, ← congrArg Char.val h]
    show c.val = c.val + ('A'.val - 'a'.val) + ('a'.val - 'A'.val)
    rw [UInt32.add_assoc]
    exact (UInt32.add_zero c.val).symm
  · exact .inl h

/-! ## What a string begins with -/

namespace StringAt

/-- The word that a string type begins with, in any case. -/
theorem spelled (h : StringAt s n s') :
    ∃ t u, s.rest = t ++ u ∧ (t.upperCase = "WSTRING".toList ∨ t.upperCase = "STRING".toList) := by
  obtain ⟨_, name, _, _, hreads, htext, -, -⟩ := h.exists_text
  cases htext with
  | mk hname =>
      obtain ⟨w, hw, hname⟩ := hname
      refine ⟨name, _, by rw [hreads.rest, List.append_assoc], ?_⟩
      rw [beq_iff_eq.mp hname]
      simp only [stringTypes, List.mem_cons, List.not_mem_nil, or_false] at hw
      rcases hw with rfl | rfl
      · exact .inl rfl
      · exact .inr rfl

/-- The characters that a string type can begin with. -/
def initials : List Char := ['W', 'w', 'S', 's']

theorem at_initials (h : StringAt s n s') : s.At initials := by
  obtain ⟨t, u, hrest, hword⟩ := h.spelled
  rw [Cursor.At, hrest]
  rcases hword with hword | hword <;>
    obtain ⟨c, cs, rfl, hc, -⟩ := List.map_eq_cons_iff.mp hword
  · rcases eq_or_eq_of_toUpper 'w' hc rfl with rfl | rfl
    · exact ⟨'W', by decide, rfl⟩
    · exact ⟨'w', by decide, rfl⟩
  · rcases eq_or_eq_of_toUpper 's' hc rfl with rfl | rfl
    · exact ⟨'S', by decide, rfl⟩
    · exact ⟨'s', by decide, rfl⟩

/-- The name of a string type begins like the keyword of a structure, but is another word. -/
theorem struct_fails (h : StringAt s n s') : (rule (.keyword .STRUCT)).Parses s none := by
  obtain ⟨t, u, hrest, hword⟩ := h.spelled
  cases hrun : (Pattern.seq (Pattern.word "STRUCT") Lexicon.boundary).run s with
  | none => exact .tokenFails rfl hrun
  | some s₁ =>
      obtain ⟨k, hreads, hspells⟩ := Pattern.run_spells hrun
      have hk : k.upperCase = "STRUCT".toList := Pattern.word_spells (Pattern.spells_boundary hspells)
      -- Both words begin the same text, so the first six letters would have to be those of both.
      have hprefix : (t ++ u).upperCase.take 6 = "STRUCT".toList := by
        rw [← hrest, hreads.rest, Text.upperCase, List.map_append]
        have hlength : (k.map Char.toUpper).length = 6 := by
          rw [show k.map Char.toUpper = "STRUCT".toList from hk]
          rfl
        rw [List.take_append_of_le_length (Nat.le_of_eq hlength.symm), ← hlength, List.take_length]
        exact hk
      rw [Text.upperCase, List.map_append] at hprefix
      rcases hword with hword | hword
      · rw [show t.map Char.toUpper = "WSTRING".toList from hword] at hprefix
        simp at hprefix
      · rw [show t.map Char.toUpper = "STRING".toList from hword] at hprefix
        simp at hprefix

end StringAt

/-! ## Names in front of a type -/

/-- Names and a colon, up to what stands behind the colon. -/
def introduced (names : Expr) : Expr := .seq names (.seq trivia (.seq ":" trivia))

section Introduced

variable {names : Expr} {vs : List Node} (h : (introduced names).Parses p (some (vs, s)))
include h

/-- What stands behind the names decides about the whole. -/
theorem parses_spaced_of_introduced {e : Expr} {o : Option (List Node × Cursor)}
    (he : e.Parses s o) :
    (spaced [names, ":", e]).Parses p (o.map fun (ms, s') => (vs ++ ms, s')) := by
  simp only [introduced, trivia, parses_seq_iff, parses_lexeme_iff] at h
  obtain ⟨vs, _, s₁, rfl, hnames, _, _, s₂, rfl, ⟨rfl, hgap⟩, _, _, s₃, rfl, ⟨rfl, hcolon⟩,
    rfl, hgap'⟩ := h
  cases o with
  | none =>
      exact .seqFails hnames (.seqFails (.lexeme hgap) (.seqFails (.lexeme hcolon)
        (.seqFails (.lexeme hgap') he)))
  | some x =>
      have hrest : (seq trivia (seq ":" (seq trivia e))).Parses s₁ (some x) :=
        .seq (.lexeme hgap) (.seq (.lexeme hcolon) (.seq (.lexeme hgap') he))
      simp only [List.append_nil]
      exact .seq hnames hrest

/-- Something that does not begin with a colon may be left out in front of it. -/
theorem parses_spaced_of_introduced_opt {r : Rule} (depth : Nat)
    (hr : r.reaction [':'] depth = .blocks) {e : Expr} {o : Option (List Node × Cursor)}
    (he : e.Parses s o) :
    (spaced [names, opt r, ":", e]).Parses p (o.map fun (ms, s') => (vs ++ ms, s')) := by
  simp only [introduced, trivia, parses_seq_iff, parses_lexeme_iff] at h
  obtain ⟨vs, _, s₁, rfl, hnames, _, _, s₂, rfl, ⟨rfl, hgap⟩, _, _, s₃, rfl, ⟨rfl, hcolon⟩,
    rfl, hgap'⟩ := h
  -- What may be left out does not begin with a colon, so it is left out here.
  have hat : s₂.At [':'] := Cursor.at_of_run_text hcolon
  have hopt : (opt r).Parses s₂ (some ([], s₂)) := .right (fails_of_blocks hat depth hr) (.lexeme rfl)
  have hgap₂ : trivia.Parses s₂ (some ([], s₂)) := .lexeme (trivia_run_run hgap)
  cases o with
  | none =>
      exact .seqFails hnames (.seqFails (.lexeme hgap) (.seqFails hopt (.seqFails hgap₂
        (.seqFails (.lexeme hcolon) (.seqFails (.lexeme hgap') he)))))
  | some x =>
      have hrest : (seq trivia (seq (opt r) (seq trivia (seq ":" (seq trivia e))))).Parses s₁
          (some x) :=
        .seq (.lexeme hgap) (.seq hopt (.seq hgap₂ (.seq (.lexeme hcolon)
          (.seq (.lexeme hgap') he))))
      simp only [List.append_nil]
      exact .seq hnames hrest

/-- Nothing more is skipped behind the colon. -/
theorem parses_trivia_of_introduced : trivia.Parses s (some ([], s)) := by
  simp only [introduced, trivia, parses_seq_iff, parses_lexeme_iff] at h
  obtain ⟨_, _, _, _, _, _, _, _, _, _, _, _, _, _, _, _, hgap⟩ := h
  exact .lexeme (trivia_run_run hgap)

end Introduced

/-! ## The places of a declaration -/

namespace StringAt

/-- Where types of variables are declared, arrays come first, and a string begins no array. -/
theorem parses_locatedVarSpecInit (h : StringAt s n s') :
    (rule .locatedVarSpecInit).Parses s (some ([n], s')) :=
  .silent rfl (.right (.seqStops (fails_of_blocks h.at_initials 3 (by decide +kernel))) (.left h))

/-- In a block of variables the alternative for strings comes first. -/
theorem parses_varInitDecl (h : StringAt s n s')
    (hnames : (introduced Rule.var1List).Parses p (some ([v], s))) :
    (rule .varInitDecl).Parses p (some ([⟨.stringVarDeclaration, p, n.stop, [v, n]⟩], s')) :=
  .silent rfl (.left (.seq (.node rfl (parses_spaced_of_introduced hnames h.parts.1)) h.parts.2))

/-- In a block of inputs a signal with an edge comes first, which is of another type. -/
theorem parses_inputDeclaration (h : StringAt s n s')
    (hnames : (introduced Rule.var1List).Parses p (some ([v], s))) :
    (rule .inputDeclaration).Parses p (some ([⟨.stringVarDeclaration, p, n.stop, [v, n]⟩], s')) := by
  have hbool : (spaced [Pattern.word "BOOL", Rule.edge]).Parses s none :=
    .seqStops (.lexemeFails (Pattern.run_eq_none_of_blocks h.at_initials (by decide +kernel)))
  have hedge : (rule .edgeDeclaration).Parses p none :=
    .nodeFails rfl (parses_spaced_of_introduced hnames hbool)
  exact .silent rfl (.right (.seqStops hedge) (h.parses_varInitDecl hnames))

/-- A member of a structure. -/
theorem parses_structureElementDeclaration (h : StringAt s n s')
    (hname : (introduced Rule.identifier).Parses p (some ([v], s))) :
    (rule .structureElementDeclaration).Parses p
      (some ([⟨.structureElementDeclaration, p, s', [v, n]⟩], s')) :=
  .node rfl (parses_spaced_of_introduced_opt hname 3 (by decide +kernel)
    h.parses_locatedVarSpecInit)

/-- Among type declarations a structure and an array come first. -/
theorem parses_typeDeclaration (h : StringAt s n s')
    (hname : (introduced Rule.identifier).Parses p (some ([v], s))) :
    (rule .typeDeclaration).Parses p
      (some ([⟨.stringTypeDeclaration, p, n.stop, [v, n]⟩], s')) := by
  -- A structure and an array would begin with words of their own, and a string type with its own.
  have hstructure : (rule .structureTypeDeclaration).Parses p none := by
    have hindirection : (rule .indirectionType).Parses s none :=
      fails_of_blocks h.at_initials 3 (by decide +kernel)
    have hkeyword : (spaced [opt Rule.indirectionType, Keyword.STRUCT,
        entriesOf .structureElementDeclaration, Keyword.END_STRUCT]).Parses s none :=
      .seqFails (.right hindirection (.lexeme rfl))
        (.seqFails (parses_trivia_of_introduced hname) (.seqStops h.struct_fails))
    exact .nodeFails rfl (parses_spaced_of_introduced_opt hname 3 (by decide +kernel)
      hkeyword)
  have harray : (rule .arrayTypeDeclaration).Parses p none :=
    .nodeFails rfl (parses_spaced_of_introduced hname
      (fails_of_blocks h.at_initials 3 (by decide +kernel)))
  have hend : (seq trivia (rule .typeDeclarationEnd)).Parses n.stop (some ([], s')) := by
    obtain ⟨_, _, s₁, hns, hgap, hahead⟩ := parses_seq_iff.mp h.parts.2
    obtain ⟨rfl, rfl⟩ := List.append_eq_nil_iff.mp hns.symm
    cases hahead with
    | ahead hsemicolon => exact .seq hgap (.silent rfl (.ahead (.left hsemicolon)))
  exact .silent rfl (.right hstructure (.right (.seqStops harray)
    (.left (.seq (.node rfl (parses_spaced_of_introduced hname h.parts.1)) hend))))

/-- In a block of global variables a call comes first, and a string type with a length in
parentheses can be one. -/
theorem parses_globalVarInit (h : StringAt s n s') {o : Option (List Node × Cursor)}
    (hcall : (terminated Rule.fbInvocation).Parses s o) :
    (rule .globalVarInit).Parses s (o.or (some ([n], s'))) := by
  cases o with
  | none => exact .silent rfl (.right hcall h.parses_locatedVarSpecInit)
  | some x => exact .silent rfl (.left hcall)

theorem parses_globalVarDecl (h : StringAt s n s')
    (hnames : (introduced Rule.globalVarSpec).Parses p (some ([v], s)))
    (hcall : (terminated Rule.fbInvocation).Parses s none) :
    (rule .globalVarDecl).Parses p (some ([⟨.globalVarDecl, p, s', [v, n]⟩], s')) :=
  .node rfl (parses_spaced_of_introduced hnames (h.parses_globalVarInit hcall))

end StringAt

/-- Names and a colon stand from the first cursor to the second one, where a declaration of the rule
may begin. In a block of global variables no call stands behind the colon. -/
inductive Introduces : Rule → Cursor → Node → Cursor → Prop where
  | plain {p s : Cursor} {v : Node} (h : (introduced Rule.var1List).Parses p (some ([v], s))) :
      Introduces .varInitDecl p v s
  | inputs {p s : Cursor} {v : Node} (h : (introduced Rule.var1List).Parses p (some ([v], s))) :
      Introduces .inputDeclaration p v s
  | member {p s : Cursor} {v : Node} (h : (introduced Rule.identifier).Parses p (some ([v], s))) :
      Introduces .structureElementDeclaration p v s
  | type {p s : Cursor} {v : Node} (h : (introduced Rule.identifier).Parses p (some ([v], s))) :
      Introduces .typeDeclaration p v s
  | globals {p s : Cursor} {v : Node}
      (h : (introduced Rule.globalVarSpec).Parses p (some ([v], s)))
      (hcall : (terminated Rule.fbInvocation).Parses s none) : Introduces .globalVarDecl p v s

/-- The rules of declarations that may be those of strings. -/
def stringDeclarations : List Rule :=
  [.stringVarDeclaration, .structureElementDeclaration, .stringTypeDeclaration, .globalVarDecl]

/-- In each of the places there is a declaration of the names and the string. -/
theorem StringAt.exists_declaration (h : StringAt s n s') {r : Rule} (hr : Introduces r p v s) :
    ∃ d, (rule r).Parses p (some ([d], s')) ∧ d.rule ∈ stringDeclarations ∧ d.children = [v, n] := by
  cases hr with
  | plain hnames => exact ⟨_, h.parses_varInitDecl hnames, by simp [stringDeclarations], rfl⟩
  | inputs hnames => exact ⟨_, h.parses_inputDeclaration hnames, by simp [stringDeclarations], rfl⟩
  | member hname =>
      exact ⟨_, h.parses_structureElementDeclaration hname, by simp [stringDeclarations], rfl⟩
  | type hname => exact ⟨_, h.parses_typeDeclaration hname, by simp [stringDeclarations], rfl⟩
  | globals hnames hcall =>
      exact ⟨_, h.parses_globalVarDecl hnames hcall, by simp [stringDeclarations], rfl⟩

end StructuredText.Grammar

/-! ## What is declared -/

namespace StructuredText

/-- The type and the first value that a declaration gives to what it declares. -/
def Element.declaredInit? : Element → Option SpecInit
  | .declaration ⟨_, .init _ i⟩ => some i
  | .globalDeclaration ⟨_, _, .spec i⟩ => some i
  | .member m => some m.body.init
  | .typeDeclaration ⟨_, _, _, .spec i⟩ => some i
  | _ => none

namespace Build

open Grammar

variable {lines : LineIndex} {n v : Node} {s s' : Cursor}

theorem declaredInit?_of_forms {a : Anchor} {r : Rule} {es : List Element} {x : Element}
    {i : SpecInit} (hr : r ∈ stringDeclarations) (h : Forms a r es x)
    (hlast : es.getLast? = some (.specInit i)) : x.declaredInit? = some i := by
  simp only [stringDeclarations, List.mem_cons, List.not_mem_nil, or_false] at hr
  -- In all four kinds the type is what the children end with.
  rcases hr with rfl | rfl | rfl | rfl
  · cases h with
    | initDeclaration _ _ hf =>
        obtain rfl := Option.some.inj hlast
        exact hf.symm
    | _ => contradiction
  · cases h with
    | member _ _ hf =>
        simp only [List.getLast?_cons, List.getLast?_append] at hlast
        obtain rfl := Option.some.inj hlast
        exact hf.symm
    | _ => contradiction
  · cases h with
    | namedType _ _ _ he =>
        simp only [List.getLast?_cons, List.getLast?_append] at hlast
        obtain rfl := Option.some.inj hlast
        exact he.symm
    | _ => contradiction
  · cases h with
    | globalSpec _ hf =>
        obtain rfl := Option.some.inj hlast
        exact hf.symm
    | globalInvocation _ hf =>
        obtain rfl := Option.some.inj hlast
        cases hf
    | _ => contradiction

theorem specInit_of_forms {a : Anchor} {es : List Element} {y : Element}
    (h : Forms a .stringSpecInit es y) : ∃ type value, y = .specInit (.string type value) := by
  cases h with
  | stringSpecInit => exact ⟨_, _, rfl⟩
  | _ => contradiction

theorem specInit_of_element (hn : n.rule = .stringSpecInit) {y : Element}
    (hy : element lines n = .ok y) : ∃ type value, y = .specInit (.string type value) := by
  cases made_of_element hy with
  | token hb | raw _ hb =>
      rw [hn] at hb
      cases hb
  | leaf _ h | built _ _ h =>
      rw [hn] at h
      exact specInit_of_forms h

/-- The last of two nodes makes the last element, if it is no keyword. -/
theorem exists_of_elements_pair (hn : n.rule.isKeyword = false) {es : List Element}
    (h : elements lines [v, n] = .ok es) :
    ∃ y, element lines n = .ok y ∧ es.getLast? = some y := by
  have hone {fs : List Element} (hfs : elements lines [n] = .ok fs) :
      ∃ y, element lines n = .ok y ∧ fs = [y] := by
    rw [elements_cons_eq_ok, if_neg (by simp [hn])] at hfs
    obtain ⟨y, gs, hy, hgs, rfl⟩ := hfs
    cases hgs
    exact ⟨y, hy, rfl⟩
  rw [elements_cons_eq_ok] at h
  split at h
  · obtain ⟨y, hy, rfl⟩ := hone h
    exact ⟨y, hy, rfl⟩
  · obtain ⟨_, fs, -, hfs, rfl⟩ := h
    obtain ⟨y, hy, rfl⟩ := hone hfs
    exact ⟨y, hy, rfl⟩

/-- Where a string is declared, the declaration has the type and first value that the element of the
string has, whatever kind of declaration it is. -/
theorem declaredInit?_of_stringAt (h : StringAt s n s') {d : Node} {x : Element}
    (hd : d.rule ∈ stringDeclarations) (hchildren : d.children = [v, n])
    (hx : element lines d = .ok x) :
    ∃ type value, element lines n = .ok (.specInit (.string type value)) ∧
      x.declaredInit? = some (.string type value) := by
  have hn : n.rule = .stringSpecInit := h.rule_eq
  have hbuilder : builder? d.rule ≠ none := by
    revert hd
    generalize d.rule = r
    decide +revert
  -- All these rules have handlers, and a declaration has children, so it is built of them.
  cases made_of_element hx with
  | token hb | raw _ hb => exact absurd hb hbuilder
  | leaf hleaf =>
      rw [hchildren] at hleaf
      cases hleaf
  | built _ hes hforms =>
      rw [hchildren] at hes
      obtain ⟨y, hy, hlast⟩ := exists_of_elements_pair (by rw [hn]; rfl) hes
      obtain ⟨type, value, rfl⟩ := specInit_of_element hn hy
      exact ⟨type, value, hy, declaredInit?_of_forms hd hforms hlast⟩

/-- What a rule leaves is built, if the rule cannot be stranded. -/
theorem element_of_parses {r : Rule} {p : Cursor} {d : Node}
    (h : (Expr.rule r).Parses p (some ([d], s'))) (hr : r.strands = false)
    (hd : d.rule.isKeyword = false) : ∃ x, element lines d = .ok x := by
  have hbuilt : Built lines (.rule r) [d] s' := built_of_derives h.derives rfl
  rcases hbuilt with ⟨hstrands, -⟩ | ⟨es, hes, -⟩
  · cases hstrands.symm.trans hr
  · exact element_of_mem (List.mem_singleton_self d) hd hes

/-- Wherever names are in front of what stands between the two cursors, there is a declaration of
them, and it gives them this type and first value. -/
def DeclaredAs (lines : LineIndex) (s s' : Cursor) (i : SpecInit) : Prop :=
  ∀ r p v, Introduces r p v s →
    ∃ d x, (Expr.rule r).Parses p (some ([d], s')) ∧ element lines d = .ok x ∧
      x.declaredInit? = some i

/-- A declaration of a string declares what is built of the string itself. -/
theorem declaredAs_of_element (h : StringAt s n s') {type : StringType}
    {value : Option StringLiteral} (hn : element lines n = .ok (.specInit (.string type value))) :
    DeclaredAs lines s s' (.string type value) := by
  intro r p v hintroduces
  obtain ⟨d, hparses, hd, hchildren⟩ := h.exists_declaration hintroduces
  obtain ⟨x, hx⟩ : ∃ x, element lines d = .ok x := by
    refine element_of_parses hparses ?_ ?_
    · cases hintroduces <;> rfl
    · revert hd
      generalize d.rule = r
      decide +revert
  obtain ⟨type', value', hn', hinit⟩ := declaredInit?_of_stringAt h hd hchildren hx
  cases hn.symm.trans hn'
  exact ⟨d, x, hparses, hx, hinit⟩

/-- Strings are equal whose tokens have the same texts. -/
theorem string_beq_of_texts {type type' : StringType} {value value' : Option StringLiteral}
    (hname : type'.name.text = type.name.text)
    (hlength : type'.length.map (·.text) = type.length.map (·.text))
    (hvalue : value'.map (·.value.text) = value.map (·.value.text)) :
    (SpecInit.string type' value' == .string type value) = true := by
  have hlength' : type'.length.map Token.wording = type.length.map Token.wording := by
    have h := congrArg (Option.map fun t => Token.mk t 0) hlength
    rwa [Option.map_map, Option.map_map] at h
  have hvalue' : value'.map StringLiteral.wording = value.map StringLiteral.wording := by
    have h := congrArg (Option.map fun t => StringLiteral.mk ⟨t, 0⟩) hvalue
    rwa [Option.map_map, Option.map_map] at h
  rw [beq_iff_wording, SpecInit.wording, SpecInit.wording, StringType.wording, StringType.wording,
    hlength', hvalue', Token.wording, Token.wording, hname]

/-- A string is declared alike in all places. Wherever names are in front of it, there is a
declaration of them, and the type and the first value that it gives to them are those of the string
itself; only where a call can be read behind the names a block of global variables has no such
declaration. Where the same text stands in another file, an equal string is declared there, unless
its length is the beginning of a comment in that file. -/
theorem declared_of_introduces (h : StringAt s n s') (lines : LineIndex) :
    ∃ type value, element lines n = .ok (.specInit (.string type value)) ∧
      DeclaredAs lines s s' (.string type value) ∧
      ∀ lines₁ s₁ s₁', s₁.Reads (s.upTo s') s₁' → s₁'.At [';'] →
        LeavesOpen (type.length.map (·.text)) s₁'.rest →
        ∃ type₁ value₁, (SpecInit.string type₁ value₁ == .string type value) = true ∧
          DeclaredAs lines₁ s₁ s₁' (.string type₁ value₁) := by
  obtain ⟨t, name, length, value, hreads, htext, hopen, hs'⟩ := h.exists_text
  obtain ⟨m, hm, hbuilt⟩ := htext.exists_stringAt hreads hs' hopen
  obtain rfl : m = n := by
    have hunique := hm.unique h
    simpa using hunique
  obtain ⟨type, first, helement, hname, hlength, hvalue⟩ := hbuilt lines
  refine ⟨type, first, helement, declaredAs_of_element h helement, ?_⟩
  intro lines₁ s₁ s₁' hreads₁ hs₁' hopen₁
  rw [hreads.upTo] at hreads₁
  rw [hlength] at hopen₁
  -- Of what stands behind the text only its first character matters, and that is the semicolon in
  -- both files.
  have hhead : s₁'.rest.head? = s'.rest.head? := (head_of_at hs₁').trans (head_of_at hs').symm
  obtain ⟨n₁, h₁, hbuilt₁⟩ := (htext.of_head hhead).exists_stringAt hreads₁ hs₁' hopen₁
  obtain ⟨type₁, first₁, helement₁, hname₁, hlength₁, hvalue₁⟩ := hbuilt₁ lines₁
  exact ⟨type₁, first₁, string_beq_of_texts (hname₁.trans hname.symm)
    (hlength₁.trans hlength.symm) (hvalue₁.trans hvalue.symm), declaredAs_of_element h₁ helement₁⟩

/-- Whether a search leaves one node and ends at the cursor. -/
def leavesOne (s : Cursor) : Outcome → Bool
  | .matched [_] stop => stop == s
  | _ => false

theorem exists_node_of_search {e : Expr} {p : Cursor} (depth : Nat) (he : e.advances = true)
    (h : leavesOne s (e.search depth p) = true) : ∃ v, e.Parses p (some ([v], s)) := by
  have hfound := Expr.search_parses (Rule.search_parses depth) he p
  generalize e.search depth p = o at h hfound
  match o with
  | .matched [v] stop =>
      obtain rfl : stop = s := beq_iff_eq.mp h
      exact ⟨v, hfound⟩
  | .matched [] _ | .matched (_ :: _ :: _) _ | .failed | .exhausted => cases h

theorem fails_of_search {e : Expr} {p : Cursor} (depth : Nat) (he : e.advances = true)
    (h : (e.search depth p matches .failed) = true) : e.Parses p none := by
  have hfound := Expr.search_parses (Rule.search_parses depth) he p
  generalize e.search depth p = o at h hfound
  cases o with
  | failed => exact hfound
  | matched | exhausted => cases h

/-- The rules of declarations at whose place a string may be declared. -/
def places : List Rule :=
  [.varInitDecl, .inputDeclaration, .structureElementDeclaration, .typeDeclaration, .globalVarDecl]

/-- One search for each kind of names finds out that they are in front of a cursor in all places. -/
theorem introduces_of_search {p : Cursor}
    (hnames : [Rule.var1List, .identifier, .globalVarSpec].all
      (fun names => leavesOne s ((introduced names).search 30 p)) = true)
    (hcall : ((terminated Rule.fbInvocation).search 30 s matches .failed) = true) :
    ∀ r ∈ places, ∃ v, Introduces r p v s := by
  simp only [List.all_cons, List.all_nil, Bool.and_true, Bool.and_eq_true] at hnames
  obtain ⟨hvars, hidentifier, hglobals⟩ := hnames
  obtain ⟨u, hu⟩ := exists_node_of_search 30 rfl hvars
  obtain ⟨v, hv⟩ := exists_node_of_search 30 rfl hidentifier
  obtain ⟨w, hw⟩ := exists_node_of_search 30 rfl hglobals
  intro r hr
  simp only [places, List.mem_cons, List.not_mem_nil, or_false] at hr
  rcases hr with rfl | rfl | rfl | rfl | rfl
  · exact ⟨u, .plain hu⟩
  · exact ⟨u, .inputs hu⟩
  · exact ⟨v, .member hv⟩
  · exact ⟨v, .type hv⟩
  · exact ⟨w, .globals hw (fails_of_search 30 rfl hcall)⟩

/-- A string with a length in parentheses and a first value. -/
def sizedString : Text := "STRING(5) := 'a';".toList

/-- A name in front of it. -/
def namedString : Text := "s : ".toList ++ sizedString

/-- Another name in front of it, and the end of a block behind it. -/
def renamedString : Text := "title : ".toList ++ sizedString ++ " END_VAR".toList

theorem declared_of_introduces_namedString :
    ∃ n type value type₁ value₁, StringAt ⟨4, sizedString⟩ n ⟨20, [';']⟩ ∧
      element (.ofText namedString) n = .ok (.specInit (.string type value)) ∧
      (SpecInit.string type₁ value₁ == .string type value) = true ∧
      ∀ r ∈ places,
        (∃ d x, (Expr.rule r).Parses namedString.cursor (some ([d], ⟨20, [';']⟩)) ∧
          element (.ofText namedString) d = .ok x ∧
          x.declaredInit? = some (.string type value)) ∧
        ∃ d x, (Expr.rule r).Parses renamedString.cursor (some ([d], ⟨24, "; END_VAR".toList⟩)) ∧
          element (.ofText renamedString) d = .ok x ∧
          x.declaredInit? = some (.string type₁ value₁) := by
  obtain ⟨n, hn⟩ : ∃ n, StringAt ⟨4, sizedString⟩ n ⟨20, [';']⟩ :=
    exists_node_of_search 30 rfl (by decide +kernel)
  have hnamed : ∀ r ∈ places, ∃ v, Introduces r namedString.cursor v ⟨4, sizedString⟩ :=
    introduces_of_search (by decide +kernel) (by decide +kernel)
  have hrenamed : ∀ r ∈ places, ∃ v,
      Introduces r renamedString.cursor v ⟨8, sizedString ++ " END_VAR".toList⟩ :=
    introduces_of_search (by decide +kernel) (by decide +kernel)
  obtain ⟨type, value, hinit, hdeclared, hother⟩ := declared_of_introduces hn (.ofText namedString)
  obtain ⟨type₁, value₁, hequal, hdeclared₁⟩ := hother (.ofText renamedString)
    ⟨8, sizedString ++ " END_VAR".toList⟩ ⟨24, "; END_VAR".toList⟩ ⟨by decide +kernel, by decide +kernel⟩
    ⟨';', by decide, by decide +kernel⟩ fun _ _ _ => by decide +kernel
  refine ⟨n, type, value, type₁, value₁, hn, hinit, hequal, fun r hr => ⟨?_, ?_⟩⟩
  · obtain ⟨v, hv⟩ := hnamed r hr
    exact hdeclared r _ v hv
  · obtain ⟨v, hv⟩ := hrenamed r hr
    exact hdeclared₁ r _ v hv

/-- With a length in parentheses and no first value, a block of global variables finds a call. -/
example :
    (SourceFile.parse {} "VAR_GLOBAL s : STRING(5); END_VAR".toList "g.st").toOption.any (fun f =>
      match f.items with
      | [.globals ⟨_, _, [⟨_, _, .invocation _⟩]⟩] => true
      | _ => false) = true := by
  decide +kernel

end Build

end StructuredText
