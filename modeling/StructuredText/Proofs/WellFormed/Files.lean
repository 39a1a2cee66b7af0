import StructuredText.Proofs.Build.Formation
import StructuredText.Proofs.Parse
import StructuredText.Proofs.WellFormed.Constructs

/-!
# Well-formed files

Every node of a derivation becomes a well-formed element, by induction on the node: its children
fit, because each is well-formed, was made by its rule, and may stand where it stands.

* `fit_of_elements` — the elements of the children of a node fit.
* `wellFormed_of_element` — what becomes of a node is well-formed.
* `SourceFile.wellFormed_of_parse` — every file that was read is well-formed.
-/

namespace StructuredText

open Grammar (Node Rule Matched Justified)

namespace Build

variable {lines : LineIndex} {n : Node} {es : List Element}

/-! ## Elements of nodes -/

theorem exists_of_mem_nodes {ns : List Node} (h : elements lines ns = .ok es) {m : Node}
    (hm : m ∈ ns) (hkeyword : m.rule.isKeyword = false) :
    ∃ e ∈ es, element lines m = .ok e := by
  induction ns generalizing es with
  | nil => cases hm
  | cons n ns ih =>
      rw [elements_cons_eq_ok] at h
      split at h
      · rename_i hn
        rcases List.mem_cons.mp hm with rfl | hm
        · rw [hkeyword] at hn
          cases hn
        · exact ih h hm
      · obtain ⟨e, fs, he, hfs, rfl⟩ := h
        rcases List.mem_cons.mp hm with rfl | hm
        · exact ⟨e, by simp, he⟩
        · obtain ⟨f, hf, hfm⟩ := ih hfs hm
          exact ⟨f, by simp [hf], hfm⟩

/-- Without keywords, every node has an element. -/
theorem length_elements {ns : List Node} (h : elements lines ns = .ok es)
    (hkeyword : ∀ m ∈ ns, m.rule.isKeyword = false) : ns.length = es.length := by
  induction ns generalizing es with
  | nil =>
      rw [elements_nil] at h
      cases h
      rfl
  | cons n ns ih =>
      obtain ⟨hn, hns⟩ := List.forall_mem_cons.mp hkeyword
      rw [elements_cons_eq_ok, if_neg (by simp [hn])] at h
      obtain ⟨e, fs, -, hfs, rfl⟩ := h
      rw [List.length_cons, List.length_cons, ih hfs hns]

/-! ## Children fit -/

/-- What is called is written with a name in front. -/
theorem not_mayHold_callee {r k : Rule}
    (hr : r = .functionCall ∨ r = .fbInvocation ∨ r = .methodStatement)
    (hk : k = .directVariable ∨ k.passes = true) : r.mayHold k = false := by
  have hall : (Rule.inOrder.all fun k => !(k == .directVariable || k.passes) ||
      !(Rule.mayHold .functionCall k || Rule.mayHold .fbInvocation k ||
        Rule.mayHold .methodStatement k)) = true := by
    decide +kernel
  have hk' : (k == .directVariable || k.passes) = true := by simpa using hk
  have hr' := Rule.of_all hall k
  simp only [hk', Bool.not_true, Bool.false_or, Bool.not_eq_true', Bool.or_eq_false_iff] at hr'
  obtain ⟨⟨hfunction, hblock⟩, hmethod⟩ := hr'
  rcases hr with rfl | rfl | rfl <;> assumption

theorem not_keyword_of_mayHold {r k : Rule} (hr : r = .fbInvocation ∨ r = .caseList)
    (h : r.mayHold k = true) : k.isKeyword = false := by
  have hall : (Rule.inOrder.all fun k =>
      !(Rule.mayHold .fbInvocation k || Rule.mayHold .caseList k) || !k.isKeyword) = true := by
    decide +kernel
  have hk := Rule.of_all hall k
  rcases hr with rfl | rfl <;> simpa [h] using hk

/-- A block of located variables has an entry. -/
theorem exists_locatedVarDecl (hn : Matched n) (hrule : n.rule = .locatedVarDeclarations) :
    ∃ m ∈ n.children, m.rule = .locatedVarDecl :=
  Grammar.exists_of_leavesNode (by simp [Rule.production]) (hn.body hrule rfl).derives rfl

/-- A call is built of the variable and the parameters. -/
theorem call_of_forms {a : Anchor} {r : Rule} {f : Variable} {ps : List Parameter}
    (h : Forms a r es (.invocation ⟨f, ps⟩)) (hr : r = .fbInvocation) :
    ∃ e fs, es = e :: fs ∧ ofElement? e = some f ∧ Serve fs ps := by
  cases h with
  | fbInvocation he hes => exact ⟨_, _, rfl, he, hes⟩
  | pass _ hpass =>
      subst hr
      cases hpass

/-- A statement calls a function block with parameters. -/
theorem parameters_ne_nil (hn : ∀ k, Within k n → Justified k)
    (hrule : n.rule = .fbInvocationStatement) {c : Node} (hc : c ∈ n.children)
    (hcrule : c.rule = .fbInvocation) {f : Variable} {ps : List Parameter}
    (h : element lines c = .ok (.invocation ⟨f, ps⟩)) : ps ≠ [] := by
  rintro rfl
  have hkeyword : c.rule.isKeyword = false := by
    rw [hcrule]
    rfl
  have hmatched := (hn c (.child hc hkeyword (.self c))).matched
  -- without parameters the variable is the only child
  obtain ⟨e, hes⟩ : ∃ e, elements lines c.children = .ok [e] := by
    cases made_of_element h with
    | leaf _ hforms =>
        obtain ⟨e, fs, htoken, he, -⟩ := call_of_forms hforms hcrule
        obtain ⟨rfl, -⟩ := List.cons.inj htoken
        cases he
    | built _ hes hforms =>
        obtain ⟨e, fs, rfl, -, hps⟩ := call_of_forms hforms hcrule
        obtain rfl := serve_nil_iff.mp hps
        exact ⟨e, hes⟩
  have hlength := length_elements hes fun m hm =>
    not_keyword_of_mayHold (.inl rfl) (hcrule ▸ hmatched.mayHold hm)
  obtain ⟨m, hm⟩ := List.length_eq_one_iff.mp hlength
  exact Grammar.children_ne_singleton (hn n (.self n)) hrule hc m hm

/-- The elements of the children of a node fit. -/
theorem fit_of_elements (hn : ∀ k, Within k n → Justified k)
    (hes : elements lines n.children = .ok es)
    (ih : ∀ m ∈ n.children, ∀ x, m.rule.isKeyword = false → element lines m = .ok x →
      x.WellFormed ∧ Suits m.rule x) : Fit n.rule es := by
  have hmatched := (hn n (.self n)).matched
  -- Each condition asks for what becomes of a child, so each looks up the child of the element.
  refine ⟨?_, ?_, ?_, ?_, ?_⟩
  · intro e he
    obtain ⟨m, hm, hkeyword, hx⟩ := exists_of_mem_elements hes he
    exact (ih m hm e hkeyword hx).1
  · intro e he k hk
    obtain ⟨m, hm, hkeyword, hx⟩ := exists_of_mem_elements hes he
    rw [← (ih m hm e hkeyword hx).2.maker k hk]
    exact hmatched.mayHold hm
  · intro hrule e he v hv
    obtain ⟨m, hm, hkeyword, hx⟩ := exists_of_mem_elements hes he
    cases v with
    | symbolic | multiElement => rfl
    | direct d =>
        have hholds := hmatched.mayHold hm
        rw [not_mayHold_callee hrule ((ih m hm e hkeyword hx).2.direct d hv)] at hholds
        cases hholds
  · intro hrule
    obtain ⟨m, hm, hmrule⟩ := exists_locatedVarDecl hmatched hrule
    have hkeyword : m.rule.isKeyword = false := by
      rw [hmrule]
      rfl
    obtain ⟨e, he, hx⟩ := exists_of_mem_nodes hes hm hkeyword
    refine ⟨e, he, ?_⟩
    rintro f rfl
    have hmaker := (ih m hm _ hkeyword hx).2.maker _ rfl
    rw [hmrule] at hmaker
    cases hmaker
  · intro hrule f ps he
    obtain ⟨m, hm, hkeyword, hx⟩ := exists_of_mem_elements hes he
    exact parameters_ne_nil hn hrule hm ((ih m hm _ hkeyword hx).2.maker _ rfl) hx

/-- A token fits as the only child. -/
theorem fit_token (r k : Rule) (t : Token) : Fit r [.token k t] := by
  refine ⟨?_, ?_, ?_, ?_, ?_⟩
  · intro e he
    obtain rfl := List.mem_singleton.mp he
    trivial
  · intro e he m hm
    obtain rfl := List.mem_singleton.mp he
    cases hm
  · intro _ e he v hv
    obtain rfl := List.mem_singleton.mp he
    cases hv
  · exact fun _ => ⟨_, .head _, nofun⟩
  · intro _ f ps h
    cases List.mem_singleton.mp h

/-- Labels of a case are well-formed, and there is at least one. -/
theorem wellFormed_of_labels (hn : Matched n) (hrule : n.rule = .caseList)
    (hne : n.children ≠ []) (hes : elements lines n.children = .ok es) (hfit : Fit n.rule es)
    {labels : List CaseLabel} (h : Serve es labels) :
    labels ≠ [] ∧ ∀ l ∈ labels, l.WellFormed := by
  constructor
  · rintro rfl
    obtain rfl := serve_nil_iff.mp h
    have hlength := length_elements hes fun m hm =>
      not_keyword_of_mayHold (.inr rfl) (hrule ▸ hn.mayHold hm)
    exact hne (List.length_eq_zero_iff.mp hlength)
  · exact hfit.all h (fun _ => id) (by rw [hrule]; nofun) (by rw [hrule]; nofun)

/-- What becomes of a node is well-formed and the work of its rule. -/
theorem wellFormed_of_element (n : Node) (hn : ∀ k, Within k n → Justified k) {x : Element}
    (h : element lines n = .ok x) : x.WellFormed ∧ Suits n.rule x := by
  have hfit {es : List Element} (hes : elements lines n.children = .ok es) : Fit n.rule es := by
    refine fit_of_elements hn hes ?_
    intro m hm y hkeyword hy
    have hlt := sizeOf_lt_of_mem_children hm
    exact wellFormed_of_element m (fun k hk => hn k (.child hm hkeyword hk)) hy
  -- A leaf is built of a single token, and a token always fits.
  cases made_of_element h with
  | token => exact ⟨trivial, nofun, nofun⟩
  | leaf _ hforms =>
      have htoken := fit_token n.rule n.rule ⟨n.start.upTo n.stop, lines.lineOf n.start.offset⟩
      exact ⟨wellFormed_of_forms hforms htoken, suits_of_forms hforms htoken⟩
  | built _ hes hforms =>
      exact ⟨wellFormed_of_forms hforms (hfit hes), suits_of_forms hforms (hfit hes)⟩
  | raw last _ hlast hes =>
      have hne : n.children ≠ [] := List.ne_nil_of_mem (List.mem_of_getLast? hlast)
      refine ⟨?_, nofun, nofun⟩
      intro hrule labels hlabels
      exact wellFormed_of_labels (hn n (.self n)).matched hrule hne hes (hfit hes) hlabels
termination_by sizeOf n

end Build

/-! ## Files -/

namespace SourceFile

open Build

variable {settings : Settings} {source : Text} {filename : String} {g : SourceFile}

/-- Every file that was read is well-formed. -/
theorem wellFormed_of_parse (h : parse settings source filename = .ok g) : g.WellFormed := by
  obtain ⟨f, hf, hbare⟩ := exists_bare_of_parse h
  obtain ⟨root, stop, hderive, hroot⟩ := exists_root_of_parseBare hf
  have hwf := wellFormed_of_element root (fun k => Grammar.justified_of_within hderive) hroot
  rw [← wellFormed_bare, hbare, wellFormed_bare]
  exact hwf.1

/-- A program with a located variable, and a call with an enumerated value as a parameter. -/
def callingProgram : Text :=
  "PROGRAM P\nVAR x AT %QX0.1 : BOOL; END_VAR\nf(In := C#Red);\nEND_PROGRAM".toList

theorem wellFormed_of_parse_callingProgram :
    ∃ g, parse {} callingProgram "p.st" = .ok g ∧ g.items.length = 1 ∧ g.WellFormed := by
  have hcheck : (parse {} callingProgram "p.st").toOption.any (·.items.length == 1) := by
    decide +kernel
  cases hg : parse {} callingProgram "p.st" with
  | error e =>
      rw [hg] at hcheck
      cases hcheck
  | ok g =>
      rw [hg] at hcheck
      exact ⟨g, rfl, by simpa [Except.toOption] using hcheck, wellFormed_of_parse hg⟩

end SourceFile

end StructuredText
