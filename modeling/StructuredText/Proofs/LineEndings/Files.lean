import StructuredText.Proofs.Build.Interfaces
import StructuredText.Proofs.LineEndings.Comments
import StructuredText.Proofs.LineEndings.Elements
import StructuredText.Proofs.Parse
import StructuredText.Proofs.Places.Equality

/-!
# Files and line endings

A file whose lines end in a line feed alone is read in the same way with a carriage return in front
of each: its derivation is the same, further behind, and from there on the two runs are alike up to
places. Only what is kept as it was written tells them apart, and that is an interface or a token
that runs over the end of a line.

* `SourceFile.oneLined_of_nodeOf` — the nodes of a file whose tokens are on one line each.
* `SourceFile.parse_withReturns` — a file is the same with carriage returns.
-/

namespace StructuredText

open Grammar

namespace SourceFile

open Build

variable {source : Text} {filename : String} {f g : SourceFile} {k : Node}

/-! ## The nodes of a file -/

/-- The tokens of a file are on one line each, if its strings and lengths are. -/
theorem oneLined_of_nodeOf
    (hfeed : ∀ k, NodeOf source k → k.rule = .stringLiteral ∨ k.rule = .stringLength →
      '\n' ∉ k.text) (hk : NodeOf source k) : k.OneLined source := by
  obtain ⟨root, stop, hderive, hwithin⟩ := hk
  have hrow := (derive_derives hderive).row
  refine ⟨(justified_of_within hderive hwithin).matched, ?_, ?_⟩
  · obtain ⟨⟨t, ht⟩, hroot, -⟩ := hrow.of_mem (List.mem_singleton_self root)
    obtain ⟨⟨u, hu⟩, -⟩ := reads_of_within hwithin hroot
    exact ⟨_, ht.trans hu⟩
  · intro hcross
    refine hfeed k ⟨root, stop, hderive, hwithin⟩ ?_
    cases hr : k.rule <;> simp_all [Rule.mayCrossLines]

/-! ## Two runs -/

/-- Line endings do not matter. If a text without carriage returns is read with its comments, and no
interface and no string or length that runs over the end of a line is in it, then it is read with a
carriage return in front of each line feed, too: to an equal file, in which every node and every
comment says the same and is on the same line, and which is written in the same way. -/
theorem parse_withReturns (hsource : '\r' ∉ source) (hg : parse {} source filename = .ok g)
    (hinterface : ∀ k, NodeOf source k → k.rule ≠ .interfaceDeclaration)
    (hfeed : ∀ k, NodeOf source k → k.rule = .stringLiteral ∨ k.rule = .stringLength →
      '\n' ∉ k.text) :
    ∃ g', parse {} source.withReturns filename = .ok g' ∧ g' == g ∧ g'.unplaced = g.unplaced ∧
      g'.render = g.render := by
  obtain ⟨f, hf, rfl⟩ := parse_default hg
  obtain ⟨root, stop, hderive, hroot⟩ := exists_root_of_parseBare hf
  have hderive' := derive_withReturns (by decide) hsource hderive
  obtain ⟨-, f', -, -, hparse'⟩ := parseBare_of_derive hderive'
  obtain ⟨root', stop', hderiveRoot', hroot'⟩ := exists_root_of_parseBare (hparse' filename)
  obtain rfl : root.moved (Cursor.withReturns (source.count '\n')) = root' := by
    rw [hderive'] at hderiveRoot'
    simpa using (Outcome.matched.inj hderiveRoot').1
  have hnode {k : Node} (hk : Within k root) : NodeOf source k := ⟨root, stop, hderive, hk⟩
  -- First the trees as they are built, then the comments that are attached to them.
  have hunplaced : f'.unplaced = f.unplaced :=
    Element.file.inj (unplaced_of_element root
      (fun k hk => (oneLined_of_nodeOf hfeed (hnode hk)).alike hsource) hroot hroot')
  have hverbatim : f.hasVerbatim = false :=
    hasVerbatim_eq_false.mpr (not_mem_verbatim (rule_of_derive hderive)
      (fun k hk => (justified_of_within hderive hk).matched) (fun k hk => hinterface k (hnode hk))
      hroot)
  have hadopt := unplaced_adopt hverbatim hunplaced (Text.comments_withReturns hsource)
  have hadopted : (f.adopt source.comments).1.hasVerbatim = false := by
    rw [← hasVerbatim_bare, bare_adopt, hasVerbatim_bare, hverbatim]
  obtain ⟨hequal, hrender⟩ := beq_and_render_of_unplaced hadopted hadopt
  exact ⟨_, parse_of_parseBare (hparse' filename), hequal, hadopt, hrender⟩

/-- A program with a comment of two lines behind a statement and one in front of the next. -/
def linedProgram : Text :=
  "PROGRAM P\nx := 'a'; (* b\n   c *)\n// d\ny := 1;\nEND_PROGRAM".toList

theorem parse_withReturns_linedProgram :
    ∃ g g', parse {} linedProgram "p.st" = .ok g ∧
      g.anchors.map (fun p => (p.2.line, p.2.comments.length)) =
        [(1, 0), (2, 1), (2, 0), (5, 1)] ∧
      parse {} linedProgram.withReturns "p.st" = .ok g' ∧ g' == g ∧ g'.unplaced = g.unplaced ∧
      g'.render = g.render := by
  have hcheck : (parse {} linedProgram "p.st").toOption.any (fun g =>
      g.anchors.map (fun p => (p.2.line, p.2.comments.length)) ==
        [(1, 0), (2, 1), (2, 0), (5, 1)]) := by
    decide +kernel
  -- Both conditions are looked at in one walk over the derivation.
  have hnodes : ((derive .iecSource linedProgram).passes fun k =>
      k.rule != .interfaceDeclaration && !(k.rule.mayCrossLines && k.text.contains '\n')) := by
    decide +kernel
  cases hg : parse {} linedProgram "p.st" with
  | error e =>
      rw [hg] at hcheck
      cases hcheck
  | ok g =>
      rw [hg] at hcheck
      obtain ⟨g', hg', hequal, hunplaced, hrender⟩ := parse_withReturns (by decide +kernel) hg
        (fun k hk => by simpa using (Bool.and_eq_true_iff.mp (test_of_nodeOf hnodes hk)).1)
        (fun k hk hrule => by
          have htest := (Bool.and_eq_true_iff.mp (test_of_nodeOf hnodes hk)).2
          rcases hrule with hrule | hrule <;> simpa [hrule, Rule.mayCrossLines] using htest)
      exact ⟨g, g', rfl, by simpa [Except.toOption] using hcheck, hg', hequal, hunplaced, hrender⟩

end SourceFile

end StructuredText
