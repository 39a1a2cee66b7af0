import StructuredText.Proofs.Blanking.Interfaces
import StructuredText.Proofs.Parse
import StructuredText.Proofs.Places.Equality

/-!
# Files and blank comments

A file whose comments stand between its tokens is read in the same way with blanks for them: its
derivation is the same, between the places of its cursors, and what is built of it differs in nothing
but places. What tells a comment from blanks is an interface, which is kept as it was written.

* `Grammar.Node.Whole.alike` — a node is the same with blanks for the comments.
* `SourceFile.parse_blanked` — a file is the same with blanks for its comments.
-/

namespace StructuredText

open Grammar

/-- With blanks for the comments, a node is on the same line, and a token has the same text. -/
theorem Grammar.Node.Whole.alike {source : Text} {n : Node} (hn : n.Whole source)
    (hmatched : Matched n) :
    n.Alike (.ofText source) (.ofText source.blanked) (Cursor.blanked source) := by
  refine ⟨hmatched, hn.edge.lineOf_blanked, fun htoken => ?_⟩
  obtain ⟨t, hreads, hblanked⟩ := hn.edge.reads (hn.kept htoken)
  rw [Node.text, Node.text, Node.start_moved, Node.stop_moved, hreads.upTo, hblanked.upTo]

namespace SourceFile

open Build

variable {settings : Settings} {source : Text} {filename : String} {g : SourceFile}

/-- Comments are trivia where they stand between tokens. A text that is read without its comments is
read with blanks for them, too: to a file in which every node is on the same line and says the same.
What is kept as it was written has blanks for its comments, and behind it the blanks and the semicolon
that only comments keep apart from it. If nothing is kept so, then the file is equal and written in
the same way. -/
theorem parse_blanked (hsettings : settings.attachComments = false)
    (houtside : CommentsOutside source) (hg : parse settings source filename = .ok g) :
    ∃ g', parse settings source.blanked filename = .ok g' ∧ g'.unplaced = g.unplaced ∧
      List.Forall₂ (fun v v' => v.Blanked source v'.text) g.verbatims g'.verbatims ∧
      ((∀ k, NodeOf source k → k.rule ≠ .interfaceDeclaration) →
        g' == g ∧ g'.render = g.render) := by
  have hbare (t : Text) (f : SourceFile) : withComments settings t f = f := by
    rw [withComments, hsettings]
    rfl
  cases hf : parseBare source filename with
  | error e => simp [parse, hf, bind, Except.bind] at hg
  | ok f =>
      obtain rfl : f = g := by
        rw [parse_of_parseBare hf, hbare] at hg
        exact Except.ok.inj hg
      obtain ⟨root, stop, hderive, hroot⟩ := exists_root_of_parseBare hf
      obtain ⟨hderive', hwhole⟩ := derive_blanked houtside hderive
      obtain ⟨-, f', -, -, hparse'⟩ := parseBare_of_derive hderive'
      obtain ⟨root', stop', hderiveRoot', hroot'⟩ := exists_root_of_parseBare (hparse' filename)
      obtain rfl : root.moved (Cursor.blanked source) = root' := by
        rw [hderive'] at hderiveRoot'
        simpa using (Outcome.matched.inj hderiveRoot').1
      have hmatched (k : Node) (hk : Within k root) : Matched k :=
        (justified_of_within hderive hk).matched
      have hwhole (k : Node) (hk : Within k root) : k.Whole source := hwhole root (by simp) k hk
      -- The two derivations have the same nodes at the places of the same cursors, so what is built
      -- of them differs in places alone.
      have halike (k : Node) (hk : Within k root) := (hwhole k hk).alike (hmatched k hk)
      have hrow := ((derive_derives hderive).row.of_mem (List.mem_singleton_self root)).2.1
      have hunplaced : f'.unplaced = f.unplaced :=
        Element.file.inj (unplaced_of_element root halike hroot hroot')
      refine ⟨f', by rw [parse_of_parseBare (hparse' filename), hbare], hunplaced,
        forall₂_verbatims (rule_of_derive hderive) hmatched hwhole hrow halike hroot hroot',
        fun hnone => ?_⟩
      refine beq_and_render_of_unplaced (hasVerbatim_eq_false.mpr ?_) hunplaced
      exact not_mem_verbatim (rule_of_derive hderive) hmatched
        (fun k hk => hnone k ⟨root, stop, hderive, hk⟩) hroot

/-- A program with comments and a pragma between the tokens of a declaration, and what looks like a
comment in a string. -/
def triviaProgram : Text :=
  "PROGRAM P // a\nVAR s(* b\n *): STRING (*c*) [5] \x7bd\x7d := '(* e *)'; END_VAR\n".toList ++
    "x := (*g*) 1;\nEND_PROGRAM".toList

theorem parse_blanked_triviaProgram :
    triviaProgram.blanked =
        "PROGRAM P     \nVAR s    \n   : STRING       [5]     := '(* e *)'; END_VAR\n".toList ++
          "x :=       1;\nEND_PROGRAM".toList ∧
      ∃ g g', parse { attachComments := false } triviaProgram "p.st" = .ok g ∧
        parse { attachComments := false } triviaProgram.blanked "p.st" = .ok g' ∧
        g'.unplaced = g.unplaced ∧
        List.Forall₂ (fun v v' => v.Blanked triviaProgram v'.text) g.verbatims g'.verbatims ∧
        g' == g ∧ g'.render = g.render := by
  have hnodes : ((derive .iecSource triviaProgram).passes fun k =>
      k.rule != .interfaceDeclaration) := by
    decide +kernel
  have hok : (parse { attachComments := false } triviaProgram "p.st").toOption.isSome := by
    decide +kernel
  refine ⟨by decide +kernel, ?_⟩
  cases hg : parse { attachComments := false } triviaProgram "p.st" with
  | error e =>
      rw [hg] at hok
      cases hok
  | ok g =>
      obtain ⟨g', hg', hunplaced, htexts, hsame⟩ := parse_blanked rfl
        (.of_cursors (by decide +kernel) (by decide +kernel)) hg
      exact ⟨g, g', rfl, hg', hunplaced, htexts,
        hsame fun k hk => by simpa using test_of_nodeOf hnodes hk⟩

/-- The texts of the constructs that are kept as they were written, if the source is read. -/
def verbatimTexts (source : Text) : Option (List Text) :=
  (parse { attachComments := false } source "i.st").toOption.map fun g => g.verbatims.map (·.text)

/-- A comment keeps the semicolon apart from the interface, and blanks for it do not. -/
example :
    verbatimTexts "INTERFACE I END_INTERFACE (*;*) ;".toList =
        some ["INTERFACE I END_INTERFACE".toList] ∧
      verbatimTexts (Text.blanked "INTERFACE I END_INTERFACE (*;*) ;".toList) =
        some ["INTERFACE I END_INTERFACE       ;".toList] := by
  decide +kernel

end SourceFile

end StructuredText
