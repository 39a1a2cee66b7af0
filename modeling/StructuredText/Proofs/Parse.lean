import StructuredText.Proofs.Build.Derivation
import StructuredText.Proofs.Grammar.Depth
import StructuredText.Proofs.Ownership.Shares
import StructuredText.SourceFile.Parse

/-!
# Reading never fails in the builders

Reading a text has two steps: the grammar accepts it, and the builders make a tree of its
derivation. The second step cannot fail where the first did not.

* `parse_ok_of_accepted` — an accepted text is read, with comments or without, and a text that is
  not read was refused by the grammar.
* `exists_root_of_parseBare`, `exists_bare_of_parse` — where the tree of a file comes from.
* `NodeOf` — the nodes from which a file is built; `test_of_nodeOf` tests all of them.
-/

namespace StructuredText

open Grammar Build

namespace SourceFile

/-- What the grammar accepts is built without an error. -/
theorem parseBare_of_derive {source : Text} {nodes : List Node} {stop : Cursor}
    (h : derive .iecSource source = .matched nodes stop) :
    ∃ root f, nodes = [root] ∧ sourceFile (.ofText source) root = .ok f ∧
      ∀ filename, parseBare source filename = .ok f := by
  obtain ⟨root, f, rfl, hf⟩ : ∃ root f, nodes = [root] ∧ sourceFile (.ofText source) root = .ok f :=
    sourceFile_of_derives (derive_derives h)
  refine ⟨root, f, rfl, hf, fun filename => ?_⟩
  unfold parseBare
  generalize derive .iecSource source = o at h ⊢
  subst h
  simp only [hf]
  rfl

/-- The tree of an accepted text, with its comments if the settings ask for them. -/
def withComments (settings : Settings) (source : Text) (f : SourceFile) : SourceFile :=
  if settings.attachComments then (f.adopt source.comments).1 else f

theorem parse_of_parseBare {settings : Settings} {source : Text} {filename : String}
    {f : SourceFile} (h : parseBare source filename = .ok f) :
    parse settings source filename = .ok (withComments settings source f) := by
  simp only [parse, h, withComments]
  cases settings.attachComments <;> rfl

/-- Where the grammar does not accept a text, it is refused. -/
theorem parse_of_failed {source : Text} (h : derive .iecSource source = .failed)
    (settings : Settings) (filename : String) :
    parse settings source filename = .error (.refused filename (refusal .iecSource source)) := by
  unfold parse parseBare
  generalize derive .iecSource source = o at h ⊢
  subst h
  rfl

/-- The grammar and the builders agree: a text that the grammar accepts is read, every construct of
its derivation has an element, and the only error of reading is that the grammar refuses the text.
The settings make no difference to that. -/
theorem parse_ok_of_accepted (source : Text) :
    (∀ nodes stop, derive .iecSource source = .matched nodes stop →
      ∃ root f, nodes = [root] ∧
        (∀ settings filename,
          parse settings source filename = .ok (withComments settings source f)) ∧
        ∀ n, Within n root → ∃ x, element (.ofText source) n = .ok x) ∧
    ∀ settings filename e, parse settings source filename = .error e →
      derive .iecSource source = .failed ∧
        e = .refused filename (refusal .iecSource source) := by
  constructor
  · intro nodes stop h
    obtain ⟨root, f, rfl, hf, hparse⟩ := parseBare_of_derive h
    refine ⟨root, f, rfl, fun settings filename => parse_of_parseBare (hparse filename), ?_⟩
    intro n hn
    obtain ⟨x, hx⟩ : ∃ x, element (.ofText source) root = .ok x := by
      cases hx : element (.ofText source) root with
      | error e => simp [sourceFile, hx, bind, Except.bind] at hf
      | ok x => exact ⟨x, rfl⟩
    exact element_of_within hn hx
  · intro settings filename e he
    -- An error leaves only the refusal: the search is never cut short, and a match is built.
    cases h : derive .iecSource source with
    | exhausted => exact absurd h (derive_ne_exhausted .iecSource source)
    | failed =>
        rw [parse_of_failed h] at he
        exact ⟨rfl, (Except.error.inj he).symm⟩
    | matched nodes stop =>
        obtain ⟨root, f, -, -, hparse⟩ := parseBare_of_derive h
        rw [parse_of_parseBare (hparse filename)] at he
        cases he

/-! ## Files that were read -/

section Read

variable {settings : Settings} {source : Text} {filename : String} {f g : SourceFile}

/-- A file that was read is built from a node that the grammar matched at the start of the source. -/
theorem exists_root_of_parseBare (h : parseBare source filename = .ok f) :
    ∃ root stop, derive .iecSource source = .matched [root] stop ∧
      element (.ofText source) root = .ok (.file f) := by
  -- Only a match becomes a file.
  cases hd : derive .iecSource source with
  | matched nodes stop =>
      obtain ⟨root, f', rfl, hf, hparse⟩ := parseBare_of_derive hd
      rw [hparse] at h
      cases h
      refine ⟨root, stop, rfl, ?_⟩
      rw [sourceFile] at hf
      cases hx : element (.ofText source) root with
      | error e => simp [hx, bind, Except.bind] at hf
      | ok x =>
          simp only [hx] at hf
          cases x <;> cases hf
          rfl
  | failed =>
      have hparse := parse_of_failed hd {} filename
      rw [parse_of_parseBare h] at hparse
      cases hparse
  | exhausted => exact absurd hd (derive_ne_exhausted .iecSource source)

/-- Reading with settings changes nothing but the comments. -/
theorem exists_bare_of_parse (h : parse settings source filename = .ok g) :
    ∃ f, parseBare source filename = .ok f ∧ g.bare = f.bare := by
  cases hf : parseBare source filename with
  | error e => simp [parse, hf, bind, Except.bind] at h
  | ok f =>
      refine ⟨f, rfl, ?_⟩
      rw [parse_of_parseBare hf] at h
      obtain rfl := Except.ok.inj h
      rw [withComments]
      split
      · exact f.bare_adopt source.comments
      · rfl

end Read

end SourceFile

namespace Grammar

/-! ## Tests of derivations -/

section Tests

variable (test : Node → Bool)

mutual

/-- Whether a test holds of a node and of all nodes in it. -/
def Node.passes : Node → Bool
  | ⟨r, s, s', ns⟩ => test ⟨r, s, s', ns⟩ && Node.allPass ns
termination_by structural n => n

def Node.allPass : List Node → Bool
  | [] => true
  | n :: ns => n.passes && Node.allPass ns
termination_by structural ns => ns

end

/-- Whether a test holds of all nodes of a match. -/
def Outcome.passes : Outcome → Bool
  | .matched ns _ => Node.allPass test ns
  | .failed | .exhausted => false

end Tests

variable {test : Node → Bool} {k n : Node} {ns : List Node}

theorem Node.passes_of_mem (h : Node.allPass test ns = true) (hn : n ∈ ns) :
    n.passes test = true := by
  induction ns with
  | nil => cases hn
  | cons m ns ih =>
      rw [Node.allPass, Bool.and_eq_true] at h
      rcases List.mem_cons.mp hn with rfl | hn
      · exact h.1
      · exact ih h.2 hn

theorem Node.passes_eq (n : Node) : n.passes test = (test n && Node.allPass test n.children) := by
  cases n
  rfl

theorem Node.of_passes (h : n.passes test = true) (hk : Within k n) : test k = true := by
  induction hk with
  | self =>
      rw [Node.passes_eq, Bool.and_eq_true] at h
      exact h.1
  | child hm _ _ ih =>
      rw [Node.passes_eq, Bool.and_eq_true] at h
      exact ih (Node.passes_of_mem h.2 hm)

end Grammar

namespace SourceFile

/-! ## The nodes of a file -/

/-- The nodes from which a file is built: those of the derivation of its source, keywords apart. -/
def NodeOf (source : Text) (k : Node) : Prop :=
  ∃ root stop, derive .iecSource source = .matched [root] stop ∧ Within k root

/-- A file is derived by its own rule. -/
theorem rule_of_derive {source : Text} {root : Node} {stop : Cursor}
    (h : derive .iecSource source = .matched [root] stop) : root.rule = .iecSource := by
  obtain ⟨ms, -, hnode⟩ := (Expr.derives_rule_iff (r := .iecSource)).mp (derive_derives h)
  obtain rfl := (List.cons.inj hnode).1
  rfl

/-- What a test of the derivation says of the nodes of a file. -/
theorem test_of_nodeOf {source : Text} {test : Node → Bool} {k : Node}
    (h : (derive .iecSource source).passes test = true) (hk : NodeOf source k) :
    test k = true := by
  obtain ⟨root, stop, hderive, hwithin⟩ := hk
  rw [hderive] at h
  exact Node.of_passes (Node.passes_of_mem h (List.mem_singleton_self root)) hwithin

end SourceFile

end StructuredText
