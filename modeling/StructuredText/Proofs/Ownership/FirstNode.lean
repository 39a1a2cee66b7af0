import StructuredText.Proofs.Build.Anchors
import StructuredText.Proofs.Comments.Scan
import StructuredText.Proofs.Ownership.Shares
import StructuredText.Proofs.Parse

/-!
# A comment belongs to the first node on its line or below

The walk deals comments out greedily: a node takes what is in front of the queue. As the comments of
a text come line by line, that gives each of them to the first node, in document order, that does not
stand above it.

* `Comment.owner?` — the place of that node.
* `Dealt.taken_eq_filter` — nodes take the comments that belong to them.
* `SourceFile.comments_eq_filter` — so do the nodes of a file that was read.
-/

namespace StructuredText

/-- The place of the first anchor of a row that stands on the line of the comment or below. -/
def Comment.owner? (places : List (Owner × Anchor)) (c : Comment) : Option Nat :=
  places.findIdx? fun p => c.line ≤ p.2.line

/-! ## Fresh trees -/

/-- A tree that was read without its comments owns none. -/
theorem SourceFile.fresh_of_parseBare {source : Text} {filename : String} {f : SourceFile}
    (h : parseBare source filename = .ok f) : ∀ p ∈ f.anchors, p.2.comments = [] := by
  obtain ⟨root, hroot⟩ : ∃ root, Build.sourceFile (.ofText source) root = .ok f := by
    cases hd : Grammar.derive .iecSource source with
    | matched nodes stop =>
        obtain ⟨root, f', -, hf, hparse⟩ := parseBare_of_derive hd
        rw [hparse] at h
        cases h
        exact ⟨root, hf⟩
    | failed =>
        have hparse := parse_of_failed hd {} filename
        rw [parse_of_parseBare h] at hparse
        cases hparse
    | exhausted => exact absurd hd (Grammar.derive_ne_exhausted .iecSource source)
  intro p hp
  obtain ⟨k, -, hk⟩ := Build.anchors_of_sourceFile hroot hp
  rw [hk]
  rfl

/-! ## Rows of nodes -/

section Rows

variable {o : Owner} {a : Anchor} {places : List (Owner × Anchor)} {c : Comment}
  {pending taken rest orphans : List Comment} {shares : List Share}

theorem owner?_cons_of_le (h : c.line ≤ a.line) : c.owner? ((o, a) :: places) = some 0 := by
  simp [Comment.owner?, List.findIdx?_cons, h]

theorem owner?_cons_of_lt (h : a.line < c.line) :
    c.owner? ((o, a) :: places) = (c.owner? places).map (· + 1) := by
  simp [Comment.owner?, List.findIdx?_cons, Nat.not_le.mpr h]

/-- Of comments up to a line and comments below it, the first ones belong to the node that stands
there. -/
theorem filter_owner?_zero (htaken : ∀ c ∈ taken, c.line ≤ a.line)
    (hrest : ∀ c ∈ rest, a.line < c.line) :
    (taken ++ rest).filter (fun c => c.owner? ((o, a) :: places) = some 0) = taken := by
  have hfirst : taken.filter (fun c => c.owner? ((o, a) :: places) = some 0) = taken :=
    List.filter_eq_self.mpr fun c hc => by simp [owner?_cons_of_le (htaken c hc)]
  have hlast : rest.filter (fun c => c.owner? ((o, a) :: places) = some 0) = [] :=
    List.filter_eq_nil_iff.mpr fun c hc => by simp [owner?_cons_of_lt (hrest c hc)]
  rw [List.filter_append, hfirst, hlast, List.append_nil]

/-- The others belong to the nodes behind it, or to none of them. -/
theorem filter_owner?_map (htaken : ∀ c ∈ taken, c.line ≤ a.line)
    (hrest : ∀ c ∈ rest, a.line < c.line) (place : Option Nat) :
    (taken ++ rest).filter (fun c => c.owner? ((o, a) :: places) = place.map (· + 1)) =
      rest.filter (fun c => c.owner? places = place) := by
  have hfirst : taken.filter (fun c => c.owner? ((o, a) :: places) = place.map (· + 1)) = [] :=
    List.filter_eq_nil_iff.mpr fun c hc => by
      cases place <;> simp [owner?_cons_of_le (htaken c hc)]
  rw [List.filter_append, hfirst, List.nil_append]
  refine List.filter_congr fun c hc => ?_
  have hinj : (c.owner? places).map (· + 1) = place.map (· + 1) ↔ c.owner? places = place :=
    (Option.map_injective fun _ _ => Nat.succ.inj).eq_iff
  simp only [owner?_cons_of_lt (hrest c hc), hinj]

/-- The nodes of a row take the comments that belong to them, and those that belong to none are
left. -/
theorem Dealt.taken_eq_filter (h : Dealt places pending shares orphans)
    (hnodes : ∀ p ∈ places, p.1 = .node) (hsorted : pending.Pairwise (·.line ≤ ·.line)) :
    (∀ i s, shares[i]? = some s → s.taken = pending.filter (fun c => c.owner? places = some i)) ∧
      orphans = pending.filter (fun c => c.owner? places = none) := by
  induction h with
  | done orphans => simp [Comment.owner?]
  | @next place places s shares rest orphans hfits hleaves hrest ih =>
      obtain ⟨owner, a⟩ := place
      obtain rfl : owner = .node := hnodes (owner, a) (by simp)
      obtain ⟨htaken, hdropped⟩ := hfits
      obtain ⟨-, hsrest, -⟩ := List.pairwise_append.mp hsorted
      -- What this anchor leaves is below its line, the first comment and so all behind it.
      have hbelow : ∀ c ∈ rest, a.line < c.line :=
        forall_of_head? hsrest (fun _ _ hle hlt => Nat.lt_of_lt_of_le hlt hle) hleaves
      obtain ⟨hshares, horphans⟩ := ih (fun p hp => hnodes p (by simp [hp])) hsrest
      rw [Share.comments, hdropped, List.append_nil]
      constructor
      · intro i t ht
        cases i with
        | zero =>
            obtain rfl : s = t := by simpa using ht
            exact (filter_owner?_zero htaken hbelow).symm
        | succ i =>
            rw [hshares i t (by simpa using ht)]
            exact (filter_owner?_map htaken hbelow (some i)).symm
      · rw [horphans]
        exact (filter_owner?_map htaken hbelow none).symm

/-- What an anchor is given moves it to no other line. -/
theorem Dealt.map_give (h : Dealt places pending shares orphans) :
    (List.zipWith Share.give places shares).map (fun p => (p.1, p.2.line)) =
      places.map fun p => (p.1, p.2.line) := by
  induction h with
  | done => rfl
  | next _ _ _ ih => simp [Share.give, ih]

theorem owner?_congr {places' : List (Owner × Anchor)}
    (h : places.map (fun p => (p.1, p.2.line)) = places'.map fun p => (p.1, p.2.line)) :
    c.owner? places = c.owner? places' := by
  have hfind (ps : List (Owner × Anchor)) : c.owner? ps =
      (ps.map fun p => (p.1, p.2.line)).findIdx? fun q => c.line ≤ q.2 := by
    rw [List.findIdx?_map]
    rfl
  rw [hfind, hfind, h]

end Rows

/-! ## Files -/

/-- Something that is kept as it was written, and holds its own comments. -/
def Item.isVerbatim : Item → Bool
  | .verbatim _ => true
  | _ => false

namespace SourceFile

variable {source : Text} {filename : String} {f g : SourceFile}

/-- The place of the first node that stands on the line of the comment or below. -/
def owner? (f : SourceFile) (c : Comment) : Option Nat := c.owner? f.anchors

theorem parse_default (h : parse {} source filename = .ok g) :
    ∃ f, parseBare source filename = .ok f ∧ (f.adopt source.comments).1 = g := by
  cases hf : parseBare source filename with
  | error e => simp [parse, hf, bind, Except.bind] at h
  | ok f =>
      refine ⟨f, rfl, ?_⟩
      simpa [parse, hf, bind, Except.bind, pure, Except.pure] using h

theorem nodes_of_plain (h : ∀ i ∈ f.items, i.isVerbatim = false) :
    ∀ p ∈ f.anchors, p.1 = .node := by
  intro p hp
  obtain ⟨i, hi, hp⟩ := List.mem_flatMap.mp hp
  cases i with
  | verbatim v => cases h _ hi
  | _ =>
      obtain ⟨a, -, rfl⟩ := List.mem_map.mp hp
      rfl

/-- Where a comment lands. In a file that was read with its comments and keeps nothing as it was
written, each comment belongs to the first node, in document order, that stands on its line or
below; a comment below all nodes is left over. Every node owns its comments in the order of the
source, in which no two comments start at one place. -/
theorem comments_eq_filter (h : parse {} source filename = .ok g)
    (hplain : ∀ i ∈ g.items, i.isVerbatim = false) :
    (∀ i p, g.anchors[i]? = some p →
      p.2.comments = source.comments.filter fun c => g.owner? c = some i) ∧
    (∃ f, parseBare source filename = .ok f ∧
      f.adopt source.comments = (g, source.comments.filter fun c => g.owner? c = none)) ∧
    source.comments.Pairwise (·.span.start < ·.span.start) := by
  obtain ⟨f, hf, rfl⟩ := parse_default h
  obtain ⟨shares, hdealt, hanchors⟩ := f.dealt_adopt source.comments
  have hkeys := hdealt.map_give
  rw [← hanchors] at hkeys
  -- Owners are found by lines, and these are the same before comments are attached.
  have howner (c : Comment) : (f.adopt source.comments).1.owner? c = c.owner? f.anchors :=
    owner?_congr hkeys
  have hnodes : ∀ p ∈ f.anchors, p.1 = .node := by
    intro p hp
    have hmem : (p.1, p.2.line) ∈ f.anchors.map fun p => (p.1, p.2.line) :=
      List.mem_map.mpr ⟨p, hp, rfl⟩
    rw [← hkeys] at hmem
    obtain ⟨q, hq, heq⟩ := List.mem_map.mp hmem
    rw [← (Prod.mk.inj heq).1]
    exact nodes_of_plain hplain q hq
  obtain ⟨htaken, horphans⟩ := hdealt.taken_eq_filter hnodes source.pairwise_line_comments
  refine ⟨?_, ⟨f, hf, ?_⟩, source.pairwise_comments⟩
  · intro i p hp
    simp only [howner]
    rw [hanchors, List.getElem?_zipWith_eq_some] at hp
    obtain ⟨q, s, hq, hs, rfl⟩ := hp
    rw [← htaken i s hs, Share.give, fresh_of_parseBare hf q (List.mem_of_getElem? hq)]
    rfl
  · simp only [howner]
    rw [← horphans]

/-- A program with comments in front of it, behind a statement, around another and behind its end. -/
def commentedProgram : Text :=
  "// a\nPROGRAM P\nx := 1; // b\n(* c *) y := 2; // d\nEND_PROGRAM\n// e".toList

theorem comments_eq_filter_commentedProgram :
    ∃ g, parse {} commentedProgram "p.st" = .ok g ∧ (∀ i ∈ g.items, i.isVerbatim = false) ∧
      commentedProgram.comments.map g.owner? = [some 0, some 1, some 3, some 3, none] ∧
      ∀ i p, g.anchors[i]? = some p →
        p.2.comments = commentedProgram.comments.filter fun c => g.owner? c = some i := by
  have hcheck : (parse {} commentedProgram "p.st").toOption.any (fun g =>
      g.items.all (!·.isVerbatim) &&
        commentedProgram.comments.map g.owner? == [some 0, some 1, some 3, some 3, none]) := by
    decide +kernel
  cases hg : parse {} commentedProgram "p.st" with
  | error e =>
      rw [hg] at hcheck
      cases hcheck
  | ok g =>
      rw [hg] at hcheck
      simp only [Except.toOption, Option.any_some, Bool.and_eq_true, List.all_eq_true,
        Bool.not_eq_true', beq_iff_eq] at hcheck
      obtain ⟨hplain, howners⟩ := hcheck
      exact ⟨g, rfl, hplain, howners, (comments_eq_filter hg hplain).1⟩

end SourceFile

end StructuredText
