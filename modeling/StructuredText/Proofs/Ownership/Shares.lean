import Mathlib.Data.List.Forall2
import Mathlib.Data.List.TakeWhile
import StructuredText.Comment.Ownership
import StructuredText.Proofs.Ownership.Anchors

/-!
# Handing out comments loses none

The anchors of a file are visited in document order, and each gets a share of the comments that are
still pending: a piece from the front, of which it owns the first part and keeps the second from
everybody else. The shares, one behind the other and followed by what is left, are the comments that
there were at first.

* `Share` — what one anchor gets.
* `Dealt` — the shares of a row of anchors, by the rule of each anchor.
* `run_adopt` — a walk deals the comments out.
* `SourceFile.adopt_partition` — the comments of a file are cut into the shares of its anchors, and
  nothing else of the file changes.
-/

namespace StructuredText

/-- What one anchor gets of the pending comments. -/
structure Share where
  /-- The comments that the anchor owns from then on. -/
  taken : List Comment
  /-- The comments behind them, which are given to nobody. -/
  dropped : List Comment

namespace Share

/-- All comments of a share, in order. -/
def comments (s : Share) : List Comment := s.taken ++ s.dropped

/-- The rule by which an anchor gets its share. A node takes the comments that start on its line or
above. A construct that is kept as written takes those that start in front of it, and drops those
that start in front of its end. -/
def Fits : Owner × Anchor → Share → Prop
  | (.node, a), s => (∀ c ∈ s.taken, c.line ≤ a.line) ∧ s.dropped = []
  | (.verbatim, a), s =>
    (∀ c ∈ s.taken, c.span.start < a.span.start) ∧ ∀ c ∈ s.dropped, c.span.start < a.span.stop

/-- The anchor with its share: the comments it takes come behind those it had. -/
def give (place : Owner × Anchor) (s : Share) : Owner × Anchor :=
  (place.1, { place.2 with comments := place.2.comments ++ s.taken })

end Share

/-- The anchor leaves the comments alone: the first of them is out of its reach. -/
def Leaves : Owner × Anchor → List Comment → Prop
  | (.node, a), rest => ∀ c ∈ rest.head?, a.line < c.line
  | (.verbatim, a), rest => ∀ c ∈ rest.head?, a.span.stop ≤ c.span.start

/-- The pending comments are dealt out to a row of anchors, each by its rule; what is left comes
last. -/
inductive Dealt : List (Owner × Anchor) → (pending : List Comment) → List Share →
    (orphans : List Comment) → Prop where
  | done (orphans : List Comment) : Dealt [] orphans [] orphans
  | next {place : Owner × Anchor} {places : List (Owner × Anchor)} {s : Share} {shares : List Share}
      {rest orphans : List Comment} (hfits : s.Fits place) (hleaves : Leaves place rest)
      (hrest : Dealt places rest shares orphans) :
      Dealt (place :: places) (s.comments ++ rest) (s :: shares) orphans

/-! ## One anchor -/

/-- Handing out takes a piece off the front, up to the first comment that fails the test. -/
theorem Comment.exists_handOut (mine : Comment → Bool) (pending : List Comment) :
    ∃ taken rest, pending = taken ++ rest ∧ (∀ c ∈ taken, mine c = true) ∧
      (∀ c ∈ rest.head?, mine c = false) ∧
      ((Comment.handOut mine).run pending).run = (taken, rest) := by
  refine ⟨pending.takeWhile mine, pending.dropWhile mine, ?_, ?_, ?_, rfl⟩
  · exact List.takeWhile_append_dropWhile.symm
  · intro c hc
    exact List.mem_takeWhile_imp hc
  · intro c hc
    have hnot := List.head?_dropWhile_not mine pending
    rw [hc] at hnot
    simpa using hnot

/-- An anchor gets a share off the front, by its rule, and leaves the rest. -/
theorem exists_share (place : Owner × Anchor) (pending : List Comment) :
    ∃ (s : Share) (rest : List Comment), pending = s.comments ++ rest ∧ s.Fits place ∧
      Leaves place rest ∧
      ((visitAt Anchor.adopt place).run pending).run = (s.give place, rest) := by
  obtain ⟨owner, a⟩ := place
  -- A node takes by lines; a construct that is passed through takes what starts in front of it and
  -- drops what starts in it.
  cases owner with
  | node =>
      obtain ⟨taken, rest, rfl, htaken, hrest, hrun⟩ :=
        Comment.exists_handOut (·.line ≤ a.line) pending
      refine ⟨⟨taken, []⟩, rest, by simp [Share.comments], ⟨?_, rfl⟩, ?_, ?_⟩
      · simpa using htaken
      · simpa [Leaves] using hrest
      · simp [visitAt, Anchor.adopt, hrun, Share.give]
  | verbatim =>
      obtain ⟨taken, behind, rfl, htaken, -, hrun⟩ :=
        Comment.exists_handOut (·.span.start < a.span.start) pending
      obtain ⟨dropped, rest, rfl, hdropped, hrest, hrun'⟩ :=
        Comment.exists_handOut (·.span.start < a.span.stop) behind
      refine ⟨⟨taken, dropped⟩, rest, by simp [Share.comments], ⟨?_, ?_⟩, ?_, ?_⟩
      · simpa using htaken
      · simpa using hdropped
      · simpa [Leaves] using hrest
      · simp [visitAt, Anchor.adopt, hrun, hrun', Share.give]

/-- What holds of the first of the pending comments, and passes from each to those behind it, holds
of all. -/
theorem forall_of_head? {pending : List Comment} {R : Comment → Comment → Prop}
    {P : Comment → Prop} (hsorted : pending.Pairwise R) (hpass : ∀ c d, R c d → P c → P d)
    (hhead : ∀ c ∈ pending.head?, P c) : ∀ c ∈ pending, P c := by
  cases pending with
  | nil => simp
  | cons c cs =>
      have hc : P c := hhead c rfl
      intro d hd
      rcases List.mem_cons.mp hd with rfl | hd
      · exact hc
      · exact hpass c d (List.rel_of_pairwise_cons hsorted hd) hc

/-! ## A row of anchors -/

/-- A walk over a row of anchors deals the comments out. -/
theorem run_adopt (places : List (Owner × Anchor)) (pending : List Comment) :
    ∃ (shares : List Share) (orphans : List Comment), Dealt places pending shares orphans ∧
      ((places.mapM (visitAt Anchor.adopt)).run pending).run =
        (List.zipWith Share.give places shares, orphans) := by
  induction places generalizing pending with
  | nil => exact ⟨[], pending, .done pending, rfl⟩
  | cons place places ih =>
      obtain ⟨s, rest, rfl, hfits, hleaves, hrun⟩ := exists_share place pending
      obtain ⟨shares, orphans, hdealt, hruns⟩ := ih rest
      refine ⟨s :: shares, orphans, .next hfits hleaves hdealt, ?_⟩
      simp [hrun, hruns]

namespace Dealt

variable {places : List (Owner × Anchor)} {pending orphans : List Comment} {shares : List Share}

/-- Nothing is lost, given twice or moved. -/
theorem pending_eq (h : Dealt places pending shares orphans) :
    pending = shares.flatMap Share.comments ++ orphans := by
  induction h with
  | done => rfl
  | next _ _ _ ih => simp [← ih]

/-- Every anchor has a share, which it got by its rule. -/
theorem fits (h : Dealt places pending shares orphans) :
    List.Forall₂ Share.Fits places shares := by
  induction h with
  | done => exact .nil
  | next hfits _ _ ih => exact .cons hfits ih

end Dealt

/-! ## A file -/

namespace SourceFile

/-- The anchors of a file are dealt the comments in document order. -/
theorem dealt_adopt (f : SourceFile) (comments : List Comment) :
    ∃ shares, Dealt f.anchors comments shares (f.adopt comments).2 ∧
      (f.adopt comments).1.anchors = List.zipWith Share.give f.anchors shares := by
  obtain ⟨shares, orphans, hdealt, hrun⟩ := run_adopt f.anchors comments
  rw [SourceFile.mapM_anchors] at hrun
  simp only [StateT.run_map, Id.run_map, Prod.mk.injEq] at hrun
  obtain ⟨hanchors, rfl⟩ := hrun
  exact ⟨shares, hdealt, hanchors⟩

/-- Handing out comments changes nothing but the comments. -/
theorem bare_adopt (f : SourceFile) (comments : List Comment) :
    (f.adopt comments).1.bare = f.bare := by
  refine f.bare_mapAnchors ?_ comments
  intro owner a pending
  cases owner <;> rfl

/-- Handing out comments loses, doubles and moves none of them. They are cut into the shares of the
anchors, in document order, and the orphans; each anchor owns its old comments and behind them what
it took of its share, a construct that is kept as written drops only what starts in front of its
end, and nothing else of the file changes. -/
theorem adopt_partition (f : SourceFile) (comments : List Comment) :
    ∃ (shares : List Share) (orphans : List Comment),
      comments = shares.flatMap Share.comments ++ orphans ∧
      List.Forall₂ Share.Fits f.anchors shares ∧
      (f.adopt comments).1.anchors = List.zipWith Share.give f.anchors shares ∧
      (f.adopt comments).2 = orphans ∧
      (f.adopt comments).1.bare = f.bare := by
  obtain ⟨shares, hdealt, hanchors⟩ := f.dealt_adopt comments
  exact ⟨shares, _, hdealt.pending_eq, hdealt.fits, hanchors, rfl, f.bare_adopt comments⟩

end SourceFile

end StructuredText
