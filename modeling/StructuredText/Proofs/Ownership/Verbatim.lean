import StructuredText.Proofs.Ownership.FirstNode
import StructuredText.Proofs.Positions.Placement

/-!
# Comments inside constructs that are kept as written

A construct that is kept as it was written holds the comments inside it, and drops them when the walk
comes to it, so that they are given to nobody behind it. A node in front of it, however, takes what
starts on its line or above: it takes a comment out of the construct when it stands on the same line.

* `Dealt.outside_of_taken` — no anchor from the construct on takes what starts inside it.
* `Dealt.mem_taken_iff` — in front of it, the first node that does not stand above a comment takes it.
* `SourceFile.mem_comments_of_inside_iff` — so a comment inside the construct belongs to that node.
* `SourceFile.not_owned_of_inside` — it belongs to nobody exactly if all nodes in front stand above it.
-/

namespace StructuredText

variable {places : List (Owner × Anchor)} {pending orphans : List Comment} {shares : List Share}

/-- What an anchor takes was pending. -/
theorem Dealt.mem_of_taken (h : Dealt places pending shares orphans) {i : Nat} {s : Share}
    (hs : shares[i]? = some s) {c : Comment} (hc : c ∈ s.taken) : c ∈ pending := by
  rw [h.pending_eq]
  refine List.mem_append_left _ (List.mem_flatMap.mpr ⟨s, List.mem_of_getElem? hs, ?_⟩)
  exact List.mem_append_left _ hc

/-- Every anchor has a share. -/
theorem Dealt.exists_share_at (h : Dealt places pending shares orphans) {i : Nat}
    {p : Owner × Anchor} (hp : places[i]? = some p) : ∃ s, shares[i]? = some s := by
  have hlt : i < shares.length := by
    rw [← h.fits.length_eq]
    exact (List.getElem?_eq_some_iff.mp hp).1
  exact ⟨_, List.getElem?_eq_getElem hlt⟩

/-- No anchor from a construct that is kept as written on takes a comment that starts inside the
construct. -/
theorem Dealt.outside_of_taken (h : Dealt places pending shares orphans)
    (hsorted : pending.Pairwise (·.span.start < ·.span.start)) {k i : Nat} {v : Anchor}
    (hk : places[k]? = some (.verbatim, v)) (hki : k ≤ i) {s : Share} (hs : shares[i]? = some s)
    {c : Comment} (hc : c ∈ s.taken) : c.span.start < v.span.start ∨ v.span.stop ≤ c.span.start := by
  induction h generalizing k i with
  | done => cases hs
  | @next place places t shares rest orphans hfits hleaves hrest ih =>
      have hsrest := (List.pairwise_append.mp hsorted).2.1
      -- Where the construct is the first anchor, it takes what starts before it, and leaves what
      -- starts behind it.
      cases k with
      | zero =>
          cases hk
          cases i with
          | zero =>
              cases hs
              exact .inl (hfits.1 c hc)
          | succ i =>
              have hbehind : ∀ c ∈ rest, v.span.stop ≤ c.span.start :=
                forall_of_head? hsrest (fun _ _ hlt hle => by omega) hleaves
              exact .inr (hbehind c (hrest.mem_of_taken (by simpa using hs) hc))
      | succ k =>
          cases i with
          | zero => omega
          | succ i =>
              exact ih hsrest (by simpa using hk) (Nat.le_of_succ_le_succ hki) (by simpa using hs)

/-- In front of a comment, what is kept as it was written leaves the comment alone, so it goes to the
first node that does not stand above it. -/
theorem Dealt.mem_taken_iff (h : Dealt places pending shares orphans)
    (hsorted : pending.Pairwise (·.line ≤ ·.line)) {c : Comment} {i : Nat}
    (hfront : ∀ j ≤ i, ∀ w, places[j]? = some (.verbatim, w) →
      w.span.start ≤ c.span.start ∧ w.span.stop ≤ c.span.start)
    {p : Owner × Anchor} (hp : places[i]? = some p) {s : Share} (hs : shares[i]? = some s) :
    c ∈ s.taken ↔ c ∈ pending ∧ p.1 = .node ∧ c.line ≤ p.2.line ∧
      ∀ j a, j < i → places[j]? = some (.node, a) → a.line < c.line := by
  induction h generalizing i with
  | done => cases hs
  | @next place places t shares rest orphans hfits hleaves hrest ih =>
      obtain ⟨owner, b⟩ := place
      obtain ⟨-, hsrest, -⟩ := List.pairwise_append.mp hsorted
      -- what is left behind the first anchor, in terms of the anchor
      have hbehind : c ∈ rest ↔ c ∈ t.comments ++ rest ∧ (owner = .node → b.line < c.line) := by
        cases owner with
        | node =>
            have hbelow : ∀ d ∈ rest, b.line < d.line :=
              forall_of_head? hsrest (fun _ _ hle hlt => Nat.lt_of_lt_of_le hlt hle) hleaves
            obtain ⟨htaken, hdropped⟩ := hfits
            rw [Share.comments, hdropped, List.append_nil, List.mem_append]
            constructor
            · exact fun hc => ⟨.inr hc, fun _ => hbelow c hc⟩
            · rintro ⟨hc | hc, hline⟩
              · have hle := htaken c hc
                have hlt := hline rfl
                omega
              · exact hc
        | verbatim =>
            obtain ⟨htaken, hdropped⟩ := hfits
            obtain ⟨hstart, hstop⟩ := hfront 0 (Nat.zero_le i) b rfl
            rw [Share.comments, List.mem_append, List.mem_append]
            constructor
            · intro hc
              refine ⟨.inr hc, fun howner => ?_⟩
              cases howner
            · rintro ⟨(hc | hc) | hc, -⟩
              · have hlt := htaken c hc
                omega
              · have hlt := hdropped c hc
                omega
              · exact hc
      cases i with
      | zero =>
          cases hp
          cases hs
          have hnone (a : Anchor) (j : Nat) (hj : j < 0) : a.line < c.line := absurd hj (by omega)
          cases owner with
          | node =>
              have htaken : s.comments = s.taken := by
                rw [Share.comments, hfits.2, List.append_nil]
              rw [htaken, List.mem_append] at hbehind ⊢
              constructor
              · exact fun hc => ⟨.inl hc, rfl, hfits.1 c hc, fun j a hj _ => hnone a j hj⟩
              · rintro ⟨hc | hc, -, hline, -⟩
                · exact hc
                · have hlt := (hbehind.mp hc).2 rfl
                  simp only at hline
                  omega
          | verbatim =>
              obtain ⟨hstart, -⟩ := hfront 0 (Nat.le_refl 0) b rfl
              constructor
              · intro hc
                have hlt := hfits.1 c hc
                omega
              · rintro ⟨-, howner, -⟩
                cases howner
      | succ i =>
          have hwithin : ∀ j ≤ i, ∀ w, places[j]? = some (.verbatim, w) →
              w.span.start ≤ c.span.start ∧ w.span.stop ≤ c.span.start :=
            fun j hj w hw => hfront (j + 1) (Nat.succ_le_succ hj) w hw
          rw [ih hsrest hwithin hp hs, hbehind]
          constructor
          · rintro ⟨⟨hc, hline⟩, hnode, hle, habove⟩
            refine ⟨hc, hnode, hle, fun j a hj ha => ?_⟩
            cases j with
            | zero =>
                obtain ⟨rfl, rfl⟩ := Prod.mk.inj (Option.some.inj ha)
                exact hline rfl
            | succ j => exact habove j a (Nat.lt_of_succ_lt_succ hj) ha
          · rintro ⟨hc, hnode, hle, habove⟩
            refine ⟨⟨hc, fun howner => ?_⟩, hnode, hle, fun j a hj ha => ?_⟩
            · subst howner
              exact habove 0 b (Nat.succ_pos i) rfl
            · exact habove (j + 1) a (Nat.succ_lt_succ hj) ha

namespace SourceFile

variable {source : Text} {filename : String} {g : SourceFile} {k i : Nat} {v : Anchor}
  {p : Owner × Anchor} {c : Comment}

/-- What is kept as written ends in front of everything behind it. -/
theorem span_of_verbatim (h : parse {} source filename = .ok g)
    (hk : g.anchors[k]? = some (.verbatim, v)) (hp : g.anchors[i]? = some p) (hki : k < i) :
    v.span.start ≤ v.span.stop ∧ v.span.stop ≤ p.2.span.start := by
  have hlaid := laid_of_parse h
  have hmem : v ∈ g.outline.anchors := by
    rw [anchors_outline]
    exact List.mem_map_of_mem (List.mem_of_getElem? hk)
  have hpairwise : g.anchors.Pairwise _ := pairwise_anchors_of_laid hlaid
  obtain ⟨hklt, hkv⟩ := List.getElem?_eq_some_iff.mp hk
  obtain ⟨hilt, hip⟩ := List.getElem?_eq_some_iff.mp hp
  have hbehind := List.pairwise_iff_getElem.mp hpairwise k i hklt hilt hki
  rw [hkv, hip] at hbehind
  exact ⟨(hlaid.mem_bounds hmem).2.1, hbehind rfl⟩

/-- The anchors stand where they stood before the comments were handed out. -/
theorem exists_anchor_adopt (f : SourceFile) (cs : List Comment) {j : Nat} {o : Owner} {a : Anchor}
    (ha : f.anchors[j]? = some (o, a)) :
    ∃ b, (f.adopt cs).1.anchors[j]? = some (o, b) ∧ b.line = a.line ∧ b.span = a.span := by
  obtain ⟨shares, hdealt, hanchors⟩ := f.dealt_adopt cs
  obtain ⟨t, ht⟩ := hdealt.exists_share_at ha
  refine ⟨(t.give (o, a)).2, ?_, rfl, rfl⟩
  rw [hanchors, List.getElem?_zipWith_eq_some]
  exact ⟨(o, a), t, ha, ht, rfl⟩

/-- No anchors are there but those that were there before the comments were handed out. -/
theorem exists_anchor_of_adopt (f : SourceFile) (cs : List Comment) {j : Nat} {o : Owner}
    {b : Anchor} (hb : (f.adopt cs).1.anchors[j]? = some (o, b)) :
    ∃ a, f.anchors[j]? = some (o, a) ∧ b.line = a.line ∧ b.span = a.span := by
  obtain ⟨shares, -, hanchors⟩ := f.dealt_adopt cs
  rw [hanchors, List.getElem?_zipWith_eq_some] at hb
  obtain ⟨⟨_, a⟩, t, ha, -, hgive⟩ := hb
  obtain ⟨rfl, rfl⟩ := Prod.mk.inj hgive
  exact ⟨a, ha, rfl, rfl⟩

/-- A comment that starts inside a construct that is kept as written belongs to the first node in
front of the construct that does not stand above the comment, and to nothing else. -/
theorem mem_comments_of_inside_iff (h : parse {} source filename = .ok g)
    (hk : g.anchors[k]? = some (.verbatim, v)) (hstart : v.span.start ≤ c.span.start)
    (hstop : c.span.start < v.span.stop) (hp : g.anchors[i]? = some p) :
    c ∈ p.2.comments ↔ c ∈ source.comments ∧ i < k ∧ p.1 = .node ∧ c.line ≤ p.2.line ∧
      ∀ j a, j < i → g.anchors[j]? = some (.node, a) → a.line < c.line := by
  obtain ⟨f, hf, rfl⟩ := parse_default h
  obtain ⟨shares, hdealt, hanchors⟩ := f.dealt_adopt source.comments
  obtain ⟨w, hw, -, hspan⟩ := f.exists_anchor_of_adopt _ hk
  rw [hanchors, List.getElem?_zipWith_eq_some] at hp
  obtain ⟨⟨owner, a⟩, s, ha, hs, rfl⟩ := hp
  have hfresh : a.comments = [] := fresh_of_parseBare hf (owner, a) (List.mem_of_getElem? ha)
  have htaken : c ∈ (s.give (owner, a)).2.comments ↔ c ∈ s.taken := by simp [Share.give, hfresh]
  rw [htaken]
  by_cases hik : i < k
  · have hfront : ∀ j ≤ i, ∀ u, f.anchors[j]? = some (.verbatim, u) →
        u.span.start ≤ c.span.start ∧ u.span.stop ≤ c.span.start := by
      intro j hj u hu
      obtain ⟨b, hb, -, hspan⟩ := f.exists_anchor_adopt source.comments hu
      obtain ⟨hle, hbehind⟩ := span_of_verbatim h hb hk (Nat.lt_of_le_of_lt hj hik)
      rw [hspan] at hle hbehind
      exact ⟨Nat.le_trans (Nat.le_trans hle hbehind) hstart, Nat.le_trans hbehind hstart⟩
    rw [hdealt.mem_taken_iff source.pairwise_line_comments hfront ha hs]
    constructor
    · rintro ⟨hc, hnode, hline, habove⟩
      refine ⟨hc, hik, hnode, hline, fun j b hj hb => ?_⟩
      obtain ⟨q, hq, hbline, -⟩ := f.exists_anchor_of_adopt _ hb
      rw [hbline]
      exact habove j q hj hq
    · rintro ⟨hc, -, hnode, hline, habove⟩
      refine ⟨hc, hnode, hline, fun j q hj hq => ?_⟩
      obtain ⟨b, hb, hbline, -⟩ := f.exists_anchor_adopt source.comments hq
      rw [← hbline]
      exact habove j b hj hb
  · refine iff_of_false (fun hc => ?_) fun hfirst => hik hfirst.2.1
    have houtside :=
      hdealt.outside_of_taken source.pairwise_comments hw (Nat.le_of_not_lt hik) hs hc
    rw [hspan] at hstart hstop
    omega

/-- A comment inside a construct that is kept as written belongs to nobody exactly if all nodes in
front of the construct stand above the comment. -/
theorem not_owned_of_inside (h : parse {} source filename = .ok g)
    (hk : g.anchors[k]? = some (.verbatim, v)) (hstart : v.span.start ≤ c.span.start)
    (hstop : c.span.start < v.span.stop) :
    (∀ p ∈ g.anchors, c ∉ p.2.comments) ↔ (c ∈ source.comments →
      ∀ j a, j < k → g.anchors[j]? = some (.node, a) → a.line < c.line) := by
  constructor
  · intro hnobody hc j
    -- the first node that did not stand above the comment would have it
    induction j using Nat.strongRecOn with
    | _ j ih =>
        intro a hj ha
        by_contra hline
        refine hnobody _ (List.mem_of_getElem? ha)
          ((mem_comments_of_inside_iff h hk hstart hstop ha).mpr ⟨hc, hj, rfl, by simpa using hline, ?_⟩)
        exact fun l b hl hb => ih l hl b (Nat.lt_trans hl hj) hb
  · intro habove p hp hmem
    obtain ⟨i, hi⟩ := List.mem_iff_getElem?.mp hp
    obtain ⟨hc, hik, hnode, hline, -⟩ := (mem_comments_of_inside_iff h hk hstart hstop hi).mp hmem
    obtain ⟨owner, a⟩ := p
    obtain rfl : owner = .node := hnode
    have hlt := habove hc i a hik hi
    simp only at hline
    omega

/-- A block of variables, and below it an interface with a comment inside. -/
def blockAboveInterface : Text := "VAR_GLOBAL END_VAR\nINTERFACE I (* c *) END_INTERFACE".toList

theorem not_owned_of_inside_blockAboveInterface :
    ∃ g v c, parse {} blockAboveInterface "f.st" = .ok g ∧
      g.anchors[1]? = some (.verbatim, v) ∧ blockAboveInterface.comments = [c] ∧
      v.span.start ≤ c.span.start ∧ c.span.start < v.span.stop ∧
      ∀ p ∈ g.anchors, c ∉ p.2.comments := by
  -- The one comment stands below the block and inside the interface.
  have hcomments : (blockAboveInterface.comments.map fun c => (c.line, c.span.start)) =
      [(2, 31)] := by
    decide +kernel
  have hanchors : (parse {} blockAboveInterface "f.st").toOption.any (fun g =>
      g.anchors.map (fun p => (p.1, p.2.line, p.2.span.start, p.2.span.stop)) ==
        [(.node, 1, 0, 18), (.verbatim, 2, 19, 52)]) := by
    decide +kernel
  cases hg : parse {} blockAboveInterface "f.st" with
  | error e =>
      rw [hg] at hanchors
      cases hanchors
  | ok g =>
      rw [hg] at hanchors
      simp only [Except.toOption, Option.any_some, beq_iff_eq, List.map_eq_cons_iff,
        List.map_eq_nil_iff, Prod.mk.injEq] at hanchors
      obtain ⟨⟨_, a⟩, _, hanchors, ⟨rfl, hline, hstart, -⟩, ⟨_, v⟩, _, rfl,
        ⟨rfl, -, hvstart, hvstop⟩, rfl⟩ := hanchors
      simp only at hline hstart hvstart hvstop
      simp only [List.map_eq_cons_iff, List.map_eq_nil_iff, Prod.mk.injEq] at hcomments
      obtain ⟨c, _, hcomments, ⟨hcline, hcstart⟩, rfl⟩ := hcomments
      have hk : g.anchors[1]? = some (.verbatim, v) := by rw [hanchors]; rfl
      have hfrom : v.span.start ≤ c.span.start := by omega
      have hto : c.span.start < v.span.stop := by omega
      refine ⟨g, v, c, rfl, hk, hcomments, hfrom, hto, fun p hp => ?_⟩
      refine (not_owned_of_inside hg hk hfrom hto).mpr (fun _ j b hj hb => ?_) p hp
      obtain rfl : j = 0 := by omega
      rw [hanchors] at hb
      cases hb
      omega

/-- A block of variables, and on its line an interface with a comment inside. -/
def blockBesideInterface : Text := "VAR_GLOBAL END_VAR INTERFACE I (* c *) END_INTERFACE".toList

/-- The block takes the comment out of the interface. -/
example : (parse {} blockBesideInterface "f.st").toOption.map
    (fun g => g.anchors.map fun p => (p.1, p.2.comments.length)) =
      some [(.node, 1), (.verbatim, 0)] := by
  decide +kernel

end SourceFile

end StructuredText
