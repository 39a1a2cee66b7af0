import StructuredText.Proofs.Build.Inversion

/-!
# No child is lost

Children are taken from the front and from the end, whether they serve or not, and in any order. What
was consumed in front, what is left and what was consumed at the end, last first, are always the
children that were given. An element that does not serve is handed back and put where it was, so a
step that finds nothing changes nothing; a child that must serve and does not is consumed all the
same.

* `Step` — the ways to take children, as steps on what is left of them.
* `Step.consumes` — the children that a step consumes.
* `Step.leaves_eq` — these and the ones that it leaves are the ones that were there.
* `ledger_conserves` — so it is for steps in any number and order, and for each of them what it does
  to the children when it finds nothing or fails.
-/

namespace StructuredText.Builder

open Grammar (Rule)

variable {α : Type}

/-- The builder fails on the children `c` with the error `x`, and leaves the children `c'`. -/
def Fails (b : Builder α) (c : Children) (x : ConstructionError) (c' : Children) : Prop :=
  b.run c = (.error x, c')

/-! ## Steps -/

/-- A way to take children. -/
inductive Step : Type 1 where
  | take (α : Type) [OfElement α]
  | takeIf (α : Type) [OfElement α]
  | takeWhile (α : Type) [OfElement α]
  | takeLast (α : Type) [OfElement α]
  | takeLastIf (α : Type) [OfElement α]
  | token (r : Rule)
  | tokenIf (r : Rule)
  | tokenList (r : Rule)
  | tokenListIf (r : Rule)

/-- The children that a step leaves, whatever comes of it. -/
def Step.leaves : Step → Children → Children
  | @Step.take α _, c => ((Builder.take α).run c).2
  | @Step.takeIf α _, c => ((Builder.takeIf α).run c).2
  | @Step.takeWhile α _, c => ((Builder.takeWhile α).run c).2
  | @Step.takeLast α _, c => ((Builder.takeLast α).run c).2
  | @Step.takeLastIf α _, c => ((Builder.takeLastIf α).run c).2
  | .token r, c => ((Builder.token r).run c).2
  | .tokenIf r, c => ((Builder.tokenIf r).run c).2
  | .tokenList r, c => ((Builder.tokenList r).run c).2
  | .tokenListIf r, c => ((Builder.tokenListIf r).run c).2

/-- The step takes the last child, and not the first. -/
def Step.atEnd : Step → Bool
  | @Step.takeLast _ _ | @Step.takeLastIf _ _ => true
  | _ => false

/-- The element serves as a value of the type. -/
def serves (α : Type) [OfElement α] (e : Element) : Bool := (ofElement? e : Option α).isSome

/-- The element is a token of the rule. -/
def isTokenOf (r : Rule) : Element → Bool
  | .token r' _ => r' = r
  | _ => false

/-- The element is a token list of the rule. -/
def isTokensOf (r : Rule) : Element → Bool
  | .tokens r' _ => r' = r
  | _ => false

/-- The children that a step consumes. A child that must serve as a value is consumed even if it does
not, but one that must be a token or a token list only if it is. -/
def Step.consumes : Step → List Element → List Element
  | @Step.take _ _, es => es.head?.toList
  | @Step.takeIf α _, es => es.head?.toList.filter (serves α)
  | @Step.takeWhile α _, es => es.takeWhile (serves α)
  | @Step.takeLast _ _, es => es.getLast?.toList
  | @Step.takeLastIf α _, es => es.getLast?.toList.filter (serves α)
  | .token r, es | .tokenIf r, es => es.head?.toList.filter (isTokenOf r)
  | .tokenList r, es | .tokenListIf r, es => es.head?.toList.filter (isTokensOf r)

/-! ## What each step leaves -/

variable {c c' : Children} {x : ConstructionError} {r : Rule} {p : Element → Bool}

/-- The builder takes the first child if it is as told, and changes nothing otherwise. -/
def TakesFirstIf (p : Element → Bool) (b : Builder (Option α)) : Prop :=
  ∀ (c : Children) (es : List Element), ∃ o rest, b.Gives (c.holding es) o (c.holding rest) ∧
    es = es.head?.toList.filter p ++ rest ∧ (o = none → rest = es)

/-- It is enough to look at a first child that is as told, and at one that is not. -/
theorem TakesFirstIf.intro {b : Builder (Option α)}
    (hsome : ∀ (c : Children) e rest, p e = true →
      ∃ a, b.Gives (c.holding (e :: rest)) (some a) (c.holding rest))
    (hnone : ∀ (c : Children) es, (∀ e ∈ es.head?, p e = false) →
      b.Gives (c.holding es) none (c.holding es)) :
    TakesFirstIf p b := by
  intro c es
  cases es with
  | nil => exact ⟨none, [], hnone c [] (by simp), rfl, fun _ => rfl⟩
  | cons e es =>
      cases hp : p e with
      | true =>
          obtain ⟨a, ha⟩ := hsome c e es hp
          exact ⟨some a, es, ha, by simp [hp], by simp⟩
      | false => exact ⟨none, e :: es, hnone c (e :: es) (by simpa using hp), by simp [hp], by simp⟩

/-- What is left is what stood behind the child that was taken, if one was. -/
theorem TakesFirstIf.leaves {b : Builder (Option α)} (h : TakesFirstIf p b) (c : Children) :
    ∃ rest, (b.run c).2 = c.holding rest ∧ c.rest = c.rest.head?.toList.filter p ++ rest := by
  obtain ⟨o, rest, hgives, hrest, -⟩ := h c c.rest
  exact ⟨rest, congrArg Prod.snd hgives, hrest⟩

/-- Where nothing was found, nothing has changed. -/
theorem TakesFirstIf.eq_of_none {b : Builder (Option α)} (h : TakesFirstIf p b)
    (hb : b.Gives c none c') : c' = c := by
  obtain ⟨o, rest, hgives, -, hnone⟩ := h c c.rest
  obtain ⟨rfl, rfl⟩ := hb.unique hgives
  rw [hnone rfl]
  rfl

/-- Telling that a child is missing changes nothing. -/
theorem orMismatch_leaves (o : Option α) : ((orMismatch r o).run c).2 = c := by
  cases o <;> rfl

/-- A builder leaves the same children whether what it found was required or not. -/
theorem bind_orMismatch_leaves {b : Builder (Option α)} :
    ((b >>= orMismatch r).run c).2 = (b.run c).2 := by
  rw [run_bind]
  rcases b.run c with ⟨_ | o, c₁⟩
  · rfl
  · exact orMismatch_leaves o

/-- Where nothing was found, the failure changes nothing more. -/
theorem TakesFirstIf.eq_of_fails {b : Builder (Option α)} (h : TakesFirstIf p b)
    (hb : (b >>= orMismatch r).Fails c x c') : c' = c := by
  obtain ⟨o, rest, hgives, -, -⟩ := h c c.rest
  cases o with
  | none =>
      have hleaves : ((b >>= orMismatch r).run c).2 = c :=
        bind_orMismatch_leaves.trans ((congrArg Prod.snd hgives).trans (h.eq_of_none hgives))
      rw [← hleaves, hb]
  | some a => cases hb.symm.trans (hgives.bind pure_gives)

theorem isTokenOf_iff {e : Element} : isTokenOf r e = true ↔ ∃ t, e = .token r t := by
  cases e <;> simp [isTokenOf]

theorem isTokensOf_iff {e : Element} : isTokensOf r e = true ↔ ∃ ts, e = .tokens r ts := by
  cases e <;> simp [isTokensOf]

/-- A token is taken only if it is of the rule. -/
theorem takesFirstIf_tokenIf (r : Rule) : TakesFirstIf (isTokenOf r) (tokenIf r) := by
  refine .intro (fun c e rest he => ?_) fun c es hnone => ?_
  · obtain ⟨t, rfl⟩ := isTokenOf_iff.mp he
    exact ⟨t, tokenIf_gives (t := some t) (by simp)⟩
  · refine tokenIf_gives (t := none) fun _ t ht => ?_
    exact Bool.false_ne_true ((hnone _ ht).symm.trans (isTokenOf_iff.mpr ⟨t, rfl⟩))

/-- A token list is taken only if it is of the rule. -/
theorem takesFirstIf_tokenListIf (r : Rule) : TakesFirstIf (isTokensOf r) (tokenListIf r) := by
  refine .intro (fun c e rest he => ?_) fun c es hnone => ?_
  · obtain ⟨ts, rfl⟩ := isTokensOf_iff.mp he
    exact ⟨ts, tokenListIf_some⟩
  · refine tokenListIf_none fun ts hts => ?_
    exact Bool.false_ne_true ((hnone _ hts).symm.trans (isTokensOf_iff.mpr ⟨ts, rfl⟩))

section Values

variable [OfElement α]

/-- A value is taken only if the first child serves as one. -/
theorem takesFirstIf_takeIf : TakesFirstIf (serves α) (takeIf α) := by
  refine .intro (fun c e rest he => ?_) fun c es hnone => ?_
  · obtain ⟨a, ha⟩ := Option.isSome_iff_exists.mp he
    exact ⟨a, takeIf_gives (a := some a) (.one ha) (by simp)⟩
  · refine takeIf_gives_none fun e he => ?_
    simpa [serves] using hnone e he

/-- The last child is taken if it serves, and the others stay as they are. -/
theorem takeLastIf_leaves (c : Children) (es : List Element) :
    ∃ rest, ((takeLastIf α).run (c.holding es)).2 = c.holding rest ∧
      es = rest ++ es.getLast?.toList.filter (serves α) := by
  rcases List.eq_nil_or_concat es with rfl | ⟨front, e, hes⟩
  · exact ⟨[], rfl, rfl⟩
  · rw [List.concat_eq_append] at hes
    subst hes
    cases he : (ofElement? e : Option α) with
    | none =>
        refine ⟨front ++ [e], congrArg Prod.snd (takeLastIf_gives_none he), ?_⟩
        simp [serves, he]
    | some a =>
        refine ⟨front, congrArg Prod.snd (takeLastIf_gives (a := some a) (.one he) (by simp)), ?_⟩
        simp [serves, he]

/-- Where the last child did not serve, it is back at its place. -/
theorem eq_of_takeLastIf_none (h : (takeLastIf α).Gives c none c') : c' = c := by
  have hgives : (takeLastIf α).Gives (c.holding c.rest) none c' := h
  obtain ⟨fs, rest, a, hes, hfs, hpure⟩ := of_takeLastIf (hgives.bind pure_gives)
  obtain ⟨rfl, rfl⟩ := of_pure hpure
  obtain rfl := serve_nil_iff.mp hfs
  rw [List.append_nil] at hes
  rw [← hes]
  rfl

/-- What is taken are the children in front that serve, up to the first that does not. -/
theorem takeWhile_leaves (c : Children) :
    ∃ rest, ((takeWhile α).run c).2 = c.holding rest ∧
      c.rest = c.rest.takeWhile (serves α) ++ rest := by
  refine ⟨(splitWhile α c.rest).2, rfl, ?_⟩
  induction c.rest with
  | nil => rfl
  | cons e es ih =>
      cases he : (ofElement? e : Option α) with
      | none => simp [splitWhile, ofElement?_eq_none_iff.mp he, serves, he]
      | some a =>
          simp only [splitWhile, ofElement?_eq_some_iff.mp he, List.takeWhile_cons, serves, he,
            Option.isSome_some, if_true, List.cons_append]
          exact congrArg _ ih

/-- Looking at a required child takes none. -/
theorem require_leaves (child : Option Element) : ((require child : Builder α).run c).2 = c := by
  cases child with
  | none => rfl
  | some e =>
      rw [require]
      split <;> rfl

/-- The first child is gone, whether it served or not. -/
theorem take_leaves : ((take α).run c).2 = c.holding c.rest.tail := require_leaves c.rest.head?

/-- The last child is gone, whether it served or not. -/
theorem takeLast_leaves : ((takeLast α).run c).2 = c.holding c.rest.dropLast :=
  require_leaves c.rest.getLast?

/-- The first child was missing, or did not serve and is gone. -/
theorem of_take_fails (h : (take α).Fails c x c') :
    c.rest = [] ∧ c' = c ∨ ∃ e rest, c.rest = e :: rest ∧ c' = c.holding rest := by
  have hleaves : c' = c.holding c.rest.tail := by rw [← take_leaves (α := α), h]
  cases hrest : c.rest with
  | nil =>
      rw [hrest] at hleaves
      exact .inl ⟨rfl, hleaves.trans (congrArg c.holding hrest.symm)⟩
  | cons e rest =>
      rw [hrest] at hleaves
      exact .inr ⟨e, rest, rfl, hleaves⟩

/-- The last child was missing, or did not serve and is gone. -/
theorem of_takeLast_fails (h : (takeLast α).Fails c x c') :
    c.rest = [] ∧ c' = c ∨ ∃ e rest, c.rest = rest ++ [e] ∧ c' = c.holding rest := by
  have hleaves : c' = c.holding c.rest.dropLast := by rw [← takeLast_leaves (α := α), h]
  rcases List.eq_nil_or_concat c.rest with hrest | ⟨rest, e, hrest⟩
  · rw [hrest] at hleaves
    exact .inl ⟨hrest, hleaves.trans (congrArg c.holding hrest.symm)⟩
  · rw [List.concat_eq_append] at hrest
    rw [hrest, List.dropLast_concat] at hleaves
    exact .inr ⟨e, rest, hrest, hleaves⟩

end Values

/-- What a step consumes and what it leaves are the children that were there. -/
theorem Step.leaves_eq (s : Step) (c : Children) :
    ∃ rest, s.leaves c = c.holding rest ∧
      c.rest = if s.atEnd then rest ++ s.consumes c.rest else s.consumes c.rest ++ rest := by
  cases s with
  | take α => exact ⟨c.rest.tail, take_leaves, by cases h : c.rest <;> simp [atEnd, consumes]⟩
  | takeIf α => exact takesFirstIf_takeIf.leaves c
  | takeWhile α => exact takeWhile_leaves c
  | takeLast α =>
      refine ⟨c.rest.dropLast, takeLast_leaves, ?_⟩
      rcases List.eq_nil_or_concat c.rest with h | ⟨front, e, h⟩ <;> simp [atEnd, consumes, h]
  | takeLastIf α => exact takeLastIf_leaves c c.rest
  | token r =>
      obtain ⟨rest, hleaves, hrest⟩ := (takesFirstIf_tokenIf r).leaves c
      exact ⟨rest, bind_orMismatch_leaves.trans hleaves, hrest⟩
  | tokenIf r => exact (takesFirstIf_tokenIf r).leaves c
  | tokenList r =>
      obtain ⟨rest, hleaves, hrest⟩ := (takesFirstIf_tokenListIf r).leaves c
      exact ⟨rest, bind_orMismatch_leaves.trans hleaves, hrest⟩
  | tokenListIf r => exact (takesFirstIf_tokenListIf r).leaves c

/-- A step at the end consumes one child at most. -/
theorem Step.reverse_consumes {s : Step} (h : s.atEnd = true) (es : List Element) :
    (s.consumes es).reverse = s.consumes es := by
  cases s with
  | takeLast α =>
      show es.getLast?.toList.reverse = es.getLast?.toList
      cases es.getLast? <;> rfl
  | takeLastIf α =>
      show (es.getLast?.toList.filter (serves α)).reverse = es.getLast?.toList.filter (serves α)
      cases es.getLast? with
      | none => rfl
      | some e => cases he : serves α e <;> simp [he]
  | _ => cases h

/-! ## Steps one after the other -/

/-- What a row of steps consumed in front and at the end, in the order in which it was consumed, and
the children that are left. -/
structure Ledger where
  front : List Element
  back : List Element
  left : Children

/-- What steps consume, one after the other, each on what the ones before it left. -/
def ledger : List Step → Children → Ledger
  | [], c => { front := [], back := [], left := c }
  | s :: steps, c =>
    let l := ledger steps (s.leaves c)
    if s.atEnd then { l with back := s.consumes c.rest ++ l.back }
    else { l with front := s.consumes c.rest ++ l.front }

/-- The children taken in front, those left and those taken at the end are the children that there
were. -/
theorem ledger_balances (steps : List Step) (c : Children) :
    (ledger steps c).front ++ (ledger steps c).left.rest ++ (ledger steps c).back.reverse =
      c.rest := by
  -- What a step consumes is in front of or behind what it leaves, by the end it works at.
  induction steps generalizing c with
  | nil => simp [ledger]
  | cons s steps ih =>
      obtain ⟨rest, hleaves, hrest⟩ := s.leaves_eq c
      have hbalance := ih (s.leaves c)
      rw [hleaves, Children.holding_rest] at hbalance
      cases hend : s.atEnd with
      | true =>
          rw [hend, if_pos rfl] at hrest
          simp only [ledger, hend, if_true, hleaves, List.reverse_append,
            s.reverse_consumes hend]
          rw [← List.append_assoc, hbalance]
          exact hrest.symm
      | false =>
          simp only [hend, Bool.false_eq_true, if_false] at hrest
          rw [List.append_assoc] at hbalance
          simp only [ledger, hend, Bool.false_eq_true, if_false, hleaves, List.append_assoc]
          rw [hbalance]
          exact hrest.symm

/-- A builder ends well only if no child is left. -/
theorem finish_gives_iff : (∃ c', finish.Gives c () c') ↔ c.rest = [] := by
  constructor
  · rintro ⟨c', h⟩
    have hgives : finish.Gives (c.holding c.rest) () c' := h
    exact (of_finish (hgives.bind pure_gives)).1
  · intro h
    refine ⟨c, ?_⟩
    have hgives : finish.Gives (c.holding []) () (c.holding []) := finish_gives
    rwa [← h] at hgives

/-- No child is lost, doubled or moved by any steps in any order. A step that finds nothing changes
nothing, for an element that does not serve is handed back as it was. A child that must serve and does
not is consumed if there is one. Nothing more can be looked for exactly when nothing is left. -/
theorem ledger_conserves (c : Children) (steps : List Step) :
    (ledger steps c).front ++ (ledger steps c).left.rest ++ (ledger steps c).back.reverse = c.rest ∧
    (∀ (α : Type) [OfElement α] (e e' : Element),
      (ofElement e : Except Element α) = .error e' → e' = e) ∧
    (∀ (α : Type) [OfElement α] (d d' : Children),
      (takeIf α).Gives d none d' ∨ (takeLastIf α).Gives d none d' → d' = d) ∧
    (∀ (r : Rule) (d d' : Children),
      (tokenIf r).Gives d none d' ∨ (tokenListIf r).Gives d none d' → d' = d) ∧
    (∀ (r : Rule) (d : Children) (x : ConstructionError) (d' : Children),
      (token r).Fails d x d' ∨ (tokenList r).Fails d x d' → d' = d) ∧
    (∀ (α : Type) [OfElement α] (d : Children) (x : ConstructionError) (d' : Children),
      (take α).Fails d x d' →
        d.rest = [] ∧ d' = d ∨ ∃ e rest, d.rest = e :: rest ∧ d' = d.holding rest) ∧
    (∀ (α : Type) [OfElement α] (d : Children) (x : ConstructionError) (d' : Children),
      (takeLast α).Fails d x d' →
        d.rest = [] ∧ d' = d ∨ ∃ e rest, d.rest = rest ++ [e] ∧ d' = d.holding rest) ∧
    ∀ d : Children, (∃ d', finish.Gives d () d') ↔ d.rest = [] := by
  refine ⟨ledger_balances steps c, fun α _ e e' => OfElement.handsBack, ?_, ?_, ?_,
    fun α _ d x d' => of_take_fails, fun α _ d x d' => of_takeLast_fails,
    fun d => finish_gives_iff⟩
  · rintro α _ d d' (h | h)
    · exact takesFirstIf_takeIf.eq_of_none h
    · exact eq_of_takeLastIf_none h
  · rintro r d d' (h | h)
    · exact (takesFirstIf_tokenIf r).eq_of_none h
    · exact (takesFirstIf_tokenListIf r).eq_of_none h
  · rintro r d x d' (h | h)
    · exact (takesFirstIf_tokenIf r).eq_of_fails h
    · exact (takesFirstIf_tokenListIf r).eq_of_fails h

/-- One child, a name, which is no expression. -/
def oneName : Children := .ofList .var1 4 ⟨0, 10⟩ [.token .identifier ⟨['x'], 4⟩]

/-- What must be taken where nothing is left fails too, but consumes nothing: the first failure
consumes the name, and the second none. -/
theorem take_fails_beyond_last :
    (take Expression).Fails oneName (oneName.error (.child "Expression" (some "Token")))
      (oneName.holding []) ∧
    (take Expression).Fails (oneName.holding []) (oneName.error (.child "Expression" none))
      (oneName.holding []) ∧
    ¬ ∀ (c : Children) (x : ConstructionError) (c' : Children),
      (take Expression).Fails c x c' → c.rest.length = c'.rest.length + 1 := by
  have hsecond : (take Expression).Fails (oneName.holding [])
      (oneName.error (.child "Expression" none)) (oneName.holding []) := rfl
  refine ⟨rfl, hsecond, fun h => ?_⟩
  cases h _ _ _ hsecond

end StructuredText.Builder
