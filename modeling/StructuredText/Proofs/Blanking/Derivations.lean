import StructuredText.Proofs.Blanking.Tokens
import StructuredText.Proofs.Places.Moves

/-!
# Derivations and blank comments

With blanks for its comments, a text has the derivation that it has with them: the same rules match
between the places of the same cursors, and the same alternatives fail. What may open a comment is
looked for only behind blanks and comments that were skipped, which can be seen from the productions.

* `Expr.isSteady` — whether an expression can be seen not to tell comments from blanks.
* `Rule.isSteady_production`, `Rule.skipsTrivia_body` — the productions of the rules.
* `Expr.Parses.stays` — what is matched or fails with comments is or does with blanks.
* `derive_blanked` — the derivation of a whole text.
-/

namespace StructuredText.Grammar

open Comment

/-! ## The productions -/

/-- The pattern has the shape of what is skipped between two tokens. -/
def Pattern.looksSkipped : Pattern → Bool
  | .seq (.star (.char _)) (.star (.seq _ (.star (.char _)))) => true
  | _ => false

/-- A rule that is tried right behind a token, or at the start of a text. -/
def Rule.isPart : Rule → Bool
  | .iecSource | .identifier | .deref | .fieldIndex => true
  | .integerTypeName | .integerValue | .decimalDigits | .binaryDigits | .octalDigits | .hexDigits
  | .binaryInteger | .octalInteger | .hexInteger | .signedInteger => true
  | .realTypeName | .realValue | .bitStringTypeName => true
  | .durationNumber | .days | .hours | .minutes | .seconds | .milliseconds => true
  | .year | .month | .day | .dayHour | .dayMinute | .daySecond => true
  | .locationPrefix | .sizePrefix | .directLocation | .directBit => true
  | _ => false

/-- A rule that tells comments from blanks where it stands alone. A length does, and so it is tried
only behind the name of a string type. -/
def Rule.isBarred : Rule → Bool
  | .whitespace | .comment | .stringLength => true
  | _ => false

/-- Behind a match of the expression no comment begins, as far as can be seen. -/
def Expr.settles : Expr → Bool
  | .lexeme p => p.looksSkipped
  | _ => false

/-- The expression does not tell comments from blanks, as far as can be seen, everywhere or where no
comment begins. -/
def Expr.isSteady (settled : Bool) : Expr → Bool
  | .lexeme p => p.looksSkipped || p.isSteady settled
  | .rule r => (settled || r.isPart) && !r.isBarred
  | .seq a b => a.isSteady settled && b.isSteady a.settles
  | .alt a b => a.isSteady settled && b.isSteady settled
  | .star a => a.isSteady false
  | .ahead a => a.isSteady settled

/-- What looks in the expression like what is skipped between two tokens is just that. -/
def Expr.SkipsTrivia : Expr → Prop
  | .lexeme p => p.looksSkipped = true → p = Lexicon.trivia
  | .rule _ => True
  | .seq a b | .alt a b => a.SkipsTrivia ∧ b.SkipsTrivia
  | .star a | .ahead a => a.SkipsTrivia

/-- Strings, lengths and indirections have lemmas of their own. -/
def Rule.isSpecial : Rule → Bool
  | .stringLiteral | .indirectionType | .stringTypeSpecification => true
  | r => r.isBarred

/-- What a rule matches does not tell comments from blanks, as far as can be seen. -/
def Production.isSteady (settled : Bool) : Production → Bool
  | .token p => p.isSteady settled
  | .node e | .silent e => e.isSteady settled

/-- All other rules do not tell comments from blanks, everywhere or where no comment begins. -/
theorem Rule.isSteady_production {r : Rule} (hr : r.isSpecial = false) :
    r.production.isSteady (!r.isPart) = true := by
  have hall : (Rule.inOrder.all fun r => r.isSpecial ||
      if r.isPart then r.production.isSteady false else r.production.isSteady true) = true := by
    decide +kernel
  have h := Rule.of_all hall r
  cases hpart : r.isPart <;> simpa [hr, hpart] using h

/-- In no production does anything else look like what is skipped between two tokens. -/
theorem Rule.skipsTrivia_body (r : Rule) : r.production.body.SkipsTrivia := by
  cases r
  case keyword k => cases k <;> exact nofun
  all_goals
    repeat' first
      | exact trivial
      | refine And.intro ?_ ?_
      | (intro h; first | rfl | cases h)

/-! ## What stays -/

/-- The node stands between two edges of the source, as its children do, and no comment lies in it
if it is a token. -/
structure Node.Whole (source : Text) (n : Node) : Prop where
  edge : source.Edge n.start
  passes : n.start.Passes true n.stop
  kept : (∃ p, n.rule.production = .token p) → n.start.Passes false n.stop
  parts : ∀ m ∈ n.children, source.Edge m.start ∧ m.start.Passes true m.stop

namespace Expr

/-- The result of an expression at a cursor is its result with blanks for the comments, and what it
matches are whole marks. -/
structure Stays (source : Text) (e : Expr) (s : Cursor) (o : Option (List Node × Cursor)) : Prop where
  parses : e.Parses (s.blanked source) (resultMoved (Cursor.blanked source) o)
  passes : ∀ ns s', o = some (ns, s') → s.Passes true s'
  whole : ∀ ns s', o = some (ns, s') → ∀ n ∈ ns, ∀ k, Build.Within k n → k.Whole source

variable {source : Text} {a b e : Expr} {r : Rule} {p : Pattern} {s s₁ s' : Cursor}
  {ns ms : List Node} {o : Option (List Node × Cursor)}

namespace Stays

/-- A failure that is one with blanks as well. -/
theorem of_none (h : e.Parses (s.blanked source) none) : e.Stays source s none :=
  ⟨h, nofun, nofun⟩

/-- A match that is one with blanks as well, with what is known of its nodes. -/
theorem of_some (h : e.Parses (s.blanked source)
      (some (ns.map (Node.moved (Cursor.blanked source)), s'.blanked source)))
    (hpasses : s.Passes true s') (hwhole : ∀ n ∈ ns, ∀ k, Build.Within k n → k.Whole source) :
    e.Stays source s (some (ns, s')) := by
  refine ⟨h, ?_, ?_⟩
  · rintro _ _ ⟨⟩
    exact hpasses
  · rintro _ _ ⟨⟩
    exact hwhole

/-- A match that starts at an edge ends at one. -/
theorem reaches (h : e.Stays source s (some (ns, s'))) (hs : source.Edge s) : source.Edge s' :=
  hs.passes (h.passes ns s' rfl)

/-! ### Tokens -/

/-- A steady pattern does the same with blanks. -/
theorem lexeme (hp : p.Steady source s) (h : (lexeme p).Parses s o) :
    (Expr.lexeme p).Stays source s o := by
  cases h with
  | lexeme hrun =>
      obtain ⟨hrun', hpasses⟩ := hp.of_run hrun
      exact of_some (.lexeme hrun') hpasses.weaken (by simp)
  | lexemeFails hnone =>
      rcases hp with ⟨-, hnone'⟩ | ⟨s', hrun, -⟩
      · exact of_none (.lexemeFails hnone')
      · cases hnone.symm.trans hrun

/-- Comments are skipped, and so are the blanks that stand for them. -/
theorem trivia (hs : source.Edge s) (h : Expr.trivia.Parses s o) :
    Expr.trivia.Stays source s o := by
  obtain ⟨s', hrun, hrun', hpasses, -⟩ := trivia_blanked hs
  obtain rfl := h.unique (.lexeme hrun)
  exact of_some (.lexeme hrun') hpasses (by simp)

/-- A token holds no comment, so it is read as it is. -/
theorem token (hr : r.production = .token p) (hp : p.Steady source s) (hs : source.Edge s)
    (h : (rule r).Parses s o) : (rule r).Stays source s o := by
  rcases hp with ⟨hnone, hnone'⟩ | ⟨s', hrun, hrun', hpasses⟩
  · obtain rfl := h.unique (.tokenFails hr hnone)
    exact of_none (.tokenFails hr hnone')
  · obtain rfl := h.unique (.token hr hrun)
    refine of_some (.token hr hrun') hpasses.weaken fun n hn k hk => ?_
    obtain rfl := List.mem_singleton.mp hn
    cases hk with
    | self => exact ⟨hs, hpasses.weaken, fun _ => hpasses, by simp⟩
    | child hm => cases hm

/-! ### Expressions put together -/

/-- Two parts in a row, both as with blanks. -/
theorem seq (ha : a.Stays source s (some (ns, s₁))) (hb : b.Stays source s₁ (some (ms, s'))) :
    (Expr.seq a b).Stays source s (some (ns ++ ms, s')) := by
  refine of_some ?_ ((ha.passes _ _ rfl).trans (hb.passes _ _ rfl)) ?_
  · rw [List.map_append]
    exact .seq ha.parses hb.parses
  · exact List.forall_mem_append.mpr ⟨ha.whole _ _ rfl, hb.whole _ _ rfl⟩

/-- One more round, as with blanks. -/
theorem round (ha : a.Stays source s (some (ns, s₁)))
    (hrest : (Expr.star a).Stays source s₁ (some (ms, s'))) :
    (Expr.star a).Stays source s (some (ns ++ ms, s')) := by
  refine of_some ?_ ((ha.passes _ _ rfl).trans (hrest.passes _ _ rfl)) ?_
  · rw [List.map_append]
    exact .round ha.parses hrest.parses
  · exact List.forall_mem_append.mpr ⟨ha.whole _ _ rfl, hrest.whole _ _ rfl⟩

/-- The second branch is tried where the first fails, and it fails with blanks too. -/
theorem right (ha : a.Stays source s none) (hb : b.Stays source s o) :
    (Expr.alt a b).Stays source s o := ⟨.right ha.parses hb.parses, hb.passes, hb.whole⟩

/-- A node stands where its body was read, between two edges. -/
theorem node (hr : r.production = .node e) (hs : source.Edge s)
    (h : e.Stays source s (some (ns, s'))) :
    (rule r).Stays source s (some ([⟨r, s, s', ns⟩], s')) := by
  refine of_some ?_ (h.passes _ _ rfl) fun n hn k hk => ?_
  · rw [List.map_singleton, Node.moved_mk]
    exact .node hr h.parses
  · obtain rfl := List.mem_singleton.mp hn
    cases hk with
    | self =>
        refine ⟨hs, h.passes _ _ rfl, fun htoken => ?_, fun m hm => ?_⟩
        · obtain ⟨p, hp⟩ := htoken
          cases hp.symm.trans hr
        · have hpart := h.whole _ _ rfl m hm m (.self m)
          exact ⟨hpart.edge, hpart.passes⟩
    | child hm _ hk => exact h.whole _ _ rfl _ hm _ hk

end Stays

/-! ## The induction -/

/-- Behind what is skipped no comment begins. -/
theorem settled_of_settles (ha : a.SkipsTrivia) (h : a.settles = true)
    (hparses : a.Parses s (some (ns, s'))) : Settled s' := by
  cases a with
  | lexeme p =>
      obtain rfl := ha h
      cases hparses with
      | lexeme hrun => exact (ends_of_trivia hrun).2
  | _ => cases h

/-- A sequence, taken apart by where it fails. -/
theorem Stays.of_seq (h : (Expr.seq a b).Parses s o)
    (ha : ∀ o, a.Parses s o → a.Stays source s o)
    (hb : ∀ ns s₁, a.Parses s (some (ns, s₁)) → ∀ o, b.Parses s₁ o → b.Stays source s₁ o) :
    (Expr.seq a b).Stays source s o := by
  cases h with
  | seq hparses hparses' => exact .seq (ha _ hparses) (hb _ _ hparses _ hparses')
  | seqStops hparses => exact .of_none (.seqStops (ha _ hparses).parses)
  | seqFails hparses hparses' =>
      exact .of_none (.seqFails (ha _ hparses).parses (hb _ _ hparses _ hparses').parses)

/-- The name of a string type, and its length if it has one. -/
theorem stays_stringType
    (hplain : ∀ t ∈ Lexicon.lengthAt? s, ∀ w ∈ markOpenings, ¬ w <:+: t) (hs : source.Edge s)
    (h : (spaced [.rule .stringType, opt (.rule .stringLength)]).Parses s o) :
    (spaced [.rule .stringType, opt (.rule .stringLength)]).Stays source s o := by
  have hname : Lexicon.stringType.Steady source s :=
    Pattern.steady_of_check false (by decide +kernel) nofun hs
  refine .of_seq h (fun _ => .token rfl hname hs) fun ns s₁ hparses o₁ h₁ => ?_
  have hs₁ := (Stays.token rfl hname hs hparses).reaches hs
  refine .of_seq h₁ (fun _ => .trivia hs₁) fun ms s₂ hskips o₂ h₂ => ?_
  have hs₂ := (Stays.trivia hs₁ hskips).reaches hs₁
  -- Behind the name and what is skipped, the length is the one that was told to hold no opening.
  have hlength : Lexicon.stringLength.Steady source s₂ := by
    obtain ⟨-, hrun⟩ := (parses_token_iff rfl).mp hparses
    obtain ⟨-, hskip⟩ := parses_lexeme_iff.mp hskips
    refine steady_stringLength hplain ?_ hs₂ (ends_of_trivia hskip).2
    show (Lexicon.stringType.run s).bind Lexicon.trivia.run = some s₂
    rw [show Lexicon.stringType.run s = some s₁ from hrun, Option.bind_some, hskip]
  have hrule (o : Option (List Node × Cursor)) (h : (Expr.rule .stringLength).Parses s₂ o) :
      (Expr.rule .stringLength).Stays source s₂ o := .token rfl hlength hs₂ h
  cases h₂ with
  | left hparses =>
      have hstays := hrule _ hparses
      exact ⟨.left hstays.parses, hstays.passes, hstays.whole⟩
  | right hparses hnothing =>
      exact .right (hrule _ hparses) (.lexeme Pattern.steady_empty hnothing)

/-- The rules that are not barred, but have lemmas of their own. -/
theorem eq_of_isSpecial (hspecial : r.isSpecial = true) (hbarred : r.isBarred = false) :
    r = .stringLiteral ∨ r = .indirectionType ∨ r = .stringTypeSpecification := by
  cases r <;> simp_all [Rule.isSpecial, Rule.isBarred]

/-- All rules that are tried on the way to the result of the expression are tried when the text is
read as a file. -/
def TriedIn (source : Text) (e : Expr) (s : Cursor) : Prop :=
  ∀ q t, e.Tries s q t → (Expr.rule .iecSource).Tries source.cursor q t

/-- A token is read in the same way where its rule may be tried. -/
theorem steady_of_token (houtside : CommentsOutside source) (htried : (rule r).TriedIn source s)
    (hr : r.production = .token p) (hbarred : r.isBarred = false) (hsettled : (!r.isPart) = true → Settled s)
    (hs : source.Edge s) : p.Steady source s := by
  cases hspecial : r.isSpecial with
  | false =>
      have hp := Rule.isSteady_production hspecial
      rw [hr] at hp
      exact Pattern.steady_of_check _ hp hsettled hs
  | true =>
      rcases eq_of_isSpecial hspecial hbarred with rfl | rfl | rfl
      · cases hr
        exact steady_stringLiteral hs
      · cases hr
        exact steady_indirection hs (houtside.indirections s (htried _ _ (.self _ s)))
      · cases hr

/-- The body of a rule is tried wherever the rule is. -/
theorem isSteady_of_body (hspecial : r.isSpecial = false)
    (hr : r.production = .node e ∨ r.production = .silent e) : e.isSteady (!r.isPart) = true := by
  have he := Rule.isSteady_production hspecial
  rcases hr with hr | hr <;> rwa [hr] at he

theorem skipsTrivia_of_body (hr : r.production = .node e ∨ r.production = .silent e) :
    e.SkipsTrivia := by
  have he := r.skipsTrivia_body
  rcases hr with hr | hr <;> rwa [hr] at he

/-- What a node is made of has the same result, if it has where its expression can be seen to. -/
theorem Stays.of_body (houtside : CommentsOutside source) (htried : (rule r).TriedIn source s)
    (hr : r.production = .node e) (hbarred : r.isBarred = false) (hs : source.Edge s) (h : e.Parses s o)
    (he : e.isSteady (!r.isPart) = true → e.Stays source s o) : e.Stays source s o := by
  cases hspecial : r.isSpecial with
  | false => exact he (isSteady_of_body hspecial (.inl hr))
  | true =>
      rcases eq_of_isSpecial hspecial hbarred with rfl | rfl | rfl
      · cases hr
      · cases hr
      · cases hr
        exact stays_stringType (houtside.lengths s (htried _ _ (.self _ s))) hs h

/-- A pattern that stands in a production is what is skipped, or is steady. -/
theorem Stays.of_lexeme {settled : Bool} (h : (Expr.lexeme p).Parses s o)
    (he : (Expr.lexeme p).isSteady settled = true) (hskips : (Expr.lexeme p).SkipsTrivia)
    (hsettled : settled = true → Settled s) (hs : source.Edge s) :
    (Expr.lexeme p).Stays source s o := by
  cases hshape : p.looksSkipped with
  | true =>
      obtain rfl := hskips hshape
      exact .trivia hs h
  | false =>
      rw [isSteady, hshape, Bool.false_or] at he
      exact .lexeme (Pattern.steady_of_check settled he hsettled hs) h

/-- A rule that is tried behind what was skipped is tried where no comment begins. -/
theorem settled_of_isSteady {settled : Bool} (he : (Expr.rule r).isSteady settled = true)
    (hsettled : settled = true → Settled s) :
    r.isBarred = false ∧ ((!r.isPart) = true → Settled s) := by
  simp only [isSteady, Bool.and_eq_true, Bool.or_eq_true, Bool.not_eq_true'] at he
  refine ⟨he.2, fun hpart => hsettled (he.1.resolve_right ?_)⟩
  simpa using hpart

/-- What is tried in the body of a rule is tried in the rule. -/
theorem TriedIn.body (htried : (rule r).TriedIn source s)
    (hr : r.production = .node e ∨ r.production = .silent e) : e.TriedIn source s := by
  intro q t h
  refine htried q t (.body ?_)
  rcases hr with hr | hr <;> rwa [hr]

/-- With blanks for the comments an expression has the result that it has with them. -/
theorem Parses.stays (houtside : CommentsOutside source) (h : e.Parses s o) {settled : Bool}
    (htried : e.TriedIn source s) (he : e.isSteady settled = true) (hskips : e.SkipsTrivia)
    (hsettled : settled = true → Settled s) (hs : source.Edge s) : e.Stays source s o := by
  -- the cursors stay edges, what is tried in a part is tried in the file, and behind what is skipped
  -- no comment begins: all are handed on from part to part, the last one only to what stands right
  -- behind the skipping
  induction h generalizing settled with
  | lexeme h => exact .of_lexeme (.lexeme h) he hskips hsettled hs
  | lexemeFails h => exact .of_lexeme (.lexemeFails h) he hskips hsettled hs
  | token hr h =>
      obtain ⟨hbarred, hsettled⟩ := settled_of_isSteady he hsettled
      exact .token hr (steady_of_token houtside htried hr hbarred hsettled hs) hs (.token hr h)
  | tokenFails hr h =>
      obtain ⟨hbarred, hsettled⟩ := settled_of_isSteady he hsettled
      exact .token hr (steady_of_token houtside htried hr hbarred hsettled hs) hs (.tokenFails hr h)
  | node hr h ih =>
      obtain ⟨hbarred, hsettled⟩ := settled_of_isSteady he hsettled
      exact .node hr hs (.of_body houtside htried hr hbarred hs h fun he =>
        ih (htried.body (.inl hr)) he (skipsTrivia_of_body (.inl hr)) hsettled hs)
  | nodeFails hr h ih =>
      obtain ⟨hbarred, hsettled⟩ := settled_of_isSteady he hsettled
      have hstays := Stays.of_body houtside htried hr hbarred hs h fun he =>
        ih (htried.body (.inl hr)) he (skipsTrivia_of_body (.inl hr)) hsettled hs
      exact .of_none (.nodeFails hr hstays.parses)
  | @silent r _ _ _ hr h ih =>
      -- the rules with lemmas of their own are tokens and a node
      obtain ⟨hbarred, hsettled⟩ := settled_of_isSteady he hsettled
      have hspecial : r.isSpecial = false := Bool.eq_false_iff.mpr fun hspecial => by
        rcases eq_of_isSpecial hspecial hbarred with rfl | rfl | rfl <;> cases hr
      have hstays := ih (htried.body (.inr hr)) (isSteady_of_body hspecial (.inr hr))
        (skipsTrivia_of_body (.inr hr)) hsettled hs
      exact ⟨.silent hr hstays.parses, hstays.passes, hstays.whole⟩
  | seq ha hb iha ihb =>
      obtain ⟨hea, heb⟩ := Bool.and_eq_true_iff.mp he
      have hstays := iha (fun q t h => htried q t (.first h)) hea hskips.1 hsettled hs
      exact hstays.seq (ihb (fun q t h => htried q t (.second ha h)) heb hskips.2
        (fun hsettles => settled_of_settles hskips.1 hsettles ha) (hstays.reaches hs))
  | seqStops _ iha =>
      obtain ⟨hea, -⟩ := Bool.and_eq_true_iff.mp he
      have hstays := iha (fun q t h => htried q t (.first h)) hea hskips.1 hsettled hs
      exact .of_none (.seqStops hstays.parses)
  | seqFails ha _ iha ihb =>
      obtain ⟨hea, heb⟩ := Bool.and_eq_true_iff.mp he
      have hstays := iha (fun q t h => htried q t (.first h)) hea hskips.1 hsettled hs
      have hstays' := ihb (fun q t h => htried q t (.second ha h)) heb hskips.2
        (fun hsettles => settled_of_settles hskips.1 hsettles ha) (hstays.reaches hs)
      exact .of_none (.seqFails hstays.parses hstays'.parses)
  | left _ iha =>
      obtain ⟨hea, -⟩ := Bool.and_eq_true_iff.mp he
      have hstays := iha (fun q t h => htried q t (.left h)) hea hskips.1 hsettled hs
      exact ⟨.left hstays.parses, hstays.passes, hstays.whole⟩
  | right ha _ iha ihb =>
      obtain ⟨hea, heb⟩ := Bool.and_eq_true_iff.mp he
      exact .right (iha (fun q t h => htried q t (.left h)) hea hskips.1 hsettled hs)
        (ihb (fun q t h => htried q t (.right ha h)) heb hskips.2 hsettled hs)
  | done _ iha =>
      have hstays := iha (fun q t h => htried q t (.round h)) he hskips nofun hs
      exact .of_some (.done hstays.parses) (.refl _) (by simp)
  | @round a _ _ _ _ _ ha _ iha ihs =>
      have hstays := iha (fun q t h => htried q t (.round h)) he hskips nofun hs
      -- a round may end anywhere, so nothing is known of where the next one begins
      have he : isSteady false a.star = true := he
      exact hstays.round (ihs (fun q t h => htried q t (.further ha h)) he hskips nofun
        (hstays.reaches hs))
  | ahead _ iha =>
      have hstays := iha (fun q t h => htried q t (.ahead h)) he hskips hsettled hs
      exact .of_some (.ahead hstays.parses) (.refl _) (by simp)
  | aheadFails _ iha =>
      have hstays := iha (fun q t h => htried q t (.ahead h)) he hskips hsettled hs
      exact .of_none (.aheadFails hstays.parses)

end Expr

/-- With blanks for the comments, a text has the derivation that it has with them, between the places
of its cursors, and its nodes are whole marks. -/
theorem derive_blanked {source : Text} (houtside : CommentsOutside source) {ns : List Node}
    {stop : Cursor} (h : derive .iecSource source = .matched ns stop) :
    derive .iecSource source.blanked =
        .matched (ns.map (Node.moved (Cursor.blanked source))) (stop.blanked source) ∧
      ∀ n ∈ ns, ∀ k, Build.Within k n → k.Whole source := by
  have hsettled : false = true → Settled source.cursor := nofun
  have hstays := (derive_parses h).stays houtside (fun _ _ => id) rfl trivial hsettled
    (.start source)
  have hparses := hstays.parses
  rw [Cursor.blanked_cursor] at hparses
  exact ⟨derive_of_parses hparses, hstays.whole _ _ rfl⟩

end StructuredText.Grammar
