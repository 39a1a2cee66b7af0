import StructuredText.Proofs.Grammar.Guards
import StructuredText.Proofs.LineEndings.Texts

/-!
# Patterns and line endings

Nearly every pattern of the grammar reads the same text whether a line feed has a carriage return in
front of it or not: it refuses both characters, or it reads both. A single step of a repetition may
end between the two, but then the next step reads the line feed.

* `Pattern.Even` — a pattern reads the same with carriage returns and without.
* `Pattern.evenness` — whether a pattern can be seen to; `Pattern.even_of_evenness`.
* `Rule.isEven_body` — the patterns of the rules are even.
-/

namespace StructuredText.Grammar

namespace Pattern

variable {p q : Pattern} {s s₁ s' : Cursor} {feeds : Nat}

/-! ## At a line feed -/

/-- What a pattern does in front of a line feed. -/
inductive AtFeed where
  | fails
  /-- It matches and reads nothing. -/
  | stays
  /-- It reads the line feed and nothing else. -/
  | reads
  | unknown
  deriving DecidableEq

/-- What the pattern does in front of a line feed, as far as can be seen. -/
def atFeed : Pattern → AtFeed
  | .empty => .stays
  | .char test => if test '\n' then .reads else .fails
  | .seq p q =>
    match p.atFeed with
    | .fails => .fails
    | .stays => q.atFeed
    | .reads | .unknown => .unknown
  | .alt p q =>
    match p.atFeed with
    | .fails => q.atFeed
    | x => x
  | .star p =>
    match p.atFeed with
    | .fails => .stays
    | _ => .unknown
  | .notAhead p =>
    match p.atFeed with
    | .fails => .stays
    | .stays | .reads => .fails
    | .unknown => .unknown

/-- A pattern does at a cursor what is told. -/
def AtFeed.Does (p : Pattern) (s : Cursor) : AtFeed → Prop
  | .fails => p.run s = none
  | .stays => p.run s = some s
  | .reads => p.run s = some ⟨s.offset + 1, s.rest.tail⟩
  | .unknown => True

/-- What is seen of a pattern in front of a line feed is what it does there. -/
theorem does_atFeed (p : Pattern) (offset : Nat) (t : Text) :
    p.atFeed.Does p ⟨offset, '\n' :: t⟩ := by
  -- In each case what is seen of the parts decides, unless nothing is seen of them.
  induction p with
  | empty => rfl
  | char test =>
      rw [atFeed]
      cases htest : test '\n' with
      | true =>
          show run (.char test) _ = _
          rw [run, if_pos htest]
          rfl
      | false =>
          show run (.char test) _ = _
          rw [run, if_neg (by simp [htest])]
  | seq p q ihp ihq =>
      rw [atFeed]
      cases hp : p.atFeed <;> rw [hp] at ihp
      case fails =>
        show run (.seq p q) _ = _
        rw [run, ihp]
        rfl
      case stays =>
        have hrun : run (.seq p q) ⟨offset, '\n' :: t⟩ = q.run ⟨offset, '\n' :: t⟩ := by
          rw [run, ihp]
          rfl
        dsimp only
        cases hq : q.atFeed <;> rw [hq] at ihq
        case unknown => trivial
        all_goals
          show run (.seq p q) _ = _
          rw [hrun]
          exact ihq
      case reads | unknown => trivial
  | alt p q ihp ihq =>
      rw [atFeed]
      cases hp : p.atFeed <;> rw [hp] at ihp
      case fails =>
        have hrun : run (.alt p q) ⟨offset, '\n' :: t⟩ = q.run ⟨offset, '\n' :: t⟩ := by
          rw [run, ihp]
          rfl
        dsimp only
        cases hq : q.atFeed <;> rw [hq] at ihq
        case unknown => trivial
        all_goals
          show run (.alt p q) _ = _
          rw [hrun]
          exact ihq
      case unknown => trivial
      all_goals
        show run (.alt p q) _ = _
        rw [run, ihp]
        rfl
  | star p ih =>
      rw [atFeed]
      cases hp : p.atFeed <;> rw [hp] at ih
      case fails => exact congrArg some (last_of_none ih)
      all_goals trivial
  | notAhead p ih =>
      rw [atFeed]
      cases hp : p.atFeed <;> rw [hp] at ih
      case unknown => trivial
      all_goals
        show run (.notAhead p) _ = _
        rw [run, ih]
        rfl

/-! ## Even patterns -/

/-- The pattern reads the same with carriage returns and without. -/
def Even (p : Pattern) : Prop := ∀ feeds (s : Cursor), s.Plain feeds →
  p.run (s.withReturns feeds) = (p.run s).map (Cursor.withReturns feeds)

/-- A cursor between the carriage return and the line feed in front of a place. -/
structure Between (feeds : Nat) (s s' : Cursor) : Prop where
  offset : s'.offset + 1 = (s.withReturns feeds).offset
  rest : s'.rest = '\n' :: s.rest.withReturns

/-- The pattern reads the same with carriage returns and without, or stops in front of the last line
feed that it would read without. -/
def Near (p : Pattern) : Prop := ∀ feeds (s : Cursor), s.Plain feeds →
  p.run (s.withReturns feeds) = (p.run s).map (Cursor.withReturns feeds) ∨
    ∃ s₁ s', p.run s = some s₁ ∧ p.run (s.withReturns feeds) = some s' ∧ Between feeds s₁ s'

/-- An even pattern is near. -/
theorem Even.near (h : Even p) : Near p := fun feeds s hs => .inl (h feeds s hs)

theorem even_empty : Even .empty := fun _ _ _ => rfl

/-- A character that is no line feed is read in the same way. -/
theorem run_char_withReturns (test : Char → Bool) {offset : Nat} {c : Char} {t : Text}
    (hc : c ≠ '\n') : (char test).run (Cursor.withReturns feeds ⟨offset, c :: t⟩) =
      ((char test).run ⟨offset, c :: t⟩).map (Cursor.withReturns feeds) := by
  have hplace : Cursor.withReturns feeds ⟨offset, c :: t⟩ =
      ⟨(Cursor.withReturns feeds ⟨offset, c :: t⟩).offset, c :: Text.withReturns t⟩ := by
    rw [← Text.withReturns_cons hc]
    rfl
  rw [hplace, run, run]
  split
  · rw [Option.map_some, Cursor.withReturns_cons hc]
  · rfl

/-- A character that is neither of the two is refused in front of both. -/
theorem even_char {test : Char → Bool} (hfeed : test '\n' = false) (hreturn : test '\r' = false) :
    Even (.char test) := by
  rintro feeds ⟨offset, _ | ⟨c, t⟩⟩ -
  · rfl
  · by_cases hc : c = '\n'
    · subst hc
      show run (.char test) ⟨_, '\r' :: '\n' :: Text.withReturns t⟩ = _
      rw [run, run, if_neg (by simp [hreturn]), if_neg (by simp [hfeed])]
      rfl
    · exact run_char_withReturns test hc

/-- A character that is either of the two is read, and it is the carriage return that is read first.
-/
theorem near_char {test : Char → Bool} (hfeed : test '\n' = true) (hreturn : test '\r' = true) :
    Near (.char test) := by
  rintro feeds ⟨offset, _ | ⟨c, t⟩⟩ hs
  · exact .inl rfl
  · by_cases hc : c = '\n'
    · subst hc
      refine .inr ⟨⟨offset + 1, t⟩, ⟨(Cursor.withReturns feeds ⟨offset, '\n' :: t⟩).offset + 1,
        '\n' :: Text.withReturns t⟩, ?_, ?_, ?_, rfl⟩
      · rw [run, if_pos hfeed]
        rfl
      · show run (.char test) ⟨_, '\r' :: '\n' :: Text.withReturns t⟩ = _
        rw [run, if_pos hreturn]
        rfl
      · rw [Cursor.withReturns_feed hs]
    · exact .inl (run_char_withReturns test hc)

/-- What is left behind a match is plain. -/
theorem plain_of_run (hs : s.Plain feeds) (h : p.run s = some s₁) : s₁.Plain feeds := by
  obtain ⟨t, hreads, -⟩ := run_spells h
  exact hs.of_reads hreads

/-- The second part may stop between the two characters, but the first may not. -/
theorem near_seq (hp : Even p) (hq : Near q) : Near (.seq p q) := by
  intro feeds s hs
  rw [run, run, hp feeds s hs]
  cases hrun : p.run s with
  | none => exact .inl rfl
  | some s₁ => exact hq feeds s₁ (plain_of_run hs hrun)

/-- Two even patterns in a row. -/
theorem even_seq (hp : Even p) (hq : Even q) : Even (.seq p q) := by
  intro feeds s hs
  rw [run, run, hp feeds s hs]
  cases hrun : p.run s with
  | none => rfl
  | some s₁ => exact hq feeds s₁ (plain_of_run hs hrun)

/-- What goes on from between the carriage return and the line feed as from behind them. -/
def Resumes (p : Pattern) : Prop :=
  ∀ feeds s s', Between feeds s s' → p.run s' = p.run (s.withReturns feeds)

/-- The first part may stop between the two characters if the second goes on from there. -/
theorem even_seq_of_near (hp : Near p) (hq : Even q) (hresumes : Resumes q) :
    Even (.seq p q) := by
  intro feeds s hs
  rw [run, run]
  rcases hp feeds s hs with h | ⟨s₁, s', hrun, hrun', hbetween⟩
  · rw [h]
    cases hrun : p.run s with
    | none => rfl
    | some s₁ => exact hq feeds s₁ (plain_of_run hs hrun)
  · rw [hrun, hrun', Option.bind_some, Option.bind_some, hresumes feeds s₁ s' hbetween]
    exact hq feeds s₁ (plain_of_run hs hrun)

/-- Where one branch fails, it fails in both texts, and the other is tried in both. -/
theorem near_alt (hp : Near p) (hq : Near q) : Near (.alt p q) := by
  intro feeds s hs
  rw [run, run]
  rcases hp feeds s hs with h | ⟨s₁, s', hrun, hrun', hbetween⟩
  · rw [h]
    cases hrun : p.run s with
    | none => exact hq feeds s hs
    | some s₁ => exact .inl rfl
  · rw [hrun, hrun']
    exact .inr ⟨s₁, s', rfl, rfl, hbetween⟩

/-- A choice of even patterns. -/
theorem even_alt (hp : Even p) (hq : Even q) : Even (.alt p q) := by
  intro feeds s hs
  rw [run, run, hp feeds s hs]
  cases hrun : p.run s with
  | none => exact hq feeds s hs
  | some s₁ => rfl

/-- What is looked at and not read need only match in both texts or in neither. -/
theorem even_notAhead (hp : Near p) : Even (.notAhead p) := by
  intro feeds s hs
  rw [run, run]
  rcases hp feeds s hs with h | ⟨s₁, s', hrun, hrun', -⟩
  · rw [h, Option.isSome_map]
    split <;> rfl
  · rw [hrun, hrun']
    rfl

/-- A repetition whose steps read a line feed goes on from between the two characters. -/
theorem last_of_between (hp : p.consumes = true) (hfeed : p.atFeed = .reads)
    (h : Between feeds s s') : p.last s' = p.last (s.withReturns feeds) := by
  obtain ⟨offset, rest⟩ := s'
  obtain rfl : rest = '\n' :: s.rest.withReturns := h.rest
  have hdoes := does_atFeed p offset s.rest.withReturns
  rw [hfeed] at hdoes
  have hrun : p.run ⟨offset, '\n' :: s.rest.withReturns⟩ = some (s.withReturns feeds) := by
    rw [show p.run _ = _ from hdoes]
    exact congrArg (fun o => some (Cursor.mk o s.rest.withReturns)) h.offset
  exact last_of_some hp hrun

/-- A repetition goes on from between the two characters. -/
theorem resumes_star (hp : p.consumes = true) (hfeed : p.atFeed = .reads) : Resumes (.star p) :=
  fun _ _ _ h => congrArg some (last_of_between hp hfeed h)

/-- A step may end between the two characters only if the next one reads the line feed. -/
theorem even_star (hp : p.consumes = true) (h : Even p ∨ (Near p ∧ p.atFeed = .reads)) :
    Even (.star p) := by
  have hnear : Near p := h.elim Even.near And.left
  -- On the characters ahead, since each step of the repetition consumes.
  have hlast (feeds : Nat) (n : Nat) : ∀ s : Cursor, s.rest.length ≤ n → s.Plain feeds →
      p.last (s.withReturns feeds) = (p.last s).withReturns feeds := by
    induction n with
    | zero =>
        intro s hlength hs
        have hnone : p.run s = none := by
          cases hrun : p.run s with
          | none => rfl
          | some s₁ =>
              have hlt := length_lt_of_consumes hp hrun
              omega
        rcases hnear feeds s hs with heq | ⟨s₁, _, hrun, -⟩
        · rw [hnone] at heq
          rw [last_of_none heq, last_of_none hnone]
        · rw [hnone] at hrun
          cases hrun
    | succ n ih =>
        intro s hlength hs
        rcases hnear feeds s hs with heq | ⟨s₁, s', hrun, hrun', hbetween⟩
        · cases hrun : p.run s with
          | none =>
              rw [hrun] at heq
              rw [last_of_none heq, last_of_none hrun]
          | some s₁ =>
              rw [hrun] at heq
              have hlt := length_lt_of_consumes hp hrun
              rw [last_of_some hp heq, last_of_some hp hrun]
              exact ih s₁ (by omega) (plain_of_run hs hrun)
        · have hlt := length_lt_of_consumes hp hrun
          have hfeed : p.atFeed = .reads := by
            rcases h with heven | ⟨-, hfeed⟩
            · exact absurd (heven feeds s hs) (by
                rw [hrun, hrun', Option.map_some]
                intro heq
                have hoffset := congrArg Cursor.offset (Option.some.inj heq)
                have := hbetween.offset
                omega)
            · exact hfeed
          rw [last_of_some hp hrun', last_of_some hp hrun, last_of_between hp hfeed hbetween]
          exact ih s₁ (by omega) (plain_of_run hs hrun)
  intro feeds s hs
  exact congrArg some (hlast feeds s.rest.length s (Nat.le_refl _) hs)

/-! ## The check -/

/-- What can be seen of a pattern. -/
inductive Evenness where
  | even
  | near
  | unknown
  deriving DecidableEq

/-- The pattern is a repetition whose steps read a line feed. -/
def resumes : Pattern → Bool
  | .star p => p.consumes && p.atFeed == .reads
  | _ => false

/-- How evenly the pattern reads, as far as can be seen. -/
def evenness : Pattern → Evenness
  | .empty => .even
  | .char test =>
    match test '\n', test '\r' with
    | false, false => .even
    | true, true => .near
    | _, _ => .unknown
  | .seq p q =>
    match p.evenness, q.evenness with
    | .even, x => x
    | .near, .even => if q.resumes then .even else .unknown
    | _, _ => .unknown
  | .alt p q =>
    match p.evenness, q.evenness with
    | .even, .even => .even
    | .unknown, _ | _, .unknown => .unknown
    | _, _ => .near
  | .star p =>
    if p.consumes && (p.evenness == .even || (p.evenness == .near && p.atFeed == .reads)) then .even
    else .unknown
  | .notAhead p => if p.evenness == .unknown then .unknown else .even

/-- A pattern reads as evenly as told. -/
def Evenness.Holds (p : Pattern) : Evenness → Prop
  | .even => Even p
  | .near => Near p
  | .unknown => True

/-- What is seen to be even or near is near. -/
theorem Evenness.Holds.near {x : Evenness} (h : x.Holds p) (hx : x ≠ .unknown) : Near p := by
  cases x with
  | even => exact Even.near h
  | near => exact h
  | unknown => exact absurd rfl hx

/-- What is seen to go on from between the two characters does. -/
theorem resumes_of_check (h : p.resumes = true) : Resumes p := by
  cases p with
  | star p =>
      simp only [resumes, Bool.and_eq_true, beq_iff_eq] at h
      exact resumes_star h.1 h.2
  | _ => cases h

/-- What is seen of a pattern holds of it, by induction on the pattern. -/
theorem holds_evenness (p : Pattern) : p.evenness.Holds p := by
  -- The cases of the check are the lemmas above.
  induction p with
  | empty => exact even_empty
  | char test =>
      rw [evenness]
      split
      · exact even_char ‹_› ‹_›
      · exact near_char ‹_› ‹_›
      · trivial
  | seq p q ihp ihq =>
      rw [evenness]
      split
      · rename_i hp
        rw [hp] at ihp
        cases hq : q.evenness <;> rw [hq] at ihq
        · exact even_seq ihp ihq
        · exact near_seq ihp ihq
        · trivial
      · rename_i hp hq
        rw [hp] at ihp
        rw [hq] at ihq
        split
        · exact even_seq_of_near ihp ihq (resumes_of_check ‹_›)
        · trivial
      · trivial
  | alt p q ihp ihq =>
      rw [evenness]
      split
      · rename_i hp hq
        rw [hp] at ihp
        rw [hq] at ihq
        exact even_alt ihp ihq
      · trivial
      · trivial
      · rename_i hp hq _
        exact near_alt (ihp.near hp) (ihq.near hq)
  | star p ih =>
      rw [evenness]
      split
      · rename_i h
        simp only [Bool.and_eq_true, Bool.or_eq_true, beq_iff_eq] at h
        refine even_star h.1 ?_
        rcases h.2 with hp | ⟨hp, hfeed⟩
        · rw [hp] at ih
          exact .inl ih
        · rw [hp] at ih
          exact .inr ⟨ih, hfeed⟩
      · trivial
  | notAhead p ih =>
      rw [evenness]
      split
      · trivial
      · rename_i h
        exact even_notAhead (ih.near (by simpa using h))

/-- What is seen to be even is even. -/
theorem even_of_evenness (h : p.evenness = .even) : Even p := by
  have hholds := holds_evenness p
  rw [h] at hholds
  exact hholds

end Pattern

/-! ## The patterns of the grammar -/

/-- The patterns in the expression are even, and it does not ask for a single blank. -/
def Expr.isEven : Expr → Bool
  | .lexeme p => p.evenness == .even
  | .rule r => r != .whitespace
  | .seq a b | .alt a b => a.isEven && b.isEven
  | .star a | .ahead a => a.isEven

/-- All rules read evenly but the one of a single blank, which no other rule calls. -/
theorem Rule.isEven_body {r : Rule} (hr : r ≠ .whitespace) : r.production.body.isEven = true := by
  have hall : (Rule.inOrder.all fun r => r == .whitespace || r.production.body.isEven) = true := by
    decide +kernel
  have h := Rule.of_all hall r
  simpa [hr] using h

end StructuredText.Grammar
