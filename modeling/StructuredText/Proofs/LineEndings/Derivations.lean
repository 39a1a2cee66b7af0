import StructuredText.Proofs.LineEndings.Patterns
import StructuredText.Proofs.Places.Moves

/-!
# Derivations and line endings

With carriage returns, a text has the derivation that it has without: the same rules match between
the places of the same cursors, and the same alternatives fail.

* `Expr.Parses.withReturns` — what is matched or fails without carriage returns is or does with them.
* `derive_withReturns` — the derivation of a whole text.
-/

namespace StructuredText.Grammar

namespace Expr

variable {e : Expr} {s : Cursor} {o : Option (List Node × Cursor)} {feeds : Nat}

/-- What is read up to a cursor ahead keeps it plain. -/
theorem Parses.plain {ns : List Node} {s' : Cursor} (h : e.Parses s (some (ns, s')))
    (hs : s.Plain feeds) : s'.Plain feeds := by
  obtain ⟨t, hreads⟩ := h.derives.reads
  exact hs.of_reads hreads

/-- What an expression matches without carriage returns it matches with them, and where it fails it
fails. -/
theorem Parses.withReturns (h : e.Parses s o) (he : e.isEven = true) (hs : s.Plain feeds) :
    e.Parses (s.withReturns feeds) (resultMoved (Cursor.withReturns feeds) o) := by
  have hrule {r : Rule} (hr : (Expr.rule r).isEven = true) :
      r.production.body.isEven = true := r.isEven_body (by simpa [isEven] using hr)
  -- Patterns do the same with carriage returns, and all else follows by the way results are put
  -- together.
  have hlexeme {p : Pattern} (hp : (Expr.lexeme p).isEven = true) {s : Cursor}
      (hs : s.Plain feeds) : p.run (s.withReturns feeds) = (p.run s).map (·.withReturns feeds) :=
    Pattern.even_of_evenness (by simpa [isEven] using hp) feeds s hs
  induction h with
  | lexeme h =>
      refine .lexeme ?_
      rw [hlexeme he hs, h]
      rfl
  | lexemeFails h =>
      refine .lexemeFails ?_
      rw [hlexeme he hs, h]
      rfl
  | token hr h =>
      have hbody := hrule he
      rw [hr] at hbody
      have hrun := hlexeme hbody hs
      rw [h] at hrun
      rw [resultMoved, Option.map_some, List.map_singleton, Node.moved_mk]
      exact .token hr hrun
  | tokenFails hr h =>
      have hbody := hrule he
      rw [hr] at hbody
      have hrun := hlexeme hbody hs
      rw [h] at hrun
      exact .tokenFails hr hrun
  | node hr _ ih =>
      have hbody := hrule he
      rw [hr] at hbody
      rw [resultMoved, Option.map_some, List.map_singleton, Node.moved_mk]
      exact .node hr (ih hbody hs)
  | nodeFails hr _ ih =>
      have hbody := hrule he
      rw [hr] at hbody
      exact .nodeFails hr (ih hbody hs)
  | silent hr _ ih =>
      have hbody := hrule he
      rw [hr] at hbody
      exact .silent hr (ih hbody hs)
  | seq ha _ iha ihb =>
      obtain ⟨hea, heb⟩ := Bool.and_eq_true_iff.mp he
      rw [resultMoved, Option.map_some, List.map_append]
      exact .seq (iha hea hs) (ihb heb (ha.plain hs))
  | seqStops _ iha =>
      obtain ⟨hea, -⟩ := Bool.and_eq_true_iff.mp he
      exact .seqStops (iha hea hs)
  | seqFails ha _ iha ihb =>
      obtain ⟨hea, heb⟩ := Bool.and_eq_true_iff.mp he
      exact .seqFails (iha hea hs) (ihb heb (ha.plain hs))
  | left _ iha =>
      obtain ⟨hea, -⟩ := Bool.and_eq_true_iff.mp he
      exact .left (iha hea hs)
  | right _ _ iha ihb =>
      obtain ⟨hea, heb⟩ := Bool.and_eq_true_iff.mp he
      exact .right (iha hea hs) (ihb heb hs)
  | done _ iha => exact .done (iha he hs)
  | round ha _ iha ihs =>
      rw [resultMoved, Option.map_some, List.map_append]
      exact .round (iha he hs) (ihs he (ha.plain hs))
  | ahead _ iha => exact .ahead (iha he hs)
  | aheadFails _ iha => exact .aheadFails (iha he hs)

end Expr

/-- With carriage returns, a text has the derivation that it has without. -/
theorem derive_withReturns {r : Rule} (hr : r ≠ .whitespace) {t : Text} (ht : '\r' ∉ t)
    {ns : List Node} {stop : Cursor} (h : derive r t = .matched ns stop) :
    derive r t.withReturns = .matched (ns.map (Node.moved (Cursor.withReturns (t.count '\n'))))
      (stop.withReturns (t.count '\n')) := by
  have hparses := (derive_parses h).withReturns (by simpa [Expr.isEven] using hr)
    (Cursor.plain_cursor ht)
  rw [Cursor.withReturns_cursor] at hparses
  exact derive_of_parses hparses

end StructuredText.Grammar
