import StructuredText.Proofs.LineEndings.Derivations

/-!
# Tokens and line endings

Tokens stay on one line, except for strings and the lengths of string types. So where none of these
runs over the end of a line, the nodes of a derivation are the same with carriage returns.

* `Node.OneLined` — a node of which nothing runs over the end of a line.
* `Node.OneLined.alike` — it is the same with carriage returns.
-/

namespace StructuredText

namespace Grammar

/-! ## Tokens on one line -/

/-- No text that the pattern reads holds a line feed, as far as can be seen. -/
def Pattern.staysOnLine : Pattern → Bool
  | .empty | .notAhead _ => true
  | .char test => !test '\n'
  | .seq p q | .alt p q => p.staysOnLine && q.staysOnLine
  | .star p => p.staysOnLine

theorem Pattern.not_mem_of_staysOnLine {p : Pattern} (hp : p.staysOnLine = true) {t : Text}
    (ht : p.Spells t) : '\n' ∉ t := by
  -- Only a single character can be a line feed, and the check has tried each test on it.
  induction p generalizing t with
  | empty | notAhead =>
      obtain rfl : t = [] := ht
      exact List.not_mem_nil
  | char test =>
      obtain ⟨c, hc, rfl⟩ := ht
      rintro hmem
      obtain rfl := List.mem_singleton.mp hmem
      simp [staysOnLine, hc] at hp
  | seq p q ihp ihq =>
      obtain ⟨u, v, hu, hv, rfl⟩ := ht
      rw [staysOnLine, Bool.and_eq_true] at hp
      exact List.not_mem_append (ihp hp.1 hu) (ihq hp.2 hv)
  | alt p q ihp ihq =>
      rw [staysOnLine, Bool.and_eq_true] at hp
      rcases ht with ht | ht
      · exact ihp hp.1 ht
      · exact ihq hp.2 ht
  | star p ih =>
      obtain ⟨ts, hts, rfl⟩ := ht
      rintro hmem
      obtain ⟨u, hu, hmem⟩ := List.mem_flatten.mp hmem
      exact ih hp (hts u hu) hmem

/-- Only strings and the lengths of string types may run over the end of a line. -/
def Rule.mayCrossLines : Rule → Bool
  | .stringLiteral | .stringLength => true
  | _ => false

theorem Rule.staysOnLine {r : Rule} {p : Pattern} (hr : r.production = .token p)
    (h : r.mayCrossLines = false) : p.staysOnLine = true := by
  have hall : (Rule.inOrder.all fun r =>
      match r.production with
      | .token p => r.mayCrossLines || p.staysOnLine
      | _ => true) = true := by
    decide +kernel
  have hp := Rule.of_all hall r
  simpa [hr, h] using hp

/-! ## Nodes of a source -/

/-- The node is matched in the source, and it is no string or length that runs over the end of a
line. -/
structure Node.OneLined (source : Text) (n : Node) : Prop where
  matched : Matched n
  reads : ∃ before, source.cursor.Reads before n.start
  no_feed : n.rule.mayCrossLines = true → '\n' ∉ n.text

section Node

variable {source : Text} {n : Node}

/-- With carriage returns, the node is on the same line, and a token has the same text. -/
theorem Node.OneLined.alike (hsource : '\r' ∉ source) (hn : n.OneLined source) :
    n.Alike (.ofText source) (.ofText source.withReturns)
      (Cursor.withReturns (source.count '\n')) := by
  obtain ⟨hmatched, ⟨before, hbefore⟩, hfeed⟩ := hn
  refine ⟨hmatched, LineIndex.lineOf_withReturns hbefore, fun htoken => ?_⟩
  have hplain := (Cursor.plain_cursor hsource).of_reads hbefore
  cases hmatched with
  | node hr =>
      obtain ⟨p, hp⟩ := htoken
      cases hp.symm.trans hr
  | @token r p s s' hr hrun =>
      obtain ⟨t, hreads, hspells⟩ := Pattern.run_spells hrun
      -- Only strings and lengths may go over a line end, and of those it is told that they do not.
      have ht : '\n' ∉ t := by
        cases hcross : r.mayCrossLines with
        | true =>
            have h := hfeed hcross
            rwa [Node.text, hreads.upTo] at h
        | false => exact Pattern.not_mem_of_staysOnLine (Rule.staysOnLine hr hcross) hspells
      rw [Node.text, Node.text, Node.start_moved, Node.stop_moved,
        (hreads.withReturns hplain).upTo, hreads.upTo, Text.withReturns_eq_self ht]

end Node

end Grammar

end StructuredText
