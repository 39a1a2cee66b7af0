import Mathlib.Data.List.TakeWhile
import StructuredText.Build.Tree
import StructuredText.Proofs.Grammar.Rows

/-!
# Where raw constructs stop

What the grammar skips behind a construct is not a part of it. A construct without a builder, which is
kept as it was written, stops behind its last child, or behind a semicolon that stands there with
nothing but white space in front. The place is computed from byte offsets. It always lies between two
characters of what the construct was matched on, and cutting the text there does not move it.

* `Text.Boundary` — an offset that falls between two characters.
* `ownTail` — what belongs to a construct behind its last child.
* `ownEnd_append` — a construct stops behind it.
* `ownEnd_exact` — the same of any text that is asked for with offsets that fall between characters.
* `reads_ownEnd` — what is between the start of a node and the end of its construct.
-/

namespace StructuredText

variable {t u : Text} {n : Nat}

/-! ## Bytes in front of an offset -/

namespace Text

/-- The bytes of a prefix leave what is behind it. -/
theorem dropBytes?_append (t u : Text) : dropBytes? t.byteLength (t ++ u) = some u := by
  induction t with
  | nil => cases u <;> rfl
  | cons c t ih =>
      have hpos := c.utf8Size_pos
      simp only [List.cons_append, byteLength_cons, dropBytes?]
      rw [if_neg (by omega), if_pos (by omega), Nat.add_sub_cancel_left]
      exact ih

/-- The offset lies in the text, and not inside a character. -/
def Boundary (t : Text) (n : Nat) : Prop := ∃ u v, t = u ++ v ∧ u.byteLength = n

theorem boundary_append (t u : Text) : Boundary (t ++ u) t.byteLength := ⟨t, u, rfl, rfl⟩

theorem Boundary.le (h : t.Boundary n) : n ≤ t.byteLength := by
  obtain ⟨u, v, rfl, rfl⟩ := h
  rw [byteLength_append]
  omega

end Text

namespace Build

open Grammar (Node Row)

/-! ## What belongs to a construct behind its last child -/

/-- What may belong to a construct behind its last child: nothing, or white space and a semicolon. -/
inductive Closing : Text → Prop where
  | absent : Closing []
  | semicolon {gap : Text} (hgap : ∀ c ∈ gap, isBlank c = true) : Closing (gap ++ [';'])

/-- What belongs to a construct, of the text behind its last child. -/
def ownTail (behind : Text) : Text :=
  if behind.trimStart.head? = some ';' then behind.takeWhile isBlank ++ [';'] else []

/-- A semicolon belongs to a construct if only white space is in front of it. -/
theorem ownTail_append_semicolon {gap : Text} (hgap : ∀ c ∈ gap, isBlank c = true) (rest : Text) :
    ownTail (gap ++ ';' :: rest) = gap ++ [';'] := by
  have hsemicolon : ¬ isBlank ';' = true := by decide
  rw [ownTail, Text.trimStart, List.dropWhile_append_of_pos hgap,
    List.takeWhile_append_of_pos hgap, List.dropWhile_cons_of_neg hsemicolon,
    List.takeWhile_cons_of_neg hsemicolon, List.append_nil, if_pos List.head?_cons]

/-- Behind the last child there are white space and a semicolon, or nothing belongs to the
construct. -/
theorem ownTail_cases (behind : Text) :
    (∃ gap rest, (∀ c ∈ gap, isBlank c = true) ∧ behind = gap ++ ';' :: rest) ∨
      ownTail behind = [] := by
  rw [ownTail]
  split
  · rename_i hsemicolon
    obtain ⟨rest, hrest⟩ := List.head?_eq_some_iff.mp hsemicolon
    refine .inl ⟨behind.takeWhile isBlank, rest, fun _ => List.mem_takeWhile_imp, ?_⟩
    rw [← hrest]
    exact List.takeWhile_append_dropWhile.symm
  · exact .inr rfl

theorem closing_ownTail (behind : Text) : Closing (ownTail behind) := by
  rcases ownTail_cases behind with ⟨gap, rest, hgap, rfl⟩ | hnone
  · rw [ownTail_append_semicolon hgap]
    exact .semicolon hgap
  · rw [hnone]
    exact .absent

theorem exists_ownTail_append (behind : Text) : ∃ rest, behind = ownTail behind ++ rest := by
  rcases ownTail_cases behind with ⟨gap, rest, hgap, rfl⟩ | hnone
  · exact ⟨rest, by rw [ownTail_append_semicolon hgap, List.append_assoc, List.singleton_append]⟩
  · exact ⟨behind, by rw [hnone, List.nil_append]⟩

/-- Of a text that may belong to a construct all does. -/
theorem ownTail_of_closing {tail : Text} (h : Closing tail) : ownTail tail = tail := by
  cases h with
  | absent => rfl
  | semicolon hgap => exact ownTail_append_semicolon hgap []

/-! ## The end of a construct -/

/-- A construct stops behind its last child and what belongs to it behind the child. -/
theorem ownEnd_append (own behind : Text) (start : Nat) :
    ownEnd (own ++ behind) start (start + own.byteLength) =
      start + (own ++ ownTail behind).byteLength := by
  rw [Text.byteLength_append, ← Nat.add_assoc, ownEnd, Nat.add_sub_cancel_left,
    Text.dropBytes?_append, Option.getD_some, ownTail]
  by_cases hsemicolon : behind.trimStart.head? = some ';'
  · rw [if_pos hsemicolon, if_pos hsemicolon, Text.byteLength_append, ← Nat.add_assoc]
    rfl
  · rw [if_neg hsemicolon, if_neg hsemicolon]
    rfl

/-- A construct that was matched on a text, and whose last child stops between two characters of it,
stops between two characters, not in front of the child and not behind the text. Cut there, the text
is that of a construct that stops at the same place. -/
theorem ownEnd_exact {text : Text} {start last : Nat} (hle : start ≤ last)
    (h : text.Boundary (last - start)) :
    last ≤ ownEnd text start last ∧ ownEnd text start last ≤ start + text.byteLength ∧
      text.Boundary (ownEnd text start last - start) ∧
      ∃ cut, text.takeBytes? (ownEnd text start last - start) = some cut ∧
        ownEnd cut start last = ownEnd text start last := by
  obtain ⟨own, behind, rfl, hown⟩ := h
  obtain rfl : last = start + own.byteLength := by omega
  obtain ⟨rest, hrest⟩ := exists_ownTail_append behind
  have htext : own ++ behind = (own ++ ownTail behind) ++ rest := by
    rw [List.append_assoc, ← hrest]
  -- What belongs to the construct behind its last part closes it, so there is no more to find.
  have hcut : ownEnd (own ++ ownTail behind) start (start + own.byteLength) =
      start + (own ++ ownTail behind).byteLength := by
    rw [ownEnd_append, ownTail_of_closing (closing_ownTail behind)]
  have hboundary : (own ++ behind).Boundary (own ++ ownTail behind).byteLength := by
    rw [htext]
    exact Text.boundary_append _ _
  rw [ownEnd_append, Nat.add_sub_cancel_left]
  refine ⟨?_, Nat.add_le_add_left hboundary.le start, hboundary, own ++ ownTail behind, ?_, hcut⟩
  · rw [Text.byteLength_append]
    omega
  · rw [htext, Text.takeBytes?_append]

/-- A last child of two bytes, and a blank of two bytes behind it. -/
example : ownEnd ['é', '\u00A0', ';', ' '] 3 5 = 8 := by decide

/-- From the start of a node to the end of its construct stands what the node reads up to the end of
its last child, and what belongs to the construct behind that. -/
theorem reads_ownEnd {n last : Node} (hrow : Row n.start n.children n.stop)
    (hlast : n.children.getLast? = some last) :
    ∃ own tail rest s, n.start.Reads own last.stop ∧ last.stop.Reads tail s ∧ Closing tail ∧
      s.Reads rest n.stop ∧ s.offset = ownEnd n.text n.start.offset last.stop.offset := by
  obtain ⟨⟨t, ht⟩, hparts, behind, hbehind⟩ := hrow.of_mem (List.mem_of_getLast? hlast)
  obtain ⟨v, hv⟩ := hparts.reads
  have hown := ht.trans hv
  obtain ⟨rest, hrest⟩ := exists_ownTail_append behind
  -- the place between what belongs to the construct and the rest
  let s : Cursor := ⟨last.stop.offset + (ownTail behind).byteLength, rest ++ n.stop.rest⟩
  refine ⟨t ++ v, ownTail behind, rest, s, hown, ⟨?_, rfl⟩, closing_ownTail behind, ⟨rfl, ?_⟩, ?_⟩
  · rw [hbehind.rest, ← List.append_assoc, ← hrest]
  · rw [hbehind.offset, Nat.add_assoc, ← Text.byteLength_append, ← hrest]
  · rw [Node.text, (hown.trans hbehind).upTo, hown.offset, ownEnd_append,
      Text.byteLength_append _ (ownTail behind), ← Nat.add_assoc, ← hown.offset]

end Build

end StructuredText
