import StructuredText.Proofs.Comments.Scan
import StructuredText.Proofs.LineEndings.Patterns
import StructuredText.Proofs.Places.Trees

/-!
# Comments and line endings

With carriage returns, the scan of a text finds the comments that it finds without: strings and
comments are stepped over in the same way, and only in front of a line feed outside of both it takes
one step more. A comment of several lines loses its carriage returns with its margin.

* `Comment.found_withReturns` — what the scan finds from a cursor on.
* `Text.comments_withReturns` — the comments of a text are on the same lines and say the same.
-/

namespace StructuredText

open Grammar

namespace Comment

variable {lines : LineIndex} {s s₁ s' : Cursor}

/-! ## One comment -/

section Source

variable {source before t : Text}

/-- A comment is on the same line and says the same. -/
theorem between_withReturns (hsource : '\r' ∉ source) (hs : source.cursor.Reads before s)
    (ht : s.Reads t s₁) :
    (between (.ofText source.withReturns) (s.withReturns (source.count '\n'))
      (s₁.withReturns (source.count '\n'))).unplaced =
      (between (.ofText source) s s₁).unplaced := by
  have hplain : s.Plain (source.count '\n') := (Cursor.plain_cursor hsource).of_reads hs
  -- A brace stays at the front, and a line feed gets a carriage return there.
  have hhead : (s.withReturns (source.count '\n')).rest.head? = some '\x7b' ↔
      s.rest.head? = some '\x7b' := by
    rw [Cursor.withReturns]
    cases s.rest with
    | nil => rfl
    | cons c rest =>
        by_cases hc : c = '\n'
        · subst hc
          simp
        · rw [Text.withReturns_cons hc]
          rfl
  simp only [between, unplaced, hhead, LineIndex.lineOf_withReturns hs,
    LineIndex.columnOf_withReturns hs, (ht.withReturns hplain).upTo, ht.upTo,
    Text.dedent_withReturns]

/-! ## The whole scan -/

theorem even_stringLiteral : Lexicon.stringLiteral.Even :=
  Pattern.even_of_evenness (by decide +kernel)

theorem even_comment : Lexicon.comment.Even := Pattern.even_of_evenness (by decide +kernel)

/-- In front of a line feed, outside of strings and comments, the scan takes two steps to get behind
it. -/
theorem found_feed {offset : Nat} {rest : Text}
    (hl : Lexicon.stringLiteral.run ⟨offset, '\r' :: '\n' :: rest⟩ = none)
    (hc : Lexicon.comment.run ⟨offset, '\r' :: '\n' :: rest⟩ = none) :
    found lines ⟨offset, '\r' :: '\n' :: rest⟩ = found lines ⟨offset + 2, rest⟩ := by
  have hl' : Lexicon.stringLiteral.run ⟨offset + 1, '\n' :: rest⟩ = none :=
    Pattern.does_atFeed Lexicon.stringLiteral (offset + 1) rest
  have hc' : Lexicon.comment.run ⟨offset + 1, '\n' :: rest⟩ = none :=
    Pattern.does_atFeed Lexicon.comment (offset + 1) rest
  rw [found_of_step (step?_of_none hl hc), Option.toList_none, List.nil_append]
  exact found_of_step (step?_of_none hl' hc')

/-- From the places of a cursor on, the scan finds comments that are on the same lines and say the
same. -/
theorem found_withReturns (hsource : '\r' ∉ source) (hs : source.cursor.Reads before s) :
    (found (.ofText source.withReturns) (s.withReturns (source.count '\n'))).map unplaced =
      (found (.ofText source) s).map unplaced := by
  induction hlength : s.rest.length using Nat.strongRecOn generalizing s before with
  | _ n ih =>
    have hplain : s.Plain (source.count '\n') := (Cursor.plain_cursor hsource).of_reads hs
    have hl := even_stringLiteral _ s hplain
    have hc := even_comment _ s hplain
    rcases step?_cases (.ofText source) s with ⟨hrest, hnone⟩ | ⟨c, t, s₁, hreads, hstep⟩
    · obtain ⟨offset, rest⟩ := s
      obtain rfl : rest = [] := hrest
      rw [found_of_none hnone, found_of_none rfl]
    · have hlt : s₁.rest.length < n := by
        rw [← hlength, hreads.rest, List.length_append, List.length_cons]
        omega
      have hrest := ih _ hlt (hs.trans hreads) rfl
      -- A string and a comment are one step in both texts; a line feed alone takes two with the
      -- carriage return.
      rcases hstep with ⟨hstring, hstep⟩ | ⟨hstring, hcomment, hstep⟩ |
        ⟨rfl, hstring, hcomment, hstep⟩
      · rw [hstring] at hl
        rw [found_of_step hstep, found_of_step (step?_of_string hl)]
        exact hrest
      · rw [hstring] at hl
        rw [hcomment] at hc
        rw [found_of_step hstep, found_of_step (step?_of_comment hl hc), Option.toList_some,
          Option.toList_some, List.map_append, List.map_append, hrest, List.map_singleton,
          List.map_singleton, between_withReturns hsource hs hreads]
      · rw [hstring] at hl
        rw [hcomment] at hc
        rw [found_of_step hstep, Option.toList_none, List.nil_append, ← hrest]
        obtain ⟨offset, rest⟩ := s
        obtain ⟨offset₁, rest₁⟩ := s₁
        obtain rfl : rest = c :: rest₁ := hreads.rest
        obtain rfl : offset₁ = offset + c.utf8Size := hreads.offset
        by_cases hfeed : c = '\n'
        · subst hfeed
          rw [show Cursor.mk (offset + Char.utf8Size '\n') rest₁ = ⟨offset + 1, rest₁⟩ from rfl,
            Cursor.withReturns_feed hplain]
          exact congrArg _ (found_feed hl hc)
        · have hplace : Cursor.withReturns (source.count '\n') ⟨offset, c :: rest₁⟩ =
              ⟨(Cursor.withReturns (source.count '\n') ⟨offset, c :: rest₁⟩).offset,
                c :: Text.withReturns rest₁⟩ := by
            rw [← Text.withReturns_cons hfeed]
            rfl
          rw [hplace] at hl hc ⊢
          rw [found_of_step (step?_of_none hl hc), Cursor.withReturns_cons hfeed]
          rfl

end Source

end Comment

/-- With carriage returns, a text has the comments that it has without, on the same lines and with
the same texts. -/
theorem Text.comments_withReturns {t : Text} (ht : '\r' ∉ t) :
    t.withReturns.comments.map Comment.unplaced = t.comments.map Comment.unplaced := by
  have hfound := Comment.found_withReturns ht (.refl t.cursor)
  rw [Cursor.withReturns_cursor] at hfound
  exact hfound

end StructuredText
