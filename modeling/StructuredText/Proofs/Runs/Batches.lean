import StructuredText.Batch

/-!
# What a batch tells

A batch keeps a flag beside its entries, and two operations write both. The flag tells what the
entries tell at every step of a run, so that the flag, the failures and the trees of a batch agree
whatever sources it was given and whatever failures were added behind them.

* `Batch.Consistent` — the flag of a batch tells whether all its entries were read.
* `Batch.Consistent.sources?_eq_none_iff`, `Batch.trees_eq_filter` — when there are trees, and which.
* `Batch.outcome_addFailures_parse` — all that a batch tells after a run.
-/

namespace StructuredText.Batch

variable {b : Batch}

/-! ## Entries -/

/-- The entry of a source that is read by itself. -/
def Entry.read (settings : Settings) (s : Source) : Entry where
  name := s.name
  filename := s.filename
  result := SourceFile.parse settings s.text s.filename

theorem Entry.isOk_read (settings : Settings) (s : Source) :
    (read settings s).isOk = (SourceFile.parse settings s.text s.filename).isOk := by
  simp only [Entry.isOk, read]

theorem Entry.isOk_error (name filename : String) (error : Error) :
    (⟨name, filename, .error error⟩ : Entry).isOk = false := rfl

theorem entries_foldl_add {α : Type} (entry : α → Entry) (as : List α) (b : Batch) :
    (as.foldl (fun b a => b.add (entry a)) b).entries = b.entries ++ as.map entry := by
  induction as generalizing b with
  | nil => simp
  | cons a as ih =>
      rw [List.foldl_cons, ih]
      simp [add]

/-- There is one entry for each source, in order, and it does not depend on the other sources. -/
theorem entries_parse (settings : Settings) (sources : List Source) :
    (parse settings sources).entries = sources.map (Entry.read settings) := by
  have h := entries_foldl_add (Entry.read settings) sources {}
  rw [List.nil_append] at h
  exact h

/-- Failures are added behind the entries that are there. -/
theorem entries_addFailures (b : Batch) (failed : List (String × String × Error)) :
    (b.addFailures failed).entries =
      b.entries ++ failed.map fun (name, filename, error) =>
        { name, filename, result := .error error } := by
  unfold addFailures
  induction failed generalizing b with
  | nil => simp
  | cons failure failed ih =>
      rw [List.foldl_cons, ih]
      simp [addFailure]

/-! ## The flag -/

/-- The flag of a batch tells whether all its entries were read. -/
def Consistent (b : Batch) : Prop := b.succeeded = b.entries.all Entry.isOk

theorem consistent_empty : Consistent {} := rfl

theorem Consistent.add (h : b.Consistent) (entry : Entry) : (b.add entry).Consistent := by
  unfold Consistent at h ⊢
  simp [Batch.add, h]

theorem consistent_addFailure (b : Batch) (name filename : String) (error : Error) :
    (b.addFailure name filename error).Consistent := by
  unfold Consistent
  simp [addFailure, Entry.isOk_error]

theorem consistent_parse (settings : Settings) (sources : List Source) :
    (parse settings sources).Consistent := by
  suffices h : ∀ b : Batch, b.Consistent →
      (sources.foldl (fun b s => b.add (Entry.read settings s)) b).Consistent from
    h {} consistent_empty
  induction sources with
  | nil => exact fun _ hb => hb
  | cons s sources ih => exact fun _ hb => ih _ (hb.add _)

theorem Consistent.addFailures (h : b.Consistent) (failed : List (String × String × Error)) :
    (b.addFailures failed).Consistent := by
  unfold Batch.addFailures
  induction failed generalizing b with
  | nil => exact h
  | cons failure failed ih =>
      obtain ⟨name, filename, error⟩ := failure
      exact ih (b.consistent_addFailure name filename error)

theorem Consistent.succeeded_iff (h : b.Consistent) :
    b.succeeded = true ↔ ∀ e ∈ b.entries, e.isOk = true := by
  rw [h, List.all_eq_true]

/-! ## Failures and trees -/

/-- The failures are the entries that were not read, in order, each with its error. -/
theorem failures_eq_filter (b : Batch) :
    b.failures.map (fun (e, error) => (e, .error error)) =
      (b.entries.filter (!·.isOk)).map fun e => (e, e.result) := by
  rw [failures, List.map_filterMap, ← List.filterMap_eq_map, List.filterMap_filter]
  congr 1
  funext e
  obtain ⟨name, filename, result⟩ := e
  cases result <;> rfl

/-- The trees are those of the entries that were read, in order, each with the name of its entry. -/
theorem trees_eq_filter (b : Batch) :
    b.trees.map (fun (name, f) => (name, .ok f)) =
      (b.entries.filter Entry.isOk).map fun e => (e.name, e.result) := by
  rw [trees, List.map_filterMap, ← List.filterMap_eq_map, List.filterMap_filter]
  congr 1
  funext e
  obtain ⟨name, filename, result⟩ := e
  cases result <;> rfl

/-- There are no trees if and only if a source failed and partial results were not asked for. -/
theorem Consistent.sources?_eq_none_iff (h : b.Consistent) (keepPartial : Bool) :
    b.sources? keepPartial = none ↔ (∃ e ∈ b.entries, e.isOk = false) ∧ keepPartial = false := by
  have hfailed : b.succeeded = false ↔ ∃ e ∈ b.entries, e.isOk = false := by
    rw [h, List.all_eq_false]
    simp
  rw [← hfailed]
  unfold sources?
  cases b.succeeded <;> cases keepPartial <;> simp

theorem sources?_eq_some {keepPartial : Bool} {trees : List (String × SourceFile)}
    (h : b.sources? keepPartial = some trees) : trees = b.trees := by
  unfold sources? at h
  split at h
  · exact (Option.some.inj h).symm
  · cases h

/-! ## A whole run -/

/-- What a batch tells after a run: it has one entry for each source, as reading it by itself gives
it, and behind these one for each failure that was added. The flag is set when all entries were
read; the failures are the entries that were not; and the trees are those of the entries that were,
unless one was not and partial results were not asked for. -/
theorem outcome_addFailures_parse (settings : Settings) (sources : List Source)
    (failed : List (String × String × Error)) :
    let b := (parse settings sources).addFailures failed
    b.entries =
        sources.map (fun s =>
          ⟨s.name, s.filename, SourceFile.parse settings s.text s.filename⟩) ++
        failed.map (fun (name, filename, error) => ⟨name, filename, .error error⟩) ∧
      (b.succeeded = true ↔ ∀ e ∈ b.entries, e.isOk = true) ∧
      b.failures.map (fun (e, error) => (e, .error error)) =
        (b.entries.filter (!·.isOk)).map (fun e => (e, e.result)) ∧
      ∀ keepPartial,
        (b.sources? keepPartial = none ↔
          (∃ e ∈ b.entries, e.isOk = false) ∧ keepPartial = false) ∧
        ∀ trees, b.sources? keepPartial = some trees →
          trees.map (fun (name, f) => (name, .ok f)) =
            (b.entries.filter Entry.isOk).map fun e => (e.name, e.result) := by
  intro b
  have hconsistent : b.Consistent := (consistent_parse settings sources).addFailures failed
  refine ⟨?_, hconsistent.succeeded_iff, b.failures_eq_filter, ?_⟩
  · rw [entries_addFailures, entries_parse]
    rfl
  · intro keepPartial
    refine ⟨hconsistent.sources?_eq_none_iff keepPartial, ?_⟩
    intro trees htrees
    rw [sources?_eq_some htrees]
    exact b.trees_eq_filter

end StructuredText.Batch
