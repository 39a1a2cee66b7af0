import Mathlib.Data.List.Basic
import StructuredText.Proofs.Runs.Arguments
import StructuredText.Proofs.Runs.Batches

/-!
# Files do not disturb each other

A run reads its files into one batch, in which those that cannot be read at all stand behind the
others, and prints the trees of the batch. What is printed for a file is nevertheless what a run on
that file alone prints, and it stands where the file stands among the arguments.

* `Invocation.alone` — a run on one of the files.
* `Invocation.trees_batch`, `Invocation.succeeded_batch_iff` — what the batch of a run holds.
* `Request.run_isolated` — the exit code and the output of a run, from those of runs on single files.
-/

namespace StructuredText

namespace Invocation

variable {i : Invocation} {files : Files} {settings : Settings} {path : String}

/-- The run with the same options on one file. -/
def alone (i : Invocation) (path : String) : Invocation := { i with files := [path] }

/-- What stands above what is printed for a file, if there are several and they are not printed as
JSON. -/
def heading (i : Invocation) (path : String) : String :=
  if i.asJson = false ∧ 1 < i.files.length then "(* " ++ path ++ " *)\n" else ""

/-- The tree of a file that can be read and whose text gives a tree. -/
def tree? (settings : Settings) (files : Files) (path : String) : Option SourceFile :=
  match files path with
  | .ok text => (SourceFile.parse settings text path).toOption
  | .error _ => none

/-- Whether a file can be read and its text gives a tree. -/
def gives (settings : Settings) (files : Files) (path : String) : Bool :=
  match files path with
  | .ok text => (SourceFile.parse settings text path).isOk
  | .error _ => false

theorem gives_eq_isSome (settings : Settings) (files : Files) (path : String) :
    gives settings files path = (tree? settings files path).isSome := by
  unfold gives tree?
  cases files path with
  | error => rfl
  | ok text =>
      simp only
      cases SourceFile.parse settings text path <;> rfl

/-! ## The batch of a run -/

theorem entries_batch (i : Invocation) (settings : Settings) (files : Files) :
    (i.batch settings files).entries =
      (i.sources files).map (Batch.Entry.read settings) ++
        (i.unreadable files).map fun (path, failure) =>
          ⟨path, path, .error (.unreadable path failure)⟩ := by
  rw [batch, Batch.entries_addFailures, Batch.entries_parse, List.map_map]
  rfl

theorem consistent_batch (i : Invocation) (settings : Settings) (files : Files) :
    (i.batch settings files).Consistent :=
  (Batch.consistent_parse settings _).addFailures _

/-- The trees of the batch are those of the files, in the order of the arguments. -/
theorem trees_batch (i : Invocation) (settings : Settings) (files : Files) :
    (i.batch settings files).trees =
      i.files.filterMap fun path => (tree? settings files path).map (path, ·) := by
  unfold Batch.trees
  rw [entries_batch, List.filterMap_append]
  -- a file that cannot be read has an entry behind the others, and no tree
  have hunreadable : ((i.unreadable files).map fun (path, failure) =>
      (⟨path, path, .error (.unreadable path failure)⟩ : Batch.Entry)).filterMap Batch.Entry.tree? =
        [] := by
    simp [Batch.Entry.tree?]
  rw [hunreadable, List.append_nil, sources, List.map_filterMap, List.filterMap_filterMap]
  congr 1
  funext path
  unfold tree?
  cases files path with
  | error => rfl
  | ok text =>
      simp only [Option.map_some, Option.bind_some, Batch.Entry.read, Batch.Entry.tree?]
      cases SourceFile.parse settings text path <;> rfl

/-- The batch of a run succeeds when every file gives a tree. -/
theorem succeeded_batch_iff (i : Invocation) (settings : Settings) (files : Files) :
    (i.batch settings files).succeeded = true ↔
      ∀ path ∈ i.files, gives settings files path = true := by
  rw [(consistent_batch i settings files).succeeded_iff, entries_batch]
  -- Every file of the run has one entry, as a source or as a failure.
  constructor
  · intro h path hpath
    unfold gives
    cases hfile : files path with
    | ok text =>
        have hsource : (⟨path, path, text⟩ : Source) ∈ i.sources files :=
          List.mem_filterMap.mpr ⟨path, hpath, by simp [hfile]⟩
        have hok := h _ (List.mem_append_left _ (List.mem_map_of_mem hsource))
        rw [Batch.Entry.isOk_read] at hok
        exact hok
    | error failure =>
        have hfailed : (path, failure) ∈ i.unreadable files :=
          List.mem_filterMap.mpr ⟨path, hpath, by simp [hfile]⟩
        have hok := h _ (List.mem_append_right _ (List.mem_map_of_mem hfailed))
        rw [Batch.Entry.isOk_error] at hok
        cases hok
  · intro h e he
    rcases List.mem_append.mp he with he | he
    · obtain ⟨s, hs, rfl⟩ := List.mem_map.mp he
      obtain ⟨path, hpath, hs⟩ := List.mem_filterMap.mp hs
      have hgives := h path hpath
      unfold gives at hgives
      cases hfile : files path with
      | ok text =>
          rw [hfile] at hs hgives
          cases hs
          rw [Batch.Entry.isOk_read]
          exact hgives
      | error failure =>
          rw [hfile] at hs
          cases hs
    · obtain ⟨⟨path, failure⟩, hfailed, rfl⟩ := List.mem_map.mp he
      obtain ⟨other, hpath, hfailed⟩ := List.mem_filterMap.mp hfailed
      have hgives := h other hpath
      unfold gives at hgives
      cases hfile : files other with
      | ok text =>
          rw [hfile] at hfailed
          cases hfailed
      | error other =>
          rw [hfile] at hgives
          cases hgives

/-! ## What is printed -/

theorem exitCode_run (h : i.settings files = .ok settings) :
    (i.run files).exitCode =
      if ∀ path ∈ i.files, gives settings files path = true then 0 else 1 := by
  unfold run
  rw [h]
  simp only [succeeded_batch_iff]

/-- The output shows the trees of the files in the order of the arguments, or it is empty. -/
theorem stdout_run (h : i.settings files = .ok settings) :
    (i.run files).stdout =
      if settings.keepPartial = true ∨ i.keepPartial = true ∨
          ∀ path ∈ i.files, gives settings files path = true then
        String.join (i.files.filterMap fun path => (tree? settings files path).map (i.shown path))
      else "" := by
  unfold run
  rw [h]
  simp only [Batch.sources?, trees_batch, ← succeeded_batch_iff]
  cases (i.batch settings files).succeeded <;> cases settings.keepPartial <;> cases i.keepPartial
  all_goals simp [List.map_filterMap, Function.comp_def]

theorem shown_eq (i : Invocation) (path : String) (f : SourceFile) :
    i.shown path f = i.heading path ++ (i.alone path).shown path f := by
  unfold shown heading alone
  cases i.asJson with
  | true => simp
  | false =>
      simp only [true_and, List.length_singleton, Nat.lt_irrefl, if_false, String.empty_append,
        Bool.false_eq_true]
      rw [String.append_assoc]

theorem stdout_run_alone (h : i.settings files = .ok settings) {f : SourceFile}
    (hf : tree? settings files path = some f) :
    ((i.alone path).run files).stdout = (i.alone path).shown path f := by
  have hgives : gives settings files path = true := by rw [gives_eq_isSome, hf]; rfl
  rw [stdout_run (show (i.alone path).settings files = .ok settings from h)]
  simp [alone, hgives, hf]

end Invocation

/-! ## Runs on several files and on one -/

namespace Request

open Invocation

/-- Files do not disturb each other. Where arguments ask for a run and its settings can be read, the
exit code tells whether every file gives a tree. If all do, or partial results are asked for, the
output consists of what runs on the single files print, in the order of the arguments, for those
that give a tree; otherwise it is empty. -/
theorem run_isolated {files : Files} {args : List String} {i : Invocation} {settings : Settings}
    (hargs : ofArgs args = .process i) (hsettings : i.settings files = .ok settings) :
    i.files ≠ [] ∧
      ((ofArgs args).run files).exitCode =
        (if ∀ path ∈ i.files, gives settings files path = true then 0 else 1) ∧
      ((settings.keepPartial = true ∨ i.keepPartial = true ∨
          ∀ path ∈ i.files, gives settings files path = true) →
        ((ofArgs args).run files).stdout =
          String.join ((i.files.filter (gives settings files)).map fun path =>
            i.heading path ++ ((ofArgs (i.alone path).toArgs).run files).stdout)) ∧
      (settings.keepPartial = false → i.keepPartial = false →
        (∃ path ∈ i.files, gives settings files path = false) →
        ((ofArgs args).run files).stdout = "") := by
  obtain ⟨hfiles, hnamed⟩ := named_of_ofArguments named_default hargs
  rw [hargs]
  refine ⟨hfiles, exitCode_run hsettings, ?_, ?_⟩
  · intro hshown
    show (i.run files).stdout = _
    rw [stdout_run hsettings, if_pos hshown, ← List.filterMap_eq_map, List.filterMap_filter]
    congr 1
    apply List.filterMap_congr
    intro path hpath
    -- The run of one file is asked for by arguments of its own.
    have halone : ofArgs (i.alone path).toArgs = .process (i.alone path) := by
      refine ofArgs_toArgs (List.cons_ne_nil _ _) ⟨?_, hnamed.settingsFile⟩
      intro name hname
      obtain rfl := List.mem_singleton.mp hname
      exact hnamed.files name hpath
    cases hf : tree? settings files path with
    | none =>
        have hgives : gives settings files path = false := by rw [gives_eq_isSome, hf]; rfl
        simp [hgives]
    | some f =>
        have hgives : gives settings files path = true := by rw [gives_eq_isSome, hf]; rfl
        have hstdout := stdout_run_alone hsettings hf
        simp only [hgives, if_true, Option.map_some, Function.comp_apply, halone]
        rw [shown_eq, ← hstdout]
        rfl
  · rintro hsettled hpartial ⟨path, hpath, hgives⟩
    show (i.run files).stdout = ""
    have hfailed : ¬ (settings.keepPartial = true ∨ i.keepPartial = true ∨
        ∀ path ∈ i.files, gives settings files path = true) := by
      rintro (h | h | h)
      · rw [hsettled] at h
        cases h
      · rw [hpartial] at h
        cases h
      · rw [h path hpath] at hgives
        cases hgives
    rw [stdout_run hsettings, if_neg hfailed]

/-- Files among which one can be read and holds a declaration. -/
def oneFile : Files := fun path =>
  if path = "a.st" then .ok "VAR_GLOBAL x : INT; END_VAR".toList else .error .missing

theorem run_isolated_oneFile :
    let transcript := (ofArgs ["--debug", "a.st", "b.st", "a.st"]).run oneFile
    let shown := "(* a.st *)\n" ++ ((ofArgs ["--debug", "--", "a.st"]).run oneFile).stdout
    transcript.exitCode = 1 ∧ transcript.stdout = shown ++ shown := by
  intro transcript shown
  have ha : gives {} oneFile "a.st" = true := by decide +kernel
  have hb : gives {} oneFile "b.st" = false := rfl
  have hargs : ofArgs ["--debug", "a.st", "b.st", "a.st"] =
      .process { files := ["a.st", "b.st", "a.st"], keepPartial := true } := by decide +kernel
  have hsettings : Invocation.settings { files := ["a.st", "b.st", "a.st"], keepPartial := true }
      oneFile = .ok {} := rfl
  obtain ⟨-, hcode, hstdout, -⟩ := run_isolated hargs hsettings
  refine ⟨?_, ?_⟩
  · rw [hcode]
    simp [hb]
  · rw [hstdout (.inr (.inl rfl))]
    simp only [List.filter_cons, ha, hb, List.filter_nil, if_true, Bool.false_eq_true, if_false]
    show String.join [shown, shown] = _
    simp [String.join]

end Request

end StructuredText
