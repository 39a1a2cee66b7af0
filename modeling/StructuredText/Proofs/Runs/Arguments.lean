import StructuredText.CommandLine

/-!
# What arguments can ask for

A run is asked for by a list of arguments. Files and the settings file have names, and there is at
least one file; apart from that every run can be asked for, by its options in a fixed order and its
files behind them.

* `Invocation.Named` — all files of a run have names.
* `Invocation.toArgs` — arguments that ask for a run.
* `Request.exists_ofArgs_iff` — the runs that can be asked for.
-/

namespace StructuredText

/-! ## Runs that are asked for -/

/-- All files of a run have names. -/
structure Invocation.Named (i : Invocation) : Prop where
  files : ∀ name ∈ i.files, name ≠ ""
  settingsFile : ∀ name ∈ i.settingsFile, name ≠ ""

theorem Invocation.named_default : Named {} := ⟨by simp, by simp⟩

/-- A file is added only under a name. -/
theorem Invocation.Named.of_addFile? {i j : Invocation} {name : String} (h : i.Named)
    (hj : i.addFile? name = some j) : j.Named := by
  unfold Invocation.addFile? at hj
  split at hj
  · cases hj
  · next hname =>
      cases hj
      refine ⟨?_, h.settingsFile⟩
      intro other hother
      rcases List.mem_append.mp hother with hother | hother
      · exact h.files other hother
      · obtain rfl := List.mem_singleton.mp hother
        simpa using hname

/-- Settings are asked for only under a name. -/
theorem Invocation.Named.of_addSettings? {i j : Invocation} {name : String} (h : i.Named)
    (hj : i.addSettings? name = some j) : j.Named := by
  unfold Invocation.addSettings? at hj
  split at hj
  · cases hj
  · next hname =>
      cases hj
      refine ⟨h.files, ?_⟩
      intro other hother
      obtain rfl := Option.some.inj hother
      simp only [Bool.or_eq_true, not_or] at hname
      simpa using hname.1

namespace Request

/-- A run that arguments ask for has a file, and all its files have names. -/
theorem named_of_ofArguments {i j : Invocation} {as : List Argument} (hi : i.Named)
    (h : ofArguments i as = .process j) : j.files ≠ [] ∧ j.Named := by
  fun_induction ofArguments i as with
  | case1 i =>
      unfold Invocation.request at h
      split at h
      · cases h
      · next hfiles =>
          cases h
          exact ⟨by simpa using hfiles, hi⟩
  | case2 i rest ih => exact ih hi h
  | case3 i name rest k hk ih => exact ih (hi.of_addFile? hk) h
  | case5 i rest ih => exact ih ⟨hi.files, hi.settingsFile⟩ h
  | case7 i rest hpartial ih => exact ih ⟨hi.files, hi.settingsFile⟩ h
  | case9 i rest hjson ih => exact ih ⟨hi.files, hi.settingsFile⟩ h
  | case10 i name rest k hk ih => exact ih (hi.of_addSettings? hk) h
  | case12 i name rest k hk ih => exact ih (hi.of_addSettings? hk) h
  | _ => cases h

end Request

/-! ## Arguments that ask for a run -/

/-- Arguments that ask for a run. No file is taken for an option, as they stand behind two dashes. -/
def Invocation.toArgs (i : Invocation) : List String :=
  List.replicate i.verbosity "-v" ++ (if i.keepPartial then ["--debug"] else []) ++
    (if i.asJson then ["--json"] else []) ++ i.settingsFile.toList.map ("--settings=" ++ ·) ++
    "--" :: i.files

namespace Argument

theorem ofString_verbose : ofString "-v" = [.verbose] := rfl

theorem ofString_debug : ofString "--debug" = [.debug] := rfl

theorem ofString_json : ofString "--json" = [.json] := rfl

theorem ofString_filesOnly : ofString "--" = [.filesOnly] := rfl

/-- What stands behind the sign of equality is the name of the file. -/
theorem ofWord_settings (name : String) :
    ofWord ("settings=".toList ++ name.toList) = .settings (some name) := by
  -- no other option is spelled with this mark
  have hother (option : String) (hmark : '=' ∉ option.toList) :
      String.ofList ("settings=".toList ++ name.toList) ≠ option := by
    rintro rfl
    simp at hmark
  unfold ofWord
  split
  case h_8 => simp
  all_goals
    next hword => exact absurd hword (hother _ (by decide))

/-- The long option with its value in one argument. -/
theorem ofString_settings (name : String) :
    ofString ("--settings=" ++ name) = [.settings (some name)] := by
  have hname : ("--settings=" ++ name).toList = '-' :: '-' :: ("settings=".toList ++ name.toList) := by
    simp
  unfold ofString
  rw [hname]
  simp only [ofWord_settings]

/-- An argument that stands for one option is read before the others. -/
theorem ofStrings_cons {arg : String} {rest : List String} {a : Argument}
    (h : ofString arg = [a]) (ha : a ≠ .filesOnly) :
    ofStrings (arg :: rest) = a :: ofStrings rest := by
  rw [ofStrings, h]
  simp [ha]

end Argument

namespace Request

open Argument

variable {i : Invocation} (rest : List String)

/-- Each further flag asks for more to be told. -/
theorem ofArguments_verbose (i : Invocation) (n : Nat) :
    ofArguments i (ofStrings (List.replicate n "-v" ++ rest)) =
      ofArguments { i with verbosity := i.verbosity + n } (ofStrings rest) := by
  induction n generalizing i with
  | zero => rfl
  | succ n ih =>
      rw [List.replicate_succ, List.cons_append, ofStrings_cons ofString_verbose (by simp),
        ofArguments, ih]
      simp only [Nat.add_assoc, Nat.add_comm 1]

/-- The flag, where it has not been given yet. -/
theorem ofArguments_debug (hi : i.keepPartial = false) (keepPartial : Bool) :
    ofArguments i (ofStrings ((if keepPartial then ["--debug"] else []) ++ rest)) =
      ofArguments { i with keepPartial } (ofStrings rest) := by
  cases keepPartial with
  | false =>
      show ofArguments i (ofStrings rest) = _
      rw [← hi]
  | true =>
      rw [if_pos rfl, List.cons_append, ofStrings_cons ofString_debug (by simp), ofArguments, hi]
      rfl

theorem ofArguments_json (hi : i.asJson = false) (asJson : Bool) :
    ofArguments i (ofStrings ((if asJson then ["--json"] else []) ++ rest)) =
      ofArguments { i with asJson } (ofStrings rest) := by
  cases asJson with
  | false =>
      show ofArguments i (ofStrings rest) = _
      rw [← hi]
  | true =>
      rw [if_pos rfl, List.cons_append, ofStrings_cons ofString_json (by simp), ofArguments, hi]
      rfl

/-- The file with the settings, where none has been named yet. -/
theorem ofArguments_settings (hi : i.settingsFile = none) {settingsFile : Option String}
    (hnamed : ∀ name ∈ settingsFile, name ≠ "") :
    ofArguments i (ofStrings (settingsFile.toList.map ("--settings=" ++ ·) ++ rest)) =
      ofArguments { i with settingsFile } (ofStrings rest) := by
  cases settingsFile with
  | none =>
      show ofArguments i (ofStrings rest) = _
      rw [← hi]
  | some name =>
      have hname : name.isEmpty = false := by simpa using hnamed name rfl
      rw [Option.toList_some, List.map_cons, List.cons_append,
        ofStrings_cons (ofString_settings name) (by simp), ofArguments, Invocation.addSettings?,
        hname, hi]
      rfl

/-- What is left are the files, in order. -/
theorem ofArguments_files {files : List String} (hnamed : ∀ name ∈ files, name ≠ "") :
    ofArguments i (files.map .file) = { i with files := i.files ++ files }.request := by
  induction files generalizing i with
  | nil => simp [ofArguments]
  | cons name files ih =>
      have hname : name.isEmpty = false := by simpa using hnamed name (by simp)
      have hfiles : ∀ name ∈ files, name ≠ "" := fun other hother => hnamed other (by simp [hother])
      rw [List.map_cons, ofArguments, Invocation.addFile?, hname]
      simp only [Bool.false_eq_true, if_false]
      rw [ih hfiles]
      simp

/-- The arguments of a run ask for it. -/
theorem ofArgs_toArgs (hfiles : i.files ≠ []) (hnamed : i.Named) :
    ofArgs i.toArgs = .process i := by
  unfold ofArgs Invocation.toArgs
  simp only [List.append_assoc]
  rw [ofArguments_verbose, ofArguments_debug _ rfl, ofArguments_json _ rfl,
    ofArguments_settings _ rfl hnamed.settingsFile, ofStrings, ofString_filesOnly]
  simp only [ofArguments]
  rw [ofArguments_files hnamed.files, Invocation.request]
  simp [hfiles]

/-- The runs that can be asked for are those that have a file and whose files all have names. -/
theorem exists_ofArgs_iff :
    (∃ args, ofArgs args = .process i) ↔ i.files ≠ [] ∧ i.Named := by
  constructor
  · rintro ⟨args, h⟩
    exact named_of_ofArguments Invocation.named_default h
  · rintro ⟨hfiles, hnamed⟩
    exact ⟨i.toArgs, ofArgs_toArgs hfiles hnamed⟩

end Request

end StructuredText
