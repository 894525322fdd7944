/-
The order of a plan. An accepted plan holds the entries it was made of,
no table twice, and every parent before its children (`ofEntries_ok`).
The last is what a backfill relies on: when the rows of a table are
derived from those of its parent, the parent's are complete.

Placing an entry needs its parent among those already placed, so the
order is stated from a list of placed tables on (`ParentsFirst`) and
each placed entry joins that list for the ones behind it.
-/
import Mathlib.Data.List.Perm.Basic
import Tenancy.Backfill.Plan
import Tenancy.Proofs.Outcome

namespace Tenancy.Backfill.Plan

-- ============================================================= order

/-- Every entry's parent is placed before it. -/
def ParentsFirst : (placed : List String) → List Entry → Prop
  | _, [] => True
  | placed, entry :: rest =>
    (∀ parent ∈ entry.parent?, parent ∈ placed)
      ∧ ParentsFirst (entry.table :: placed) rest

theorem isReady_iff {placed : List String} {entry : Entry} :
    isReady placed entry = true
      ↔ ∀ parent ∈ entry.parent?, parent ∈ placed := by
  unfold isReady
  cases entry.parent? with
  | none => simp
  | some parent => simp

/-- The entry that is taken may come next, and nothing is lost. -/
theorem takeReady_some {placed : List String} {pending others : List Entry}
    {entry : Entry} (h : takeReady placed pending = some (entry, others)) :
    isReady placed entry = true ∧ pending.Perm (entry :: others) := by
  induction pending generalizing others with
  | nil => cases h
  | cons first rest ih =>
    unfold takeReady at h
    by_cases hready : isReady placed first = true
    · rw [if_pos hready] at h
      cases h
      exact ⟨hready, .refl _⟩
    · rw [if_neg hready] at h
      cases hrest : takeReady placed rest with
      | none =>
        rw [hrest] at h
        cases h
      | some found =>
        obtain ⟨taken, left⟩ := found
        rw [hrest] at h
        cases h
        obtain ⟨hentry, hperm⟩ := ih hrest
        exact ⟨hentry, (hperm.cons first).trans (.swap _ _ _)⟩

/-- Entries that could be placed are all placed, parents first. -/
theorem arrangeFor_ok {steps : Nat} {placed : List String}
    {pending tables : List Entry}
    (h : arrangeFor steps placed pending = .ok tables) :
    tables.Perm pending ∧ ParentsFirst placed tables := by
  induction steps generalizing placed pending tables with
  | zero =>
    cases pending with
    | nil =>
      cases h
      exact ⟨.refl _, trivial⟩
    | cons entry rest => cases h
  | succ steps ih =>
    cases pending with
    | nil =>
      cases h
      exact ⟨.refl _, trivial⟩
    | cons first rest =>
      unfold arrangeFor at h
      cases htake : takeReady placed (first :: rest) with
      | none =>
        rw [htake] at h
        cases h
      | some found =>
        obtain ⟨entry, others⟩ := found
        rw [htake] at h
        obtain ⟨placedRest, hrest, h⟩ := bind_eq_ok.1 h
        cases h
        obtain ⟨hready, hperm⟩ := takeReady_some htake
        obtain ⟨hpermRest, hfirst⟩ := ih hrest
        exact ⟨(hpermRest.cons entry).trans hperm.symm, isReady_iff.1 hready,
          hfirst⟩

-- ============================================================ checks

/-- The names are accepted if all are valid and no table is listed twice. -/
theorem checkNames_eq_ok {seen : List String} {entries : List Entry} :
    checkNames seen entries = .ok () ↔
      (∀ entry ∈ entries, ∀ n ∈ entry.names, Sql.Identifier.isValid n = true)
        ∧ (entries.map Entry.table).Nodup ∧ ∀ entry ∈ entries,
          entry.table ∉ seen := by
  induction entries generalizing seen with
  | nil => simp [checkNames]
  | cons entry rest ih =>
    unfold checkNames
    cases hbad : entry.names.find? fun n => !Sql.Identifier.isValid n with
    | some bad =>
      have hinvalid : Sql.Identifier.isValid bad = false := by
        simpa using List.find?_some hbad
      have hmem : bad ∈ entry.names := List.mem_of_find?_eq_some hbad
      refine ⟨nofun, fun h => ?_⟩
      rw [h.1 entry (by simp) bad hmem] at hinvalid
      cases hinvalid
    | none =>
      have hvalid : ∀ n ∈ entry.names, Sql.Identifier.isValid n = true := by
        simpa using List.find?_eq_none.1 hbad
      by_cases hseen : entry.table ∈ seen
      · simp only [hseen, if_true]
        exact ⟨nofun, fun h => absurd hseen (h.2.2 entry (by simp))⟩
      · simp only [hseen, if_false, ih]
        grind [List.nodup_cons]

/-- An accepted plan holds its entries, each table once and behind its
parent. -/
theorem ofEntries_ok {entries : List Entry} {plan : Plan}
    (h : ofEntries entries = .ok plan) :
    plan.tables.Perm entries ∧ (plan.tables.map Entry.table).Nodup
      ∧ ParentsFirst [] plan.tables := by
  obtain ⟨_, hnames, h⟩ := bind_eq_ok.1 h
  obtain ⟨_, -, h⟩ := bind_eq_ok.1 h
  cases harrange : arrange entries with
  | error stuck =>
    rw [harrange] at h
    cases h
  | ok tables =>
    rw [harrange] at h
    cases h
    obtain ⟨hperm, hfirst⟩ := arrangeFor_ok harrange
    exact ⟨hperm,
      (hperm.map Entry.table).nodup_iff.2 (checkNames_eq_ok.1 hnames).2.1,
      hfirst⟩

/-- So every parent is placed. -/
theorem ParentsFirst.mem {placed : List String} {entries : List Entry}
    (h : ParentsFirst placed entries) {entry : Entry}
    (hentry : entry ∈ entries) {parent : String}
    (hparent : parent ∈ entry.parent?) :
    parent ∈ placed ∨ parent ∈ entries.map Entry.table := by
  induction entries generalizing placed with
  | nil => cases hentry
  | cons first rest ih =>
    obtain ⟨hready, hrest⟩ := h
    rcases List.mem_cons.1 hentry with rfl | hentry
    · exact .inl (hready parent hparent)
    · rcases ih hrest hentry with hmem | hmem
      · rcases List.mem_cons.1 hmem with rfl | hmem
        · exact .inr (by simp)
        · exact .inl hmem
      · exact .inr (List.mem_cons_of_mem _ hmem)

/-- An entry's parent is placed before it, wherever the entry stands. -/
theorem ParentsFirst.parent_mem {placed : List String}
    {before rest : List Entry} {entry : Entry}
    (h : ParentsFirst placed (before ++ entry :: rest)) {parent : String}
    (hparent : parent ∈ entry.parent?) :
    parent ∈ placed ∨ parent ∈ before.map Entry.table := by
  induction before generalizing placed with
  | nil => exact .inl (h.1 parent hparent)
  | cons first before ih =>
    rcases ih h.2 with hmem | hmem
    · rcases List.mem_cons.1 hmem with rfl | hmem
      · exact .inr (by simp)
      · exact .inl hmem
    · exact .inr (List.mem_cons_of_mem _ hmem)

end Tenancy.Backfill.Plan
