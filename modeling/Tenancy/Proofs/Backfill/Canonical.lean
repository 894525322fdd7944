/-
The order of a plan is canonical. Entries may have many orders with
parents before children (`IsOrder`); a plan takes the one that comes
first when orders are compared by where their entries were declared
(`positions`), entry by entry.

Placing takes the earliest declared entry that is ready. What is left
keeps the order in which it was declared, so each placed entry was
declared before all those behind it that were ready as well
(`EarliestFirst`). That is all it takes to be least: where another order
first differs, it has an entry that was ready too, and so one that was
declared later (`positions_lt`).

Entries that have their parents before them are each ready when their
turn comes. They are placed as they stand, and the tables of a plan make
the same plan again.
-/
import Mathlib.Data.List.Nodup
import Tenancy.Proofs.Backfill.Acyclicity

namespace Tenancy.Backfill.Plan

variable {entries pending others tables : List Entry} {placed : List String}
  {entry : Entry} {steps : Nat} {plan : Plan}

-- ============================================================ orders

/-- The entries in an order in which every parent comes before its children. -/
structure IsOrder (entries tables : List Entry) : Prop where
  perm : tables.Perm entries
  parentsFirst : ParentsFirst [] tables

/-- Where the entries of an order were declared. -/
def positions (entries tables : List Entry) : List Nat :=
  tables.map entries.idxOf

/-- Each entry was declared before those behind it that could have come in its
place. -/
def EarliestFirst (declared : Entry → Nat) :
    (placed : List String) → List Entry → Prop
  | _, [] => True
  | placed, entry :: rest =>
    (∀ other ∈ rest, isReady placed other = true →
      declared entry < declared other)
      ∧ EarliestFirst declared (entry.table :: placed) rest

/-- Entries without repetition stand in the order of their positions. -/
theorem pairwise_idxOf (h : entries.Nodup) :
    entries.Pairwise fun a b => entries.idxOf a < entries.idxOf b := by
  rw [List.pairwise_iff_getElem]
  intro i j hi hj hij
  rw [h.idxOf_getElem i hi, h.idxOf_getElem j hj]
  exact hij

-- =========================================================== placing

/-- The entry that is taken was declared before the others that are ready. -/
theorem declared_lt_of_takeReady {declared : Entry → Nat}
    (hpending : pending.Pairwise fun a b => declared a < declared b)
    (h : takeReady placed pending = some (entry, others)) :
    ∀ other ∈ others, isReady placed other = true →
      declared entry < declared other := by
  induction pending generalizing others with
  | nil => cases h
  | cons first rest ih =>
    obtain ⟨hfirst, hrest⟩ := List.pairwise_cons.1 hpending
    unfold takeReady at h
    by_cases hready : isReady placed first = true
    · rw [if_pos hready] at h
      cases h
      exact fun other hother _ => hfirst other hother
    · rw [if_neg hready] at h
      cases htake : takeReady placed rest with
      | none =>
        rw [htake] at h
        cases h
      | some found =>
        obtain ⟨taken, left⟩ := found
        rw [htake] at h
        cases h
        intro other hother hotherReady
        rcases List.mem_cons.1 hother with rfl | hother
        · exact absurd hotherReady hready
        · exact ih hrest htake other hother hotherReady

/-- So entries that are placed in the order of their declaration are placed the
earliest first. -/
theorem earliestFirst_of_arrangeFor {declared : Entry → Nat}
    (hpending : pending.Pairwise fun a b => declared a < declared b)
    (h : arrangeFor steps placed pending = .ok tables) :
    EarliestFirst declared placed tables := by
  induction steps generalizing placed pending tables with
  | zero =>
    cases pending with
    | nil =>
      cases h
      trivial
    | cons first rest => cases h
  | succ steps ih =>
    cases pending with
    | nil =>
      cases h
      trivial
    | cons first rest =>
      unfold arrangeFor at h
      cases htake : takeReady placed (first :: rest) with
      | none =>
        rw [htake] at h
        cases h
      | some found =>
        obtain ⟨entry, others⟩ := found
        rw [htake] at h
        obtain ⟨behind, hbehind, h⟩ := bind_eq_ok.1 h
        cases h
        have hothers := hpending.sublist (sublist_of_takeReady htake)
        refine ⟨fun other hother => ?_, ih hothers hbehind⟩
        rw [(arrangeFor_ok hbehind).1.mem_iff] at hother
        exact declared_lt_of_takeReady hpending htake other hother

/-- Entries behind their parents are placed as they stand. -/
theorem arrangeFor_of_parentsFirst (hsteps : pending.length ≤ steps)
    (h : ParentsFirst placed pending) :
    arrangeFor steps placed pending = .ok pending := by
  induction pending generalizing steps placed with
  | nil =>
    cases steps with
    | zero => rfl
    | succ steps => rfl
  | cons first rest ih =>
    obtain ⟨hready, hrest⟩ := h
    cases steps with
    | zero =>
      simp only [List.length_cons] at hsteps
      omega
    | succ steps =>
      have htake : takeReady placed (first :: rest) = some (first, rest) := by
        unfold takeReady
        rw [if_pos (isReady_iff.2 hready)]
      have hlength : rest.length ≤ steps := by
        simp only [List.length_cons] at hsteps
        omega
      unfold arrangeFor
      rw [htake]
      show (arrangeFor steps (first.table :: placed) rest >>= _) = _
      rw [ih hlength hrest]
      rfl

-- ======================================================== comparison

/-- An order that takes the earliest first comes before every other order. -/
theorem positions_lt {declared : Entry → Nat} {order : List Entry}
    (hearliest : EarliestFirst declared placed tables)
    (hfirst : ParentsFirst placed order)
    (hperm : order.Perm tables) (hne : order ≠ tables) :
    tables.map declared < order.map declared := by
  induction tables generalizing placed order with
  | nil => exact absurd hperm.eq_nil hne
  | cons entry rest ih =>
    obtain ⟨hentry, hearliest⟩ := hearliest
    cases order with
    | nil => exact absurd hperm.symm.eq_nil (by simp)
    | cons other others =>
      obtain ⟨hother, hfirst⟩ := hfirst
      rw [List.map_cons, List.map_cons, List.cons_lt_cons_iff]
      by_cases hsame : other = entry
      · subst hsame
        have hrest : others ≠ rest := fun h => hne (by rw [h])
        exact .inr
          ⟨rfl, ih hearliest hfirst ((List.perm_cons other).1 hperm) hrest⟩
      · -- The other entry was ready as well, and has to wait in the plan.
        have hmem : other ∈ rest :=
          (List.mem_cons.1 (hperm.mem_iff.1 (by simp))).resolve_left hsame
        exact .inl (hentry other hmem (isReady_iff.2 hother))

/-- In particular it does so at every step. -/
theorem EarliestFirst.declared_lt {declared : Entry → Nat}
    {before after : List Entry}
    (h : EarliestFirst declared placed (before ++ entry :: after))
    {other : Entry} (hother : other ∈ after)
    (hready : ∀ parent ∈ other.parent?,
      parent ∈ placed ∨ parent ∈ before.map Entry.table) :
    declared entry < declared other := by
  induction before generalizing placed with
  | nil => exact h.1 other hother (isReady_iff.2 (by simpa using hready))
  | cons first before ih =>
    refine ih h.2 fun parent hparent => ?_
    rcases hready parent hparent with hmem | hmem
    · exact .inl (List.mem_cons_of_mem _ hmem)
    · rw [List.map_cons] at hmem
      rcases List.mem_cons.1 hmem with rfl | hmem
      · exact .inl List.mem_cons_self
      · exact .inr hmem

-- ============================================================= plans

/-- Well-formed entries behind their parents make the plan of them as they
stand. -/
theorem ofEntries_of_parentsFirst (h : WellFormed entries)
    (hfirst : ParentsFirst [] entries) :
    ofEntries entries = .ok ⟨entries⟩ := by
  have harrange : arrange entries = .ok entries :=
    arrangeFor_of_parentsFirst le_rfl hfirst
  rw [ofEntries_of_wellFormed h, harrange]

/-- Nothing is wrong with entries in one order that is not wrong in another. -/
theorem WellFormed.perm (h : WellFormed entries)
    (hperm : tables.Perm entries) : WellFormed tables where
  names entry hentry := h.names entry (hperm.mem_iff.1 hentry)
  tables := (hperm.map Entry.table).nodup_iff.2 h.tables
  parents entry hentry parent hparent :=
    (hperm.map Entry.table).mem_iff.2
      (h.parents entry (hperm.mem_iff.1 hentry) parent hparent)

/-- The tables of a plan are the first of all orders of its entries: of those
with every parent before its children, the least by where the entries were
declared, since what comes next is always the earliest declared entry whose
parent is placed. So entries that are in order already stay as they are, and
the tables of a plan make this plan again, with the same fingerprint. -/
theorem ofEntries_takes_first_order (h : ofEntries entries = .ok plan) :
    IsOrder entries plan.tables
    ∧ (∀ tables, IsOrder entries tables → tables ≠ plan.tables →
        positions entries plan.tables < positions entries tables)
    ∧ (∀ before entry after, plan.tables = before ++ entry :: after →
        ∀ other ∈ after,
          (∀ parent ∈ other.parent?, parent ∈ before.map Entry.table) →
          entries.idxOf entry < entries.idxOf other)
    ∧ (ParentsFirst [] entries → plan.tables = entries)
    ∧ ofEntries plan.tables = .ok plan
    ∧ ∀ again, ofEntries plan.tables = .ok again →
      again.fingerprint = plan.fingerprint := by
  have hwell := wellFormed_of_ofEntries h
  obtain ⟨hperm, -, hfirst⟩ := ofEntries_ok h
  have hagain : ofEntries plan.tables = .ok plan :=
    ofEntries_of_parentsFirst (hwell.perm hperm) hfirst
  have hearliest : EarliestFirst entries.idxOf [] plan.tables := by
    cases harrange : arrange entries with
    | error stuck =>
      rw [ofEntries_of_wellFormed hwell, harrange] at h
      cases h
    | ok tables =>
      rw [ofEntries_of_wellFormed hwell, harrange] at h
      cases h
      have hnodup : entries.Nodup := hwell.tables.of_map Entry.table
      exact earliestFirst_of_arrangeFor (pairwise_idxOf hnodup) harrange
  refine ⟨⟨hperm, hfirst⟩, fun tables horder hne => ?_, ?_, fun hordered => ?_,
    hagain, ?_⟩
  · exact positions_lt hearliest horder.parentsFirst
      (horder.perm.trans hperm.symm) hne
  · intro before entry after htables other hother hready
    rw [htables] at hearliest
    exact hearliest.declared_lt hother fun parent hparent =>
      .inr (hready parent hparent)
  · rw [ofEntries_of_parentsFirst hwell hordered] at h
    cases h
    rfl
  · intro again hplan
    rw [hagain] at hplan
    cases hplan
    rfl

/-- Tasks that are declared before the projects they derive from, with the
events of an audit between them. -/
def auditedEntries : List Entry := [
  ⟨"tasks", .parent "projects" "project_id"⟩,
  ⟨"audit_events", .defaultOnly⟩,
  ⟨"projects", .ownerMembership "user_id"⟩]

def auditedPlan : Plan := ⟨[
  ⟨"audit_events", .defaultOnly⟩,
  ⟨"projects", .ownerMembership "user_id"⟩,
  ⟨"tasks", .parent "projects" "project_id"⟩]⟩

/-- The events come first, and not last, though the tasks only wait for the
projects. -/
theorem auditedPlan_takes_first_order :
    ofEntries auditedEntries = .ok auditedPlan
    ∧ IsOrder auditedEntries [
        ⟨"projects", .ownerMembership "user_id"⟩,
        ⟨"tasks", .parent "projects" "project_id"⟩,
        ⟨"audit_events", .defaultOnly⟩]
    ∧ positions auditedEntries auditedPlan.tables < [2, 0, 1]
    ∧ ofEntries auditedPlan.tables = .ok auditedPlan := by
  have hplan : ofEntries auditedEntries = .ok auditedPlan := rfl
  have horder : IsOrder auditedEntries [
      ⟨"projects", .ownerMembership "user_id"⟩,
      ⟨"tasks", .parent "projects" "project_id"⟩,
      ⟨"audit_events", .defaultOnly⟩] := by
    refine ⟨by decide, nofun, ?_, nofun, trivial⟩
    intro parent hparent
    cases hparent
    decide
  obtain ⟨-, hleast, -, -, hagain, -⟩ := ofEntries_takes_first_order hplan
  exact ⟨hplan, horder, hleast _ horder (by decide), hagain⟩

end Tenancy.Backfill.Plan
