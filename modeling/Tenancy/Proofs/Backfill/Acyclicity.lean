/-
Which entries make a plan. Names that are valid, tables that are listed
once and parents that are listed are checked one after the other; what
is left is a question about parents only, and the answer is that every
table must come to one without a parent when parents are followed
(`EndsAtRoot`). Then the entries are put in order, all of them.

Placing goes on until no entry is ready. What is placed has come to a
root, for its parent was placed before it. What is stuck has its parent
among the stuck, so parents can be followed forever without leaving
these finitely many tables, and some table comes up twice: a stuck table
is on a cycle or leads into one (`leadsIntoCycle_of_closed`). As no table
has two parents, a table that leads into a cycle comes to no root, so
the two exclude each other and the stuck tables are exactly those
without an order.
-/
import Mathlib.Data.Fintype.Pigeonhole
import Mathlib.Logic.Relation
import Tenancy.Proofs.Backfill.Order

namespace Tenancy.Backfill.Plan

open Relation

variable {entries : List Entry} {table parent : String}

-- =========================================================== parents

/-- The entries say that a table derives from another. -/
def DerivesFrom (entries : List Entry) (table parent : String) : Prop :=
  ∃ entry ∈ entries, entry.table = table ∧ entry.parent? = some parent

/-- Following parents from the table reaches one without a parent. -/
def EndsAtRoot (entries : List Entry) (table : String) : Prop :=
  ∃ root ∈ entries,
    ReflTransGen (DerivesFrom entries) table root.table ∧ root.parent? = none

/-- Following parents from the table reaches one that comes up again. -/
def LeadsIntoCycle (entries : List Entry) (table : String) : Prop :=
  ∃ t, ReflTransGen (DerivesFrom entries) table t
    ∧ TransGen (DerivesFrom entries) t t

/-- Nothing is wrong with the entries but perhaps that they have no order. -/
structure WellFormed (entries : List Entry) : Prop where
  /-- Tables, owner columns, parents and foreign keys have valid names. -/
  names : ∀ entry ∈ entries, ∀ n ∈ entry.names, Sql.Identifier.isValid n = true
  /-- No table is listed twice. -/
  tables : (entries.map Entry.table).Nodup
  /-- Every parent is a listed table. -/
  parents :
    ∀ entry ∈ entries, ∀ parent ∈ entry.parent?,
    parent ∈ entries.map Entry.table

/-- A table that is listed once has one entry. -/
theorem WellFormed.entry_unique (h : WellFormed entries) {a b : Entry}
    (ha : a ∈ entries) (hb : b ∈ entries) (hab : a.table = b.table) : a = b :=
  List.inj_on_of_nodup_map h.tables ha hb hab

theorem WellFormed.parent_unique (h : WellFormed entries) {p q : String}
    (hp : DerivesFrom entries table p) (hq : DerivesFrom entries table q) :
    p = q := by
  obtain ⟨a, ha, rfl, hap⟩ := hp
  obtain ⟨b, hb, hba, hbq⟩ := hq
  obtain rfl := h.entry_unique hb ha hba
  exact Option.some.inj (hap.symm.trans hbq)

/-- What a table leads into, its parent leads into. -/
theorem LeadsIntoCycle.of_derivesFrom (h : WellFormed entries)
    (hparent : DerivesFrom entries table parent)
    (hcycle : LeadsIntoCycle entries table) :
    LeadsIntoCycle entries parent := by
  obtain ⟨t, hpath, hloop⟩ := hcycle
  rcases hpath.cases_head with rfl | ⟨next, hnext, hrest⟩
  · -- The table itself is on the cycle, and so is its parent.
    obtain ⟨next, hnext, hback⟩ := TransGen.head'_iff.1 hloop
    obtain rfl := h.parent_unique hparent hnext
    exact ⟨parent, .refl, TransGen.tail' hback hparent⟩
  · obtain rfl := h.parent_unique hparent hnext
    exact ⟨t, hrest, hloop⟩

/-- A cycle holds no table without a parent, and none leads out of it. -/
theorem not_leadsIntoCycle_of_endsAtRoot (h : WellFormed entries)
    (hends : EndsAtRoot entries table) : ¬ LeadsIntoCycle entries table := by
  obtain ⟨root, hroot, hpath, hnone⟩ := hends
  induction hpath using ReflTransGen.head_induction_on with
  | refl =>
    rintro ⟨t, hpath, hloop⟩
    have hstep : ∃ next, DerivesFrom entries root.table next := by
      rcases hpath.cases_head with rfl | ⟨next, hnext, -⟩
      · obtain ⟨next, hnext, -⟩ := TransGen.head'_iff.1 hloop
        exact ⟨next, hnext⟩
      · exact ⟨next, hnext⟩
    obtain ⟨next, entry, hentry, hsame, hparent⟩ := hstep
    obtain rfl := h.entry_unique hentry hroot hsame
    rw [hnone] at hparent
    cases hparent
  | head hstep _ ih => exact fun hcycle => ih (hcycle.of_derivesFrom h hstep)

/-- Parents that stay among finitely many tables come back to one of them. -/
theorem leadsIntoCycle_of_closed {tables : List String}
    (hclosed : ∀ t ∈ tables, ∃ p ∈ tables, DerivesFrom entries t p)
    (htable : table ∈ tables) : LeadsIntoCycle entries table := by
  choose up hup hderives using hclosed
  let next : {t // t ∈ tables} → {t // t ∈ tables} :=
    fun t => ⟨up t t.2, hup t t.2⟩
  have hnext (t : {t // t ∈ tables}) : DerivesFrom entries t (next t) :=
    hderives t t.2
  have hpath (n : Nat) : ∀ t : {t // t ∈ tables},
      ReflTransGen (DerivesFrom entries) t (next^[n] t) := by
    induction n with
    | zero => exact fun _ => .refl
    | succ n ih => exact fun t => (ih (next t)).head (hnext t)
  -- Two numbers of steps lead to the same table; the later are the earlier and
  -- some more.
  obtain ⟨m, n, hne, hsame⟩ :=
    Finite.exists_ne_map_eq_of_infinite fun n => next^[n] ⟨table, htable⟩
  wlog hlt : m < n generalizing m n
  · exact this n m hne.symm hsame.symm (by omega)
  obtain ⟨k, rfl⟩ := Nat.exists_eq_add_of_lt hlt
  have hback : next^[k] (next (next^[m] ⟨table, htable⟩))
      = next^[m] ⟨table, htable⟩ := by
    rw [← Function.iterate_succ_apply, ← Function.iterate_add_apply,
      Nat.add_comm]
    exact hsame.symm
  refine ⟨next^[m] ⟨table, htable⟩, hpath m ⟨table, htable⟩,
    TransGen.head' (hnext _) ?_⟩
  have hrest := hpath k (next (next^[m] ⟨table, htable⟩))
  rwa [hback] at hrest

-- ============================================================= order

/-- What is placed behind tables that come to a root comes to a root. -/
theorem endsAtRoot_of_parentsFirst {placed : List String} {tables : List Entry}
    (hplaced : ∀ t ∈ placed, EndsAtRoot entries t)
    (hmem : ∀ entry ∈ tables, entry ∈ entries)
    (hfirst : ParentsFirst placed tables) :
    ∀ entry ∈ tables, EndsAtRoot entries entry.table := by
  induction tables generalizing placed with
  | nil => simp
  | cons entry rest ih =>
    obtain ⟨hready, hrest⟩ := hfirst
    have hentry : entry ∈ entries := hmem entry (by simp)
    have hends : EndsAtRoot entries entry.table := by
      cases hparent : entry.parent? with
      | none => exact ⟨entry, hentry, .refl, hparent⟩
      | some parent =>
        obtain ⟨root, hroot, hpath, hnone⟩ :=
          hplaced parent (hready parent hparent)
        exact ⟨root, hroot, hpath.head ⟨entry, hentry, rfl, hparent⟩, hnone⟩
    have hbehind : ∀ t ∈ entry.table :: placed, EndsAtRoot entries t := by
      simpa using ⟨hends, hplaced⟩
    have hothers :=
      ih hbehind (fun other hother => hmem other (by simp [hother])) hrest
    simpa using ⟨hends, hothers⟩

/-- The entry that is taken stands somewhere, and the others keep their
order. -/
theorem sublist_of_takeReady {placed : List String}
    {pending others : List Entry} {entry : Entry}
    (h : takeReady placed pending = some (entry, others)) :
    others.Sublist pending := by
  induction pending generalizing others with
  | nil => cases h
  | cons first rest ih =>
    unfold takeReady at h
    by_cases hready : isReady placed first = true
    · rw [if_pos hready] at h
      cases h
      exact List.sublist_cons_self _ _
    · rw [if_neg hready] at h
      cases hrest : takeReady placed rest with
      | none =>
        rw [hrest] at h
        cases h
      | some found =>
        rw [hrest] at h
        cases h
        exact (ih hrest).cons_cons first

/-- If none is taken, every entry waits for a parent. -/
theorem takeReady_none {placed : List String} {pending : List Entry}
    (h : takeReady placed pending = none) :
    ∀ entry ∈ pending, ∃ parent ∈ entry.parent?, parent ∉ placed := by
  induction pending with
  | nil => simp
  | cons first rest ih =>
    unfold takeReady at h
    by_cases hready : isReady placed first = true
    · rw [if_pos hready] at h
      cases h
    · rw [if_neg hready] at h
      have hfirst : ∃ parent ∈ first.parent?, parent ∉ placed := by
        simpa [isReady_iff] using hready
      cases hrest : takeReady placed rest with
      | none => simpa using ⟨hfirst, ih hrest⟩
      | some found =>
        rw [hrest] at h
        cases h

/-- Entries that cannot all be placed fall into those that are, parents first,
and those that are stuck, each waiting for a parent that is never placed. -/
theorem arrangeFor_error {steps : Nat} {placed : List String}
    {pending stuck : List Entry}
    (hsteps : pending.length ≤ steps)
    (h : arrangeFor steps placed pending = .error stuck) :
    stuck ≠ [] ∧ stuck.Sublist pending ∧ ∃ tables,
      (tables ++ stuck).Perm pending
      ∧ ParentsFirst placed tables
      ∧ ∀ entry ∈ stuck, ∃ parent ∈ entry.parent?,
          parent ∉ placed ∧ parent ∉ tables.map Entry.table := by
  induction steps generalizing placed pending with
  | zero =>
    cases pending with
    | nil => cases h
    | cons first rest => simp at hsteps
  | succ steps ih =>
    cases pending with
    | nil => cases h
    | cons first rest =>
      unfold arrangeFor at h
      cases htake : takeReady placed (first :: rest) with
      | none =>
        rw [htake] at h
        cases h
        exact ⟨by simp, .refl _, [], .refl _, trivial,
          by simpa using takeReady_none htake⟩
      | some found =>
        obtain ⟨entry, others⟩ := found
        rw [htake] at h
        obtain ⟨hready, hperm⟩ := takeReady_some htake
        have hlength : others.length ≤ steps := by
          have := hperm.length_eq
          simp only [List.length_cons] at this hsteps
          omega
        rcases bind_eq_error.1 h with h | ⟨_, _, h⟩
        · obtain ⟨hne, hsub, tables, hsplit, hfirst, hwaits⟩ := ih hlength h
          refine ⟨hne, hsub.trans (sublist_of_takeReady htake),
            entry :: tables, (hsplit.cons entry).trans hperm.symm,
            ⟨isReady_iff.1 hready, hfirst⟩, ?_⟩
          intro other hother
          obtain ⟨parent, hparent, hplaced, htables⟩ := hwaits other hother
          simp only [List.mem_cons, not_or] at hplaced
          exact ⟨parent, hparent, hplaced.2,
            by simpa using ⟨hplaced.1, by simpa using htables⟩⟩
        · cases h

/-- Well-formed entries are put in order, or those that are stuck are the ones
that come to no root and lead into a cycle. -/
theorem arrange_cases (h : WellFormed entries) :
    (∃ tables, arrange entries = .ok tables ∧ ∀ entry ∈ entries,
      EndsAtRoot entries entry.table)
    ∨ ∃ stuck : List Entry,
      arrange entries = .error stuck ∧ stuck ≠ [] ∧ stuck.Sublist entries
      ∧ ∀ entry ∈ entries, (entry ∈ stuck ↔ ¬ EndsAtRoot entries entry.table)
          ∧ (entry ∈ stuck ↔ LeadsIntoCycle entries entry.table) := by
  cases harrange : arrange entries with
  | ok tables =>
    obtain ⟨hperm, hfirst⟩ := arrangeFor_ok harrange
    have hends :=
      endsAtRoot_of_parentsFirst (by simp) (fun _ => hperm.mem_iff.1) hfirst
    exact .inl
      ⟨tables, rfl, fun entry hentry => hends entry (hperm.mem_iff.2 hentry)⟩
  | error stuck =>
    obtain ⟨hne, hsub, tables, hsplit, hfirst, hwaits⟩ :=
      arrangeFor_error (le_refl _) harrange
    have hplaced : ∀ entry ∈ tables, EndsAtRoot entries entry.table :=
      endsAtRoot_of_parentsFirst (by simp)
        (fun entry hentry => hsplit.mem_iff.1 (List.mem_append_left _ hentry))
          hfirst
    have hclosed : ∀ t ∈ stuck.map Entry.table, ∃ p ∈ stuck.map Entry.table,
        DerivesFrom entries t p := by
      intro t ht
      obtain ⟨entry, hentry, rfl⟩ := List.mem_map.1 ht
      obtain ⟨parent, hparent, -, hnot⟩ := hwaits entry hentry
      have hlisted := h.parents entry (hsub.subset hentry) parent hparent
      rw [← (hsplit.map Entry.table).mem_iff, List.map_append, List.mem_append]
        at hlisted
      exact ⟨parent, hlisted.resolve_left hnot, entry, hsub.subset hentry, rfl,
        hparent⟩
    have hstuck : ∀ entry ∈ stuck, LeadsIntoCycle entries entry.table :=
      fun entry hentry =>
      leadsIntoCycle_of_closed hclosed (List.mem_map_of_mem hentry)
    refine .inr ⟨stuck, rfl, hne, hsub, fun entry hentry => ?_⟩
    have hexcluded :
        EndsAtRoot entries entry.table →
          ¬ LeadsIntoCycle entries entry.table :=
      not_leadsIntoCycle_of_endsAtRoot h
    rcases List.mem_append.1 (hsplit.mem_iff.2 hentry) with hmem | hmem
    · have hends := hplaced entry hmem
      have hnot : entry ∉ stuck := fun hs => hexcluded hends (hstuck entry hs)
      exact ⟨iff_of_false hnot (not_not_intro hends),
        iff_of_false hnot (hexcluded hends)⟩
    · have hcycle := hstuck entry hmem
      exact ⟨iff_of_true hmem fun hends => hexcluded hends hcycle,
        iff_of_true hmem hcycle⟩

-- ============================================================ checks

theorem checkParents_eq_ok {listed : List String} {entries : List Entry} :
    checkParents listed entries = .ok () ↔
      ∀ entry ∈ entries, ∀ parent ∈ entry.parent?, parent ∈ listed := by
  induction entries with
  | nil => simp [checkParents]
  | cons entry rest ih =>
    unfold checkParents
    cases hparent : entry.parent? with
    | none => simp [ih, hparent]
    | some parent =>
      by_cases hlisted : parent ∈ listed
      · simp [ih, hparent, hlisted]
      · simp only [hlisted, if_false]
        exact ⟨nofun,
          fun h => absurd (h entry (by simp) parent hparent) hlisted⟩

/-- The checks before the order are those of well-formedness. -/
theorem wellFormed_iff :
    WellFormed entries ↔ checkNames [] entries = .ok ()
      ∧ checkParents (entries.map Entry.table) entries = .ok () := by
  rw [checkNames_eq_ok, checkParents_eq_ok]
  exact ⟨fun h => ⟨⟨h.names, h.tables, by simp⟩, h.parents⟩,
    fun h => ⟨h.1.1, h.1.2.1, h.2⟩⟩

/-- Entries that pass the checks make a plan if they are put in order. -/
theorem ofEntries_of_wellFormed (h : WellFormed entries) :
    ofEntries entries = match arrange entries with
      | .ok tables => .ok ⟨tables⟩
      | .error stuck => .error (.invalidPlan
        ("dependency cycle among: "
          ++ ", ".intercalate (stuck.map Entry.table))) := by
  obtain ⟨hnames, hparents⟩ := wellFormed_iff.1 h
  unfold ofEntries
  rw [hnames, hparents]
  rfl

theorem wellFormed_of_ofEntries {plan : Plan}
    (h : ofEntries entries = .ok plan) : WellFormed entries := by
  obtain ⟨_, hnames, h⟩ := bind_eq_ok.1 h
  obtain ⟨_, hparents, -⟩ := bind_eq_ok.1 h
  exact wellFormed_iff.2 ⟨hnames, hparents⟩

-- ============================================================= plans

/-- Entries make a plan exactly if they are well-formed and every table comes
to one without a parent when parents are followed. The plan then holds
these entries, every parent before the tables that derive from it. If
only the order is missing, the refusal names the tables that come to no
such table, in the order of the entries: those that are on a cycle or
lead into one. -/
theorem ofEntries_accepts_acyclic (entries : List Entry) :
    ((∃ plan, ofEntries entries = .ok plan) ↔
      WellFormed entries ∧ ∀ entry ∈ entries, EndsAtRoot entries entry.table)
    ∧ (∀ plan, ofEntries entries = .ok plan → plan.tables.Perm entries
      ∧ ∀ before entry after, plan.tables = before ++ entry :: after →
          ∀ parent ∈ entry.parent?, parent ∈ before.map Entry.table)
    ∧ (WellFormed entries →
      (¬ ∀ entry ∈ entries, EndsAtRoot entries entry.table) →
      ∃ stuck : List Entry, ofEntries entries = .error (.invalidPlan
          ("dependency cycle among: "
            ++ ", ".intercalate (stuck.map Entry.table)))
        ∧ stuck.Sublist entries
        ∧ ∀ entry ∈ entries, (entry ∈ stuck ↔ ¬ EndsAtRoot entries entry.table)
            ∧ (entry ∈ stuck ↔ LeadsIntoCycle entries entry.table)) := by
  refine ⟨⟨fun ⟨plan, hplan⟩ => ?_, fun ⟨h, hends⟩ => ?_⟩,
    fun plan hplan => ?_, fun h hnot => ?_⟩
  · have h := wellFormed_of_ofEntries hplan
    refine ⟨h, ?_⟩
    rcases arrange_cases h with ⟨tables, -, hends⟩ | ⟨stuck, hstuck, -⟩
    · exact hends
    · rw [ofEntries_of_wellFormed h, hstuck] at hplan
      cases hplan
  · rcases arrange_cases h with
      ⟨tables, htables, -⟩ | ⟨stuck, -, hne, hsub, hiff⟩
    · exact ⟨⟨tables⟩, by rw [ofEntries_of_wellFormed h, htables]⟩
    · obtain ⟨entry, hentry⟩ := List.exists_mem_of_ne_nil stuck hne
      have hmem : entry ∈ entries := hsub.subset hentry
      exact absurd (hends entry hmem) ((hiff entry hmem).1.1 hentry)
  · obtain ⟨hperm, -, hfirst⟩ := ofEntries_ok hplan
    refine ⟨hperm, fun before entry after htables parent hparent => ?_⟩
    rw [htables] at hfirst
    simpa using hfirst.parent_mem hparent
  · rcases arrange_cases h with
      ⟨tables, -, hends⟩ | ⟨stuck, hstuck, -, hsub, hiff⟩
    · exact absurd hends hnot
    · exact ⟨stuck, by rw [ofEntries_of_wellFormed h, hstuck], hsub, hiff⟩

/-- Documents that derive from themselves, shares that hang on them, and
comments that are listed before the tasks they derive from. -/
def hangingEntries : List Entry := [
  ⟨"shares", .parent "documents" "document_id"⟩,
  ⟨"comments", .parent "tasks" "task_id"⟩,
  ⟨"tasks", .ownerMembership "user_id"⟩,
  ⟨"documents", .parent "documents" "parent_id"⟩]

/-- The shares and the documents are refused, and nothing else is named. -/
theorem hangingEntries_refused :
    ofEntries hangingEntries
        = .error (.invalidPlan "dependency cycle among: shares, documents")
    ∧ WellFormed hangingEntries
    ∧ (¬ ∀ entry ∈ hangingEntries, EndsAtRoot hangingEntries entry.table)
    ∧ ∃ stuck : List Entry, ofEntries hangingEntries = .error (.invalidPlan
          ("dependency cycle among: "
            ++ ", ".intercalate (stuck.map Entry.table)))
        ∧ stuck.Sublist hangingEntries
        ∧ ∀ entry ∈ hangingEntries,
          (entry ∈ stuck ↔ ¬ EndsAtRoot hangingEntries entry.table)
            ∧ (entry ∈ stuck ↔ LeadsIntoCycle hangingEntries entry.table) := by
  have h : WellFormed hangingEntries := ⟨by decide, by decide, by decide⟩
  have hnot :
      ¬ ∀ entry ∈ hangingEntries, EndsAtRoot hangingEntries entry.table := by
    intro hends
    have hself : DerivesFrom hangingEntries "documents" "documents" :=
      ⟨⟨"documents", .parent "documents" "parent_id"⟩, by decide, rfl, rfl⟩
    exact not_leadsIntoCycle_of_endsAtRoot h
      (hends ⟨"documents", .parent "documents" "parent_id"⟩ (by decide))
      ⟨"documents", .refl, .single hself⟩
  exact ⟨rfl, h, hnot, (ofEntries_accepts_acyclic hangingEntries).2.2 h hnot⟩

end Tenancy.Backfill.Plan
