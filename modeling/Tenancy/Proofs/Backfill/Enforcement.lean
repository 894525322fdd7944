/-
What a successful backfill has enforced. Runs of any plans may have gone
over a store, with or without the record and cut short anywhere, and rows
may have arrived in between, with or without an organization (`Evolved`).
So a run may find most of its steps recorded, and skip them.

It is still true that a table has the column if that is recorded, and
that the column is enforced if that is recorded, under any fingerprint
(`Evolved.truthful`): a call that is due records such a step only once it
is done, no call of any run takes it back, and neither does a row that
arrives. Whether all rows have an organization is not taken from the
record. That is checked by every run, and nothing arrives while it runs
(`run_enforces`).
-/
import Tenancy.Proofs.Backfill.Duties
import Tenancy.Proofs.Backfill.Retry

namespace Tenancy.Backfill

open Program MemoryStore

variable {s s' : MemoryStore} {job : Job} {entries : List Entry}
  {name : String} {row : MemoryRow}

-- ============================================================== rows

/-- A row that arrives changes the rows of its table and nothing else. -/
theorem table?_insertRow {other : String} {t : MemoryTable}
    (ht : s.table? other = some t) :
    ∃ rows,
      (insertRow s name row).table? other = some { t with rows := rows } := by
  unfold insertRow
  cases hname : s.table? name with
  | none => exact ⟨t.rows, ht⟩
  | some u =>
    by_cases hother : name = other
    · subst hother
      cases ht.symm.trans hname
      exact ⟨_, table?_setTable _ _ _⟩
    · exact ⟨t.rows, (table?_setTable_of_ne s _ hother).trans ht⟩

theorem checkpoints_insertRow :
    (insertRow s name row).checkpoints = s.checkpoints := by
  unfold insertRow
  cases s.table? name <;> rfl

theorem Truthful.inserted {fingerprint : String} (h : Truthful s fingerprint) :
    Truthful (insertRow s name row) fingerprint := by
  constructor
  · intro other hmem
    rw [checkpoints_insertRow] at hmem
    obtain ⟨t, ht, hcolumn⟩ := h.column other hmem
    obtain ⟨rows, hrows⟩ := table?_insertRow ht
    exact ⟨_, hrows, hcolumn⟩
  · intro other hmem
    rw [checkpoints_insertRow] at hmem
    obtain ⟨t, ht, hcolumn, hnullable, hforeign⟩ := h.enforced other hmem
    obtain ⟨rows, hrows⟩ := table?_insertRow ht
    exact ⟨_, hrows, hcolumn, hnullable, hforeign⟩

-- =========================================================== histories

/-- What becomes of a store that starts without a record: runs of accepted
plans, each cut short somewhere or not, and rows that arrive. -/
inductive Evolved : MemoryStore → Prop
  | start {s : MemoryStore} (hrecord : s.checkpoints = []) : Evolved s
  | run {s : MemoryStore} (h : Evolved s) {entries : List Entry} {job : Job}
      (hplan : Plan.ofEntries entries = .ok job.plan) (calls : Nat) :
    Evolved (job.run.run.runFor answer calls s).2
  | insert {s : MemoryStore} (h : Evolved s) {name : String} {row : MemoryRow}
      (hadmits : Admits s name row) :
    Evolved (insertRow s name row)

/-- Whatever is recorded of the columns is so, for every plan at once. -/
theorem Evolved.truthful (h : Evolved s) (fingerprint : String) :
    Truthful s fingerprint := by
  have hall : ∀ fingerprint, Truthful s fingerprint := by
    induction h with
    | start hrecord =>
      exact fun _ => truthful_of_recorded (recorded_eq_nil hrecord)
    | @run s _ entries job hplan calls ih =>
      -- The run goes by one fingerprint and leaves the records of all intact.
      have hthroughout :
          Throughout answer (fun s' => ∀ fingerprint, Truthful s' fingerprint)
            job.run s :=
        (run_abides hplan (ih job.plan.fingerprint)).throughout
          (fun _ _ hs hduty fingerprint => (hs fingerprint).kept hduty) ih
      exact hthroughout calls
    | insert _ _ ih => exact fun fingerprint => (ih fingerprint).inserted
  exact hall fingerprint

/-- A run that succeeds, whatever it skipped, leaves every table of its plan
with the column, which is mandatory and a foreign key, and with an
organization in every row. -/
theorem run_enforces (h : Evolved s)
    (hplan : Plan.ofEntries entries = .ok job.plan)
    {report : Report} (hrun : Succeeds answer job.run s report s') :
    ∀ entry ∈ entries, ∃ t, s'.table? entry.table = some t
      ∧ t.hasColumn = true ∧ t.nullable = false ∧ t.foreignKey = true
      ∧ ∀ row ∈ t.rows, row.organization ≠ none := by
  obtain ⟨hperm, -, -⟩ := Plan.ofEntries_ok hplan
  have hfinished := finished_of_run (h.truthful job.plan.fingerprint) hrun
  intro entry hentry
  obtain ⟨⟨t, ht, hnone⟩, u, hu, hcolumn, hnullable, hforeign⟩ :=
    hfinished entry (hperm.mem_iff.2 hentry)
  cases ht.symm.trans hu
  refine ⟨t, ht, hcolumn, hnullable, hforeign,
    fun row hrow horganization => ?_⟩
  have hsome := missing_eq_zero.1 hnone row hrow
  rw [horganization] at hsome
  cases hsome

-- A run that is cut short once it has recorded the filling, a row that brings
-- its organization, and a run that goes by the record.

/-- A row of the organization 1. -/
def ownedRow : MemoryRow := ⟨.ofNat 12, some (.ofNat 1), []⟩

theorem docsCut_succeeds :
    ∃ report s',
      Succeeds answer docsJob.run (insertRow (docsCut 12) "docs" ownedRow)
        report s' := by
  have hadmits : Admits (docsCut 12) "docs" ownedRow :=
    ⟨_, docsCut_table?.2, nofun⟩
  have htable : TakesUpdates (insertRow (docsCut 12) "docs" ownedRow) "docs" :=
    takesUpdates_insertRow ⟨_, docsCut_table?.2, rfl⟩
  have hcomplete :
      ¬Incomplete (insertRow (docsCut 12) "docs" ownedRow) "docs" := by
    rw [incomplete_insertRow hadmits]
    rintro (hincomplete | hnull)
    · exact (missing_eq_zero_iff docsCut_table?.2).1 rfl hincomplete
    · cases hnull
  obtain ⟨-, hnodup, hfirst⟩ := Plan.ofEntries_ok docsPlan_ok
  refine (run_succeeds_iff hnodup hfirst rfl ?_ ?_).2 ?_
  · intro entry hentry
    rw [List.mem_singleton.1 hentry]
    exact htable
  · rw [organization?_insertRow]
    decide +kernel
  · intro entry hentry hstuck
    rw [List.mem_singleton.1 hentry] at hstuck
    exact hcomplete hstuck.2

theorem docsCut_enforced :
    ∃ report s',
      Succeeds answer docsJob.run (insertRow (docsCut 12) "docs" ownedRow)
        report s'
      ∧ ∃ t, s'.table? "docs" = some t
        ∧ t.hasColumn = true ∧ t.nullable = false ∧ t.foreignKey = true
        ∧ ∀ row ∈ t.rows, row.organization ≠ none := by
  have hevolved : Evolved (insertRow (docsCut 12) "docs" ownedRow) :=
    .insert (.run (.start rfl) docsPlan_ok 12) ⟨_, docsCut_table?.2, nofun⟩
  obtain ⟨report, s', hrun⟩ := docsCut_succeeds
  exact ⟨report, s', hrun,
    run_enforces hevolved docsPlan_ok hrun ⟨"docs", .defaultOnly⟩ (by simp)⟩

end Tenancy.Backfill
