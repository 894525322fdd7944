/-
Backfills that are tried again. A run may stop behind any of its calls,
whether the process ends there or the next call fails; rows may arrive
before the next run, and whatever stopped the last one may be mended
(`History`). Since no run leaves a table stuck by itself, tables become
stuck in one way: a row without an organization arrives while the
filling of its table is recorded and the column is not mandatory yet,
that is, between the check of a run that was cut short and its
enforcement.

The check of every later run finds that row, and nothing ever fills it.
So a retry completes if and only if no such row arrived
(`retry_completes_iff`).
-/
import Tenancy.Proofs.Backfill.Interruption
import Tenancy.Proofs.Uuid

namespace Tenancy.Backfill

open Program MemoryStore

variable {fingerprint name : String} {s : MemoryStore} {job : Job}

-- ========================================================== histories

/-- A new row arrives in a table that exists. -/
def insertRow (s : MemoryStore) (name : String) (row : MemoryRow) :
    MemoryStore :=
  match s.table? name with
  | some t => s.setTable name { t with rows := t.rows ++ [row] }
  | none => s

/-- A row may arrive: the column is not mandatory yet, or the row has an
organization. -/
def Admits (s : MemoryStore) (name : String) (row : MemoryRow) : Prop :=
  ∃ t, s.table? name = some t
    ∧ (row.organization = none → ¬(t.hasColumn = true ∧ t.nullable = false))

/-- What becomes of a store that starts without a record: runs of the plan that
go by the record, each cut short somewhere or not; rows that arrive; and
mending, which is whatever changes neither rows nor the record. The tables
that are collected got a row without an organization while their filling
was recorded. -/
inductive History (plan : Plan) : (late : List String) → MemoryStore → Prop
  | start {s : MemoryStore} (hrecord : s.checkpoints = []) : History plan [] s
  | run {late : List String} {s : MemoryStore} (h : History plan late s)
      {job : Job}
      (hjob : job.plan = plan) (huse : job.useCheckpoints = true)
      (calls : Nat) : History plan late (job.run.run.runFor answer calls s).2
  | insert {late : List String} {s : MemoryStore} (h : History plan late s)
      {name : String}
      {row : MemoryRow} (hadmits : Admits s name row)
      (hearly : row.organization = none → ¬Recorded plan.fingerprint s name) :
    History plan late (insertRow s name row)
  | insertLate {late : List String} {s : MemoryStore} (h : History plan late s)
      {name : String}
      {row : MemoryRow} (hadmits : Admits s name row)
      (hnull : row.organization = none)
      (hlate : Recorded plan.fingerprint s name) :
    History plan (name :: late) (insertRow s name row)
  | mend {late : List String} {s s' : MemoryStore} (h : History plan late s)
      (hrows : ∀ name, s'.rowsOf name = s.rowsOf name)
      (hrecord : s'.checkpoints = s.checkpoints) : History plan late s'

/-- What becomes of a store that starts without a record if nothing is mended:
runs of the plan that go by the record, each cut short somewhere or not, and
rows that arrive. -/
inductive Reached (plan : Plan) : MemoryStore → Prop
  | start {s : MemoryStore} (hrecord : s.checkpoints = []) : Reached plan s
  | run {s : MemoryStore} (h : Reached plan s) {job : Job}
      (hjob : job.plan = plan) (huse : job.useCheckpoints = true)
      (calls : Nat) :
    Reached plan (job.run.run.runFor answer calls s).2
  | insert {s : MemoryStore} (h : Reached plan s) {name : String}
      {row : MemoryRow} (hadmits : Admits s name row) :
    Reached plan (insertRow s name row)

/-- Every row that arrives is late, or is not: what is said of histories is
said of what is reached without mending. -/
theorem Reached.history {plan : Plan} (h : Reached plan s) :
    ∃ late, History plan late s := by
  induction h with
  | start hrecord => exact ⟨[], .start hrecord⟩
  | run _ hjob huse calls ih =>
    obtain ⟨late, hhistory⟩ := ih
    exact ⟨late, hhistory.run hjob huse calls⟩
  | @insert s _ name row hadmits ih =>
    obtain ⟨late, hhistory⟩ := ih
    by_cases hlate : Recorded plan.fingerprint s name
    · by_cases hnull : row.organization = none
      · exact ⟨name :: late, hhistory.insertLate hadmits hnull hlate⟩
      · exact ⟨late, hhistory.insert hadmits fun h => absurd h hnull⟩
    · exact ⟨late, hhistory.insert hadmits fun _ => hlate⟩

/-- A row that comes in records nothing. -/
theorem recorded_insertRow {row : MemoryRow} {other : String} :
    Recorded fingerprint (insertRow s name row) other
      ↔ Recorded fingerprint s other := by
  unfold insertRow
  cases s.table? name <;> exact .rfl

/-- A table becomes incomplete by a row without an organization. -/
theorem incomplete_insertRow {row : MemoryRow} (hadmits : Admits s name row) :
    Incomplete (insertRow s name row) name
      ↔ Incomplete s name ∨ row.organization = none := by
  obtain ⟨t, ht, -⟩ := hadmits
  unfold Incomplete insertRow
  rw [ht, rowsOf_setTable, rowsOf_eq_rows ht]
  simp only [List.mem_append, List.mem_singleton, or_and_right, exists_or,
    exists_eq_left]

/-- And by a row of its own only. -/
theorem incomplete_insertRow_of_ne {row : MemoryRow} {other : String}
    (hother : name ≠ other) :
    Incomplete (insertRow s name row) other ↔ Incomplete s other := by
  unfold insertRow
  cases s.table? name with
  | none => exact .rfl
  | some t => exact incomplete_eq (rowsOf_setTable_of_ne s _ hother)

/-- It takes updates as before. -/
theorem takesUpdates_insertRow {row : MemoryRow} {other : String}
    (h : TakesUpdates s other) :
    TakesUpdates (insertRow s name row) other := by
  obtain ⟨t, ht, haccepts⟩ := h
  unfold insertRow
  cases hname : s.table? name with
  | none => exact ⟨t, ht, haccepts⟩
  | some u =>
    by_cases hother : name = other
    · subst hother
      cases ht.symm.trans hname
      exact ⟨_, table?_setTable _ _ _, haccepts⟩
    · exact ⟨t, (table?_setTable_of_ne s _ hother).trans ht, haccepts⟩

/-- No organization comes or goes with a row. -/
theorem organization?_insertRow {row : MemoryRow} {slug : String} :
    (insertRow s name row).organization? slug = s.organization? slug := by
  unfold insertRow
  cases s.table? name <;> rfl

/-- The collected tables are those that are stuck. -/
theorem History.mem_late {plan : Plan} {late : List String}
    (h : History plan late s)
    (hnodup : (plan.tables.map Entry.table).Nodup) (name : String) :
    name ∈ late ↔ Stuck plan.fingerprint s name := by
  induction h with
  | start hrecord =>
    unfold Stuck Recorded
    simp [hrecord]
  | run _ hjob huse calls ih =>
    subst hjob
    exact ih.trans (throughout_run hnodup huse calls name).symm
  | @insert late s _ table row hadmits hearly ih =>
    rw [ih]
    unfold Stuck
    rw [recorded_insertRow]
    by_cases hname : table = name
    · subst hname
      rw [incomplete_insertRow hadmits]
      refine and_congr_right fun hrecorded => ⟨.inl, fun hincomplete => ?_⟩
      exact hincomplete.resolve_right fun hnull => hearly hnull hrecorded
    · rw [incomplete_insertRow_of_ne hname]
  | @insertLate late s _ table row hadmits hnull hlate ih =>
    rw [List.mem_cons, ih]
    unfold Stuck
    rw [recorded_insertRow]
    by_cases hname : table = name
    · subst hname
      rw [incomplete_insertRow hadmits]
      exact ⟨fun _ => ⟨hlate, .inr hnull⟩, fun _ => .inl rfl⟩
    · rw [incomplete_insertRow_of_ne hname]
      exact ⟨fun h => h.resolve_left fun hsame => hname hsame.symm, .inr⟩
  | mend _ hrows hrecord ih =>
    rw [ih]
    unfold Stuck Recorded
    rw [incomplete_eq (hrows name), hrecord]

/-- Whatever cuts and repairs a plan's runs went through: once its tables are
there and take updates and the default organization is there, a run
completes if and only if no row without an organization arrived at a
planned table behind the record of its filling. -/
theorem retry_completes_iff {entries : List Entry} {late : List String}
    (hplan : Plan.ofEntries entries = .ok job.plan)
    (huse : job.useCheckpoints = true)
    (hhistory : History job.plan late s)
    (htables : ∀ entry ∈ entries, TakesUpdates s entry.table)
    (hdefault : (s.organization? job.defaultSlug).isSome = true) :
    (∃ report s', Succeeds answer job.run s report s')
      ↔ ∀ entry ∈ entries, entry.table ∉ late := by
  obtain ⟨hperm, hnodup, hfirst⟩ := Plan.ofEntries_ok hplan
  rw [run_succeeds_iff hnodup hfirst huse
    (fun e he => htables e (hperm.mem_iff.1 he)) hdefault]
  simp only [hhistory.mem_late hnodup]
  exact ⟨fun h e he => h e (hperm.mem_iff.2 he),
    fun h e he => h e (hperm.mem_iff.1 he)⟩

-- A table of one row, and a run that stops once it has recorded the check.

/-- A job for one table that is left to the default. -/
def docsJob : Job where
  plan := ⟨[⟨"docs", .defaultOnly⟩]⟩
  defaultSlug := "default"
  useCheckpoints := true

/-- A store with one row of it. -/
def docsStore : MemoryStore where
  tables := [("docs", .ofRows [⟨.ofNat 10, none, []⟩])]
  organizations := [("default", .ofNat 1)]
  memberships := []
  checkpoints := []
  hasCheckpoints := false

/-- The store behind a cut. -/
def docsCut (calls : Nat) : MemoryStore :=
  (docsJob.run.run.runFor answer calls docsStore).2

/-- The row of the table, once it is filled. -/
def filledRow : MemoryRow := ⟨.ofNat 10, some (.ofNat 1), []⟩

/-- A row without an organization. -/
def strayRow : MemoryRow := ⟨.ofNat 11, none, []⟩

/-- The plan is accepted. -/
theorem docsPlan_ok :
    Plan.ofEntries [⟨"docs", .defaultOnly⟩] = .ok docsJob.plan := by
  rfl

/-- A run that is cut is a history. -/
theorem docsCut_history (calls : Nat) :
    History docsJob.plan [] (docsCut calls) :=
  .run (.start rfl) rfl rfl calls

/-- Behind either cut the row is filled, and the column may still be null. -/
theorem docsCut_table? :
    (docsCut 9).table? "docs" = some ⟨true, true, false, false, [filledRow]⟩
      ∧ (docsCut 12).table? "docs"
        = some ⟨true, true, false, false, [filledRow]⟩ := by
  decide +kernel

/-- Three calls later that is recorded. -/
theorem docsCut_recorded :
    ¬Recorded docsJob.plan.fingerprint (docsCut 9) "docs"
      ∧ Recorded docsJob.plan.fingerprint (docsCut 12) "docs" := by
  unfold Recorded
  decide +kernel

/-- A row that arrives before the filling is recorded is filled by the next
run. -/
theorem early_row_completes :
    ∃ report s',
      Succeeds answer docsJob.run (insertRow (docsCut 9) "docs" strayRow)
        report s' := by
  have hhistory :
      History docsJob.plan [] (insertRow (docsCut 9) "docs" strayRow) :=
    .insert (docsCut_history 9) ⟨_, docsCut_table?.1, nofun⟩ fun _ =>
      docsCut_recorded.1
  have htable : TakesUpdates (insertRow (docsCut 9) "docs" strayRow) "docs" :=
    takesUpdates_insertRow ⟨_, docsCut_table?.1, rfl⟩
  refine (retry_completes_iff docsPlan_ok rfl hhistory ?_ ?_).2 fun _ _ =>
    nofun
  · intro entry hentry
    rw [List.mem_singleton.1 hentry]
    exact htable
  · rw [organization?_insertRow]
    decide +kernel

/-- A row that arrives behind that is filled by no run, though nothing but a
cut and the row itself came before. -/
theorem late_row_stops_retry :
    ¬∀ (entries : List Entry) (job : Job) (s : MemoryStore),
      Plan.ofEntries entries = .ok job.plan → job.useCheckpoints = true →
        Reached job.plan s →
        (∀ entry ∈ entries, TakesUpdates s entry.table) →
        (s.organization? job.defaultSlug).isSome = true →
        ∃ report s', Succeeds answer job.run s report s' := by
  intro h
  have hadmits : Admits (docsCut 12) "docs" strayRow :=
    ⟨_, docsCut_table?.2, nofun⟩
  have hcut : Reached docsJob.plan (docsCut 12) := .run (.start rfl) rfl rfl 12
  have hreached :
      Reached docsJob.plan (insertRow (docsCut 12) "docs" strayRow) :=
    hcut.insert hadmits
  have htables : ∀ entry ∈ docsJob.plan.tables,
      TakesUpdates (insertRow (docsCut 12) "docs" strayRow) entry.table := by
    intro entry hentry
    rw [List.mem_singleton.1 hentry]
    exact takesUpdates_insertRow ⟨_, docsCut_table?.2, rfl⟩
  have hdefault :
      ((insertRow (docsCut 12) "docs" strayRow).organization?
        "default").isSome = true := by
    rw [organization?_insertRow]
    decide +kernel
  obtain ⟨-, hnodup, hfirst⟩ := Plan.ofEntries_ok docsPlan_ok
  have hrun := h _ docsJob _ docsPlan_ok rfl hreached htables hdefault
  have hstuck : Stuck docsJob.plan.fingerprint
      (insertRow (docsCut 12) "docs" strayRow) "docs" :=
    ⟨recorded_insertRow.2 docsCut_recorded.2,
      (incomplete_insertRow hadmits).2 (.inr rfl)⟩
  exact (run_succeeds_iff hnodup hfirst rfl htables hdefault).1 hrun
    ⟨"docs", .defaultOnly⟩ (List.mem_singleton.2 rfl) hstuck

end Tenancy.Backfill
