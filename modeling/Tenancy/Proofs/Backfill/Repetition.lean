/-
Backfills that are run again. Behind a run that succeeded every planned
table is finished: no row is without an organization, and the column is
mandatory and a foreign key (`Finished`). It stays so, whatever further
runs, of any plans and cut short anywhere, and whatever rows arrive
(`Later`): no call takes it back, and the column, which is mandatory by
then, admits no row without an organization.

Every step of a run finds its work done on such a store, whether it is
recorded or not. One that is recorded is skipped and noted, and one that
is not looks and leaves the store as it is apart from the record
(`MemoryStore.bare`). So there is one lemma for each step, with the report
that it makes in either case (`Checkpoints.note`), and the run is put
together from them (`run_of_finished`).
-/
import Tenancy.Proofs.Backfill.Destination
import Tenancy.Proofs.Backfill.Enforcement
import Tenancy.Proofs.Backfill.Footprint

namespace Tenancy.Backfill

open Program MemoryStore

variable {c : Checkpoints} {s s' : MemoryStore} {organization : Uuid}
  {entry : Entry}
  {table name : String} {report : TableReport} {plan : Plan} {job : Job}

-- =========================================================== reports

/-- A report of no change counts no row and makes no constraint. -/
theorem isChange_eq_false :
    report.isChange = false ↔ report.derived = 0 ∧ report.defaulted = 0
      ∧ report.madeNotNull = false ∧ report.foreignKeyAdded = false := by
  unfold TableReport.isChange
  simp [and_assoc]

/-- The report, with a step noted that is skipped. -/
def Checkpoints.note (c : Checkpoints) (report : TableReport) (key : String) :
    TableReport :=
  if c.isDone key then report.skip key else report

/-- A step that was recorded is noted as skipped. -/
theorem note_of_done {key : String} (h : c.isDone key = true) :
    c.note report key = report.skip key :=
  if_pos h

/-- Any other step is not noted. -/
theorem note_of_not_done {key : String} (h : ¬c.isDone key = true) :
    c.note report key = report :=
  if_neg h

/-- To skip a step is no change. -/
theorem isChange_note (key : String) :
    (c.note report key).isChange = report.isChange := by
  unfold Checkpoints.note
  split <;> rfl

theorem table_note (key : String) :
    (c.note report key).table = report.table := by
  unfold Checkpoints.note
  split <;> rfl

/-- What is noted as skipped is what was recorded. -/
theorem skippedSteps_note (key : String) :
    (c.note report key).skippedSteps
      = report.skippedSteps ++ [key].filter c.isDone := by
  unfold Checkpoints.note
  by_cases hdone : c.isDone key = true
  · simp [hdone, TableReport.skip]
  · simp [hdone]

/-- The report of a table that is found finished. -/
def Checkpoints.idle (c : Checkpoints) (table : String) : TableReport :=
  c.note
    (c.note (c.note (.start table) (stepKey "add_column" table))
      (stepKey "derive" table))
    (stepKey "enforce" table)

theorem table_idle (table : String) : (c.idle table).table = table := by
  unfold Checkpoints.idle
  rw [table_note, table_note, table_note]
  rfl

/-- The report of a table that nothing was done to is one of no change. -/
theorem isChange_idle (table : String) : (c.idle table).isChange = false := by
  unfold Checkpoints.idle
  rw [isChange_note, isChange_note, isChange_note]
  rfl

/-- What is skipped of a finished table: those of its steps that are recorded.
The check is not among them. -/
theorem skippedSteps_idle (table : String) :
    (c.idle table).skippedSteps
      = [stepKey "add_column" table, stepKey "derive" table,
        stepKey "enforce" table].filter
          c.isDone := by
  unfold Checkpoints.idle
  rw [skippedSteps_note, skippedSteps_note, skippedSteps_note]
  show [] ++ _ ++ _ ++ _
    = ([stepKey "add_column" table] ++ [stepKey "derive" table]
      ++ [stepKey "enforce" table]).filter _
  rw [List.filter_append, List.filter_append, List.nil_append]

-- ============================================================== store

/-- A mark is part of the record alone. -/
theorem bare_marked (key : String) : (c.marked s key).bare = s.bare := by
  unfold Checkpoints.marked
  split
  · exact bare_record _ _
  · rfl

theorem bare_markedOnce (key : String) :
    (c.markedOnce s key).bare = s.bare := by
  unfold Checkpoints.markedOnce
  split
  · rfl
  · exact bare_marked key

/-- And so is what a verified table gets. -/
theorem bare_checked (table : String) : (c.checked s table).bare = s.bare :=
  (bare_markedOnce _).trans (bare_markedOnce _)

/-- Stores that differ in the record only have the same tables. -/
theorem tables_of_bare (h : s'.bare = s.bare) : s'.tables = s.tables := by
  show s'.bare.tables = s.bare.tables
  rw [h]

theorem table?_of_tables (h : s'.tables = s.tables) (name : String) :
    s'.table? name = s.table? name := by
  unfold table?
  rw [h]

/-- Stores that differ in their records have the same organizations. -/
theorem organization?_of_bare (h : s'.bare = s.bare) (slug : String) :
    s'.organization? slug = s.organization? slug := by
  show s'.bare.organization? slug = s.bare.organization? slug
  rw [h]

/-- Every planned table is complete, and its column is enforced. -/
def Finished (entries : List Entry) (s : MemoryStore) : Prop :=
  ∀ entry ∈ entries, s.Complete entry.table ∧ s.Enforced entry.table

/-- What is finished depends on the tables alone. -/
theorem Finished.of_tables {entries : List Entry} (h : Finished entries s)
    (htables : s'.tables = s.tables) : Finished entries s' := by
  intro entry hentry
  unfold Complete Enforced
  rw [table?_of_tables htables]
  exact h entry hentry

/-- A table with a mandatory column has the column. -/
theorem MemoryStore.Enforced.hasColumn (h : s.Enforced name) :
    s.HasColumn name := by
  obtain ⟨t, ht, hcolumn, -⟩ := h
  exact ⟨t, ht, hcolumn⟩

/-- Where the planned tables are finished, so are those of their parents. -/
theorem Finished.isSome_parent {entries : List Entry} (h : Finished entries s)
    (hfirst : Plan.ParentsFirst [] entries) :
    ∀ entry ∈ entries, ∀ parent ∈ entry.parent?,
      (s.table? parent).isSome = true := by
  intro entry hentry parent hparent
  have hplaced := (hfirst.mem hentry hparent).resolve_left List.not_mem_nil
  obtain ⟨e, he, rfl⟩ := List.mem_map.1 hplaced
  obtain ⟨t, ht, -⟩ := (h e he).1
  rw [ht]
  rfl

-- ============================================================== steps

/-- A complete table has nothing to fill, and nothing is counted. -/
theorem fillTable_eq_of_complete {choice : MemoryRow → Option Uuid}
    {t : MemoryTable} (h : missing t = 0) : fillTable choice t = (0, t) := by
  have hcount : (fillTable choice t).1 = 0 := by
    unfold fillTable
    split
    · rfl
    · rw [List.length_eq_zero_iff, List.filter_eq_nil_iff]
      intro row hrow
      simp [isFilled, missing_eq_zero.1 h row hrow]
  exact Prod.ext hcount (fillTable_of_complete h)

/-- A complete table has no row to fill, and none is counted. -/
theorem fillTwice_eq_of_complete {choice : MemoryRow → Option Uuid}
    {t : MemoryTable}
    (h : missing t = 0) : fillTwice choice organization t = (0, t) := by
  unfold fillTwice
  rw [fillTable_eq_of_complete h]
  exact fillTable_eq_of_complete h

/-- A column that is there is not added again. -/
theorem addColumn_again (h : s.HasColumn table) :
    Succeeds answer (addColumn table) s false s := by
  obtain ⟨t, ht, hcolumn⟩ := h
  refine succeeds_addColumn.2 ⟨t, ht, by rw [hcolumn]; rfl, ?_⟩
  unfold withColumn
  rw [if_pos hcolumn, setTable_self ht]

/-- No column is added where all tables have it. -/
theorem addColumns_again {entries : List Entry}
    (h : ∀ entry ∈ entries, s.HasColumn entry.table) :
    ∃ s', Succeeds answer (addColumns c entries) s
        (entries.map fun entry =>
          c.note (.start entry.table) (stepKey "add_column" entry.table), [])
        s'
      ∧ s'.bare = s.bare := by
  induction entries generalizing s with
  | nil => exact ⟨s, succeeds_pure.2 ⟨rfl, rfl⟩, rfl⟩
  | cons entry rest ih =>
    rw [List.forall_mem_cons] at h
    by_cases hdone : c.isDone (stepKey "add_column" entry.table) = true
    · obtain ⟨s', hrest, hbare⟩ := ih h.2
      refine ⟨s',
        (succeeds_if_pos hdone).2 (succeeds_bind.2 ⟨_, s', hrest, ?_⟩), hbare⟩
      rw [List.map_cons, note_of_done hdone]
      exact succeeds_pure.2 ⟨rfl, rfl⟩
    · have hmarked :
          (c.marked s (stepKey "add_column" entry.table)).bare = s.bare :=
        bare_marked _
      have hcolumns : ∀ other ∈ rest,
          (c.marked s (stepKey "add_column" entry.table)).HasColumn
            other.table := by
        intro other hother
        unfold HasColumn
        rw [table?_of_tables (tables_of_bare hmarked)]
        exact h.2 other hother
      obtain ⟨s', hrest, hbare⟩ := ih hcolumns
      refine ⟨s', ?_, hbare.trans hmarked⟩
      rw [List.map_cons, note_of_not_done hdone]
      exact addColumns_cons hdone (addColumn_again h.1) hrest

/-- Nothing is filled in a complete table. -/
theorem fill_again (hcomplete : s.Complete entry.table)
    (hparent : ∀ parent ∈ entry.parent?, (s.table? parent).isSome = true)
    (hidle : report.isChange = false) :
    Succeeds answer (fill c organization entry report) s
      (c.note report (stepKey "derive" entry.table)) s := by
  by_cases hdone : c.isDone (stepKey "derive" entry.table) = true
  · exact (succeeds_fill_of_done hdone).2 ⟨note_of_done hdone, rfl⟩
  · obtain ⟨t, ht, hnone⟩ := hcomplete
    obtain ⟨hderived, hdefaulted, -⟩ := isChange_eq_false.1 hidle
    refine (succeeds_fill hdone).2 ⟨t, ht, hparent, ?_, ?_⟩
    · rw [note_of_not_done hdone, fillTable_eq_of_complete hnone,
        fillTwice_eq_of_complete hnone]
      cases report
      cases hderived
      cases hdefaulted
      rfl
    · rw [fillTwice_eq_of_complete hnone, setTable_self ht]

/-- Nothing is enforced where the column is enforced. -/
theorem enforce_again (henforced : s.Enforced table)
    (hidle : report.isChange = false) :
    ∃ s',
      Succeeds answer (enforce c table report) s
        (c.note report (stepKey "enforce" table)) s'
      ∧ s'.bare = s.bare := by
  by_cases hdone : c.isDone (stepKey "enforce" table) = true
  · exact ⟨s, (succeeds_enforce_of_done hdone).2 ⟨note_of_done hdone, rfl⟩,
      rfl⟩
  · obtain ⟨t, ht, -, hnullable, hforeign⟩ := henforced
    obtain ⟨-, -, hmandatory, hkey⟩ := isChange_eq_false.1 hidle
    refine ⟨_, (succeeds_enforce ht hdone).2 ⟨?_, ?_, rfl⟩, ?_⟩
    · rw [hnullable]
      exact nofun
    · rw [note_of_not_done hdone, hnullable, hforeign]
      cases report
      cases hmandatory
      cases hkey
      rfl
    · have hsame :
          ({ t with nullable := false, foreignKey := true } : MemoryTable)
          = t := by
        cases t
        cases hnullable
        cases hforeign
        rfl
      rw [bare_marked, hsame, setTable_self ht]

/-- A finished table is gone through without a change, and what was recorded of
it is noted as skipped. -/
theorem backfillTable_again (c : Checkpoints) (organization : Uuid)
    (hcomplete : s.Complete entry.table) (henforced : s.Enforced entry.table)
    (hparent : ∀ parent ∈ entry.parent?, (s.table? parent).isSome = true)
    (hidle : report.isChange = false) :
    ∃ s', Succeeds answer (backfillTable c organization entry report) s
        (c.note (c.note report (stepKey "derive" entry.table))
          (stepKey "enforce" entry.table)) s'
      ∧ s'.bare = s.bare := by
  have hchecked : (c.checked s entry.table).bare = s.bare :=
    bare_checked entry.table
  have henforced' : (c.checked s entry.table).Enforced entry.table := by
    unfold Enforced
    rw [table?_checked]
    exact henforced
  obtain ⟨s', henforce, hbare⟩ :=
    enforce_again (c := c) henforced'
      ((isChange_note (stepKey "derive" entry.table)).trans hidle)
  refine ⟨s', ?_, hbare.trans hchecked⟩
  refine succeeds_bind.2 ⟨_, s, fill_again hcomplete hparent hidle, ?_⟩
  exact succeeds_bind.2 ⟨(), _, succeeds_verify.2 ⟨hcomplete, rfl⟩, henforce⟩

/-- Table after table is found finished, each of them for itself. -/
theorem backfillTables_again (c : Checkpoints) (organization : Uuid)
    {entries : List Entry}
    {started : Entry → TableReport} (hfinished : Finished entries s)
    (hparents : ∀ entry ∈ entries, ∀ parent ∈ entry.parent?,
      (s.table? parent).isSome = true)
    (hidle : ∀ entry, (started entry).isChange = false) :
    ∃ s',
      Succeeds answer
        (backfillTables c organization (entries.map fun e => (e, started e))) s
        (entries.map fun entry =>
          c.note (c.note (started entry) (stepKey "derive" entry.table))
          (stepKey "enforce" entry.table)) s'
      ∧ s'.bare = s.bare := by
  induction entries generalizing s with
  | nil => exact ⟨s, succeeds_pure.2 ⟨rfl, rfl⟩, rfl⟩
  | cons entry rest ih =>
    unfold Finished at hfinished
    rw [List.forall_mem_cons] at hfinished hparents
    obtain ⟨s₁, hfirst, hbare₁⟩ :=
      backfillTable_again c organization hfinished.1.1 hfinished.1.2
        hparents.1 (hidle entry)
    have htables := tables_of_bare hbare₁
    obtain ⟨s', hrest, hbare⟩ :=
      ih (Finished.of_tables hfinished.2 htables) fun e he p hp => by
      rw [table?_of_tables htables]
      exact hparents.2 e he p hp
    refine ⟨s', ?_, hbare.trans hbare₁⟩
    refine succeeds_bind.2 ⟨_, s₁, hfirst, ?_⟩
    exact succeeds_bind.2 ⟨_, s', hrest, succeeds_pure.2 ⟨rfl, rfl⟩⟩

-- ================================================================ run

/-- The record that a job goes by when it starts on a store. -/
def Job.goesBy (job : Job) (s : MemoryStore) : Checkpoints :=
  if job.useCheckpoints then
    ⟨true, job.plan.fingerprint, s.recorded job.plan.fingerprint⟩
  else ⟨false, job.plan.fingerprint, []⟩

/-- To prepare the record again changes at most the record. -/
theorem checkpoints_again (job : Job) (s : MemoryStore) :
    ∃ s',
      Succeeds answer job.checkpoints s (job.goesBy s) s'
        ∧ s'.bare = s.bare := by
  unfold Job.goesBy
  by_cases huse : job.useCheckpoints = true
  · rw [if_pos huse]
    exact ⟨_, succeeds_checkpoints.2 (.inl ⟨huse, rfl, rfl⟩), rfl⟩
  · rw [if_neg huse]
    exact ⟨s,
      succeeds_checkpoints.2 (.inr ⟨Bool.not_eq_true _ ▸ huse, rfl, rfl⟩), rfl⟩

/-- A run that finds its tables finished succeeds, changes nothing but the
record, and says so. -/
theorem run_of_finished (hfirst : Plan.ParentsFirst [] job.plan.tables)
    (hfinished : Finished job.plan.tables s)
    (hdefault : s.organization? job.defaultSlug = some organization) :
    ∃ s', Succeeds answer job.run s
        ⟨job.plan.fingerprint, [], organization,
          job.plan.tables.map fun entry => (job.goesBy s).idle entry.table⟩ s'
      ∧ s'.bare = s.bare := by
  obtain ⟨s₁, hcheckpoints, hbare₁⟩ := checkpoints_again job s
  have hfinished₁ : Finished job.plan.tables s₁ :=
    hfinished.of_tables (tables_of_bare hbare₁)
  obtain ⟨s₂, hcolumns, hbare₂⟩ :=
    addColumns_again (c := job.goesBy s) fun e he =>
    (hfinished₁ e he).2.hasColumn
  have hdefault₂ : s₂.organization? job.defaultSlug = some organization := by
    rw [organization?_of_bare (hbare₂.trans hbare₁), hdefault]
  have hbare₃ :=
    bare_markedOnce (c := job.goesBy s) (s := s₂) (stepKey "seed_default" none)
  have hfinished₃ :=
    hfinished₁.of_tables (tables_of_bare (hbare₃.trans hbare₂))
  have hidle : ∀ e : Entry,
      ((job.goesBy s).note (.start e.table)
        (stepKey "add_column" e.table)).isChange = false :=
    fun e => isChange_note _
  obtain ⟨s₄, htables, hbare₄⟩ :=
    backfillTables_again (job.goesBy s) organization hfinished₃
      (hfinished₃.isSome_parent hfirst) hidle
  have hwork : job.plan.tables.zip (job.plan.tables.map fun e =>
        (job.goesBy s).note (.start e.table) (stepKey "add_column" e.table))
      = job.plan.tables.map fun e =>
        (e, (job.goesBy s).note (.start e.table)
          (stepKey "add_column" e.table)) := by
    rw [← List.zip_map', List.map_id']
  rw [← hwork] at htables
  have hfingerprint : (job.goesBy s).fingerprint = job.plan.fingerprint := by
    unfold Job.goesBy
    split <;> rfl
  refine ⟨s₄, ?_, hbare₄.trans (hbare₃.trans (hbare₂.trans hbare₁))⟩
  refine succeeds_bind.2
    ⟨_, s₁, hcheckpoints, succeeds_bind.2 ⟨_, s₂, hcolumns, ?_⟩⟩
  refine succeeds_bind.2
    ⟨organization, _, succeeds_findDefault.2 ⟨hdefault₂, rfl⟩, ?_⟩
  refine succeeds_bind.2 ⟨_, s₄, htables, succeeds_pure.2 ⟨?_, rfl⟩⟩
  rw [hfingerprint]
  rfl

-- ============================================================ record

/-- No program takes back what is recorded, wherever it is cut short. -/
theorem recorded_runFor {α : Type} (p : Program storeInterface α) (calls : Nat)
    (s : MemoryStore) :
    ∀ r ∈ s.checkpoints, r ∈ (p.runFor answer calls s).2.checkpoints :=
  runFor_of_calls (R := fun s s' => ∀ r ∈ s.checkpoints, r ∈ s'.checkpoints)
    (fun _ _ => id)
    (fun _ _ _ h h' r hr => h' r (h r hr))
    (fun _ _ _ hr => mem_checkpoints_answer.2 (.inl hr)) p calls s

/-- What is recorded stays recorded. -/
theorem recorded_of_succeeds {α : Type} {p : StoreProgram α} {a : α}
    (h : Succeeds answer p s a s') :
    ∀ r ∈ s.checkpoints, r ∈ s'.checkpoints := by
  have hthroughout :
      Throughout answer (fun s' => ∀ r ∈ s.checkpoints, r ∈ s'.checkpoints)
        p s :=
    fun calls => recorded_runFor p.run calls s
  exact hthroughout.final h

/-- The run goes by the record, and by what is recorded. -/
structure Checkpoints.Reads (c : Checkpoints) (s : MemoryStore) : Prop where
  enabled : c.enabled = true
  recorded : ∀ key, c.isDone key = true → (c.fingerprint, key) ∈ s.checkpoints

/-- What was read from the record is still there later. -/
theorem Checkpoints.Reads.of_succeeds {α : Type} {p : StoreProgram α} {a : α}
    (h : c.Reads s) (hrun : Succeeds answer p s a s') : c.Reads s' :=
  ⟨h.enabled,
    fun key hdone => recorded_of_succeeds hrun _ (h.recorded key hdone)⟩

theorem Checkpoints.Reads.marked (h : c.Reads s) (key : String) :
    c.Reads (c.marked s key) :=
  h.of_succeeds (a := ()) (succeeds_mark.2 rfl)

/-- A step that is marked is recorded, or was. -/
theorem mem_marked (h : c.Reads s) (key : String) :
    (c.fingerprint, key) ∈ (c.marked s key).checkpoints := by
  unfold Checkpoints.marked
  rw [if_pos h.enabled]
  exact mem_record.2 (.inr rfl)

theorem mem_markedOnce (h : c.Reads s) (key : String) :
    (c.fingerprint, key) ∈ (c.markedOnce s key).checkpoints := by
  unfold Checkpoints.markedOnce
  split
  · rename_i hdone
    exact h.recorded key hdone
  · exact mem_marked h key

theorem recorded_markedOnce (key : String) :
    ∀ r ∈ s.checkpoints, r ∈ (c.markedOnce s key).checkpoints := by
  unfold Checkpoints.markedOnce
  split
  · exact fun _ => id
  · exact recorded_of_succeeds (a := ()) (succeeds_mark.2 rfl)

/-- Behind the columns, each is recorded, just now or before. -/
theorem recorded_of_addColumns {entries : List Entry}
    {result : List TableReport × List String}
    (hreads : c.Reads s)
    (h : Succeeds answer (addColumns c entries) s result s') :
    ∀ entry ∈ entries,
      (c.fingerprint, stepKey "add_column" entry.table) ∈ s'.checkpoints := by
  induction entries generalizing s result s' with
  | nil => exact nofun
  | cons entry rest ih =>
    rw [List.forall_mem_cons]
    by_cases hdone : c.isDone (stepKey "add_column" entry.table) = true
    · obtain ⟨found, s₁, hrest, h⟩ :=
        succeeds_bind.1 ((succeeds_if_pos hdone).1 h)
      obtain ⟨rfl, rfl⟩ := succeeds_pure.1 h
      exact ⟨recorded_of_succeeds hrest _ (hreads.recorded _ hdone),
        ih hreads hrest⟩
    · obtain ⟨isNew, s₁, hcolumn, h⟩ :=
        succeeds_bind.1 ((succeeds_if_neg hdone).1 h)
      obtain ⟨_, s₂, hmark, h⟩ := succeeds_bind.1 h
      cases succeeds_mark.1 hmark
      obtain ⟨found, s₃, hrest, h⟩ := succeeds_bind.1 h
      obtain ⟨rfl, rfl⟩ := succeeds_pure.1 h
      have hreads₁ := hreads.of_succeeds hcolumn
      exact ⟨recorded_of_succeeds hrest _ (mem_marked hreads₁ _),
        ih (hreads₁.marked _) hrest⟩

/-- Behind a table, its filling and its enforcement are. -/
theorem recorded_of_backfillTable {report' : TableReport} (hreads : c.Reads s)
    (h : Succeeds answer (backfillTable c organization entry report) s
      report' s') :
    (c.fingerprint, stepKey "derive" entry.table) ∈ s'.checkpoints
      ∧ (c.fingerprint, stepKey "enforce" entry.table) ∈ s'.checkpoints := by
  obtain ⟨report₁, s₁, hfill, h⟩ := succeeds_bind.1 h
  obtain ⟨_, s₂, hverify, henforce⟩ := succeeds_bind.1 h
  have hreads₁ := hreads.of_succeeds hfill
  have hreads₂ := hreads₁.of_succeeds hverify
  obtain ⟨⟨t, ht, -⟩, rfl⟩ := succeeds_verify.1 hverify
  constructor
  · have hfilled := mem_markedOnce hreads₁ (stepKey "derive" entry.table)
    exact recorded_of_succeeds henforce _ (recorded_markedOnce _ _ hfilled)
  · by_cases hdone : c.isDone (stepKey "enforce" entry.table) = true
    · exact (hreads₂.of_succeeds henforce).recorded _ hdone
    · have ht₂ := (table?_checked c s₁ entry.table).trans ht
      obtain ⟨-, -, rfl⟩ := (succeeds_enforce ht₂ hdone).1 henforce
      exact mem_marked (s := MemoryStore.setTable _ entry.table _)
        ⟨hreads₂.enabled, hreads₂.recorded⟩ _

/-- Behind a pass by the record, every table is recorded as filled and as
enforced. -/
theorem recorded_of_backfillTables {work : List (Entry × TableReport)}
    {reports : List TableReport}
    (hreads : c.Reads s)
    (h : Succeeds answer (backfillTables c organization work) s reports s') :
    ∀ w ∈ work, (c.fingerprint, stepKey "derive" w.1.table) ∈ s'.checkpoints
      ∧ (c.fingerprint, stepKey "enforce" w.1.table) ∈ s'.checkpoints := by
  induction work generalizing s reports s' with
  | nil => exact nofun
  | cons w rest ih =>
    obtain ⟨report', s₁, hfirst, h⟩ := succeeds_bind.1 h
    obtain ⟨reports', s₂, hrest, h⟩ := succeeds_bind.1 h
    obtain ⟨-, rfl⟩ := succeeds_pure.1 h
    rw [List.forall_mem_cons]
    obtain ⟨hfilled, henforced⟩ := recorded_of_backfillTable hreads hfirst
    have hstays := recorded_of_succeeds hrest
    exact ⟨⟨hstays _ hfilled, hstays _ henforced⟩,
      ih (hreads.of_succeeds hfirst) hrest⟩

/-- Behind a run that goes by the record, all of a table's steps are recorded
that a run may skip. -/
theorem recorded_of_run {result : Report} (huse : job.useCheckpoints = true)
    (h : Succeeds answer job.run s result s') :
    ∀ entry ∈ job.plan.tables, ∀ step ∈ ["add_column", "derive", "enforce"],
      (job.plan.fingerprint, stepKey step entry.table) ∈ s'.checkpoints := by
  obtain ⟨c, s₁, hcheckpoints, h⟩ := succeeds_bind.1 h
  obtain ⟨added, s₂, hcolumns, h⟩ := succeeds_bind.1 h
  obtain ⟨organization, s₃, hdefault, h⟩ := succeeds_bind.1 h
  obtain ⟨reports, s₄, htables, h⟩ := succeeds_bind.1 h
  obtain ⟨-, rfl⟩ := succeeds_pure.1 h
  have hreads : c.Reads s₁ ∧ c.fingerprint = job.plan.fingerprint := by
    rcases succeeds_checkpoints.1 hcheckpoints with ⟨-, rfl, rfl⟩ | ⟨hnot, -⟩
    · refine ⟨⟨rfl, fun key hdone => ?_⟩, rfl⟩
      rw [Checkpoints.isDone, Bool.true_and, List.contains_iff_mem] at hdone
      exact mem_recorded.1 hdone
    · rw [huse] at hnot
      cases hnot
  obtain ⟨hreads, hfingerprint⟩ := hreads
  have hreads₃ := (hreads.of_succeeds hcolumns).of_succeeds hdefault
  have hentries := (zip_reports (contents_of_addColumns hcolumns).2).1
  have hworked := recorded_of_backfillTables hreads₃ htables
  rw [← hfingerprint]
  intro entry hentry step hstep
  have hcolumn := recorded_of_addColumns hreads hcolumns entry hentry
  have hcolumn :=
    recorded_of_succeeds htables _ (recorded_of_succeeds hdefault _ hcolumn)
  rw [← hentries] at hentry
  obtain ⟨w, hw, rfl⟩ := List.mem_map.1 hentry
  obtain ⟨hfilled, henforced⟩ := hworked w hw
  simp only [List.mem_cons, List.not_mem_nil, or_false] at hstep
  rcases hstep with rfl | rfl | rfl
  · exact hcolumn
  · exact hfilled
  · exact henforced

-- ============================================================== later

/-- What may become of a store behind a run: further runs, of any jobs and each
cut short somewhere or not; rows that arrive; and whatever else changes
neither tables nor the record. -/
inductive Later (s : MemoryStore) : MemoryStore → Prop
  | now : Later s s
  | run {s' : MemoryStore} (h : Later s s') (job : Job) (calls : Nat) :
    Later s (job.run.run.runFor answer calls s').2
  | insert {s' : MemoryStore} (h : Later s s') {name : String}
      {row : MemoryRow}
      (hadmits : Admits s' name row) : Later s (insertRow s' name row)
  | other {s' s'' : MemoryStore} (h : Later s s')
      (htables : s''.tables = s'.tables)
      (hrecord : s''.checkpoints = s'.checkpoints) : Later s s''

/-- A mandatory column admits no row without an organization. -/
theorem Finished.inserted {entries : List Entry} {row : MemoryRow}
    (h : Finished entries s)
    (hadmits : Admits s name row) :
    Finished entries (insertRow s name row) := by
  intro entry hentry
  obtain ⟨⟨t, ht, hnone⟩, u, hu, hcolumn, hnullable, hforeign⟩ :=
    h entry hentry
  cases ht.symm.trans hu
  obtain ⟨rows, hrows⟩ : ∃ rows, (insertRow s name row).table? entry.table
      = some { t with rows := rows } := table?_insertRow ht
  refine ⟨⟨_, hrows, ?_⟩, _, hrows, hcolumn, hnullable, hforeign⟩
  rw [missing_eq_zero_iff hrows]
  rw [missing_eq_zero_iff ht] at hnone
  by_cases hname : name = entry.table
  · subst hname
    rw [incomplete_insertRow hadmits]
    obtain ⟨v, hv, howned⟩ := hadmits
    cases ht.symm.trans hv
    exact fun hincomplete => hincomplete.elim hnone fun hnull =>
      howned hnull ⟨hcolumn, hnullable⟩
  · rw [incomplete_insertRow_of_ne hname]
    exact hnone

/-- What is finished stays finished while rows and organizations come. -/
theorem Finished.later {entries : List Entry} (h : Finished entries s)
    (hlater : Later s s') : Finished entries s' := by
  induction hlater with
  | now => exact h
  | @run s' _ job calls ih =>
    have htightens := tightensTo_runFor job.run.run calls s'
    exact fun e he =>
      ⟨(ih e he).1.tightens htightens, (ih e he).2.tightens htightens⟩
  | insert _ hadmits ih => exact ih.inserted hadmits
  | other _ htables _ ih => exact ih.of_tables htables

/-- And what is recorded stays recorded. -/
theorem Later.recorded (h : Later s s') :
    ∀ r ∈ s.checkpoints, r ∈ s'.checkpoints := by
  induction h with
  | now => exact fun _ => id
  | run _ job calls ih =>
    exact fun r hr => recorded_runFor job.run.run calls _ r (ih r hr)
  | insert _ _ ih =>
    rw [checkpoints_insertRow]
    exact ih
  | other _ _ hrecord ih =>
    rw [hrecord]
    exact ih

/-- Behind a successful run of a plan, whatever else has happened since, the
next run of the plan succeeds, with any organization that exists for its
default. It leaves the tables as they are and reports of every table that
nothing was done; and of what it skipped, that it is nothing if it ignores
the record, and all that may be skipped if both runs went by it. -/
theorem later_run_changes_nothing {start s₁ : MemoryStore}
    {entries : List Entry} {first : Report}
    (later : Job) (hplan : Plan.ofEntries entries = .ok job.plan)
    (hrecord : start.recorded job.plan.fingerprint = [])
    (hrun : Succeeds answer job.run start first s) (hlater : Later s s₁)
    (hsame : later.plan = job.plan)
    (hdefault : s₁.organization? later.defaultSlug = some organization) :
    ∃ result s₂, Succeeds answer later.run s₁ result s₂
      ∧ s₂.tables = s₁.tables
      ∧ result.defaultOrganization = organization
      ∧ result.columnsAdded = []
      ∧ result.tables.map TableReport.table = job.plan.tables.map Entry.table
      ∧ (∀ r ∈ result.tables, r.derived = 0 ∧ r.defaulted = 0
          ∧ r.madeNotNull = false ∧ r.foreignKeyAdded = false)
      ∧ result.changedAnything = false
      ∧ (later.useCheckpoints = false → ∀ r ∈ result.tables,
        r.skippedSteps = [])
      ∧ (job.useCheckpoints = true → later.useCheckpoints = true →
        ∀ r ∈ result.tables,
          r.skippedSteps
            = [stepKey "add_column" r.table, stepKey "derive" r.table,
              stepKey "enforce" r.table]) := by
  obtain ⟨-, -, hfirst⟩ := Plan.ofEntries_ok hplan
  have hfinished : Finished job.plan.tables s₁ :=
    Finished.later (finished_of_run (truthful_of_recorded hrecord) hrun) hlater
  rw [← hsame] at hfirst hfinished
  obtain ⟨s₂, hagain, hbare⟩ := run_of_finished hfirst hfinished hdefault
  have hidle :
      ∀ r ∈ later.plan.tables.map fun entry =>
      (later.goesBy s₁).idle entry.table,
      r.isChange = false := by
    intro r hr
    obtain ⟨entry, -, rfl⟩ := List.mem_map.1 hr
    exact isChange_idle entry.table
  refine ⟨_, s₂, hagain, tables_of_bare hbare, rfl, rfl, ?_, ?_, ?_, ?_, ?_⟩
  · rw [List.map_map, ← hsame]
    exact List.map_congr_left fun entry _ => table_idle entry.table
  · exact fun r hr => isChange_eq_false.1 (hidle r hr)
  · show (false || List.any _ TableReport.isChange) = false
    rw [Bool.false_or, List.any_eq_false]
    exact fun r hr => Bool.not_eq_true _ ▸ hidle r hr
  · intro hignores r hr
    obtain ⟨entry, -, rfl⟩ := List.mem_map.1 hr
    rw [skippedSteps_idle, List.filter_eq_nil_iff]
    intro key _
    unfold Job.goesBy
    rw [hignores]
    exact nofun
  · intro huse huses r hr
    obtain ⟨entry, hentry, rfl⟩ := List.mem_map.1 hr
    rw [hsame] at hentry
    have hrecorded := recorded_of_run huse hrun entry hentry
    have hdone : ∀ step ∈ ["add_column", "derive", "enforce"],
        (later.goesBy s₁).isDone (stepKey step entry.table) = true := by
      intro step hstep
      unfold Job.goesBy
      rw [if_pos huses, hsame, Checkpoints.isDone, Bool.true_and,
        List.contains_iff_mem, mem_recorded]
      exact hlater.recorded _ (hrecorded step hstep)
    rw [skippedSteps_idle, table_idle, List.filter_eq_self]
    intro key hkey
    have hkeys : key ∈ ["add_column", "derive", "enforce"].map
        (stepKey · entry.table) := hkey
    obtain ⟨step, hstep, rfl⟩ := List.mem_map.1 hkeys
    exact hdone step hstep

-- A second default organization is made behind the run, and a row of the first
-- arrives in the table.

/-- A finished run is repeated, under another default and with a row that has
come since: it skips all its steps and changes nothing. -/
theorem docsJob_run_again :
    ∃ first s result s₂, Succeeds answer docsJob.run docsStore first s
      ∧ Succeeds answer (Job.mk docsJob.plan "acme" true).run
          (insertRow (s.addOrganization "acme" (.ofNat 2)) "docs" ownedRow)
            result s₂
      ∧ result.changedAnything = false
      ∧ ∀ r ∈ result.tables, r.skippedSteps
          = [stepKey "add_column" r.table, stepKey "derive" r.table,
            stepKey "enforce" r.table] := by
  obtain ⟨first, s, hrun⟩ :
      ∃ first s, Succeeds answer docsJob.run docsStore first s :=
    succeeds_of_isOk (by decide +kernel)
  have hfinished : Finished docsJob.plan.tables s :=
    finished_of_run (truthful_of_recorded (recorded_eq_nil rfl)) hrun
  obtain ⟨⟨t, ht, -⟩, -⟩ :=
    hfinished ⟨"docs", .defaultOnly⟩ (List.mem_singleton.2 rfl)
  have hadmits :
      Admits (s.addOrganization "acme" (.ofNat 2)) "docs" ownedRow :=
    ⟨t, ht, fun hnull => nomatch hnull⟩
  have hknown : Later s (s.addOrganization "acme" (.ofNat 2)) :=
    .other .now rfl rfl
  have hdefault :
      (insertRow (s.addOrganization "acme" (.ofNat 2)) "docs"
        ownedRow).organization?
      "acme" = some (.ofNat 2) := by
    rw [organization?_insertRow]
    rfl
  obtain ⟨result, s₂, hagain, -, -, -, -, -, hnothing, -, hskipped⟩ :=
    later_run_changes_nothing ⟨docsJob.plan, "acme", true⟩ docsPlan_ok
      (recorded_eq_nil rfl) hrun
      (hknown.insert hadmits) rfl hdefault
  exact ⟨first, s, result, s₂, hrun, hagain, hnothing, hskipped rfl rfl⟩

end Tenancy.Backfill
