/-
What the parts of a run do to the contents of a store: its rows, which of
its tables refuse updates, and what it knows of organizations. Columns,
foreign keys and recorded steps are not contents.

Adding the columns leaves the contents alone (`contents_of_addColumns`).
The pass over one table fills its rows and changes no other contents
(`of_backfillTable`), and it goes through once that leaves no row without
an organization (`backfillTable_total`).
-/
import Mathlib.Logic.Function.Basic
import Tenancy.Proofs.Backfill.Steps

namespace Tenancy.Backfill

open Program MemoryStore

namespace MemoryStore

variable {store store' : MemoryStore} {name : String} {t u : MemoryTable}

/-- The tables' rows, with whether a table refuses updates, and the facts
about organizations. -/
structure Contents where
  table? : String → Option (Bool × List MemoryRow)
  organizations : List (String × Uuid)
  memberships : List (Uuid × Uuid)

/-- What calls other than those on checkpoints can see of a store. -/
def contents (store : MemoryStore) : Contents where
  table? name := (store.table? name).map fun t => (t.rejectsUpdates, t.rows)
  organizations := store.organizations
  memberships := store.memberships

/-- Putting a table changes that part of the contents alone. -/
theorem contents_setTable (store : MemoryStore) (name : String)
    (t : MemoryTable) :
    (store.setTable name t).contents
      = { store.contents with
          table? :=
            Function.update store.contents.table? name
              (some (t.rejectsUpdates, t.rows)) } := by
  have htable :
      (fun other =>
        ((store.setTable name t).table? other).map fun u =>
          (u.rejectsUpdates, u.rows))
      = Function.update store.contents.table? name
        (some (t.rejectsUpdates, t.rows)) := by
    funext other
    by_cases hother : other = name
    · subst hother
      rw [table?_setTable, Function.update_self]
      rfl
    · rw [table?_setTable_of_ne _ _ (Ne.symm hother),
        Function.update_of_ne hother]
      rfl
  show Contents.mk _ store.organizations store.memberships = _
  rw [htable]
  rfl

/-- A table whose columns change keeps the contents. -/
theorem contents_setTable_of_same (ht : store.table? name = some t)
    (hrejects : u.rejectsUpdates = t.rejectsUpdates)
    (hrows : u.rows = t.rows) :
    (store.setTable name u).contents = store.contents := by
  have hself :
      store.contents.table? name = some (t.rejectsUpdates, t.rows) := by
    show (store.table? name).map _ = _
    rw [ht]
    rfl
  rw [contents_setTable, hrejects, hrows, ← hself, Function.update_eq_self]

/-- A checkpoint is not part of the contents. -/
theorem contents_record (fingerprint key : String) :
    (store.record fingerprint key).contents = store.contents := by
  show Contents.mk
      (fun name => ((store.record fingerprint key).table? name).map _) _ _ = _
  rw [record_organizations, record_memberships]
  simp only [record_table?]
  rfl

-- A store of the same contents has the same rows, in the same tables.

/-- Alike contents have the same rows in every table. -/
theorem rowsOf_eq (h : store'.contents = store.contents) :
    store'.rowsOf name = store.rowsOf name := by
  have htable := congrFun (congrArg Contents.table? h) name
  have hrows : ∀ s : MemoryStore,
      s.rowsOf name = ((s.contents.table? name).map Prod.snd).getD [] := by
    intro s
    unfold rowsOf contents
    rw [Option.map_map]
    rfl
  rw [hrows, hrows, htable]

/-- Alike contents have the same tables. -/
theorem isSome_table?_eq (h : store'.contents = store.contents) :
    (store'.table? name).isSome = (store.table? name).isSome := by
  have htable :=
    congrArg Option.isSome (congrFun (congrArg Contents.table? h) name)
  unfold contents at htable
  simpa using htable

/-- Alike contents have the same organizations. -/
theorem organization?_eq {slug : String}
    (h : store'.contents = store.contents) :
    store'.organization? slug = store.organization? slug := by
  have horganizations : store'.organizations = store.organizations :=
    congrArg Contents.organizations h
  unfold organization?
  rw [horganizations]

/-- Alike contents have the same first memberships. -/
theorem firstMembership?_eq (h : store'.contents = store.contents) :
    store'.firstMembership? = store.firstMembership? := by
  have hmemberships : store'.memberships = store.memberships :=
    congrArg Contents.memberships h
  funext user
  unfold firstMembership?
  rw [hmemberships]

end MemoryStore

variable {c : Checkpoints} {s s' : MemoryStore} {organization : Uuid}
  {entry : Entry} {table : String} {report report' : TableReport}

-- ============================================================= parts

theorem table?_marked (c : Checkpoints) (s : MemoryStore) (key : String) :
    (c.marked s key).table? table = s.table? table := by
  unfold Checkpoints.marked
  split
  · exact record_table? _ _ _
  · rfl

theorem table?_markedOnce (c : Checkpoints) (s : MemoryStore) (key : String) :
    (c.markedOnce s key).table? table = s.table? table := by
  unfold Checkpoints.markedOnce
  split
  · rfl
  · exact table?_marked c s key

/-- Marking a step leaves the contents alone, whether it is recorded or not. -/
theorem contents_marked (c : Checkpoints) (s : MemoryStore) (key : String) :
    (c.marked s key).contents = s.contents := by
  unfold Checkpoints.marked
  split
  · exact contents_record _ _
  · rfl

/-- Marking a step once more leaves the contents alone, too. -/
theorem contents_markedOnce (c : Checkpoints) (s : MemoryStore)
    (key : String) : (c.markedOnce s key).contents = s.contents := by
  unfold Checkpoints.markedOnce
  split
  · rfl
  · exact contents_marked c s key

/-- The record that a verified table gets leaves the tables alone. -/
theorem table?_checked (c : Checkpoints) (s : MemoryStore) (name : String) :
    (c.checked s name).table? table = s.table? table := by
  unfold Checkpoints.checked
  rw [table?_markedOnce, table?_markedOnce]

/-- The record that a verified table gets leaves the contents alone. -/
theorem contents_checked (c : Checkpoints) (s : MemoryStore) (name : String) :
    (c.checked s name).contents = s.contents := by
  unfold Checkpoints.checked
  rw [contents_markedOnce, contents_markedOnce]

/-- Preparing the record leaves the contents alone. -/
theorem contents_of_checkpoints {job : Job}
    (h : Succeeds answer job.checkpoints s c s') :
    s'.contents = s.contents := by
  rcases succeeds_checkpoints.1 h with ⟨-, -, rfl⟩ | ⟨-, -, rfl⟩ <;> rfl

/-- A column without a value is nothing that the contents show. -/
theorem contents_of_addColumn {isNew : Bool}
    (h : Succeeds answer (addColumn table) s isNew s') :
    s'.contents = s.contents := by
  obtain ⟨t, ht, -, rfl⟩ := succeeds_addColumn.1 h
  refine contents_setTable_of_same ht ?_ ?_
  all_goals
    unfold withColumn
    split <;> rfl

/-- Every entry gets a report of its own table. -/
theorem contents_of_addColumns {entries : List Entry}
    {result : List TableReport × List String}
    (h : Succeeds answer (addColumns c entries) s result s') :
    s'.contents = s.contents
      ∧ result.1.map TableReport.table = entries.map Entry.table := by
  induction entries generalizing s result s' with
  | nil =>
    obtain ⟨rfl, rfl⟩ := succeeds_pure.1 h
    exact ⟨rfl, rfl⟩
  | cons entry rest ih =>
    by_cases hdone : c.isDone (stepKey "add_column" entry.table) = true
    · obtain ⟨found, s₁, hrest, h⟩ :=
        succeeds_bind.1 ((succeeds_if_pos hdone).1 h)
      obtain ⟨rfl, rfl⟩ := succeeds_pure.1 h
      obtain ⟨hcontents, htables⟩ := ih hrest
      exact ⟨hcontents, congrArg (entry.table :: ·) htables⟩
    · obtain ⟨isNew, s₁, hcolumn, h⟩ :=
        succeeds_bind.1 ((succeeds_if_neg hdone).1 h)
      obtain ⟨_, s₂, hmark, h⟩ := succeeds_bind.1 h
      cases succeeds_mark.1 hmark
      obtain ⟨found, s₃, hrest, h⟩ := succeeds_bind.1 h
      obtain ⟨rfl, rfl⟩ := succeeds_pure.1 h
      obtain ⟨hcontents, htables⟩ := ih hrest
      refine ⟨?_, congrArg (entry.table :: ·) htables⟩
      rw [hcontents, contents_marked, contents_of_addColumn hcolumn]

/-- So the tables are worked on each with a report of its own. -/
theorem zip_reports {entries : List Entry} {reports : List TableReport}
    (h : reports.map TableReport.table = entries.map Entry.table) :
    (entries.zip reports).map Prod.fst = entries
      ∧ ∀ w ∈ entries.zip reports, w.2.table = w.1.table := by
  induction entries generalizing reports with
  | nil => exact ⟨rfl, nofun⟩
  | cons entry rest ih =>
    cases reports with
    | nil => cases h
    | cons report reports =>
      rw [List.map_cons, List.map_cons, List.cons.injEq] at h
      obtain ⟨hfst, htables⟩ := ih h.2
      refine ⟨congrArg (entry :: ·) hfst, fun w hw => ?_⟩
      rcases List.mem_cons.1 hw with rfl | hw
      · exact h.1
      · exact htables w hw

/-- A column that was not recorded is added and recorded before those behind
it. -/
theorem addColumns_cons {entries : List Entry} {isNew : Bool}
    {s₁ : MemoryStore} {result : List TableReport × List String}
    (hdone : ¬c.isDone (stepKey "add_column" entry.table) = true)
    (hcolumn : Succeeds answer (addColumn entry.table) s isNew s₁)
    (hrest : Succeeds answer (addColumns c entries)
      (c.marked s₁ (stepKey "add_column" entry.table))
      result s') :
    Succeeds answer (addColumns c (entry :: entries)) s
      (TableReport.start entry.table :: result.1,
        if isNew then entry.table :: result.2 else result.2) s' := by
  refine (succeeds_if_neg hdone).2 (succeeds_bind.2 ⟨isNew, s₁, hcolumn, ?_⟩)
  refine succeeds_bind.2 ⟨(), _, succeeds_mark.2 rfl, ?_⟩
  exact succeeds_bind.2 ⟨result, s', hrest, succeeds_pure.2 ⟨rfl, rfl⟩⟩

/-- The columns can be added if the tables exist. -/
theorem addColumns_total {entries : List Entry}
    (h : ∀ entry ∈ entries, (s.table? entry.table).isSome = true) :
    ∃ result s', Succeeds answer (addColumns c entries) s result s' := by
  induction entries generalizing s with
  | nil => exact ⟨([], []), s, succeeds_pure.2 ⟨rfl, rfl⟩⟩
  | cons entry rest ih =>
    by_cases hdone : c.isDone (stepKey "add_column" entry.table) = true
    · obtain ⟨result, s', hrest⟩ :=
        ih fun other hother => h other (by simp [hother])
      exact ⟨_, s', (succeeds_if_pos hdone).2
        (succeeds_bind.2 ⟨result, s', hrest, succeeds_pure.2 ⟨rfl, rfl⟩⟩)⟩
    · obtain ⟨t, ht⟩ := Option.isSome_iff_exists.1 (h entry (by simp))
      have hcolumn := succeeds_addColumn.2 ⟨t, ht, rfl, rfl⟩
      have hcontents :=
        (contents_marked c _ (stepKey "add_column" entry.table)).trans
          (contents_of_addColumn hcolumn)
      obtain ⟨result, s', hrest⟩ := ih fun other hother => by
        rw [isSome_table?_eq hcontents]
        exact h other (by simp [hother])
      exact ⟨_, s', addColumns_cons hdone hcolumn hrest⟩

-- ============================================================= tables

/-- The table behind its filling, if that is not skipped. -/
def filled (c : Checkpoints) (s : MemoryStore) (organization : Uuid)
    (entry : Entry) (t : MemoryTable) : MemoryTable :=
  if c.isDone (stepKey "derive" entry.table) then t
  else (fillTwice (choose s entry.derivation) organization t).2

/-- Enforcement leaves the contents alone and counts no row. -/
theorem contents_of_enforce {t : MemoryTable} (ht : s.table? table = some t)
    (h : Succeeds answer (enforce c table report) s report' s') :
    s'.contents = s.contents ∧ report'.table = report.table
      ∧ report'.derived = report.derived
      ∧ report'.defaulted = report.defaulted := by
  by_cases hdone : c.isDone (stepKey "enforce" table) = true
  · obtain ⟨rfl, rfl⟩ := (succeeds_enforce_of_done hdone).1 h
    exact ⟨rfl, rfl, rfl, rfl⟩
  · obtain ⟨-, rfl, rfl⟩ := (succeeds_enforce ht hdone).1 h
    refine ⟨?_, rfl, rfl, rfl⟩
    rw [contents_marked]
    exact contents_setTable_of_same ht rfl rfl

/-- Any mandatory column and foreign key can be had, once every row has an
organization. -/
theorem enforce_total {t : MemoryTable} (ht : s.table? table = some t)
    (hnone : missing t = 0) :
    ∃ report' s', Succeeds answer (enforce c table report) s report' s' := by
  by_cases hdone : c.isDone (stepKey "enforce" table) = true
  · exact ⟨_, s, (succeeds_enforce_of_done hdone).2 ⟨rfl, rfl⟩⟩
  · exact ⟨_, _, (succeeds_enforce ht hdone).2 ⟨fun _ => hnone, rfl, rfl⟩⟩

/-- A table whose filling was recorded is passed over. -/
theorem filled_of_done {t : MemoryTable}
    (hdone : c.isDone (stepKey "derive" entry.table) = true) :
    filled c s organization entry t = t :=
  if_pos hdone

/-- Any other table is settled. -/
theorem filled_of_not_done {t : MemoryTable}
    (hdone : ¬c.isDone (stepKey "derive" entry.table) = true) :
    filled c s organization entry t
      = (fillTwice (choose s entry.derivation) organization t).2 :=
  if_neg hdone

/-- The counts of a report, unless the filling was skipped. -/
def ReportsFilling (c : Checkpoints) (s : MemoryStore) (organization : Uuid)
    (entry : Entry) (t : MemoryTable) (report : TableReport) : Prop :=
  ¬c.isDone (stepKey "derive" entry.table) = true →
    report.derived = (fillTable (choose s entry.derivation) t).1
      ∧ report.defaulted
        = (fillTwice (choose s entry.derivation) organization t).1

/-- What filling leaves and reports. -/
theorem filled_of_fill
    (h : Succeeds answer (fill c organization entry report) s report' s')
    {u : MemoryTable} (hu : s'.table? entry.table = some u) :
    ∃ t, s.table? entry.table = some t
      ∧ s' = s.setTable entry.table (filled c s organization entry t)
      ∧ report'.table = report.table
      ∧ ReportsFilling c s organization entry t report' := by
  by_cases hdone : c.isDone (stepKey "derive" entry.table) = true
  · obtain ⟨rfl, rfl⟩ := (succeeds_fill_of_done hdone).1 h
    refine ⟨u, hu, ?_, rfl, fun hnot => absurd hdone hnot⟩
    rw [filled_of_done hdone, setTable_self hu]
  · obtain ⟨t, ht, -, rfl, rfl⟩ := (succeeds_fill hdone).1 h
    refine ⟨t, ht, ?_, rfl, fun _ => ⟨rfl, rfl⟩⟩
    rw [filled_of_not_done hdone]

/-- A table goes through: its rows are filled, none is left without an
organization, and nothing else happens to the contents. -/
theorem of_backfillTable
    (h : Succeeds answer (backfillTable c organization entry report) s
      report' s') :
    ∃ t, s.table? entry.table = some t
      ∧ missing (filled c s organization entry t) = 0
      ∧ s'.contents
        = (s.setTable entry.table (filled c s organization entry t)).contents
      ∧ report'.table = report.table
      ∧ ReportsFilling c s organization entry t report' := by
  obtain ⟨report₁, s₁, hfill, h⟩ := succeeds_bind.1 h
  obtain ⟨_, s₂, hverify, henforce⟩ := succeeds_bind.1 h
  obtain ⟨⟨u, hu, hnone⟩, rfl⟩ := succeeds_verify.1 hverify
  obtain ⟨t, ht, rfl, htable, hcounts⟩ := filled_of_fill hfill hu
  rw [table?_setTable] at hu
  cases hu
  refine ⟨t, ht, hnone, ?_⟩
  have hu₂ := (table?_checked c _ entry.table).trans
    (table?_setTable s entry.table (filled c s organization entry t))
  obtain ⟨hcontents, htable₂, hderived, hdefaulted⟩ :=
    contents_of_enforce hu₂ henforce
  rw [contents_checked] at hcontents
  refine ⟨hcontents, htable₂.trans htable, fun hdone => ?_⟩
  rw [hderived, hdefaulted]
  exact hcounts hdone

/-- A table can be filled if it is there, and the table of its parent. -/
theorem fill_total {t : MemoryTable} (ht : s.table? entry.table = some t)
    (hparent : ∀ parent ∈ entry.parent?, (s.table? parent).isSome = true) :
    ∃ report', Succeeds answer (fill c organization entry report) s report'
      (s.setTable entry.table (filled c s organization entry t)) := by
  by_cases hdone : c.isDone (stepKey "derive" entry.table) = true
  · rw [filled_of_done hdone, setTable_self ht]
    exact ⟨_, (succeeds_fill_of_done hdone).2 ⟨rfl, rfl⟩⟩
  · rw [filled_of_not_done hdone]
    exact ⟨_, (succeeds_fill hdone).2 ⟨t, ht, hparent, rfl, rfl⟩⟩

/-- And it does go through if filling leaves no row without an organization. -/
theorem backfillTable_total {t : MemoryTable}
    (ht : s.table? entry.table = some t)
    (hparent : ∀ parent ∈ entry.parent?, (s.table? parent).isSome = true)
    (hnone : missing (filled c s organization entry t) = 0) :
    ∃ report' s',
      Succeeds answer (backfillTable c organization entry report) s report'
        s' := by
  obtain ⟨report₁, hfill⟩ := fill_total ht hparent
  have hu := table?_setTable s entry.table (filled c s organization entry t)
  have hverify := (succeeds_verify (c := c) (a := ())).2 ⟨⟨_, hu, hnone⟩, rfl⟩
  obtain ⟨report', s', henforce⟩ :=
    enforce_total ((table?_checked c _ entry.table).trans hu) hnone
  exact ⟨report', s', succeeds_bind.2 ⟨report₁, _, hfill,
    succeeds_bind.2 ⟨(), _, hverify, henforce⟩⟩⟩

end Tenancy.Backfill
