/-
When a run with a record completes. If the planned tables are there and
take updates, and the default organization is there, then only the check
of a table can stop the run; and a table that is filled in this run
passes it. So the run completes if and only if no table is incomplete
whose filling is recorded already — which is then skipped, so that the
check finds the gap in this run and in every later one (`Stuck`).
-/
import Tenancy.Proofs.Backfill.Contents
import Tenancy.Proofs.Backfill.Order

namespace Tenancy.Backfill

open Program MemoryStore

variable {s s' : MemoryStore} {c : Checkpoints} {organization : Uuid}
  {entry : Entry} {name fingerprint : String} {t : MemoryTable}

-- ============================================================ states

/-- The table is there and takes updates. -/
def TakesUpdates (s : MemoryStore) (name : String) : Prop :=
  ∃ t, s.table? name = some t ∧ t.rejectsUpdates = false

/-- A row of the table has no organization. -/
def Incomplete (s : MemoryStore) (name : String) : Prop :=
  ∃ row ∈ s.rowsOf name, row.organization = none

/-- It is recorded that the table was filled. -/
def Recorded (fingerprint : String) (s : MemoryStore) (name : String) : Prop :=
  (fingerprint, stepKey "derive" name) ∈ s.checkpoints

/-- The table is not filled again, though a row needs it. -/
def Stuck (fingerprint : String) (s : MemoryStore) (name : String) : Prop :=
  Recorded fingerprint s name ∧ Incomplete s name

theorem missing_eq_zero_iff (ht : s.table? name = some t) :
    missing t = 0 ↔ ¬Incomplete s name := by
  unfold Incomplete
  rw [missing_eq_zero, rowsOf_eq_rows ht]
  simp only [not_exists, not_and, Option.isNone_eq_false_iff,
    ← Option.ne_none_iff_isSome]

theorem incomplete_eq (h : s'.rowsOf name = s.rowsOf name) :
    Incomplete s' name ↔ Incomplete s name := by
  unfold Incomplete
  rw [h]

theorem TakesUpdates.of_contents (h : TakesUpdates s name)
    (hcontents : s'.contents = s.contents) : TakesUpdates s' name := by
  obtain ⟨t, ht, haccepts⟩ := h
  have htable := congrFun (congrArg Contents.table? hcontents) name
  unfold contents at htable
  simp only [ht, Option.map_some, Option.map_eq_some_iff, Prod.mk.injEq]
    at htable
  obtain ⟨t', ht', hrejects, -⟩ := htable
  exact ⟨t', ht', hrejects.trans haccepts⟩

-- ============================================================= tables

/-- A table that takes updates goes through unless it would have to be filled
again. -/
theorem missing_filled (ht : s.table? entry.table = some t)
    (haccepts : t.rejectsUpdates = false) :
    missing (filled c s organization entry t) = 0 ↔
      (c.isDone (stepKey "derive" entry.table) = true →
        ¬Incomplete s entry.table) := by
  by_cases hdone : c.isDone (stepKey "derive" entry.table) = true
  · rw [filled_of_done hdone, missing_eq_zero_iff ht]
    exact ⟨fun h _ => h, fun h => h hdone⟩
  · rw [filled_of_not_done hdone]
    exact ⟨fun _ hpos => absurd hpos hdone,
      fun _ => missing_fillTwice haccepts⟩

/-- Table after table, each as if it were the first. -/
theorem backfillTables_iff {work : List (Entry × TableReport)}
    (hnodup : ((work.map Prod.fst).map Entry.table).Nodup)
    (htables : ∀ w ∈ work, TakesUpdates s w.1.table)
    (hparents : ∀ w ∈ work, ∀ parent ∈ w.1.parent?,
      (s.table? parent).isSome = true) :
    (∃ reports s',
      Succeeds answer (backfillTables c organization work) s reports s') ↔
      ∀ w ∈ work, c.isDone (stepKey "derive" w.1.table) = true →
        ¬Incomplete s w.1.table := by
  induction work generalizing s with
  | nil => exact ⟨fun _ => nofun, fun _ => ⟨[], s, succeeds_pure.2 ⟨rfl, rfl⟩⟩⟩
  | cons w rest ih =>
    obtain ⟨entry, report⟩ := w
    obtain ⟨hnew, hnodup⟩ := List.nodup_cons.1 hnodup
    obtain ⟨t, ht, haccepts⟩ := htables (entry, report) (by simp)
    have hne : ∀ w ∈ rest, entry.table ≠ w.1.table := by
      intro w hw hsame
      apply hnew
      rw [List.map_map]
      exact List.mem_map.2 ⟨w, hw, hsame.symm⟩
    -- Behind the first table the others are as before.
    have hrest : ∀ s₁ : MemoryStore,
        s₁.contents
          = (s.setTable entry.table
            (filled c s organization entry t)).contents →
        ((∃ reports s',
          Succeeds answer (backfillTables c organization rest) s₁ reports s') ↔
          ∀ w ∈ rest, c.isDone (stepKey "derive" w.1.table) = true →
            ¬Incomplete s w.1.table) := by
      intro s₁ hcontents
      rw [ih hnodup]
      · refine forall₂_congr fun w hw => ?_
        rw [incomplete_eq
          ((rowsOf_eq hcontents).trans (rowsOf_setTable_of_ne _ _ (hne w hw)))]
      · intro w hw
        obtain ⟨u, hu, haccepts⟩ := htables w (by simp [hw])
        rw [← table?_setTable_of_ne s (filled c s organization entry t)
          (hne w hw)] at hu
        exact TakesUpdates.of_contents ⟨u, hu, haccepts⟩ hcontents
      · intro w hw parent hparent
        rw [isSome_table?_eq hcontents]
        by_cases hsame : entry.table = parent
        · rw [← hsame, table?_setTable]
          rfl
        · rw [table?_setTable_of_ne _ _ hsame]
          exact hparents w (by simp [hw]) parent hparent
    constructor
    · rintro ⟨reports, s', h⟩
      obtain ⟨report', s₁, hfirst, h⟩ := succeeds_bind.1 h
      obtain ⟨reports', s₂, hothers, -⟩ := succeeds_bind.1 h
      obtain ⟨u, hu, hnone, hcontents, -⟩ := of_backfillTable hfirst
      cases ht.symm.trans hu
      intro w hw
      rcases List.mem_cons.1 hw with rfl | hw
      · exact (missing_filled ht haccepts).1 hnone
      · exact (hrest s₁ hcontents).1 ⟨reports', s₂, hothers⟩ w hw
    · intro h
      have hnone : missing (filled c s organization entry t) = 0 :=
        (missing_filled ht haccepts).2 (h (entry, report) (by simp))
      obtain ⟨report', s₁, hfirst⟩ : ∃ report' s₁,
          Succeeds answer (backfillTable c organization entry report) s
            report' s₁ :=
        backfillTable_total ht (hparents (entry, report) (by simp)) hnone
      obtain ⟨u, hu, -, hcontents, -⟩ := of_backfillTable hfirst
      cases ht.symm.trans hu
      obtain ⟨reports', s₂, hothers⟩ :=
        (hrest s₁ hcontents).2 fun w hw => h w (by simp [hw])
      exact ⟨report' :: reports', s₂, succeeds_bind.2 ⟨report', s₁, hfirst,
        succeeds_bind.2 ⟨reports', s₂, hothers, succeeds_pure.2 ⟨rfl, rfl⟩⟩⟩⟩

-- =============================================================== run

variable {job : Job}

theorem isDone_iff_recorded :
    (Checkpoints.mk true fingerprint (s.recorded fingerprint)).isDone
      (stepKey "derive" name)
        = true ↔
      Recorded fingerprint s name := by
  unfold Checkpoints.isDone Recorded
  simp [mem_recorded]

theorem run_succeeds_iff (hnodup : (job.plan.tables.map Entry.table).Nodup)
    (hfirst : Plan.ParentsFirst [] job.plan.tables)
    (huse : job.useCheckpoints = true)
    (htables : ∀ entry ∈ job.plan.tables, TakesUpdates s entry.table)
    (hdefault : (s.organization? job.defaultSlug).isSome = true) :
    (∃ report s', Succeeds answer job.run s report s') ↔
      ∀ entry ∈ job.plan.tables,
        ¬Stuck job.plan.fingerprint s entry.table := by
  -- What stands behind the columns and the default has the same contents.
  have hwork :
      ∀ (s₁ : MemoryStore) (started : List TableReport) (organization : Uuid),
      s₁.contents = s.contents →
        started.map TableReport.table = job.plan.tables.map Entry.table →
      ((∃ reports s', Succeeds answer (backfillTables
            ⟨true, job.plan.fingerprint, s.recorded job.plan.fingerprint⟩
              organization
            (job.plan.tables.zip started)) s₁ reports s') ↔
        ∀ entry ∈ job.plan.tables,
          ¬Stuck job.plan.fingerprint s entry.table) := by
    intro s₁ started organization hcontents hstarted
    have hentries := (zip_reports hstarted).1
    have hmem : ∀ w ∈ job.plan.tables.zip started, w.1 ∈ job.plan.tables := by
      intro w hw
      rw [← hentries]
      exact List.mem_map_of_mem hw
    rw [backfillTables_iff (by rwa [hentries])
      (fun w hw => (htables w.1 (hmem w hw)).of_contents hcontents)]
    · have hall :=
        List.forall_mem_map (f := Prod.fst) (l := job.plan.tables.zip started)
        (P := fun entry : Entry => ¬Stuck job.plan.fingerprint s entry.table)
      rw [hentries] at hall
      rw [hall]
      refine forall₂_congr fun w _ => ?_
      rw [isDone_iff_recorded, incomplete_eq (rowsOf_eq hcontents)]
      exact not_and.symm
    · intro w hw parent hparent
      rcases hfirst.mem (hmem w hw) hparent with hmem | hmem
      · cases hmem
      · obtain ⟨e, he, rfl⟩ := List.mem_map.1 hmem
        obtain ⟨t, ht, -⟩ := htables e he
        rw [isSome_table?_eq hcontents, ht]
        rfl
  constructor
  · rintro ⟨report, s', h⟩
    obtain ⟨c, s₁, hcheckpoints, h⟩ := succeeds_bind.1 h
    obtain ⟨⟨started, added⟩, s₂, hcolumns, h⟩ := succeeds_bind.1 h
    obtain ⟨organization, s₃, hfound, h⟩ := succeeds_bind.1 h
    obtain ⟨reports, s₄, hrun, -⟩ := succeeds_bind.1 h
    obtain ⟨hcontents, hstarted⟩ := contents_of_addColumns hcolumns
    obtain ⟨-, rfl⟩ := succeeds_findDefault.1 hfound
    rcases succeeds_checkpoints.1 hcheckpoints with ⟨-, rfl, rfl⟩ | ⟨hnot, -⟩
    · exact (hwork _ started organization
        ((contents_markedOnce _ _ _).trans hcontents) hstarted).1
        ⟨reports, s₄, hrun⟩
    · rw [huse] at hnot
      cases hnot
  · intro h
    obtain ⟨s₁, hcheckpoints⟩ : ∃ s₁, Succeeds answer job.checkpoints s
        ⟨true, job.plan.fingerprint, s.recorded job.plan.fingerprint⟩ s₁ :=
      ⟨_, succeeds_checkpoints.2 (.inl ⟨huse, rfl, rfl⟩)⟩
    have hcontents₁ := contents_of_checkpoints hcheckpoints
    obtain ⟨⟨started, added⟩, s₂, hcolumns⟩ :
        ∃ result s₂, Succeeds answer
          (addColumns
            ⟨true, job.plan.fingerprint, s.recorded job.plan.fingerprint⟩
            job.plan.tables)
          s₁ result s₂ := by
      refine addColumns_total fun entry hentry => ?_
      obtain ⟨t, ht, -⟩ := htables entry hentry
      rw [isSome_table?_eq hcontents₁, ht]
      rfl
    obtain ⟨hcontents, hstarted⟩ := contents_of_addColumns hcolumns
    have hcontents₂ := hcontents.trans hcontents₁
    obtain ⟨organization, hfound⟩ := Option.isSome_iff_exists.1 hdefault
    rw [← organization?_eq hcontents₂] at hfound
    obtain ⟨reports, s₃, hrun⟩ := (hwork _ started organization
      ((contents_markedOnce _ _ _).trans hcontents₂) hstarted).2 h
    exact ⟨_, s₃,
      succeeds_bind.2 ⟨_, s₁, hcheckpoints, succeeds_bind.2 ⟨_, s₂, hcolumns,
      succeeds_bind.2 ⟨organization, _, succeeds_findDefault.2 ⟨hfound, rfl⟩,
        succeeds_bind.2 ⟨reports, s₃, hrun, succeeds_pure.2 ⟨rfl, rfl⟩⟩⟩⟩⟩⟩

end Tenancy.Backfill
