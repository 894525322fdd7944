/-
Backfills that are resumed. Runs of one plan may follow one another on a
store, with or without the record, each cut short behind any of its calls
or left to its end (`Interrupted`). All the while the store leads where
it led at the start, and what its record says of the plan is so
(`OnCourse`): the record is what a later run goes by instead of looking,
so it has to be relied on wherever the one before was cut.

A run that is left alone arrives where its store leads
(`OnCourse.arrives`). A single clean run from the start does as well; so
the two end alike, with the same tables and the same error if any
(`resumed_run_ends_alike`).
-/
import Tenancy.Proofs.Backfill.Assignment
import Tenancy.Proofs.Backfill.Destination

namespace Tenancy.Backfill

open Program MemoryStore

variable {plan : Plan} {slug : String} {job : Job} {start s : MemoryStore}
  {entries : List Entry}

-- ============================================================= course

/-- What runs of a plan leave of a store, each cut short somewhere or not. -/
inductive Interrupted (plan : Plan) (slug : String) (start : MemoryStore) :
    MemoryStore → Prop
  | start : Interrupted plan slug start start
  | run {s : MemoryStore} (h : Interrupted plan slug start s)
      (useCheckpoints : Bool)
      (calls : Nat) :
    Interrupted plan slug start
      ((Job.mk plan slug useCheckpoints).run.run.runFor answer calls s).2

/-- The record of the plan can be relied on, and the store leads where the
start does. -/
structure OnCourse (plan : Plan) (slug : String) (start s : MemoryStore) :
    Prop where
  truthful : Truthful s plan.fingerprint
  filled : ∀ name : String,
    (plan.fingerprint, stepKey "derive" name) ∈ s.checkpoints → s.Complete name
  leads : destination plan slug s.bare = destination plan slug start.bare

theorem onCourse_of_recorded (h : start.recorded plan.fingerprint = []) :
    OnCourse plan slug start start := by
  refine ⟨truthful_of_recorded h, fun name hmem => ?_, rfl⟩
  have hkey := mem_recorded.2 hmem
  rw [h] at hkey
  cases hkey

/-- A call that is due keeps the course. -/
theorem OnCourse.kept (hplan : Plan.ofEntries entries = .ok job.plan)
    (h : OnCourse job.plan job.defaultSlug start s) {call : StoreCall}
    (hduty : Duty job s call) :
    OnCourse job.plan job.defaultSlug start (answer call s).2 := by
  obtain ⟨-, hnodup, hfirst⟩ := Plan.ofEntries_ok hplan
  refine ⟨h.truthful.kept hduty, fun name hmem => ?_, ?_⟩
  · have htightens := tightensTo_answer call s
    rcases recorded_of_answer hduty hmem with hmem | hattested
    · exact (h.filled name hmem).tightens htightens
    · exact (hattested.filled name rfl).tightens htightens
  · exact (destination_answer hnodup hfirst hduty).trans h.leads

/-- So a run keeps it, wherever it is cut short. -/
theorem OnCourse.throughout (job : Job)
    (hplan : Plan.ofEntries entries = .ok job.plan)
    (h : OnCourse job.plan job.defaultSlug start s) :
    Throughout answer (OnCourse job.plan job.defaultSlug start) job.run s :=
  (run_abides hplan h.truthful).throughout
    (fun _ _ hs hduty => hs.kept hplan hduty) h

theorem Interrupted.onCourse (h : Interrupted plan slug start s)
    (hplan : Plan.ofEntries entries = .ok plan)
    (hrecord : start.recorded plan.fingerprint = []) :
    OnCourse plan slug start s := by
  induction h with
  | start => exact onCourse_of_recorded hrecord
  | run _ useCheckpoints calls ih =>
    exact ih.throughout ⟨plan, slug, useCheckpoints⟩ hplan calls

-- ============================================================ arrival

/-- The error that ended a run, if any. -/
def failure? : Except BackfillError Report → Option BackfillError
  | .ok _ => none
  | .error e => some e

/-- How a run that is left alone ends, and the tables that it leaves. -/
def Job.ending (job : Job) (s : MemoryStore) :
    Option BackfillError × List (String × MemoryTable) :=
  let (result, s') := job.run.run.run answer s
  (failure? result, s'.tables)

/-- A run that keeps the course arrives where the start leads. -/
theorem OnCourse.arrives (job : Job)
    (hplan : Plan.ofEntries entries = .ok job.plan)
    (h : OnCourse job.plan job.defaultSlug start s) :
    job.ending s
      = ((job.destination start).1, (job.destination start).2.tables) := by
  have htightens : Throughout answer (s.TightensTo ·) job.run s :=
    fun calls => tightensTo_runFor job.run.run calls s
  have hleads := (h.throughout job hplan).run.leads
  have htightens := htightens.run
  unfold Job.ending
  cases hrun : job.run.run.run answer s with
  | mk result s' =>
    rw [hrun] at hleads htightens
    have hend : job.destination start = (failure? result, s'.bare) := by
      rw [Job.destination, ← hleads]
      cases result with
      | ok report =>
        obtain ⟨organization, hdefault⟩ := organization?_of_run hrun
        exact destination_of_finished hdefault
          (finished_of_run h.truthful hrun)
      | error e =>
        have hstopped := (run_abides hplan h.truthful).failure hrun
        refine destination_of_stopped hstopped fun name hskips => ?_
        exact (h.filled name hskips.2).tightens htightens
    rw [hend]
    rfl

/-- However often a plan was run and cut short, and whether the runs went by
the record or not: the next run that is left alone ends as one clean run from
the start would have, and leaves the tables as that one would have. -/
theorem resumed_run_ends_alike (hplan : Plan.ofEntries entries = .ok plan)
    (hrecord : start.recorded plan.fingerprint = [])
    (h : Interrupted plan slug start s) (useCheckpoints : Bool) :
    (Job.mk plan slug useCheckpoints).ending s
      = (Job.mk plan slug false).ending start := by
  have hcourse := h.onCourse hplan hrecord
  rw [hcourse.arrives ⟨plan, slug, useCheckpoints⟩ hplan,
    (onCourse_of_recorded hrecord).arrives ⟨plan, slug, false⟩ hplan]
  rfl

-- A run that goes by the record is cut short behind the derivation of the
-- projects, and one that does not behind that of the tasks.

def smallCut : MemoryStore :=
  (smallJob.run.run.runFor answer 13
    ((Job.mk smallJob.plan "default" true).run.run.runFor answer 14
      smallStore).2).2

theorem smallCut_resumes :
    Interrupted smallJob.plan "default" smallStore smallCut
      ∧ (Job.mk smallJob.plan "default" true).ending smallCut
        = smallJob.ending smallStore := by
  have hcut : Interrupted smallJob.plan "default" smallStore smallCut :=
    .run (.run .start true 14) false 13
  have hplan : Plan.ofEntries smallEntries = .ok smallJob.plan := by rfl
  exact ⟨hcut, resumed_run_ends_alike hplan (recorded_eq_nil rfl) hcut true⟩

end Tenancy.Backfill
