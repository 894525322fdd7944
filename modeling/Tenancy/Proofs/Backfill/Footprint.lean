/-
What a run of a backfill can touch. A run is made of steps: for every
planned table its column, its filling, its check and its enforcement, and
for the run the default organization. Every call works on a step, or
records one, or reads the record (`StoreCall.step?`), and each part of a
run makes the calls of its own steps (`Checkpoints.Covers`). So the other
tables are out of its reach, and so is the record unless the run goes by
it.

With what a call does to a table at most (`TightensTo`), this says what
any run leaves of any store, however it ends
(`run_only_fills_and_tightens`).
-/
import Tenancy.Proofs.Backfill.Assignment
import Tenancy.Proofs.Backfill.Tightening
import Tenancy.Proofs.Footprint

namespace Tenancy.Backfill

open Program MemoryStore

-- ============================================================== steps

/-- A step of a run, which may be recorded. -/
inductive Step where
  | addColumn (table : String)
  | seedDefault
  | derive (table : String)
  | verify (table : String)
  | enforce (table : String)
deriving DecidableEq

namespace Step

/-- The word that a step's key starts with. -/
def name : Step → String
  | .addColumn _ => "add_column"
  | .seedDefault => "seed_default"
  | .derive _ => "derive"
  | .verify _ => "verify"
  | .enforce _ => "enforce"

/-- The table that a step is about, if it is about one. -/
def table? : Step → Option String
  | .addColumn table | .derive table | .verify table
  | .enforce table => some table
  | .seedDefault => none

/-- The key under which the step is recorded. -/
def key (step : Step) : String := stepKey step.name step.table?

/-- The steps of a table once it has the column. -/
def ofTable (table : String) : List Step :=
  [.derive table, .verify table, .enforce table]

/-- The names of steps start with different letters. -/
theorem startsOtherwise {step step' : Step} (h : step.name ≠ step'.name) :
    StartsOtherwise step.name step'.name := by
  cases step <;> cases step'
    <;> simp only [name, ne_eq, not_true_eq_false] at h ⊢
  all_goals decide

/-- No two steps are recorded under one key. -/
theorem key_injective : Function.Injective key := by
  intro step step' hkey
  have hname : step.name = step'.name := by
    by_contra hne
    exact stepKey_ne (startsOtherwise hne) hkey
  cases step <;> cases step' <;> simp only [name, String.reduceEq] at hname
  case seedDefault.seedDefault => rfl
  all_goals exact congrArg _ (stepKey_inj.1 hkey)

/-- The steps of a table name that table. -/
theorem table?_of_mem_ofTable {step : Step} {table : String}
    (h : step ∈ ofTable table) : step.table? = some table := by
  simp only [ofTable, List.mem_cons, List.not_mem_nil, or_false] at h
  rcases h with rfl | rfl | rfl <;> rfl

end Step

/-- The step that a call works on; none for those that read or write the
record. -/
def StoreCall.step? : StoreCall → Option Step
  | .tableExists table | .columnExists table
  | .addNullableColumn table => some (.addColumn table)
  | .findOrganization _ => some .seedDefault
  | .deriveFromParent table _ _ | .deriveFromOwner table _
  | .applyDefault table _ =>
    some (.derive table)
  | .countMissing table => some (.verify table)
  | .columnIsNullable table | .setNotNull table | .foreignKeyExists table
  | .addForeignKey table =>
    some (.enforce table)
  | .ensureCheckpoints | .completedSteps _ | .recordStep _ _ => none

/-- The steps of a plan, in the order in which a run comes to them. -/
def Plan.steps (plan : Plan) : List Step :=
  plan.tables.map (fun entry => .addColumn entry.table)
    ++ .seedDefault
      :: plan.tables.flatMap fun entry => Step.ofTable entry.table

/-- A call works on one of some steps, or records one, which is done only by a
run that goes by the record and under its fingerprint. -/
def Checkpoints.Covers (c : Checkpoints) (steps : List Step)
    (call : StoreCall) : Prop :=
  (∃ step ∈ steps, call.step? = some step)
    ∨ c.enabled = true ∧ ∃ step ∈ steps,
      call = .recordStep c.fingerprint step.key

/-- A call of a job: it works on a step of the plan, or reads or writes the
record, if the job goes by it. -/
def Job.Covers (job : Job) (call : StoreCall) : Prop :=
  (∃ step ∈ job.plan.steps, call.step? = some step)
    ∨ job.useCheckpoints = true
      ∧ (call = .ensureCheckpoints
        ∨ call = .completedSteps job.plan.fingerprint
        ∨ ∃ step ∈ job.plan.steps,
          call = .recordStep job.plan.fingerprint step.key)

variable {c : Checkpoints} {steps steps' : List Step} {step : Step}
  {call : StoreCall} {s s' t : MemoryStore} {name : String} {job : Job}

/-- What some steps cover more steps cover. -/
theorem Checkpoints.Covers.mono (h : c.Covers steps call)
    (hsub : steps ⊆ steps') : c.Covers steps' call := by
  rcases h with ⟨step, hstep, hcall⟩ | ⟨henabled, step, hstep, hcall⟩
  · exact .inl ⟨step, hsub hstep, hcall⟩
  · exact .inr ⟨henabled, step, hsub hstep, hcall⟩

-- ============================================================== parts

/-- A program keeps to some calls if its first one is one of them and the rest
keeps to them. -/
theorem callsOnly_ask {α : Type} {Of : StoreCall → Prop}
    {f : call.Result → StoreProgram α}
    (hcall : Of call) (hf : ∀ a, CallsOnly Of (f a).run) :
    CallsOnly Of (ask call >>= f).run :=
  CallsOnly.bind ⟨hcall, fun _ => trivial⟩ hf

/-- A call is covered by the step that it belongs to. -/
theorem covers_of_step (hstep : step ∈ steps)
    (hcall : call.step? = some step) : c.Covers steps call :=
  .inl ⟨step, hstep, hcall⟩

/-- To mark a step is a call of that step. -/
theorem callsOnly_mark (hstep : step ∈ steps) :
    CallsOnly (c.Covers steps) (c.mark step.key).run :=
  .ite (fun henabled => ⟨.inr ⟨henabled, step, hstep, rfl⟩, fun _ => trivial⟩)
    fun _ => callsOnly_pure

/-- A column is added within its own step. -/
theorem callsOnly_addColumn {table : String}
    (hstep : .addColumn table ∈ steps) :
    CallsOnly (c.Covers steps) (addColumn table).run := by
  refine callsOnly_ask (covers_of_step hstep rfl) fun (isTable : Bool) => ?_
  refine .when (fun _ => callsOnly_throw) ?_
  refine callsOnly_ask (covers_of_step hstep rfl) fun (isColumn : Bool) => ?_
  refine .ite (fun _ => callsOnly_pure) fun _ => ?_
  exact callsOnly_ask (covers_of_step hstep rfl) fun _ => callsOnly_pure

/-- The first pass keeps to the steps of the columns. -/
theorem callsOnly_addColumns {entries : List Entry} :
    CallsOnly (c.Covers (entries.map fun entry => .addColumn entry.table))
      (addColumns c entries).run := by
  induction entries with
  | nil => exact callsOnly_pure
  | cons entry rest ih =>
    have hfirst : Step.addColumn entry.table
        ∈ (entry :: rest).map fun entry => Step.addColumn entry.table := by
      simp
    have hrest : CallsOnly
        (c.Covers ((entry :: rest).map fun entry => .addColumn entry.table))
        (addColumns c rest).run :=
      ih.mono fun _ h => h.mono (by simp)
    refine .ite (fun _ => hrest.bind fun _ => callsOnly_pure) fun _ => ?_
    refine CallsOnly.bind (callsOnly_addColumn hfirst) fun _ => ?_
    exact CallsOnly.bind (callsOnly_mark hfirst) fun _ => hrest.bind fun _ =>
      callsOnly_pure

/-- Looking for the default organization is a step of its own. -/
theorem callsOnly_findDefault {slug : String} :
    CallsOnly (c.Covers [.seedDefault]) (findDefault c slug).run := by
  refine callsOnly_ask (covers_of_step (List.mem_singleton.2 rfl) rfl)
    fun found => ?_
  cases found with
  | none => exact callsOnly_throw
  | some id =>
    have hmark : CallsOnly (c.Covers [.seedDefault])
        (c.mark Step.seedDefault.key).run :=
      callsOnly_mark (List.mem_singleton.2 rfl)
    exact .when (fun _ => hmark) callsOnly_pure

/-- A table is derived within its own step. -/
theorem callsOnly_derive {entry : Entry}
    (hstep : .derive entry.table ∈ steps) :
    CallsOnly (c.Covers steps) (derive entry).run := by
  unfold derive
  cases entry.derivation with
  | ownerMembership column =>
    exact ⟨covers_of_step hstep rfl, fun _ => trivial⟩
  | parent parent key => exact ⟨covers_of_step hstep rfl, fun _ => trivial⟩
  | defaultOnly => exact callsOnly_pure

/-- And filled within the same one. -/
theorem callsOnly_fill {organization : Uuid} {entry : Entry}
    {report : TableReport} (hstep : .derive entry.table ∈ steps) :
    CallsOnly (c.Covers steps) (fill c organization entry report).run := by
  refine .ite (fun _ => callsOnly_pure) fun _ => ?_
  refine CallsOnly.bind (callsOnly_derive hstep) fun _ => ?_
  exact callsOnly_ask (covers_of_step hstep rfl) fun _ => callsOnly_pure

/-- To verify a table marks that step and the one before. -/
theorem callsOnly_verify {table : String} (hderive : .derive table ∈ steps)
    (hverify : .verify table ∈ steps) :
    CallsOnly (c.Covers steps) (verify c table).run := by
  refine callsOnly_ask (covers_of_step hverify rfl) fun (count : Nat) => ?_
  refine .when (fun _ => callsOnly_throw) ?_
  refine .when (fun _ => callsOnly_mark hderive) ?_
  exact .ite (fun _ => callsOnly_mark hverify) fun _ => callsOnly_pure

/-- A table is enforced within its own step. -/
theorem callsOnly_enforce {table : String} {report : TableReport}
    (hstep : .enforce table ∈ steps) :
    CallsOnly (c.Covers steps) (enforce c table report).run := by
  refine .ite (fun _ => callsOnly_pure) fun _ => ?_
  refine callsOnly_ask (covers_of_step hstep rfl) fun (nullable : Bool) => ?_
  refine .when (fun _ => ⟨covers_of_step hstep rfl, fun _ => trivial⟩) ?_
  refine callsOnly_ask (covers_of_step hstep rfl) fun (hasKey : Bool) => ?_
  refine .when (fun _ => ⟨covers_of_step hstep rfl, fun _ => trivial⟩) ?_
  exact CallsOnly.bind (callsOnly_mark hstep) fun _ => callsOnly_pure

/-- What is done for a table keeps to the table's steps. -/
theorem callsOnly_backfillTable {organization : Uuid} {entry : Entry}
    {report : TableReport} : CallsOnly (c.Covers (Step.ofTable entry.table))
      (backfillTable c organization entry report).run := by
  refine CallsOnly.bind (callsOnly_fill ?_) fun report₁ => ?_
  · simp [Step.ofTable]
  refine CallsOnly.bind (callsOnly_verify ?_ ?_) fun _ => callsOnly_enforce ?_
  all_goals simp [Step.ofTable]

/-- What is done for tables keeps to their steps. -/
theorem callsOnly_backfillTables {organization : Uuid}
    {work : List (Entry × TableReport)} :
    CallsOnly
      (c.Covers
        ((work.map Prod.fst).flatMap fun entry => Step.ofTable entry.table))
      (backfillTables c organization work).run := by
  induction work with
  | nil => exact callsOnly_pure
  | cons w rest ih =>
    refine CallsOnly.bind
      (callsOnly_backfillTable.mono fun _ h => h.mono (by simp)) fun _ => ?_
    exact (ih.mono fun _ h => h.mono (by simp)).bind fun _ => callsOnly_pure

/-- What a run does once it knows what is recorded. -/
def Job.work (job : Job) (c : Checkpoints) : StoreProgram Report := do
  let (reports, added) ← addColumns c job.plan.tables
  let organization ← findDefault c job.defaultSlug
  let reports ← backfillTables c organization (job.plan.tables.zip reports)
  return ⟨c.fingerprint, added, organization, reports⟩

/-- A run prepares its record and then works by it. -/
theorem run_eq (job : Job) : job.run = job.checkpoints >>= job.work := rfl

/-- The steps of tables of a plan are steps of the plan. -/
theorem ofTable_subset_steps {plan : Plan} {reports : List TableReport} :
    ((plan.tables.zip reports).map Prod.fst).flatMap
      (fun entry => Step.ofTable entry.table)
      ⊆ plan.steps := by
  intro step hstep
  obtain ⟨entry, hentry, hstep⟩ := List.mem_flatMap.1 hstep
  obtain ⟨w, hw, rfl⟩ := List.mem_map.1 hentry
  have htables :
      step ∈ plan.tables.flatMap fun entry => Step.ofTable entry.table :=
    List.mem_flatMap.2 ⟨w.1, (List.of_mem_zip hw).1, hstep⟩
  exact List.mem_append_right _ (List.mem_cons_of_mem _ htables)

/-- And its work keeps to the steps of its plan. -/
theorem callsOnly_work (job : Job) (c : Checkpoints) :
    CallsOnly (c.Covers job.plan.steps) (job.work c).run := by
  refine CallsOnly.bind (callsOnly_addColumns.mono fun _ h => h.mono ?_)
    fun added => ?_
  · simp [Plan.steps]
  refine CallsOnly.bind (callsOnly_findDefault.mono fun _ h => h.mono ?_)
    fun organization => ?_
  · simp [Plan.steps]
  exact CallsOnly.bind
    (callsOnly_backfillTables.mono fun _ h => h.mono ofTable_subset_steps)
    fun _ => callsOnly_pure

/-- What is done by the job's record makes calls of the job. -/
theorem Checkpoints.Covers.of_job (h : c.Covers job.plan.steps call)
    (henabled : c.enabled = true → job.useCheckpoints = true)
    (hfingerprint : c.fingerprint = job.plan.fingerprint) :
    job.Covers call := by
  rcases h with hstep | ⟨hon, step, hstep, rfl⟩
  · exact .inl hstep
  · exact .inr ⟨henabled hon, .inr (.inr ⟨step, hstep, by rw [hfingerprint]⟩)⟩

/-- Whatever the record holds, a run of a job makes calls of the job. -/
theorem callsOnly_run (job : Job) : CallsOnly job.Covers job.run.run := by
  rw [run_eq]
  unfold Job.checkpoints
  cases huse : job.useCheckpoints with
  | false =>
    exact (callsOnly_work job _).mono fun _ h => h.of_job nofun rfl
  | true =>
    refine ⟨.inr ⟨huse, .inl rfl⟩, fun answer => ?_⟩
    cases answer with
    | error e => trivial
    | ok _ =>
      refine ⟨.inr ⟨huse, .inr (.inl rfl)⟩, fun answer => ?_⟩
      cases answer with
      | error e => trivial
      | ok completed =>
        exact (callsOnly_work job _).mono fun _ h =>
          h.of_job (fun _ => huse) rfl

-- ============================================================== reach

/-- A call on one table touches no other. -/
theorem table?_onTable_of_ne {α : Type}
    {change : MemoryTable → Except BackfillError (α × MemoryTable)}
    {table : String}
    (h : table ≠ name) :
    (s.onTable table change).2.table? name = s.table? name := by
  unfold onTable
  cases s.table? table with
  | none => rfl
  | some t =>
    cases hchange : change t with
    | error e => simp only [hchange]
    | ok result =>
      simp only [hchange]
      exact table?_setTable_of_ne s _ h

/-- A table that a call does not work on is left alone. -/
theorem table?_answer
    (h : ∀ step, call.step? = some step → step.table? ≠ some name) :
    (answer call s).2.table? name = s.table? name := by
  cases call with
  | tableExists | columnExists | findOrganization | columnIsNullable
  | foreignKeyExists
  | ensureCheckpoints | completedSteps => rfl
  | recordStep fingerprint key => exact record_table? s fingerprint key
  | addNullableColumn | deriveFromOwner | applyDefault | countMissing
  | setNotNull
  | addForeignKey =>
    exact table?_onTable_of_ne fun hname => h _ rfl (congrArg some hname)
  | deriveFromParent table parent key =>
    cases hparent : s.table? parent with
    | none => rw [answer_deriveFromParent_of_none hparent]
    | some p =>
      rw [answer_deriveFromParent_of_some hparent]
      exact table?_onTable_of_ne fun hname => h _ rfl (congrArg some hname)

/-- What is recorded behind a call: what was, and the step that it records. -/
theorem mem_checkpoints_answer {recorded : String × String} :
    recorded ∈ (answer call s).2.checkpoints ↔
      recorded ∈ s.checkpoints ∨ call = .recordStep recorded.1 recorded.2 := by
  cases call with
  | tableExists | columnExists | findOrganization | columnIsNullable
  | foreignKeyExists
  | ensureCheckpoints | completedSteps => simp [answer]
  | recordStep fingerprint key =>
    refine mem_record.trans (or_congr_right ?_)
    obtain ⟨fingerprint', key'⟩ := recorded
    simp only [Prod.mk.injEq, StoreCall.recordStep.injEq]
    exact and_congr eq_comm eq_comm
  | addNullableColumn | deriveFromOwner | applyDefault | countMissing
  | setNotNull
  | addForeignKey => simp [answer, onTable_checkpoints]
  | deriveFromParent table parent key =>
    cases hparent : s.table? parent with
    | none => simp [answer_deriveFromParent_of_none hparent]
    | some p =>
      simp [answer_deriveFromParent_of_some hparent, onTable_checkpoints]

-- A part of a run leaves alone the tables that none of its steps is about,
-- and records its steps at most.

/-- A table that none of the steps names is left as it is. -/
theorem table?_of_callsOnly {α : Type} {p : StoreProgram α}
    (h : CallsOnly (c.Covers steps) p.run) (hrun : (p.run.run answer s).2 = s')
    (hname : ∀ step ∈ steps, step.table? ≠ some name) :
    s'.table? name = s.table? name := by
  have hkeeps :
      ∀ (call : StoreCall) (u : MemoryStore), u.table? name = s.table? name →
      c.Covers steps call → (answer call u).2.table? name = s.table? name := by
    rintro call u hu (⟨step, hmem, hstep⟩ | ⟨-, _, -, rfl⟩)
    · refine (table?_answer fun step' hstep' => ?_).trans hu
      cases hstep.symm.trans hstep'
      exact hname step hmem
    · refine (table?_answer fun step hstep => ?_).trans hu
      cases hstep
  exact hrun ▸ (h.abidesBy answer s).final hkeeps rfl

/-- A step that is not among those that were made was recorded before. -/
theorem recorded_of_callsOnly {α : Type} {p : StoreProgram α}
    (h : CallsOnly (c.Covers steps) p.run) (hrun : (p.run.run answer s).2 = s')
    {fingerprint : String} (hmem : (fingerprint, step.key) ∈ s'.checkpoints) :
    (fingerprint, step.key) ∈ s.checkpoints ∨ step ∈ steps := by
  have hkeeps : ∀ (call : StoreCall) (u : MemoryStore),
      ((fingerprint, step.key) ∈ u.checkpoints →
        (fingerprint, step.key) ∈ s.checkpoints ∨ step ∈ steps) →
      c.Covers steps call →
        (fingerprint, step.key) ∈ (answer call u).2.checkpoints →
        (fingerprint, step.key) ∈ s.checkpoints ∨ step ∈ steps := by
    intro call u hu hcall hmem
    rcases mem_checkpoints_answer.1 hmem with hmem | rfl
    · exact hu hmem
    · rcases hcall with ⟨_, -, hstep⟩ | ⟨-, step', hmem', hcall⟩
      · cases hstep
      · cases Step.key_injective (StoreCall.recordStep.inj hcall).2
        exact .inr hmem'
  exact (h.abidesBy answer s).final hkeeps .inl (hrun ▸ hmem)

-- ============================================================= record

/-- The store with the record of another. -/
def MemoryStore.withRecordOf (s other : MemoryStore) : MemoryStore :=
  { s with
    checkpoints := other.checkpoints, hasCheckpoints := other.hasCheckpoints }

/-- A call on a table does the same under another record. -/
theorem onTable_withRecordOf {α : Type}
    {change : MemoryTable → Except BackfillError (α × MemoryTable)}
    {other : MemoryStore} :
    (s.withRecordOf other).onTable name change
      = ((s.onTable name change).1,
        (s.onTable name change).2.withRecordOf other) := by
  have htable : (s.withRecordOf other).table? name = s.table? name := rfl
  unfold onTable
  rw [htable]
  cases s.table? name with
  | none => rfl
  | some t =>
    cases hchange : change t with
    | error e => simp only [hchange]
    | ok result =>
      simp only [hchange]
      rfl

/-- A call that works on a step neither reads the record nor writes it. -/
theorem answer_withRecordOf (hcall : call.step? = some step)
    (other : MemoryStore) :
    answer call (s.withRecordOf other)
      = ((answer call s).1, (answer call s).2.withRecordOf other) := by
  cases call with
  | tableExists | columnExists | findOrganization | columnIsNullable
  | foreignKeyExists => rfl
  | ensureCheckpoints | completedSteps | recordStep => cases hcall
  | addNullableColumn | deriveFromOwner | applyDefault | countMissing
  | setNotNull
  | addForeignKey =>
    simp only [answer]
    exact onTable_withRecordOf
  | deriveFromParent table parent key =>
    have htable : (s.withRecordOf other).table? parent = s.table? parent := rfl
    cases hparent : s.table? parent with
    | none =>
      rw [answer_deriveFromParent_of_none hparent,
        answer_deriveFromParent_of_none (htable.trans hparent)]
    | some p =>
      rw [answer_deriveFromParent_of_some hparent,
        answer_deriveFromParent_of_some (htable.trans hparent)]
      exact onTable_withRecordOf

/-- A run that does not go by the record makes no call that reads or writes
it. -/
theorem callsOnly_steps (hoff : job.useCheckpoints = false) :
    CallsOnly
      (fun call : StoreCall => ∃ step ∈ job.plan.steps, call.step? = some step)
      job.run.run := by
  refine (callsOnly_run job).mono fun call hcall => ?_
  rcases hcall with hstep | ⟨hon, -⟩
  · exact hstep
  · rw [hoff] at hon
    cases hon

/-- So it ends the same whatever is recorded, and leaves the record alone. -/
theorem runFor_withRecordOf (hoff : job.useCheckpoints = false)
    (other : MemoryStore) (calls : Nat) (s : MemoryStore) :
    job.run.run.runFor answer calls (s.withRecordOf other)
      = ((job.run.run.runFor answer calls s).1,
        (job.run.run.runFor answer calls s).2.withRecordOf other) := by
  have hcall :
      ∀ (call : StoreCall) (u v : MemoryStore), v = u.withRecordOf other →
      (∃ step ∈ job.plan.steps, call.step? = some step) →
      (answer call u).1 = (answer call v).1
        ∧ (answer call v).2 = (answer call u).2.withRecordOf other := by
    rintro call u v rfl ⟨step, -, hstep⟩
    rw [answer_withRecordOf hstep]
    exact ⟨rfl, rfl⟩
  obtain ⟨hresult, hstore⟩ := (callsOnly_steps hoff).alike hcall rfl calls
  exact Prod.ext hresult.symm hstore

-- =============================================================== run

/-- The steps of a plan are about tables of the plan. -/
theorem mem_tables_of_step {plan : Plan} (hstep : step ∈ plan.steps)
    (htable : step.table? = some name) :
    name ∈ plan.tables.map Entry.table := by
  rcases List.mem_append.1 hstep with hstep | hstep
  · obtain ⟨entry, hentry, rfl⟩ := List.mem_map.1 hstep
    cases htable
    exact List.mem_map_of_mem hentry
  · rcases List.mem_cons.1 hstep with rfl | hstep
    · cases htable
    · obtain ⟨entry, hentry, hstep⟩ := List.mem_flatMap.1 hstep
      cases htable.symm.trans (Step.table?_of_mem_ofTable hstep)
      exact List.mem_map_of_mem hentry

/-- A call of a job leaves alone a table that is not of the plan. -/
theorem Job.Covers.table? (h : job.Covers call)
    (hname : name ∉ job.plan.tables.map Entry.table) :
    (answer call s).2.table? name = s.table? name := by
  refine table?_answer fun step hstep htable => hname ?_
  rcases h with ⟨step', hmem, hstep'⟩ | ⟨-, rfl | rfl | ⟨_, -, rfl⟩⟩
  · cases hstep.symm.trans hstep'
    exact mem_tables_of_step hmem htable
  all_goals cases hstep

/-- And records under the fingerprint of the plan, if anything. -/
theorem Job.Covers.recorded (h : job.Covers call) {recorded : String × String}
    (hmem : recorded ∈ (answer call s).2.checkpoints) :
    recorded ∈ s.checkpoints ∨ recorded.1 = job.plan.fingerprint := by
  refine (mem_checkpoints_answer.1 hmem).imp_right fun hcall => ?_
  subst hcall
  rcases h with ⟨_, -, hstep⟩ | ⟨-, hcall | hcall | ⟨_, -, hcall⟩⟩
  · cases hstep
  · cases hcall
  · cases hcall
  · exact (StoreCall.recordStep.inj hcall).1

/-- A run of any plan on any store, which succeeded, failed or was cut short
behind any of its calls: rows were filled and columns tightened at most,
nothing happened to tables that are not of the plan, and steps of this
plan were recorded at most. A run that does not go by the record makes
no call that reads or writes it, and ends the same whatever is recorded. -/
theorem run_only_fills_and_tightens {job : Job} {calls : Nat}
    {s s' : MemoryStore} {outcome : Option (Except BackfillError Report)}
    (hrun : job.run.run.runFor answer calls s = (outcome, s')) :
    s.TightensTo s'
      ∧ (∀ name, name ∉ job.plan.tables.map Entry.table →
        s'.table? name = s.table? name)
      ∧ (∀ recorded ∈ s.checkpoints, recorded ∈ s'.checkpoints)
      ∧ (∀ recorded ∈ s'.checkpoints,
          recorded ∈ s.checkpoints ∨ recorded.1 = job.plan.fingerprint)
      ∧ (job.useCheckpoints = false →
          CallsOnly
            (fun call : StoreCall => ∃ step ∈ job.plan.steps,
              call.step? = some step)
              job.run.run
            ∧ s'.checkpoints = s.checkpoints
            ∧ s'.hasCheckpoints = s.hasCheckpoints
            ∧ ∀ other, job.run.run.runFor answer calls (s.withRecordOf other)
                = (outcome, s'.withRecordOf other)) := by
  have hreach := callsOnly_run job
  obtain rfl : s' = (job.run.run.runFor answer calls s).2 := by rw [hrun]
  obtain rfl : outcome = (job.run.run.runFor answer calls s).1 := by rw [hrun]
  refine ⟨tightensTo_runFor _ calls s, fun name hname => ?_,
    fun recorded hmem => ?_, ?_,
    fun hoff => ⟨callsOnly_steps hoff, ?_⟩⟩
  · have hkeeps :
        ∀ (call : StoreCall) (u : MemoryStore), u.table? name = s.table? name →
        job.Covers call → (answer call u).2.table? name = s.table? name :=
      fun call u hu hcall => (hcall.table? hname).trans hu
    exact hreach.runFor hkeeps rfl calls
  · have hkeeps :
        ∀ (call : StoreCall) (u : MemoryStore), recorded ∈ u.checkpoints →
        job.Covers call → recorded ∈ (answer call u).2.checkpoints :=
      fun call u hu _ => mem_checkpoints_answer.2 (.inl hu)
    exact hreach.runFor hkeeps hmem calls
  · have hkeeps : ∀ (call : StoreCall) (u : MemoryStore),
        (∀ recorded ∈ u.checkpoints,
          recorded ∈ s.checkpoints ∨ recorded.1 = job.plan.fingerprint) →
        job.Covers call → ∀ recorded ∈ (answer call u).2.checkpoints,
          recorded ∈ s.checkpoints ∨ recorded.1 = job.plan.fingerprint :=
      fun call u hu hcall recorded hmem =>
        (hcall.recorded hmem).elim (hu recorded) .inr
    exact hreach.runFor hkeeps (fun _ => .inl) calls
  · -- A store has its own record, so the run on it ends with that record.
    have hself : (job.run.run.runFor answer calls s).2
        = (job.run.run.runFor answer calls s).2.withRecordOf s :=
      congrArg Prod.snd (runFor_withRecordOf hoff s calls s)
    refine ⟨?_, ?_, fun other => runFor_withRecordOf hoff other calls s⟩
    all_goals
      rw [hself]
      rfl

/-- A run that goes by no record is cut short while it fills its first
table. -/
theorem smallJob_cut_only_fills_and_tightens :
    ∃ s', smallJob.run.run.runFor answer 8 smallStore = (none, s')
      ∧ smallStore.TightensTo s' ∧ s' ≠ smallStore
      ∧ (∀ name, name ∉ ["projects", "tasks"] →
        s'.table? name = smallStore.table? name)
      ∧ s'.checkpoints = [] := by
  have hcut : (smallJob.run.run.runFor answer 8 smallStore).1 = none := rfl
  have hchanged :
      (smallJob.run.run.runFor answer 8 smallStore).2 ≠ smallStore := by
    decide +kernel
  have hrun := Prod.ext hcut rfl
  obtain ⟨htightens, htables, -, -, hoff⟩ := run_only_fills_and_tightens hrun
  exact ⟨_, hrun, htightens, hchanged, htables, (hoff rfl).2.1⟩

end Tenancy.Backfill
