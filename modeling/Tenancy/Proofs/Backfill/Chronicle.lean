/-
What a recorded step goes back to. A run comes to the steps of its plan
in order: a step that it does not find recorded is worked on before it is
recorded, before any later step is worked on and before the run succeeds
(`inOrder_work`). So a run that came past a step without working on it
went by the record of that step (`Attempt.skips_of_passesOver`), and a
run that recorded a step which was not recorded before has worked on it.

Whatever runs of whatever plans went over a store (`Chronicle`), what is
recorded under a fingerprint was therefore done and recorded by a run of
a plan with that fingerprint, step by step. Fingerprints and keys are
told apart, so that plan is the same and that step is the same
(`checkpoint_honoured_by_its_step`).
-/
import Tenancy.Proofs.Backfill.Duties
import Tenancy.Proofs.Backfill.Fingerprint
import Tenancy.Proofs.Backfill.Footprint
import Tenancy.Proofs.Backfill.Retry
import Tenancy.Proofs.Precedence

namespace Tenancy.Backfill

open Program MemoryStore

variable {c : Checkpoints} {steps steps' own after : List Step} {step : Step}
  {call : StoreCall}
  {organization : Uuid} {entry : Entry} {report : TableReport}
    {s s' : MemoryStore} {job : Job}

-- ============================================================== order

/-- The call is work of a step, and not its record. -/
def StoreCall.WorksOn (step : Step) (call : StoreCall) : Prop :=
  call.step? = some step

/-- A call that records a step or works on one of the later steps. -/
def StoreCall.IsBehind (step : Step) (after : List Step) (call : StoreCall) :
    Prop :=
  (∃ fingerprint, call = .recordStep fingerprint step.key)
    ∨ ∃ later ∈ after, call.WorksOn later

/-- A part of a run comes to some steps in order. One that is not recorded is
worked on before the part succeeds, and before any call behind it. -/
def Checkpoints.InOrder {α : Type} (c : Checkpoints) (steps : List Step)
    (p : StoreProgram α) : Prop :=
  ∀ before step after, steps = before ++ step :: after →
    ¬c.isDone step.key = true →
    Needs (StoreCall.WorksOn step) p.run
      ∧ Precedes (StoreCall.WorksOn step) (StoreCall.IsBehind step after) p.run

section order

variable {α β : Type} {p : StoreProgram α} {f : α → StoreProgram β}

/-- Of no steps there is no order to keep. -/
theorem inOrder_nil : c.InOrder [] p := by
  intro before step after hsteps
  simp at hsteps

/-- A part that starts with its step. -/
theorem inOrder_of_starts
    {next : call.Answer → Program storeInterface (Except BackfillError α)}
    (hp : p.run = .ask call next) (hcall : call.WorksOn step) :
    c.InOrder [step] p := by
  intro before step' after hsteps _
  have hsame : step' = step := by
    have hmem : step' ∈ [step] := by simp [hsteps]
    exact List.mem_singleton.1 hmem
  subst hsame
  rw [hp]
  exact ⟨.inl hcall, .inl hcall⟩

/-- A step that is recorded may be left out. -/
theorem Checkpoints.InOrder.skip (h : c.InOrder steps p)
    (hdone : c.isDone step.key = true) : c.InOrder (step :: steps) p := by
  intro before step' after hsteps hnot
  cases before with
  | nil =>
    obtain ⟨rfl, -⟩ := List.cons.inj hsteps
    exact absurd hdone hnot
  | cons first before =>
    exact h before step' after (List.cons.inj hsteps).2 hnot

/-- A part that works on its own steps makes no call behind another. -/
theorem not_isBehind (hcall : c.Covers own call)
    (hafter : ∀ later ∈ after, later ∉ own)
    (hstep : step ∉ own) : ¬call.IsBehind step after := by
  rintro (⟨fingerprint, rfl⟩ | ⟨later, hlater, hworks⟩)
  · rcases hcall with ⟨_, -, hnone⟩ | ⟨-, step', hmem, hrecord⟩
    · cases hnone
    · exact hstep
        (Step.key_injective (StoreCall.recordStep.inj hrecord).2 ▸ hmem)
  · rcases hcall with ⟨step', hmem, hstep'⟩ | ⟨-, _, -, rfl⟩
    · cases hworks.symm.trans hstep'
      exact hafter later hlater hmem
    · cases hworks

/-- Parts in a row come to their steps in a row. -/
theorem Checkpoints.InOrder.bind_of_gives {Is : α → Prop}
    (hp : c.InOrder steps p)
    (hown : CallsOnly (c.Covers own) p.run)
    (hdisjoint : ∀ step ∈ steps', step ∉ own)
    (hgives : Gives Is p.run) (hf : ∀ a, Is a → c.InOrder steps' (f a)) :
    c.InOrder (steps ++ steps') (p >>= f) := by
  intro before step after hsteps hnot
  have hsecond : ∀ before', steps' = before' ++ step :: after →
      Needs (StoreCall.WorksOn step) (p >>= f).run
        ∧ Precedes (StoreCall.WorksOn step) (StoreCall.IsBehind step after)
          (p >>= f).run := by
    intro before' hsteps'
    refine ⟨.bind_right hgives fun a ha =>
      (hf a ha before' step after hsteps' hnot).1,
      .bind ?_ hgives fun a ha => (hf a ha before' step after hsteps' hnot).2⟩
    refine (hown.mono fun call hcall => ?_).precedes
    exact not_isBehind hcall
      (fun later hlater => hdisjoint later (by simp [hsteps', hlater]))
      (hdisjoint step (by simp [hsteps']))
  rcases List.append_eq_append_iff.1 hsteps with
    ⟨before', -, hsteps'⟩ | ⟨between, hfirst, hrest⟩
  · exact hsecond before' hsteps'
  cases between with
  | nil => exact hsecond [] hrest.symm
  | cons first between =>
    obtain ⟨rfl, rfl⟩ := List.cons.inj hrest
    obtain ⟨hneeds, hprecedes⟩ := hp before step between hfirst hnot
    refine ⟨hneeds.bind_left,
      (hprecedes.of_callsOnly hown ?_).bind_of_needs hneeds⟩
    rintro call hcall (hrecord | ⟨later, hlater, hworks⟩)
    · exact .inl hrecord
    · rcases List.mem_append.1 hlater with hlater | hlater
      · exact .inr ⟨later, hlater, hworks⟩
      · refine absurd (.inr ⟨later, List.mem_singleton.2 rfl, hworks⟩)
          (not_isBehind hcall
          (fun other hother => ?_) (hdisjoint later hlater))
        exact List.mem_singleton.1 hother ▸ hdisjoint later hlater

/-- What keeps its order is followed by other steps in theirs. -/
theorem Checkpoints.InOrder.bind (hp : c.InOrder steps p)
    (hown : CallsOnly (c.Covers own) p.run)
    (hdisjoint : ∀ step ∈ steps', step ∉ own)
    (hf : ∀ a, c.InOrder steps' (f a)) :
    c.InOrder (steps ++ steps') (p >>= f) :=
  hp.bind_of_gives hown hdisjoint (gives_any p.run) fun a _ => hf a

/-- It is followed by work of other steps that needs no order. -/
theorem Checkpoints.InOrder.bind_done (hp : c.InOrder steps p)
    (hown : CallsOnly (c.Covers own) p.run) : c.InOrder steps (p >>= f) := by
  have hnone : ∀ step ∈ ([] : List Step), step ∉ own := by simp
  have h := hp.bind hown hnone fun a => (inOrder_nil : c.InOrder [] (f a))
  rwa [List.append_nil] at h

end order

-- ============================================================= parts

/-- A column is added before it is recorded. -/
theorem inOrder_addColumn {table : String} :
    c.InOrder [.addColumn table] (addColumn table) :=
  inOrder_of_starts rfl rfl

/-- So are all columns, if no table is named twice. -/
theorem inOrder_addColumns {entries : List Entry}
    (hnodup : (entries.map Entry.table).Nodup) :
    c.InOrder (entries.map fun entry => .addColumn entry.table)
      (addColumns c entries) := by
  induction entries with
  | nil => exact inOrder_nil
  | cons entry rest ih =>
    obtain ⟨hentry, hrest⟩ := List.nodup_cons.1 hnodup
    have hlater : ∀ step ∈ rest.map fun entry => Step.addColumn entry.table,
        step ∉ [Step.addColumn entry.table] := by
      rintro step hstep hmem
      obtain ⟨other, hother, rfl⟩ := List.mem_map.1 hstep
      have hsame : other.table = entry.table :=
        Step.addColumn.inj (List.mem_singleton.1 hmem)
      exact hentry (hsame ▸ List.mem_map_of_mem hother)
    unfold addColumns
    by_cases hdone : c.isDone (stepKey "add_column" entry.table) = true
    · rw [if_pos hdone]
      exact ((ih hrest).bind_done callsOnly_addColumns).skip hdone
    · rw [if_neg hdone]
      have hstep : Step.addColumn entry.table ∈ [Step.addColumn entry.table] :=
        List.mem_singleton.2 rfl
      refine inOrder_addColumn.bind (callsOnly_addColumn hstep) hlater
        fun isNew => ?_
      refine Checkpoints.InOrder.bind inOrder_nil (callsOnly_mark hstep) hlater
        fun _ => ?_
      exact (ih hrest).bind_done callsOnly_addColumns

/-- The default organization is found before that is recorded. -/
theorem inOrder_findDefault {slug : String} :
    c.InOrder [.seedDefault] (findDefault c slug) :=
  inOrder_of_starts rfl rfl

/-- A table is filled before that is recorded. -/
theorem inOrder_fill :
    c.InOrder [.derive entry.table] (fill c organization entry report) := by
  by_cases hdone : c.isDone (stepKey "derive" entry.table) = true
  · exact Checkpoints.InOrder.skip inOrder_nil hdone
  · unfold fill
    rw [if_neg hdone]
    unfold derive
    cases entry.derivation with
    | ownerMembership column => exact inOrder_of_starts rfl rfl
    | parent parent key => exact inOrder_of_starts rfl rfl
    | defaultOnly => exact inOrder_of_starts rfl rfl

/-- It is checked before that is recorded. -/
theorem inOrder_verify {table : String} :
    c.InOrder [.verify table] (verify c table) :=
  inOrder_of_starts rfl rfl

/-- It is enforced before that is recorded. -/
theorem inOrder_enforce {table : String} :
    c.InOrder [.enforce table] (enforce c table report) := by
  by_cases hdone : c.isDone (stepKey "enforce" table) = true
  · exact Checkpoints.InOrder.skip inOrder_nil hdone
  · unfold enforce
    rw [if_neg hdone]
    exact inOrder_of_starts rfl rfl

/-- The steps of a table keep their order. -/
theorem inOrder_backfillTable :
    c.InOrder (Step.ofTable entry.table)
      (backfillTable c organization entry report) := by
  have hfill : CallsOnly (c.Covers [.derive entry.table])
      (fill c organization entry report).run :=
    callsOnly_fill (by simp)
  -- The check also records the filling.
  have hverify :
      CallsOnly (c.Covers [.derive entry.table, .verify entry.table])
        (verify c entry.table).run :=
    callsOnly_verify (by simp) (by simp)
  have hrest :
      ∀ report, c.InOrder [.verify entry.table, .enforce entry.table] (do
      verify c entry.table
      enforce c entry.table report) :=
    fun report => inOrder_verify.bind hverify (by simp) fun _ =>
      inOrder_enforce
  exact inOrder_fill.bind hfill (by simp) hrest

/-- And so do those of all tables. -/
theorem inOrder_backfillTables {work : List (Entry × TableReport)}
    (hnodup : ((work.map Prod.fst).map Entry.table).Nodup) :
    c.InOrder
      ((work.map Prod.fst).flatMap fun entry => Step.ofTable entry.table)
      (backfillTables c organization work) := by
  induction work with
  | nil => exact inOrder_nil
  | cons w rest ih =>
    obtain ⟨hentry, hrest⟩ := List.nodup_cons.1 hnodup
    refine inOrder_backfillTable.bind callsOnly_backfillTable ?_ fun _ =>
      (ih hrest).bind_done callsOnly_backfillTables
    intro step hstep hmem
    obtain ⟨other, hother, hstep⟩ := List.mem_flatMap.1 hstep
    have hsame :=
      (Step.table?_of_mem_ofTable hmem).symm.trans
        (Step.table?_of_mem_ofTable hstep)
    exact hentry (Option.some.inj hsame ▸ List.mem_map_of_mem hother)

/-- There is a report for each table. -/
theorem gives_addColumns {entries : List Entry} :
    Gives (fun result => result.1.length = entries.length)
      (addColumns c entries).run := by
  induction entries with
  | nil => exact rfl
  | cons entry rest ih =>
    have hlength :
        ∀ (report : TableReport) (result : List TableReport × List String),
        result.1.length = rest.length →
          (report :: result.1).length = (entry :: rest).length :=
      fun _ _ hresult => congrArg (· + 1) hresult
    unfold addColumns
    by_cases hdone : c.isDone (stepKey "add_column" entry.table) = true
    · rw [if_pos hdone]
      exact ih.bind fun result hresult => hlength _ result hresult
    · rw [if_neg hdone]
      refine (gives_any _).bind fun isNew _ => (gives_any _).bind fun _ _ => ?_
      exact ih.bind fun result hresult => hlength _ result hresult

/-- A run comes to the steps of its plan in order. -/
theorem inOrder_work (hnodup : (job.plan.tables.map Entry.table).Nodup)
    (c : Checkpoints) : c.InOrder job.plan.steps (job.work c) := by
  have htables : ∀ result : List TableReport × List String,
      result.1.length = job.plan.tables.length → ∀ organization,
      c.InOrder (job.plan.tables.flatMap fun entry => Step.ofTable entry.table)
        (backfillTables c organization (job.plan.tables.zip result.1)
          >>= fun reports =>
          pure (⟨c.fingerprint, result.2, organization, reports⟩ :
            Report)) := by
    intro result hlength organization
    have hwork :
        (job.plan.tables.zip result.1).map Prod.fst = job.plan.tables :=
      List.map_fst_zip (Nat.le_of_eq hlength.symm)
    have h : c.InOrder
        (((job.plan.tables.zip result.1).map Prod.fst).flatMap fun entry =>
          Step.ofTable entry.table)
        (backfillTables c organization (job.plan.tables.zip result.1)) :=
      inOrder_backfillTables (by rwa [hwork])
    rw [hwork] at h
    exact h.bind_done callsOnly_backfillTables
  have hseed :
      ∀ step ∈ job.plan.tables.flatMap fun entry => Step.ofTable entry.table,
      step ∉ [Step.seedDefault] := by
    intro step hstep hmem
    obtain ⟨entry, -, hstep⟩ := List.mem_flatMap.1 hstep
    rw [List.mem_singleton.1 hmem] at hstep
    simp [Step.ofTable] at hstep
  have hcolumns : ∀ step ∈ Step.seedDefault ::
      job.plan.tables.flatMap fun entry => Step.ofTable entry.table,
      step ∉ job.plan.tables.map fun entry => Step.addColumn entry.table := by
    intro step hstep hmem
    obtain ⟨entry, -, rfl⟩ := List.mem_map.1 hmem
    simp [Step.ofTable] at hstep
  refine (inOrder_addColumns hnodup).bind_of_gives callsOnly_addColumns
    hcolumns gives_addColumns
    fun result hlength => ?_
  exact inOrder_findDefault.bind callsOnly_findDefault hseed
    (htables result hlength)

-- ========================================================== attempts

/-- A run of a job on a store, cut short behind so many calls unless it ends
before. -/
structure Attempt where
  job : Job
  start : MemoryStore
  limit : Nat

namespace Attempt

/-- The calls that were made. -/
def calls (a : Attempt) : List StoreCall :=
  a.job.run.run.callsFor answer a.limit a.start

/-- How it ended; none if it was cut short. -/
def outcome (a : Attempt) : Option (Except BackfillError Report) :=
  (a.job.run.run.runFor answer a.limit a.start).1

/-- The store that it left. -/
def left (a : Attempt) : MemoryStore :=
  (a.job.run.run.runFor answer a.limit a.start).2

/-- The attempt has worked on the step. -/
def WorksOn (a : Attempt) (step : Step) : Prop :=
  ∃ call ∈ a.calls, call.WorksOn step

/-- The attempt has recorded the step. -/
def Records (a : Attempt) (step : Step) : Prop :=
  .recordStep a.job.plan.fingerprint step.key ∈ a.calls

/-- It came past a step without working on it: it went on to a later step, or
succeeded. -/
def PassesOver (a : Attempt) (step : Step) : Prop :=
  ¬a.WorksOn step ∧ ∃ before after, a.job.plan.steps = before ++ step :: after
    ∧ ((∃ report, a.outcome = some (.ok report)) ∨ ∃ later ∈ after,
      a.WorksOn later)

/-- A step that it does not find recorded is worked on before it comes past it,
and before it records it. -/
theorem worksOn_of_not_skips {a : Attempt}
    (hnodup : (a.job.plan.tables.map Entry.table).Nodup)
    {before : List Step} (hsteps : a.job.plan.steps = before ++ step :: after)
    (hskips : ¬Skips a.job a.start step.key)
    (hbehind : (∃ report, a.outcome = some (.ok report)) ∨ ∃ call ∈ a.calls,
      call.IsBehind step after) :
    a.WorksOn step := by
  have hrecord : CallsOnly (fun call => ¬StoreCall.IsBehind step after call)
      a.job.checkpoints.run := by
    have hnot : ∀ call : StoreCall,
        call = .ensureCheckpoints
          ∨ call = .completedSteps a.job.plan.fingerprint →
        ¬call.IsBehind step after := by
      rintro call (rfl | rfl) (⟨_, hcall⟩ | ⟨_, -, hcall⟩) <;> cases hcall
    refine .ite (fun _ => ?_) fun _ => callsOnly_pure
    refine callsOnly_ask (hnot _ (.inl rfl)) fun _ => ?_
    exact callsOnly_ask (hnot _ (.inr rfl)) fun _ => callsOnly_pure
  unfold WorksOn calls
  unfold outcome calls at hbehind
  rw [run_eq] at hbehind ⊢
  rcases callsFor_bind a.job.checkpoints a.job.work a.limit a.start with
    ⟨hcalls, hcut⟩ | ⟨c, s₁, later, hc, hcalls, hresult⟩
  · -- Cut short while it looks up the record, it has come past nothing.
    rcases hbehind with ⟨report, hreport⟩ | ⟨call, hmem, hcall⟩
    · exact absurd hreport (hcut report)
    · exact absurd hcall (hrecord.of_mem (hcalls ▸ hmem))
  · have hnone : ¬c.isDone step.key = true :=
      fun hdone => hskips (((underway_of_checkpoints hc).skips _).1 hdone)
    obtain ⟨hneeds, hprecedes⟩ :=
      inOrder_work hnodup c before step after hsteps hnone
    rw [hcalls]
    rw [hcalls, hresult] at hbehind
    obtain ⟨call, hmem, hworks⟩ :
        ∃ call ∈ (a.job.work c).run.callsFor answer later s₁,
        call.WorksOn step := by
      rcases hbehind with ⟨report, hreport⟩ | ⟨call, hmem, hcall⟩
      · exact hneeds.exists_call hreport
      · refine hprecedes.exists_call
          ((List.mem_append.1 hmem).resolve_left fun hmem => ?_) hcall
        exact hrecord.of_mem hmem hcall
    exact ⟨call, List.mem_append_right _ hmem, hworks⟩

/-- Whoever comes past a step without working on it goes by its record. -/
theorem skips_of_passesOver {a : Attempt}
    (hnodup : (a.job.plan.tables.map Entry.table).Nodup)
    (h : a.PassesOver step) : Skips a.job a.start step.key := by
  obtain ⟨hnot, before, after, hsteps, hpast⟩ := h
  by_contra hskips
  refine hnot (worksOn_of_not_skips hnodup hsteps hskips (hpast.imp_right ?_))
  rintro ⟨later, hlater, call, hmem, hworks⟩
  exact ⟨call, hmem, .inr ⟨later, hlater, hworks⟩⟩

end Attempt

/-- What is recorded behind a run: what was, and what it recorded. -/
theorem mem_checkpoints_runFor {α : Type} {p : Program storeInterface α}
    {calls : Nat} {recorded : String × String} :
    recorded ∈ (p.runFor answer calls s).2.checkpoints ↔
      recorded ∈ s.checkpoints
        ∨ StoreCall.recordStep recorded.1 recorded.2
          ∈ p.callsFor answer calls s := by
  induction p generalizing calls s with
  | done a =>
    cases calls <;> exact ⟨.inl, fun h => h.resolve_right List.not_mem_nil⟩
  | ask call next ih =>
    cases calls with
    | zero => exact ⟨.inl, fun h => h.resolve_right List.not_mem_nil⟩
    | succ calls =>
      have hanswer : recorded ∈ (answer call s).2.checkpoints ↔
          recorded ∈ s.checkpoints
            ∨ call = .recordStep recorded.1 recorded.2 :=
        mem_checkpoints_answer
      constructor
      · intro h
        rcases (ih _).1 h with h | h
        · exact (hanswer.1 h).imp_right fun hcall =>
            List.mem_cons.2 (.inl hcall.symm)
        · exact .inr (List.mem_cons_of_mem _ h)
      · rintro (h | h)
        · exact (ih _).2 (.inl (hanswer.2 (.inl h)))
        · rcases List.mem_cons.1 h with hcall | h
          · exact (ih _).2 (.inl (hanswer.2 (.inr hcall.symm)))
          · exact (ih _).2 (.inr h)

-- ========================================================= chronicle

/-- What went over a store that started without a record: attempts at some
plans, the latest first, and whatever else leaves the record alone. -/
inductive Chronicle (Plans : Plan → Prop) : List Attempt → MemoryStore → Prop
  | start {s : MemoryStore} (hrecord : s.checkpoints = []) :
      Chronicle Plans [] s
  | attempt {attempts : List Attempt} {s : MemoryStore}
      (h : Chronicle Plans attempts s) {job : Job}
      (hplan : Plans job.plan) (limit : Nat) :
    Chronicle Plans (⟨job, s, limit⟩ :: attempts) (Attempt.mk job s limit).left
  | change {attempts : List Attempt} {s s' : MemoryStore}
      (h : Chronicle Plans attempts s)
      (hrecord : s'.checkpoints = s.checkpoints) :
    Chronicle Plans attempts s'

/-- What is recorded was done and recorded by an attempt at a plan of that
fingerprint. -/
theorem Chronicle.recorded {Plans : Plan → Prop} {attempts : List Attempt}
    (h : Chronicle Plans attempts s)
    (haccepted : ∀ p, Plans p → ∃ entries, Plan.ofEntries entries = .ok p)
    {fingerprint : String} (hmem : (fingerprint, step.key) ∈ s.checkpoints) :
    ∃ a ∈ attempts,
      Plans a.job.plan ∧ a.job.plan.fingerprint = fingerprint ∧ a.WorksOn step
      ∧ a.Records step := by
  induction h with
  | start hrecord =>
    rw [hrecord] at hmem
    cases hmem
  | @attempt attempts s _ job hplan limit ih =>
    by_cases hbefore : (fingerprint, step.key) ∈ s.checkpoints
    · obtain ⟨a, ha, hfound⟩ := ih hbefore
      exact ⟨a, List.mem_cons_of_mem _ ha, hfound⟩
    · have hcall := (mem_checkpoints_runFor.1 hmem).resolve_left hbefore
      rcases (callsOnly_run job).of_mem hcall with
        ⟨_, -, hnone⟩ | ⟨-, hother | hother | ⟨step', hstep', hsame⟩⟩
      · cases hnone
      · cases hother
      · cases hother
      obtain ⟨rfl, hkey⟩ := StoreCall.recordStep.inj hsame
      obtain rfl := Step.key_injective hkey
      obtain ⟨before, after, hsteps⟩ := List.append_of_mem hstep'
      obtain ⟨entries, hentries⟩ := haccepted _ hplan
      refine ⟨⟨job, s, limit⟩, List.mem_cons_self .., hplan, rfl, ?_, hcall⟩
      refine Attempt.worksOn_of_not_skips
        (Plan.ofEntries_ok hentries).2.1 hsteps
        (fun hskips => hbefore hskips.2) (.inr ⟨_, hcall, .inl ⟨_, rfl⟩⟩)
  | change _ hrecord ih => exact ih (hrecord ▸ hmem)

/-- Where the digests of some plans are told apart, what is digested and the
fingerprint determine each plan, and no two steps have one key. So in
whatever is tried with these plans on a store, one that comes past a step
without working on it goes by the record of that step, and an earlier one
with the same tables and derivations in the same order has worked on that
step and recorded it. -/
theorem checkpoint_honoured_by_its_step {Plans : Plan → Prop}
    (haccepted : ∀ p, Plans p → ∃ entries, Plan.ofEntries entries = .ok p)
    (hapart : ToldApart Plans) :
    (∀ p q, Plans p → Plans q →
        (Text.utf8 p.identity = Text.utf8 q.identity ↔ p.tables = q.tables)
          ∧ (p.fingerprint = q.fingerprint ↔ p.tables = q.tables))
      ∧ (∀ step step' : Step,
          stepKey step.name step.table? = stepKey step'.name step'.table?
            ↔ step = step')
      ∧ ∀ attempts s, Chronicle Plans attempts s → ∀ a : Attempt, a.start = s →
        Plans a.job.plan →
          ∀ step, (a.PassesOver step → Skips a.job s step.key)
            ∧ (Skips a.job s step.key → ∃ earlier ∈ attempts,
                earlier.job.plan.tables = a.job.plan.tables
                  ∧ earlier.WorksOn step ∧ earlier.Records step) := by
  have hvalid : ∀ p, Plans p → ∀ entry ∈ p.tables, entry.Valid := by
    intro p hp
    obtain ⟨entries, hentries⟩ := haccepted p hp
    exact valid_of_ofEntries hentries
  refine ⟨fun p q hp hq => ⟨⟨?_, ?_⟩, ⟨?_, ?_⟩⟩, fun step step' => ⟨?_, ?_⟩,
    ?_⟩
  · exact identity_injective (hvalid p hp) (hvalid q hq)
  · intro htables
    unfold Plan.identity
    rw [htables]
  · exact fingerprint_injective hapart hp hq (hvalid p hp) (hvalid q hq)
  · intro htables
    unfold Plan.fingerprint Plan.identity
    rw [htables]
  · exact fun hkey => Step.key_injective hkey
  · rintro rfl
    rfl
  · rintro attempts s h a rfl hplan step
    refine ⟨fun hpasses => ?_, fun hskips => ?_⟩
    · obtain ⟨entries, hentries⟩ := haccepted _ hplan
      exact a.skips_of_passesOver (Plan.ofEntries_ok hentries).2.1 hpasses
    · obtain ⟨earlier, hmem, hplan', hfingerprint, hworks, hrecords⟩ :=
        h.recorded haccepted hskips.2
      exact ⟨earlier, hmem,
        fingerprint_injective hapart hplan' hplan (hvalid _ hplan')
        (hvalid _ hplan) hfingerprint, hworks, hrecords⟩

-- One run is cut short once it has recorded the filling; the next succeeds.

/-- Two plans of one table, which are told apart by its derivation. -/
def DocsPlans (plan : Plan) : Prop :=
  plan = docsJob.plan ∨ plan = ⟨[⟨"docs", .ownerMembership "user_id"⟩]⟩

/-- The two small plans have different fingerprints. -/
theorem docsPlans_toldApart : ToldApart DocsPlans := by
  have hother : Crypto.Sha256.digest (Text.utf8 docsJob.plan.identity)
      ≠ Crypto.Sha256.digest
        (Text.utf8
          (Plan.mk [⟨"docs", .ownerMembership "user_id"⟩]).identity) := by
    decide +kernel
  rintro p q (rfl | rfl) (rfl | rfl) hdigest
  · rfl
  · exact absurd hdigest hother
  · exact absurd hdigest.symm hother
  · rfl

/-- Both are plans that are accepted. -/
theorem docsPlans_accepted :
    ∀ p, DocsPlans p → ∃ entries, Plan.ofEntries entries = .ok p := by
  rintro p (rfl | rfl)
  · exact ⟨_, docsPlan_ok⟩
  · exact ⟨[⟨"docs", .ownerMembership "user_id"⟩], rfl⟩

/-- The second run. -/
def docsAgain : Attempt := ⟨docsJob, docsCut 12, 20⟩

/-- The keys that it finds. -/
def docsKeys : List String :=
  ["add_column:docs", "derive:docs", "seed_default", "verify:docs"]

/-- What the cut run has recorded. -/
theorem docsCut_keys :
    (docsCut 12).recorded docsJob.plan.fingerprint = docsKeys := by
  have hkeys :
      ((docsCut 12).checkpoints.filter fun c =>
        c.1 == docsJob.plan.fingerprint).map Prod.snd
      = ["add_column:docs", "seed_default", "derive:docs",
        "verify:docs"] := by
    decide +kernel
  unfold recorded
  rw [hkeys]
  simp [List.mergeSort, docsKeys]

instance : DecidableEq storeInterface.Call :=
  inferInstanceAs (DecidableEq StoreCall)

/-- It goes by them. -/
theorem docsAgain_calls :
    docsAgain.calls
      = [.ensureCheckpoints, .completedSteps docsJob.plan.fingerprint,
        .findOrganization "default",
        .countMissing "docs", .columnIsNullable "docs", .setNotNull "docs",
        .foreignKeyExists "docs", .addForeignKey "docs",
        .recordStep docsJob.plan.fingerprint "enforce:docs"] := by
  have hwork :
      (docsJob.work ⟨true, docsJob.plan.fingerprint, docsKeys⟩).run.callsFor
        answer 18
        { docsCut 12 with hasCheckpoints := true }
      = [.findOrganization "default", .countMissing "docs",
        .columnIsNullable "docs",
        .setNotNull "docs", .foreignKeyExists "docs", .addForeignKey "docs",
        .recordStep docsJob.plan.fingerprint "enforce:docs"] := by
    decide +kernel
  rw [← docsCut_keys] at hwork
  exact congrArg (fun calls : List StoreCall =>
    .ensureCheckpoints :: .completedSteps docsJob.plan.fingerprint :: calls)
      hwork

/-- The next run passes over a step that the cut one worked on and recorded. -/
theorem docsAgain_passes_over :
    docsAgain.PassesOver (.derive "docs")
      ∧ ∃ earlier ∈ [Attempt.mk docsJob docsStore 12],
        earlier.WorksOn (.derive "docs")
          ∧ earlier.Records (.derive "docs") := by
  have hpasses : docsAgain.PassesOver (.derive "docs") := by
    unfold Attempt.PassesOver Attempt.WorksOn StoreCall.WorksOn
    rw [docsAgain_calls]
    exact ⟨by simp [StoreCall.step?], [.addColumn "docs", .seedDefault],
      [.verify "docs", .enforce "docs"], rfl,
      .inr ⟨.enforce "docs", by simp, by simp [StoreCall.step?]⟩⟩
  have hchronicle :
      Chronicle DocsPlans [⟨docsJob, docsStore, 12⟩] (docsCut 12) :=
    .attempt (.start rfl) (.inl rfl) 12
  obtain ⟨-, -, hhistory⟩ :=
    checkpoint_honoured_by_its_step docsPlans_accepted docsPlans_toldApart
  obtain ⟨hskips, hearlier⟩ :=
    hhistory _ _ hchronicle docsAgain rfl (.inl rfl) (.derive "docs")
  obtain ⟨earlier, hmem, -, hdone⟩ := hearlier (hskips hpasses)
  exact ⟨hpasses, earlier, hmem, hdone⟩

end Tenancy.Backfill
