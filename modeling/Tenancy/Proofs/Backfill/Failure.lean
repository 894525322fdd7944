/-
How a run of a backfill fails, and what it leaves. No part of a run fails
but in one way: a column cannot be added to a table that is missing
(`fails_addColumn`), the default organization may be missing
(`fails_findDefault`), and the check stops at a table with a gap
(`fails_backfillTable`). The parts that can succeed do, so each of these
is read off what it takes to succeed.

The two passes over the plan fail at one entry, with those before it done
(`fails_addColumns`, `fails_backfillTables`). That splits the plan into
tables that are finished, the one that failed and tables that only got
the column, since no step of them was come to. A run that found none of
its steps recorded therefore stops cleanly (`failing_run_stops_cleanly`).
-/
import Tenancy.Proofs.Backfill.Duties
import Tenancy.Proofs.Backfill.Footprint

namespace Tenancy.Backfill

open Program MemoryStore

variable {c : Checkpoints} {s s' start : MemoryStore} {organization : Uuid}
  {entry : Entry} {entries placed rest : List Entry} {table name : String}
    {report : TableReport} {e : BackfillError} {t : MemoryTable} {job : Job}

-- ============================================================= parts

/-- Preparing the record cannot fail. -/
theorem not_fails_checkpoints : ¬Fails answer job.checkpoints s e s' := by
  intro h
  cases huse : job.useCheckpoints with
  | true =>
    exact h.not_succeeds (succeeds_checkpoints.2 (.inl ⟨huse, rfl, rfl⟩))
  | false =>
    exact h.not_succeeds (succeeds_checkpoints.2 (.inr ⟨huse, rfl, rfl⟩))

/-- Marking a step cannot fail. -/
theorem not_fails_mark {key : String} : ¬Fails answer (c.mark key) s e s' :=
  fun h => h.not_succeeds (a := ()) (succeeds_mark.2 rfl)

/-- A column cannot be added only if the table is missing. -/
theorem fails_addColumn :
    Fails answer (addColumn table) s e s' ↔
      s.table? table = none ∧ e = .tableMissing table ∧ s' = s := by
  have hmissing (hnone : s.table? table = none) :
      Fails answer (addColumn table) s (.tableMissing table) s := by
    refine fails_bind.2
      (.inr ⟨_, s, succeeds_ask.2 rfl, (fails_if_pos (by simp [hnone])).2 ?_⟩)
    exact fails_bind.2 (.inl (fails_throw.2 ⟨rfl, rfl⟩))
  constructor
  · intro h
    cases ht : s.table? table with
    | none => exact ⟨rfl, h.unique (hmissing ht)⟩
    | some t =>
      exact absurd (succeeds_addColumn.2 ⟨t, ht, rfl, rfl⟩) h.not_succeeds
  · rintro ⟨hnone, rfl, rfl⟩
    exact hmissing hnone

/-- The default organization cannot be found only if it is missing. -/
theorem fails_findDefault {slug : String} :
    Fails answer (findDefault c slug) s e s' ↔
      s.organization? slug = none ∧ e = .defaultOrganizationMissing slug
        ∧ s' = s := by
  have hmissing (hnone : s.organization? slug = none) :
      Fails answer (findDefault c slug) s (.defaultOrganizationMissing slug)
        s := by
    refine fails_bind.2
      (.inr ⟨none, s, succeeds_ask.2 ?_, fails_throw.2 ⟨rfl, rfl⟩⟩)
    show (Except.ok (s.organization? slug), s) = _
    rw [hnone]
    rfl
  constructor
  · intro h
    cases hfound : s.organization? slug with
    | none => exact ⟨rfl, h.unique (hmissing hfound)⟩
    | some id =>
      exact absurd (succeeds_findDefault.2 ⟨hfound, rfl⟩) h.not_succeeds
  · rintro ⟨hnone, rfl, rfl⟩
    exact hmissing hnone

/-- What the check says of a table with a gap. -/
def gapError (table : String) (count : Nat) : BackfillError :=
  .invariantViolation table
    (toString count ++ " rows still have a NULL organization_id")

/-- A row without an organization is found by the check, which says how many
there are. -/
theorem fails_verify_of_gap (ht : s.table? table = some t)
    (hgap : missing t > 0) :
    Fails answer (verify c table) s (gapError table (missing t)) s := by
  have hcount := answer_countMissing.2 ⟨t, ht, rfl, rfl⟩
  refine fails_bind.2
    (.inr ⟨missing t, s, succeeds_ask.2 hcount, (fails_if_pos hgap).2 ?_⟩)
  exact fails_bind.2 (.inl (fails_throw.2 ⟨rfl, rfl⟩))

/-- A table that is there, with its parent's, is filled and fails the check, if
its pass fails. -/
theorem fails_backfillTable (ht : s.table? entry.table = some t)
    (hparent : ∀ parent ∈ entry.parent?, (s.table? parent).isSome = true)
    (h : Fails answer (backfillTable c organization entry report) s e s') :
    missing (filled c s organization entry t) > 0
      ∧ e = gapError entry.table (missing (filled c s organization entry t))
      ∧ s' = s.setTable entry.table (filled c s organization entry t) := by
  by_cases hgap : missing (filled c s organization entry t) > 0
  · obtain ⟨report₁, hfill⟩ := fill_total ht hparent
    have hverify :=
      fails_verify_of_gap (c := c) (table?_setTable s entry.table _) hgap
    exact ⟨hgap,
      h.unique
      (fails_bind.2 (.inr ⟨report₁, _, hfill, fails_bind.2 (.inl hverify)⟩))⟩
  · obtain ⟨report', s₁, hsucceeds⟩ :=
      backfillTable_total ht hparent (Nat.eq_zero_of_not_pos hgap)
    exact absurd hsucceeds h.not_succeeds

-- ============================================================ passes

/-- Columns cannot be added because a table is missing, and those before it
have got theirs. -/
theorem fails_addColumns (hnone : ∀ key, ¬c.isDone key = true)
    (h : Fails answer (addColumns c entries) s e s') :
    ∃ placed entry rest result,
      entries = placed ++ entry :: rest ∧ e = .tableMissing entry.table
      ∧ s'.table? entry.table = none
      ∧ Succeeds answer (addColumns c placed) s result s' := by
  induction entries generalizing s with
  | nil => exact absurd h not_fails_pure
  | cons entry rest ih =>
    rcases fails_bind.1
      ((fails_if_neg (hnone _)).1 h) with h | ⟨isNew, s₁, hcolumn, h⟩
    · obtain ⟨hmissing, rfl, rfl⟩ := fails_addColumn.1 h
      exact ⟨[], entry, rest, ([], []), rfl, rfl, hmissing,
        succeeds_pure.2 ⟨rfl, rfl⟩⟩
    rcases fails_bind.1 h with h | ⟨_, s₂, hmark, h⟩
    · exact absurd h not_fails_mark
    rcases fails_bind.1 h with h | ⟨found, s₃, -, h⟩
    · obtain ⟨placed, failing, later, result, rfl, he, hmissing, hplaced⟩ :=
        ih h
      cases succeeds_mark.1 hmark
      exact ⟨entry :: placed, failing, later, _, rfl, he, hmissing,
        addColumns_cons (hnone _) hcolumn hplaced⟩
    · exact absurd h not_fails_pure

/-- Tables cannot all be filled because the pass over one of them fails, and
those before it are done. -/
theorem fails_backfillTables {work : List (Entry × TableReport)}
    (h : Fails answer (backfillTables c organization work) s e s') :
    ∃ before w after reports s₁, work = before ++ w :: after
      ∧ Succeeds answer (backfillTables c organization before) s reports s₁
      ∧ Fails answer (backfillTable c organization w.1 w.2) s₁ e s' := by
  induction work generalizing s with
  | nil => exact absurd h not_fails_pure
  | cons w rest ih =>
    rcases fails_bind.1 h with h | ⟨report, s₁, htable, h⟩
    · exact ⟨[], w, rest, [], s, rfl, succeeds_pure.2 ⟨rfl, rfl⟩, h⟩
    rcases fails_bind.1 h with h | ⟨reports, s₂, -, h⟩
    · obtain ⟨before, failing, after, reports, s₂, rfl, hbefore, hfails⟩ :=
        ih h
      refine ⟨w :: before, failing, after, report :: reports, s₂, rfl, ?_,
        hfails⟩
      refine succeeds_bind.2
        ⟨report, s₁, htable, succeeds_bind.2 ⟨reports, s₂, hbefore, ?_⟩⟩
      exact succeeds_pure.2 ⟨rfl, rfl⟩
    · exact absurd h not_fails_pure

-- ============================================================ effects

/-- A column is there once. -/
theorem withColumn_withColumn (t : MemoryTable) :
    withColumn (withColumn t) = withColumn t := by
  unfold withColumn
  by_cases hcolumn : t.hasColumn = true
  · simp [hcolumn]
  · simp [hcolumn]

/-- Tables get the column, and no other table changes. -/
theorem table?_of_addColumns {result : List TableReport × List String}
    (hnone : ∀ key, ¬c.isDone key = true)
    (h : Succeeds answer (addColumns c entries) s result s') (name : String) :
    s'.table? name
      = if name ∈ entries.map Entry.table then (s.table? name).map withColumn
        else s.table? name := by
  induction entries generalizing s result with
  | nil =>
    obtain ⟨-, rfl⟩ := succeeds_pure.1 h
    rfl
  | cons entry rest ih =>
    obtain ⟨isNew, s₁, hcolumn, h⟩ :=
      succeeds_bind.1 ((succeeds_if_neg (hnone _)).1 h)
    obtain ⟨_, s₂, hmark, h⟩ := succeeds_bind.1 h
    cases succeeds_mark.1 hmark
    obtain ⟨found, s₃, hrest, h⟩ := succeeds_bind.1 h
    obtain ⟨-, rfl⟩ := succeeds_pure.1 h
    obtain ⟨t, ht, -, rfl⟩ := succeeds_addColumn.1 hcolumn
    rw [ih hrest, table?_marked]
    by_cases hname : entry.table = name
    · subst hname
      rw [table?_setTable, ht]
      simp [withColumn_withColumn]
    · rw [table?_setTable_of_ne _ _ hname]
      simp [Ne.symm hname]

/-- Filling touches nothing but the rows. -/
theorem fillTable_eq (choose : MemoryRow → Option Uuid) (t : MemoryTable) :
    (fillTable choose t).2
      = { t with rows := (fillTable choose t).2.rows } := by
  unfold fillTable
  split <;> rfl

/-- Filling changes the rows of a table only. -/
theorem filled_eq (t : MemoryTable) :
    filled c s organization entry t
      = { t with rows := (filled c s organization entry t).rows } := by
  unfold filled
  split
  · rfl
  · unfold fillTwice
    rw [fillTable_eq, fillTable_eq]

/-- Some tables have got the column, and nothing else has happened but that
this was recorded: no filling, check or enforcement was, of any table. -/
structure OnlyColumns (start s : MemoryStore) (tables : List String) :
    Prop where
  table : ∀ name, s.table? name
    = if name ∈ tables then (start.table? name).map withColumn
      else start.table? name
  organizations : s.organizations = start.organizations
  memberships : s.memberships = start.memberships
  unrecorded : ∀ fingerprint name, ∀ step ∈ Step.ofTable name,
    (fingerprint, step.key) ∈ s.checkpoints →
      (fingerprint, step.key) ∈ start.checkpoints

/-- The first pass adds columns, records them and does nothing else. -/
theorem onlyColumns_of_addColumns {result : List TableReport × List String}
    (hc : Succeeds answer job.checkpoints start c s)
    (hnone : ∀ key, ¬c.isDone key = true)
    (h : Succeeds answer (addColumns c entries) s result s') :
    OnlyColumns start s' (entries.map Entry.table) := by
  have htightens :=
    (tightensTo_of_succeeds hc).trans (tightensTo_of_succeeds h)
  obtain ⟨htables, hcheckpoints⟩ :
      (∀ name, s.table? name = start.table? name)
        ∧ s.checkpoints = start.checkpoints := by
    rcases succeeds_checkpoints.1 hc with ⟨-, -, rfl⟩ | ⟨-, -, rfl⟩
    · exact ⟨fun _ => rfl, rfl⟩
    · exact ⟨fun _ => rfl, rfl⟩
  refine ⟨fun name => ?_, htightens.organizations, htightens.memberships, ?_⟩
  · rw [table?_of_addColumns hnone h, htables]
  · intro fingerprint name step hstep hmem
    rw [← hcheckpoints]
    have hrecorded :=
      recorded_of_callsOnly callsOnly_addColumns (congrArg Prod.snd h) hmem
    refine hrecorded.resolve_right fun hadd => ?_
    obtain ⟨e, -, rfl⟩ := List.mem_map.1 hadd
    simp [Step.ofTable] at hstep

/-- Finding the default organization adds at most its own record. -/
theorem OnlyColumns.of_findDefault {slug : String} {tables : List String}
    (h : OnlyColumns start s tables)
    (hfound : Succeeds answer (findDefault c slug) s organization s') :
    OnlyColumns start s' tables := by
  have htightens := tightensTo_of_succeeds hfound
  refine ⟨fun name => ?_, htightens.organizations.trans h.organizations,
    htightens.memberships.trans h.memberships,
    fun fingerprint name step hstep hmem => ?_⟩
  · rw [(succeeds_findDefault.1 hfound).2, table?_markedOnce, h.table]
  · refine h.unrecorded fingerprint name step hstep ?_
    have hrecorded :=
      recorded_of_callsOnly callsOnly_findDefault
        (congrArg Prod.snd hfound) hmem
    refine hrecorded.resolve_right fun hseed => ?_
    rw [List.mem_singleton.1 hseed] at hstep
    simp [Step.ofTable] at hstep

-- The pass over some tables does not come to the steps of others.

/-- A table that is not among the work is left as it is. -/
theorem table?_of_backfillTables {work : List (Entry × TableReport)}
    {reports : List TableReport}
    (h : Succeeds answer (backfillTables c organization work) s reports s')
    (hname : name ∉ (work.map Prod.fst).map Entry.table) :
    s'.table? name = s.table? name := by
  refine table?_of_callsOnly callsOnly_backfillTables (congrArg Prod.snd h)
    fun step hstep htable =>
    hname ?_
  obtain ⟨e, he, hstep⟩ := List.mem_flatMap.1 hstep
  cases htable.symm.trans (Step.table?_of_mem_ofTable hstep)
  exact List.mem_map_of_mem he

/-- No step of a table that is not among the work is recorded. -/
theorem unrecorded_of_backfillTables {work : List (Entry × TableReport)}
    {reports : List TableReport} {step : Step} {fingerprint : String}
    (h : Succeeds answer (backfillTables c organization work) s reports s')
    (hname : name ∉ (work.map Prod.fst).map Entry.table)
    (hstep : step ∈ Step.ofTable name)
    (hmem : (fingerprint, step.key) ∈ s'.checkpoints) :
    (fingerprint, step.key) ∈ s.checkpoints := by
  have hrecorded :=
    recorded_of_callsOnly callsOnly_backfillTables (congrArg Prod.snd h) hmem
  refine hrecorded.resolve_right fun hother => hname ?_
  obtain ⟨e, he, hother⟩ := List.mem_flatMap.1 hother
  cases (Step.table?_of_mem_ofTable hstep).symm.trans
    (Step.table?_of_mem_ofTable hother)
  exact List.mem_map_of_mem he

-- =============================================================== run

/-- A run stopped at a table with a gap: the tables before it are finished, it
was filled itself at most, the later ones got the column at most, and no
step of these was recorded. -/
structure StoppedAtGap (plan : Plan) (start s : MemoryStore)
    (placed : List Entry) (entry : Entry)
    (rest : List Entry) (count : Nat) : Prop where
  finished : ∀ e ∈ placed, s.Complete e.table ∧ s.Enforced e.table
  failed :
    ∃ t₀ t, start.table? entry.table = some t₀ ∧ s.table? entry.table = some t
    ∧ t = { withColumn t₀ with rows := t.rows } ∧ missing t = count
  positive : count > 0
  later : ∀ e ∈ rest, s.table? e.table = (start.table? e.table).map withColumn
  unrecorded : ∀ e ∈ entry :: rest, ∀ step ∈ Step.ofTable e.table,
    (plan.fingerprint, step.key) ∉ s.checkpoints

/-- In a plan without duplicates the tables behind an entry are neither it nor
before it. -/
theorem not_mem_placed {tables : List Entry}
    (hnodup : (tables.map Entry.table).Nodup)
    (hplanned : tables = placed ++ entry :: rest) :
    (∀ e ∈ entry :: rest, e.table ∉ placed.map Entry.table)
      ∧ ∀ e ∈ rest, entry.table ≠ e.table := by
  rw [hplanned, List.map_append, List.nodup_append, List.map_cons,
    List.nodup_cons] at hnodup
  obtain ⟨-, ⟨hentry, -⟩, hdisjoint⟩ := hnodup
  refine ⟨fun e he hmem => ?_,
    fun e he hsame => hentry (hsame ▸ List.mem_map_of_mem he)⟩
  exact hdisjoint _ hmem _ (List.mem_map_of_mem (f := Entry.table) he) rfl

/-- The pass over the tables stops at a gap, if it fails. -/
theorem stoppedAtGap_of_fails {work : List (Entry × TableReport)}
    (hplan : Plan.ofEntries entries = .ok job.plan)
    (hfresh : start.recorded job.plan.fingerprint = [])
    (h : Underway job start c s)
    (honly : OnlyColumns start s (job.plan.tables.map Entry.table))
    (hcolumns : ∀ e ∈ job.plan.tables, s.HasColumn e.table)
    (hdefault : s.organization? job.defaultSlug = some organization)
    (hwork : work.map Prod.fst = job.plan.tables)
    (hfails : Fails answer (backfillTables c organization work) s e s') :
    ∃ placed entry rest count, job.plan.tables = placed ++ entry :: rest
      ∧ e = gapError entry.table count
      ∧ StoppedAtGap job.plan start s' placed entry rest count := by
  obtain ⟨-, hnodup, hfirst⟩ := Plan.ofEntries_ok hplan
  obtain ⟨before, w, after, reports, s₁, rfl, hbefore, htable⟩ :=
    fails_backfillTables hfails
  have htightens := tightensTo_of_succeeds hbefore
  have hplanned :
      job.plan.tables = before.map Prod.fst ++ w.1 :: after.map Prod.fst := by
    rw [← hwork, List.map_append, List.map_cons]
  obtain ⟨hplaced, hlater⟩ := not_mem_placed hnodup hplanned
  -- The tables before it are finished, so it is the turn of the one that
  -- fails.
  have hfinished :
      ∀ e ∈ before.map Prod.fst,
        s₁.Complete e.table ∧ s₁.Enforced e.table := by
    intro e he
    obtain ⟨v, hv, rfl⟩ := List.mem_map.1 he
    refine finished_of_backfillTables h (truthful_of_recorded hfresh)
      (fun v hv => hcolumns v.1 ?_)
      hbefore v hv
    rw [hplanned]
    exact List.mem_append_left _ (List.mem_map_of_mem hv)
  have hturn : Turn job s₁ (before.map Prod.fst) w.1 organization :=
    ⟨⟨_, hplanned⟩, fun e he => (hcolumns e he).tightens htightens,
      (organization?_of_tightensTo htightens _).trans hdefault, hfinished⟩
  -- It and the later ones are as the column left them.
  have htables : ∀ e ∈ w.1 :: after.map Prod.fst,
      s₁.table? e.table = (start.table? e.table).map withColumn := by
    intro e he
    have hmem : e.table ∈ job.plan.tables.map Entry.table := by
      rw [hplanned]
      exact List.mem_map_of_mem (List.mem_append_right _ he)
    rw [table?_of_backfillTables hbefore (hplaced e he), honly.table,
      if_pos hmem]
  obtain ⟨t, ht, -⟩ := hturn.hasColumn
  obtain ⟨t₀, ht₀, rfl⟩ :
      ∃ t₀, start.table? w.1.table = some t₀ ∧ withColumn t₀ = t :=
    Option.map_eq_some_iff.1
      ((htables w.1 (List.mem_cons_self ..)).symm.trans ht)
  have htightens' := tightensTo_of_fails htable
  obtain ⟨hgap, rfl, rfl⟩ :=
    fails_backfillTable ht (hturn.isSome_parent hfirst) htable
  refine ⟨_, w.1, _, _, hplanned, rfl, fun e he => ?_, ?_, hgap,
    fun e he => ?_, ?_⟩
  · exact ⟨(hfinished e he).1.tightens htightens',
      (hfinished e he).2.tightens htightens'⟩
  · exact ⟨t₀, _, ht₀, table?_setTable _ _ _, filled_eq _, rfl⟩
  · rw [table?_setTable_of_ne _ _ (hlater e he)]
    exact htables e (List.mem_cons_of_mem _ he)
  · intro e he step hstep hmem
    have hmem₁ :=
      unrecorded_of_backfillTables hbefore (hplaced e he) hstep hmem
    have hrecorded := mem_recorded.2 (honly.unrecorded _ _ step hstep hmem₁)
    rw [hfresh] at hrecorded
    cases hrecorded

/-- A run of an accepted plan that finds none of its steps recorded fails in
one of three ways. It stops at a table with a gap, whose size it reports; or at
a table that is missing, with the column added to those before it; or because
the default organization is missing, with the column added to every planned
table. -/
theorem failing_run_stops_cleanly
    (hplan : Plan.ofEntries entries = .ok job.plan)
    (hfresh : start.recorded job.plan.fingerprint = [])
    (hfails : Fails answer job.run start e s) :
    (∃ placed entry rest count, job.plan.tables = placed ++ entry :: rest
        ∧ e = .invariantViolation entry.table
          (toString count ++ " rows still have a NULL organization_id")
        ∧ StoppedAtGap job.plan start s placed entry rest count)
      ∨ (∃ placed entry rest, job.plan.tables = placed ++ entry :: rest
        ∧ e = .tableMissing entry.table ∧ start.table? entry.table = none
        ∧ OnlyColumns start s (placed.map Entry.table))
      ∨ (e = .defaultOrganizationMissing job.defaultSlug
        ∧ start.organization? job.defaultSlug = none
        ∧ OnlyColumns start s (job.plan.tables.map Entry.table)) := by
  rcases fails_bind.1 hfails with hfails | ⟨c, s₁, hc, hfails⟩
  · exact absurd hfails not_fails_checkpoints
  have hnone := not_isDone_of_checkpoints hfresh hc
  rcases fails_bind.1 hfails with hfails | ⟨result, s₂, hadd, hfails⟩
  · obtain ⟨placed, entry, rest, result, hplanned, rfl, hmissing, hadd⟩ :=
      fails_addColumns hnone hfails
    have honly := onlyColumns_of_addColumns hc hnone hadd
    refine .inr (.inl ⟨placed, entry, rest, hplanned, rfl, ?_, honly⟩)
    rw [honly.table] at hmissing
    split at hmissing
    · exact Option.map_eq_none_iff.1 hmissing
    · exact hmissing
  have honly := onlyColumns_of_addColumns hc hnone hadd
  rcases fails_bind.1 hfails with hfails | ⟨organization, s₃, hfound, hfails⟩
  · obtain ⟨hmissing, rfl, rfl⟩ := fails_findDefault.1 hfails
    refine .inr (.inr ⟨rfl, ?_, honly⟩)
    unfold organization? at hmissing ⊢
    rwa [honly.organizations] at hmissing
  rcases fails_bind.1 hfails with hfails | ⟨reports, s₄, -, hfails⟩
  · have h₁ := underway_of_checkpoints hc
    have hcolumns :=
      hasColumn_of_addColumns h₁ (truthful_of_recorded hfresh) hadd
    have htightens := tightensTo_of_succeeds hfound
    have hdefault := (succeeds_findDefault.1 hfound).1
    rw [← organization?_of_tightensTo htightens] at hdefault
    exact .inl (stoppedAtGap_of_fails hplan hfresh
      ((h₁.tightens_to (tightensTo_of_succeeds hadd)).tightens_to htightens)
      (honly.of_findDefault hfound)
        (fun e he => (hcolumns e he).tightens htightens) hdefault
      (zip_reports (contents_of_addColumns hadd).2).1 hfails)
  · exact absurd hfails not_fails_pure

-- The projects are filled, and the tasks refuse to be.

/-- The small job, going by its checkpoints. -/
def recordingJob : Job := { smallJob with useCheckpoints := true }

/-- A store in which one table takes no updates. -/
def refusingStore : MemoryStore := smallStore.setRejectsUpdates "tasks" true

/-- There is one way to split the small plan at that table. -/
theorem split_of_table
    (hplanned : recordingJob.plan.tables = placed ++ entry :: rest)
    (htable : "tasks" = entry.table) :
    placed = [⟨"projects", .ownerMembership "user_id"⟩]
      ∧ entry = ⟨"tasks", .parent "projects" "project_id"⟩ ∧ rest = [] := by
  match placed with
  | [] =>
    cases hplanned
    exact absurd htable (by decide)
  | [_] =>
    cases hplanned
    exact ⟨rfl, rfl, rfl⟩
  | _ :: _ :: _ =>
    have hlength := congrArg List.length hplanned
    simp [recordingJob, smallJob] at hlength

/-- The run stops at that table with its two rows still open: the one before it
is finished, and of this one no step is recorded. -/
theorem recordingJob_stops_cleanly :
    ∃ s count,
      Fails answer recordingJob.run refusingStore (gapError "tasks" 2) s
      ∧ StoppedAtGap recordingJob.plan refusingStore s
        [⟨"projects", .ownerMembership "user_id"⟩]
        ⟨"tasks", .parent "projects" "project_id"⟩ [] count := by
  have hplan : Plan.ofEntries smallEntries = .ok recordingJob.plan := by rfl
  have herror : (recordingJob.run.run.run answer refusingStore).1
      = .error (gapError "tasks" 2) := by
    decide +kernel
  have hfails :
      Fails answer recordingJob.run refusingStore (gapError "tasks" 2) _ :=
    Prod.ext herror rfl
  rcases failing_run_stops_cleanly hplan (recorded_eq_nil rfl) hfails with
    ⟨placed, entry, rest, count, hplanned, hgap, hstopped⟩ | ⟨_, _, _, _,
      hother, -⟩ | ⟨hother, -⟩
  · have htable : "tasks" = entry.table :=
      (BackfillError.invariantViolation.inj hgap).1
    obtain ⟨rfl, rfl, rfl⟩ := split_of_table hplanned htable
    exact ⟨_, count, hfails, hstopped⟩
  · cases hother
  · cases hother

end Tenancy.Backfill
