/-
Where a backfill of a store leads: what its tables come to, and whether
the whole plan goes through or at which table it ends (`destination`).
Two passes over the plan say so, without a record and without asking
whether anything is done already: the first gives every table the
column, the second fills and enforces table after table.

No call that is made when it is due changes where a store leads
(`destination_answer`), since a table comes to the same whether it is
half done or not (`treated`), and since whatever comes before its turn is
passed over. And where a run ends it has arrived: its store leads to
itself (`destination_of_finished`, `destination_of_stopped`).
-/
import Tenancy.Proofs.Backfill.Duties

namespace Tenancy.Backfill

open Program MemoryStore

variable {job : Job} {s s' start : MemoryStore} {organization : Uuid}
  {placed rest : List Entry}
  {entry : Entry} {choice : MemoryRow → Option Uuid} {t u : MemoryTable}

-- ============================================================= tables

/-- What a table comes to: filled, and enforced if that leaves no gap. -/
def treated (choice : MemoryRow → Option Uuid) (organization : Uuid)
    (t : MemoryTable) : MemoryTable :=
  let filled := (fillTwice choice organization t).2
  if missing filled = 0 then
    { filled with nullable := false, foreignKey := true }
  else filled

theorem treated_of_gap (hfilled : (fillTwice choice organization t).2 = t)
    (hgap : missing t > 0) : treated choice organization t = t := by
  unfold treated
  rw [hfilled, if_neg (by omega)]

theorem treated_of_complete (hnone : missing t = 0) :
    treated choice organization t
      = { t with nullable := false, foreignKey := true } := by
  unfold treated
  rw [fillTwice_of_complete hnone, if_pos hnone]

/-- A table that is finished comes to itself. -/
theorem treated_of_finished (hnone : missing t = 0)
    (hnullable : t.nullable = false)
    (hforeign : t.foreignKey = true) : treated choice organization t = t := by
  rw [treated_of_complete hnone]
  obtain ⟨hasColumn, nullable, foreignKey, rejectsUpdates, rows⟩ := t
  cases hnullable
  cases hforeign
  rfl

/-- Two tables that filling makes the same come to the same. -/
theorem treated_congr
    (h : (fillTwice choice organization u).2
      = (fillTwice choice organization t).2) :
    treated choice organization u = treated choice organization t := by
  unfold treated
  rw [h]

-- ============================================================= passes

/-- Give the column to table after table, up to one that does not exist. -/
def columnsPass : List Entry → MemoryStore → Option BackfillError × MemoryStore
  | [], s => (none, s)
  | entry :: rest, s =>
    match s.table? entry.table with
    | none => (some (.tableMissing entry.table), s)
    | some t => columnsPass rest (s.setTable entry.table (withColumn t))

/-- Treat table after table, up to one that keeps a gap. -/
def tablesPass (organization : Uuid) :
    List Entry → MemoryStore → Option BackfillError × MemoryStore
  | [], s => (none, s)
  | entry :: rest, s =>
    match s.table? entry.table with
    | none => (some (.tableMissing entry.table), s)
    | some t =>
      let u := treated (choose s entry.derivation) organization t
      if missing u = 0 then
        tablesPass organization rest (s.setTable entry.table u)
      else (some (.invariantViolation entry.table
        (toString (missing u) ++ " rows still have a NULL organization_id")),
        s.setTable entry.table u)

/-- Where a store leads under a plan: the error that ends it, if any, and the
store that is left. -/
def destination (plan : Plan) (slug : String) (s : MemoryStore) :
    Option BackfillError × MemoryStore :=
  match columnsPass plan.tables s with
  | (some e, s') => (some e, s')
  | (none, s') =>
    match s'.organization? slug with
    | none => (some (.defaultOrganizationMissing slug), s')
    | some organization => tablesPass organization plan.tables s'

/-- Tables that have the column are passed over by the first pass. -/
theorem columnsPass_of_hasColumn (h : ∀ e ∈ placed, s.HasColumn e.table) :
    columnsPass (placed ++ rest) s = columnsPass rest s := by
  induction placed with
  | nil => rfl
  | cons entry placed ih =>
    obtain ⟨t, ht, hcolumn⟩ := h entry (by simp)
    have hsame : s.setTable entry.table (withColumn t) = s := by
      unfold withColumn
      rw [if_pos hcolumn, setTable_self ht]
    rw [List.cons_append, columnsPass, ht]
    show columnsPass (placed ++ rest) (s.setTable entry.table (withColumn t))
        = _
    rw [hsame]
    exact ih fun e he => h e (by simp [he])

/-- Tables that are finished are passed over by the second. -/
theorem tablesPass_of_finished
    (h : ∀ e ∈ placed, s.Complete e.table ∧ s.Enforced e.table) :
    tablesPass organization (placed ++ rest) s
      = tablesPass organization rest s := by
  induction placed with
  | nil => rfl
  | cons entry placed ih =>
    obtain ⟨⟨t, ht, hnone⟩, u, hu, -, hnullable, hforeign⟩ := h entry (by simp)
    cases ht.symm.trans hu
    rw [List.cons_append, tablesPass, ht]
    simp only [treated_of_finished hnone hnullable hforeign, if_pos hnone,
      setTable_self ht]
    exact ih fun e he => h e (by simp [he])

/-- Once the columns are there, the second pass is all that is left. -/
theorem destination_of_columns
    (hcolumns : ∀ e ∈ job.plan.tables, s.HasColumn e.table)
    (hdefault : s.organization? job.defaultSlug = some organization) :
    destination job.plan job.defaultSlug s
      = tablesPass organization job.plan.tables s := by
  have hpass : columnsPass job.plan.tables s = (none, s) := by
    rw [← List.append_nil job.plan.tables, columnsPass_of_hasColumn hcolumns]
    rfl
  unfold destination
  rw [hpass]
  simp only [hdefault]

/-- And once it is a table's turn, what is left starts with that table. -/
theorem destination_of_turn (hturn : Turn job s placed entry organization)
    (hplanned : job.plan.tables = placed ++ entry :: rest) :
    destination job.plan job.defaultSlug s
      = tablesPass organization (entry :: rest) s := by
  rw [destination_of_columns hturn.columns hturn.default, hplanned]
  exact tablesPass_of_finished hturn.finished

-- ============================================================== calls

/-- The store without its record, by which no pass goes. -/
def MemoryStore.bare (s : MemoryStore) : MemoryStore :=
  { s with checkpoints := [], hasCheckpoints := false }

/-- Where a store leads under a job. -/
def Job.destination (job : Job) (s : MemoryStore) :
    Option BackfillError × MemoryStore :=
  Backfill.destination job.plan job.defaultSlug s.bare

theorem bare_record (fingerprint key : String) :
    (s.record fingerprint key).bare = s.bare := by
  unfold record
  split <;> rfl

/-- The record is not part of a turn. -/
theorem Turn.bare (h : Turn job s placed entry organization) :
    Turn job s.bare placed entry organization :=
  ⟨h.planned, h.columns, h.default, h.finished⟩

/-- The column may be given before the pass comes to it. -/
theorem destination_withColumn
    (hplanned : job.plan.tables = placed ++ entry :: rest)
    (hcolumns : ∀ e ∈ placed, s.HasColumn e.table)
    (ht : s.table? entry.table = some t) :
    job.destination (s.setTable entry.table (withColumn t))
      = job.destination s := by
  have htightens :
      s.bare.TightensTo (s.bare.setTable entry.table (withColumn t)) :=
    tightensTo_setTable ht t.tightensTo_withColumn
  have hcolumns' : ∀ e ∈ placed, s.bare.HasColumn e.table := hcolumns
  have hset :
      (s.bare.setTable entry.table (withColumn t)).HasColumn entry.table := by
    refine ⟨_, table?_setTable _ _ _, ?_⟩
    unfold withColumn
    split
    · assumption
    · rfl
  have hpass :
      columnsPass job.plan.tables (s.bare.setTable entry.table (withColumn t))
      = columnsPass job.plan.tables s.bare := by
    calc
      columnsPass job.plan.tables (s.bare.setTable entry.table (withColumn t))
      _ = columnsPass ((placed ++ [entry]) ++ rest)
            (s.bare.setTable entry.table (withColumn t)) := by
          rw [hplanned, List.append_assoc]
          rfl
      _ = columnsPass rest (s.bare.setTable entry.table (withColumn t)) := by
          refine columnsPass_of_hasColumn fun e he => ?_
          rcases List.mem_append.1 he with he | he
          · exact (hcolumns' e he).tightens htightens
          · obtain rfl := List.mem_singleton.1 he
            exact hset
      _ = columnsPass (entry :: rest) s.bare := by
          rw [columnsPass, show s.bare.table? entry.table = some t from ht]
      _ = columnsPass job.plan.tables s.bare := by
          rw [hplanned]
          exact (columnsPass_of_hasColumn hcolumns').symm
  unfold Job.destination Backfill.destination
  rw [show (s.setTable entry.table (withColumn t)).bare
    = s.bare.setTable entry.table (withColumn t) from rfl, hpass]

section turn

variable (hnodup : (job.plan.tables.map Entry.table).Nodup)
  (hfirst : Plan.ParentsFirst [] job.plan.tables)

include hnodup hfirst

/-- The table whose turn it is may change, if it comes to the same. -/
theorem destination_setTable (hturn : Turn job s placed entry organization)
    (ht : s.table? entry.table = some t) (htightens : t.TightensTo u)
    (hsame : treated (choose s entry.derivation) organization u
      = treated (choose s entry.derivation) organization t) :
    job.destination (s.setTable entry.table u) = job.destination s := by
  have hturn' :
      Turn job (s.bare.setTable entry.table u) placed entry organization :=
    hturn.bare.tightens (tightensTo_setTable ht htightens)
  obtain ⟨rest, hplanned⟩ := hturn.planned
  have hchoose : choose (s.bare.setTable entry.table u) entry.derivation
      = choose s entry.derivation :=
    hturn.choose_setTable hnodup hfirst u
  have ht' : s.bare.table? entry.table = some t := ht
  have hchoose' : choose s.bare entry.derivation = choose s entry.derivation :=
    rfl
  show Backfill.destination job.plan job.defaultSlug
      (s.bare.setTable entry.table u)
    = Backfill.destination job.plan job.defaultSlug s.bare
  rw [destination_of_turn hturn' hplanned,
    destination_of_turn hturn.bare hplanned]
  unfold tablesPass
  rw [table?_setTable, ht']
  simp only [hchoose, hchoose', hsame, setTable_setTable]

/-- A derivation does a part of what is left to do anyway. -/
theorem destination_derived (hturn : Turn job s placed entry organization)
    (ht : s.table? entry.table = some t) :
    job.destination
      (s.setTable entry.table (fillTable (choose s entry.derivation) t).2)
      = job.destination s := by
  refine destination_setTable hnodup hfirst hturn ht
    (t.tightensTo_fillTable _) ?_
  apply treated_congr
  unfold fillTwice
  rw [fillTable_fillTable]

/-- So does the default behind it. -/
theorem destination_defaulted (hturn : Turn job s placed entry organization)
    (ht : s.table? entry.table = some t)
    (hderived : (fillTable (choose s entry.derivation) t).2 = t) :
    job.destination
      (s.setTable entry.table (fillTable (fun _ => some organization) t).2)
      = job.destination s := by
  refine destination_setTable hnodup hfirst hturn ht
    (t.tightensTo_fillTable _) ?_
  have hfilled : (fillTable (fun _ => some organization) t).2
      = (fillTwice (choose s entry.derivation) organization t).2 := by
    unfold fillTwice
    rw [hderived]
  apply treated_congr
  rw [hfilled, fillTwice_fillTwice]

/-- And so does the enforcement of a complete table. -/
theorem destination_enforced (hturn : Turn job s placed entry organization)
    (ht : s.table? entry.table = some t) (hnone : missing t = 0)
    (htightens : t.TightensTo u)
    (hsame : { u with nullable := false, foreignKey := true }
      = { t with nullable := false, foreignKey := true }) :
    job.destination (s.setTable entry.table u) = job.destination s := by
  refine destination_setTable hnodup hfirst hturn ht htightens ?_
  rw [treated_of_complete hnone,
    treated_of_complete (htightens.missing_eq_zero hnone), hsame]

/-- No call that is due changes where the store leads. -/
theorem destination_answer {call : StoreCall} (hduty : Duty job s call) :
    job.destination (answer call s).2 = job.destination s := by
  cases call with
  | tableExists | columnExists | findOrganization | columnIsNullable
  | foreignKeyExists
  | completedSteps | ensureCheckpoints => rfl
  | recordStep fingerprint key =>
    show Backfill.destination _ _ (s.record fingerprint key).bare = _
    rw [bare_record]
    rfl
  | countMissing table =>
    cases ht : s.table? table with
    | none => rw [answer, onTable_of_none _ ht]
    | some t => rw [answer, onTable_of_some ht rfl, setTable_self ht]
  | addNullableColumn table =>
    obtain ⟨placed, entry, rest, hplanned, rfl, hcolumns⟩ := hduty
    cases ht : s.table? entry.table with
    | none => rw [answer, onTable_of_none _ ht]
    | some t =>
      rw [answer, onTable_of_some ht rfl]
      exact destination_withColumn hplanned hcolumns ht
  | deriveFromParent table parent key =>
    obtain ⟨placed, organization, hturn⟩ := hduty
    obtain ⟨t, ht, -⟩ := hturn.hasColumn
    obtain ⟨p, hp⟩ :=
      Option.isSome_iff_exists.1 (hturn.isSome_parent hfirst parent rfl)
    rw [answer_deriveFromParent_of_some hp, onTable_of_some ht rfl,
      ← rowsOf_eq_rows hp]
    exact destination_derived hnodup hfirst hturn ht
  | deriveFromOwner table column =>
    obtain ⟨placed, organization, hturn⟩ := hduty
    obtain ⟨t, ht, -⟩ := hturn.hasColumn
    rw [answer, onTable_of_some ht rfl]
    exact destination_derived hnodup hfirst hturn ht
  | applyDefault table organization =>
    obtain ⟨placed, entry, t, rfl, hturn, ht, hderived⟩ := hduty
    rw [answer, onTable_of_some ht rfl]
    exact destination_defaulted hnodup hfirst hturn ht hderived
  | setNotNull table =>
    obtain ⟨placed, entry, organization, rfl, hturn, t, ht, hnone⟩ := hduty
    have hchange : (if missing t > 0
        then .error
          (.invariantViolation entry.table "column contains null values")
        else .ok ((), { t with nullable := false }) :
          Except BackfillError (Unit × MemoryTable))
        = .ok ((), { t with nullable := false }) := if_neg (by omega)
    rw [answer, onTable_of_some ht hchange]
    exact destination_enforced hnodup hfirst hturn ht hnone
      (.of_rows rfl rfl id (fun _ _ => rfl) id) rfl
  | addForeignKey table =>
    obtain ⟨placed, entry, organization, rfl, hturn, t, ht, hnone⟩ := hduty
    rw [answer, onTable_of_some ht rfl]
    exact destination_enforced hnodup hfirst hturn ht hnone
      (.of_rows rfl rfl id (fun _ => id) fun _ => rfl) rfl

end turn

-- ============================================================== ends

/-- A store whose planned tables are finished leads to itself. -/
theorem destination_of_finished
    (hdefault : s.organization? job.defaultSlug = some organization)
    (hfinished : ∀ e ∈ job.plan.tables,
      s.Complete e.table ∧ s.Enforced e.table) :
    job.destination s = (none, s.bare) := by
  have hdefault' : s.bare.organization? job.defaultSlug = some organization :=
    hdefault
  have hfinished' :
      ∀ e ∈ job.plan.tables,
        s.bare.Complete e.table ∧ s.bare.Enforced e.table :=
    hfinished
  have hcolumns : ∀ e ∈ job.plan.tables, s.bare.HasColumn e.table := by
    intro e he
    obtain ⟨-, t, ht, hcolumn, -⟩ := hfinished' e he
    exact ⟨t, ht, hcolumn⟩
  show Backfill.destination job.plan job.defaultSlug s.bare = _
  rw [destination_of_columns hcolumns hdefault',
    ← List.append_nil job.plan.tables, tablesPass_of_finished hfinished']
  rfl

/-- So does a store in which a run has failed, unless it went by the record of
a filling that has a gap. -/
theorem destination_of_stopped {e : BackfillError} (h : Stopped job start e s)
    (hfilled : ∀ name : String, Skips job start (stepKey "derive" name) →
      s.Complete name) :
    job.destination s = (some e, s.bare) := by
  cases h with
  | @missingTable _ placed rest entry hplanned hcolumns hmissing =>
    have hcolumns' : ∀ e ∈ placed, s.bare.HasColumn e.table := hcolumns
    have hmissing' : s.bare.table? entry.table = none := hmissing
    have hpass : columnsPass job.plan.tables s.bare
        = (some (.tableMissing entry.table), s.bare) := by
      rw [hplanned, columnsPass_of_hasColumn hcolumns', columnsPass, hmissing']
    unfold Job.destination Backfill.destination
    rw [hpass]
  | noDefault hcolumns hnone =>
    have hcolumns' : ∀ e ∈ job.plan.tables, s.bare.HasColumn e.table :=
      hcolumns
    have hnone' : s.bare.organization? job.defaultSlug = none := hnone
    have hpass : columnsPass job.plan.tables s.bare = (none, s.bare) := by
      rw [← List.append_nil job.plan.tables,
        columnsPass_of_hasColumn hcolumns']
      rfl
    unfold Job.destination Backfill.destination
    rw [hpass]
    simp only [hnone']
  | @gap _ placed entry organization t hturn ht hgap hagain =>
    obtain ⟨rest, hplanned⟩ := hturn.planned
    have hnot : ¬Skips job start (stepKey "derive" entry.table) := by
      intro hskips
      obtain ⟨u, hu, hnone⟩ := hfilled entry.table hskips
      cases ht.symm.trans hu
      omega
    have ht' : s.bare.table? entry.table = some t := ht
    have hsame : treated (choose s.bare entry.derivation) organization t = t :=
      treated_of_gap (hagain hnot) hgap
    show Backfill.destination job.plan job.defaultSlug s.bare = _
    rw [destination_of_turn hturn.bare hplanned, tablesPass, ht']
    simp only [hsame]
    rw [if_neg (Nat.ne_of_gt hgap), setTable_self ht']

end Tenancy.Backfill
