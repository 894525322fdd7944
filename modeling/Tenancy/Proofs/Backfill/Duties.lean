/-
What a run of a backfill asks of its store, and when. Columns are added
in the order of the plan (`Duty`); a table is filled and enforced when
its turn comes, that is, when every planned table has the column, the
default organization is known and the tables placed before are finished
(`Turn`); a step is recorded once what it stands for is so (`Attested`).
And a run fails in one of three states: a table is missing, the default
organization is missing, or the table whose turn it is has been filled
and still has a gap (`Stopped`).

This is proved along the run once (`run_abides`), for a record that can
be relied on for columns and enforcement. Whatever survives each call
made so holds behind every call of a run.
-/
import Tenancy.Proofs.Backfill.Contents
import Tenancy.Proofs.Backfill.Order
import Tenancy.Proofs.Backfill.Tightening

namespace Tenancy.Backfill

open Program MemoryStore

variable {job : Job} {s s' start : MemoryStore} {c : Checkpoints}
  {organization : Uuid}
  {placed rest entries : List Entry} {entry : Entry} {report : TableReport}
    {table : String}

-- ============================================================ records

/-- What the key of a step stands for is so. -/
structure Attested (s : MemoryStore) (key : String) : Prop where
  column : ∀ name : String, key = stepKey "add_column" name → s.HasColumn name
  filled : ∀ name : String, key = stepKey "derive" name → s.Complete name
  enforced : ∀ name : String, key = stepKey "enforce" name → s.Enforced name

/-- The recorded columns are there, and what is recorded as enforced is. -/
structure Truthful (s : MemoryStore) (fingerprint : String) : Prop where
  column : ∀ name : String,
    (fingerprint, stepKey "add_column" name) ∈ s.checkpoints → s.HasColumn name
  enforced : ∀ name : String,
    (fingerprint, stepKey "enforce" name) ∈ s.checkpoints → s.Enforced name

/-- Without a record there is nothing that could be false. -/
theorem truthful_of_recorded {fingerprint : String}
    (h : s.recorded fingerprint = []) : Truthful s fingerprint := by
  have hnone : ∀ key, (fingerprint, key) ∉ s.checkpoints := by
    intro key hmem
    have hkey := mem_recorded.2 hmem
    rw [h] at hkey
    cases hkey
  exact ⟨fun _ hmem => absurd hmem (hnone _),
    fun _ hmem => absurd hmem (hnone _)⟩

/-- The run goes by a record of the step. -/
def Skips (job : Job) (start : MemoryStore) (key : String) : Prop :=
  job.useCheckpoints = true ∧ (job.plan.fingerprint, key) ∈ start.checkpoints

/-- A run is under way: it goes by the record of its start, and has tightened
tables at most. -/
structure Underway (job : Job) (start : MemoryStore) (c : Checkpoints)
    (s : MemoryStore) : Prop where
  skips : ∀ key, c.isDone key = true ↔ Skips job start key
  fingerprint : c.fingerprint = job.plan.fingerprint
  enabled : c.enabled = job.useCheckpoints
  tightens : start.TightensTo s

/-- A run is still under way when it has tightened its store. -/
theorem Underway.tightens_to (h : Underway job start c s)
    (htightens : s.TightensTo s') : Underway job start c s' :=
  ⟨h.skips, h.fingerprint, h.enabled, h.tightens.trans htightens⟩

/-- It is under way once its record is prepared. -/
theorem underway_of_checkpoints
    (h : Succeeds answer job.checkpoints start c s) :
    Underway job start c s := by
  have htightens := tightensTo_of_succeeds h
  rcases succeeds_checkpoints.1 h with ⟨huse, rfl, -⟩ | ⟨huse, rfl, -⟩
  · refine ⟨fun key => ?_, rfl, huse.symm, htightens⟩
    simp [Checkpoints.isDone, Skips, huse, mem_recorded]
  · refine ⟨fun key => ?_, rfl, huse.symm, htightens⟩
    simp [Checkpoints.isDone, Skips, huse]

/-- What is recorded as added is there. -/
theorem Underway.hasColumn (h : Underway job start c s)
    (htruth : Truthful start job.plan.fingerprint)
    (hdone : c.isDone (stepKey "add_column" table) = true) :
    s.HasColumn table :=
  (htruth.column table ((h.skips _).1 hdone).2).tightens h.tightens

/-- What is recorded as enforced is enforced. -/
theorem Underway.isEnforced (h : Underway job start c s)
    (htruth : Truthful start job.plan.fingerprint)
    (hdone : c.isDone (stepKey "enforce" table) = true) : s.Enforced table :=
  (htruth.enforced table ((h.skips _).1 hdone).2).tightens h.tightens

-- ============================================================== turns

/-- It is a table's turn: every planned table has the column, the default
organization is known, and the tables placed before are finished. -/
structure Turn (job : Job) (s : MemoryStore) (placed : List Entry)
    (entry : Entry) (organization : Uuid) : Prop where
  planned : ∃ rest, job.plan.tables = placed ++ entry :: rest
  columns : ∀ e ∈ job.plan.tables, s.HasColumn e.table
  default : s.organization? job.defaultSlug = some organization
  finished : ∀ e ∈ placed, s.Complete e.table ∧ s.Enforced e.table

/-- To tighten a store is to add no organization. -/
theorem organization?_of_tightensTo (h : s.TightensTo s') (slug : String) :
    s'.organization? slug = s.organization? slug := by
  unfold organization?
  rw [h.organizations]

namespace Turn

/-- It stays an entry's turn while the store is tightened. -/
theorem tightens (h : Turn job s placed entry organization)
    (htightens : s.TightensTo s') : Turn job s' placed entry organization where
  planned := h.planned
  columns e he := (h.columns e he).tightens htightens
  default := (organization?_of_tightensTo htightens _).trans h.default
  finished e he :=
    ⟨(h.finished e he).1.tightens htightens,
      (h.finished e he).2.tightens htightens⟩

/-- At its turn a table has its column. -/
theorem hasColumn (h : Turn job s placed entry organization) :
    s.HasColumn entry.table := by
  obtain ⟨rest, hplanned⟩ := h.planned
  exact h.columns entry (by rw [hplanned]; simp)

/-- The parent had its turn before. -/
theorem parent_mem (h : Turn job s placed entry organization)
    (hfirst : Plan.ParentsFirst [] job.plan.tables) :
    ∀ parent ∈ entry.parent?, parent ∈ placed.map Entry.table := by
  intro parent hparent
  obtain ⟨rest, hplanned⟩ := h.planned
  rw [hplanned] at hfirst
  rcases hfirst.parent_mem hparent with hmem | hmem
  · cases hmem
  · exact hmem

/-- So the parent's table is there. -/
theorem isSome_parent (h : Turn job s placed entry organization)
    (hfirst : Plan.ParentsFirst [] job.plan.tables) :
    ∀ parent ∈ entry.parent?, (s.table? parent).isSome = true := by
  intro parent hparent
  obtain ⟨e, he, rfl⟩ := List.mem_map.1 (h.parent_mem hfirst parent hparent)
  obtain ⟨⟨t, ht, -⟩, -⟩ := h.finished e he
  rw [ht]
  rfl

/-- No table placed before is the one whose turn it is. -/
theorem ne_of_mem (h : Turn job s placed entry organization)
    (hnodup : (job.plan.tables.map Entry.table).Nodup) {name : String}
    (hname : name ∈ placed.map Entry.table) : entry.table ≠ name := by
  obtain ⟨rest, hplanned⟩ := h.planned
  rw [hplanned, List.map_append, List.map_cons] at hnodup
  intro hsame
  exact (List.nodup_append.1 hnodup).2.2 name hname entry.table (by simp)
    hsame.symm

/-- What the derivation offers does not depend on the table itself. -/
theorem choose_setTable (h : Turn job s placed entry organization)
    (hnodup : (job.plan.tables.map Entry.table).Nodup)
    (hfirst : Plan.ParentsFirst [] job.plan.tables) (u : MemoryTable) :
    choose (s.setTable entry.table u) entry.derivation
      = choose s entry.derivation := by
  have hparent := h.parent_mem hfirst
  unfold Entry.parent? at hparent
  cases hderivation : entry.derivation with
  | ownerMembership column => rfl
  | defaultOnly => rfl
  | parent parent key =>
    rw [hderivation] at hparent
    funext row
    show (row.ref? key).bind
        (organizationOf? ((s.setTable entry.table u).rowsOf parent)) = _
    rw [rowsOf_setTable_of_ne s u (h.ne_of_mem hnodup (hparent parent rfl))]
    rfl

end Turn

-- ============================================================= duties

/-- When a run makes each call that may change the store. -/
def Duty (job : Job) (s : MemoryStore) : StoreCall → Prop
  | .addNullableColumn table =>
    ∃ placed entry rest,
      job.plan.tables = placed ++ entry :: rest ∧ entry.table = table
      ∧ ∀ e ∈ placed, s.HasColumn e.table
  | .deriveFromParent table parent key =>
    ∃ placed organization,
      Turn job s placed ⟨table, .parent parent key⟩ organization
  | .deriveFromOwner table column =>
    ∃ placed organization,
      Turn job s placed ⟨table, .ownerMembership column⟩ organization
  | .applyDefault table organization =>
    ∃ placed entry t,
      entry.table = table ∧ Turn job s placed entry organization
      ∧ s.table? table = some t
      ∧ (fillTable (choose s entry.derivation) t).2 = t
  | .setNotNull table | .addForeignKey table =>
    ∃ placed entry organization,
      entry.table = table ∧ Turn job s placed entry organization
      ∧ s.Complete table
  | .recordStep fingerprint key =>
    job.useCheckpoints = true ∧ fingerprint = job.plan.fingerprint
      ∧ Attested s key
  | .tableExists _ | .columnExists _ | .findOrganization _ | .countMissing _
  | .columnIsNullable _
  | .foreignKeyExists _ | .ensureCheckpoints | .completedSteps _ => True

/-- A call that is due records a step at most, and one that is attested. -/
theorem recorded_of_answer {call : StoreCall} (hduty : Duty job s call)
    {fingerprint key : String}
    (hmem : (fingerprint, key) ∈ (answer call s).2.checkpoints) :
    (fingerprint, key) ∈ s.checkpoints ∨ Attested s key := by
  cases call with
  | tableExists | columnExists | findOrganization | columnIsNullable
  | foreignKeyExists
  | completedSteps | ensureCheckpoints => exact .inl hmem
  | addNullableColumn | deriveFromOwner | applyDefault | countMissing
  | setNotNull
  | addForeignKey => exact .inl (onTable_checkpoints _ ▸ hmem)
  | deriveFromParent table parent key =>
    refine .inl ?_
    cases hparent : s.table? parent with
    | none => rwa [answer_deriveFromParent_of_none hparent] at hmem
    | some p =>
      rw [answer_deriveFromParent_of_some hparent] at hmem
      exact onTable_checkpoints _ ▸ hmem
  | recordStep other recorded =>
    rcases mem_record.1 hmem with hmem | hsame
    · exact .inl hmem
    · obtain ⟨-, rfl⟩ := Prod.mk.inj hsame
      exact .inr hduty.2.2

/-- So a record that can be relied on stays so, under any fingerprint. -/
theorem Truthful.kept {call : StoreCall} {fingerprint : String}
    (h : Truthful s fingerprint)
    (hduty : Duty job s call) : Truthful (answer call s).2 fingerprint := by
  have htightens := tightensTo_answer call s
  constructor
  · intro name hmem
    rcases recorded_of_answer hduty hmem with hmem | hattested
    · exact (h.column name hmem).tightens htightens
    · exact (hattested.column name rfl).tightens htightens
  · intro name hmem
    rcases recorded_of_answer hduty hmem with hmem | hattested
    · exact (h.enforced name hmem).tightens htightens
    · exact (hattested.enforced name rfl).tightens htightens

/-- How a run that started in a store fails, and in which state: unless it went
by a record of the filling, the table with the gap is filled. -/
inductive Stopped (job : Job) (start : MemoryStore) :
    BackfillError → MemoryStore → Prop
  | missingTable {s : MemoryStore} {placed rest : List Entry} {entry : Entry}
      (hplanned : job.plan.tables = placed ++ entry :: rest)
      (hcolumns : ∀ e ∈ placed, s.HasColumn e.table)
      (hmissing : s.table? entry.table = none) :
    Stopped job start (.tableMissing entry.table) s
  | noDefault {s : MemoryStore}
      (hcolumns : ∀ e ∈ job.plan.tables, s.HasColumn e.table)
      (hnone : s.organization? job.defaultSlug = none) :
    Stopped job start (.defaultOrganizationMissing job.defaultSlug) s
  | gap {s : MemoryStore} {placed : List Entry} {entry : Entry}
      {organization : Uuid}
      {t : MemoryTable} (hturn : Turn job s placed entry organization)
      (ht : s.table? entry.table = some t) (hgap : missing t > 0)
      (hfilled : ¬Skips job start (stepKey "derive" entry.table) →
        (fillTwice (choose s entry.derivation) organization t).2 = t) :
    Stopped job start (.invariantViolation entry.table
      (toString (missing t) ++ " rows still have a NULL organization_id")) s

/-- A part of a run makes its calls when they are due, and fails as stated. -/
def Abides (job : Job) (start : MemoryStore) {α : Type} (p : StoreProgram α)
    (s : MemoryStore) : Prop :=
  AbidesBy answer (Duty job) (Stopped job start) p.run s

/-- A call that is due and answered without an error abides. -/
theorem abides_ask {call : StoreCall} (hduty : Duty job s call)
    (hok : ∀ e, (answer call s).1 ≠ .error e) :
    Abides job start (ask call) s := by
  refine ⟨hduty, ?_⟩
  cases hanswer : (answer call s).1 with
  | ok a => exact trivial
  | error e => exact absurd hanswer (hok e)

/-- To mark a step abides if what the key says is true. -/
theorem abides_mark {key : String} (h : Underway job start c s)
    (hattested : Attested s key) : Abides job start (c.mark key) s := by
  refine .ite (fun henabled => ?_) fun _ => abidesBy_pure
  exact abides_ask ⟨h.enabled ▸ henabled, h.fingerprint, hattested⟩ nofun

/-- A key of the first pass says that the column is there. -/
theorem attested_column (h : s.HasColumn table) :
    Attested s (stepKey "add_column" table) :=
  ⟨fun _ hkey => stepKey_inj.1 hkey ▸ h,
    fun _ hkey => absurd hkey (stepKey_ne (by decide)),
    fun _ hkey => absurd hkey (stepKey_ne (by decide))⟩

/-- A key of the filling says that the table is complete. -/
theorem attested_filled (h : s.Complete table) :
    Attested s (stepKey "derive" table) :=
  ⟨fun _ hkey => absurd hkey (stepKey_ne (by decide)),
    fun _ hkey => stepKey_inj.1 hkey ▸ h,
    fun _ hkey => absurd hkey (stepKey_ne (by decide))⟩

/-- A key of the enforcement says that it is made. -/
theorem attested_enforced (h : s.Enforced table) :
    Attested s (stepKey "enforce" table) :=
  ⟨fun _ hkey => absurd hkey (stepKey_ne (by decide)),
    fun _ hkey => absurd hkey (stepKey_ne (by decide)),
    fun _ hkey => stepKey_inj.1 hkey ▸ h⟩

/-- The keys of the other steps stand for nothing that later runs go by. -/
theorem attested_other {step : String} {about : Option String}
    (hcolumn : StartsOtherwise step "add_column")
    (hfilled : StartsOtherwise step "derive")
    (henforced : StartsOtherwise step "enforce") :
    Attested s (stepKey step about) :=
  ⟨fun _ hkey => absurd hkey (stepKey_ne hcolumn),
    fun _ hkey => absurd hkey (stepKey_ne hfilled),
    fun _ hkey => absurd hkey (stepKey_ne henforced)⟩

-- ============================================================ columns

/-- Each call of the first pass is due. -/
theorem abides_addColumn (hplanned : job.plan.tables = placed ++ entry :: rest)
    (hcolumns : ∀ e ∈ placed, s.HasColumn e.table) :
    Abides job start (addColumn entry.table) s := by
  refine .bind (abides_ask trivial nofun) fun isTable s₁ hask => ?_
  cases succeeds_ask.1 hask
  refine .when (fun hmissing => ?_) fun s₂ hthrow => ?_
  · refine abidesBy_throw (.missingTable hplanned hcolumns ?_)
    simpa [Option.isSome_iff_ne_none] using hmissing
  · obtain ⟨hisTable, rfl⟩ :
        (s.table? entry.table).isSome = true ∧ s = s₂ := by
      rcases hthrow with ⟨-, hthrow⟩ | ⟨hsome, rfl⟩
      · exact absurd hthrow not_succeeds_throw
      · exact ⟨by simpa [Option.isSome_iff_ne_none] using hsome, rfl⟩
    obtain ⟨t, ht⟩ := Option.isSome_iff_exists.1 hisTable
    refine .bind (abides_ask trivial nofun) fun isColumn s₃ hask => ?_
    cases succeeds_ask.1 hask
    refine .ite (fun _ => abidesBy_pure) fun _ => ?_
    refine .bind (abides_ask ⟨placed, entry, rest, hplanned, rfl, hcolumns⟩ ?_)
      fun _ _ _ => abidesBy_pure
    exact onTable_ne_error ht fun e => nofun

/-- A table has its column once that is added. -/
theorem hasColumn_of_addColumn {isNew : Bool}
    (h : Succeeds answer (addColumn table) s isNew s') :
    s'.HasColumn table := by
  obtain ⟨t, -, -, rfl⟩ := succeeds_addColumn.1 h
  refine ⟨_, table?_setTable _ _ _, ?_⟩
  unfold withColumn
  by_cases hcolumn : t.hasColumn = true
  · rw [if_pos hcolumn]
    exact hcolumn
  · rw [if_neg hcolumn]

/-- The columns are added in the order of the plan, each behind those
before. -/
theorem abides_addColumns (h : Underway job start c s)
    (htruth : Truthful start job.plan.fingerprint)
    (hplanned : job.plan.tables = placed ++ entries)
    (hcolumns : ∀ e ∈ placed, s.HasColumn e.table) :
    Abides job start (addColumns c entries) s := by
  induction entries generalizing placed s with
  | nil => exact abidesBy_pure
  | cons entry rest ih =>
    have hplanned' : job.plan.tables = (placed ++ [entry]) ++ rest := by
      rw [hplanned, List.append_assoc]
      rfl
    have hcolumns' :
        ∀ s' : MemoryStore, s.TightensTo s' → s'.HasColumn entry.table →
        ∀ e ∈ placed ++ [entry], s'.HasColumn e.table := by
      intro s' htightens hcolumn e he
      rcases List.mem_append.1 he with he | he
      · exact (hcolumns e he).tightens htightens
      · obtain rfl := List.mem_singleton.1 he
        exact hcolumn
    refine .ite (fun hdone => ?_) fun _ => ?_
    · refine .bind
        (ih h hplanned' (hcolumns' s (.refl s) (h.hasColumn htruth hdone))) ?_
      exact fun _ _ _ => abidesBy_pure
    · refine .bind (abides_addColumn hplanned hcolumns) fun isNew s₁ hadd => ?_
      have hcolumn₁ := hasColumn_of_addColumn hadd
      have htightens₁ := tightensTo_of_succeeds hadd
      have h₁ := h.tightens_to htightens₁
      refine .bind (abides_mark h₁ (attested_column hcolumn₁))
        fun _ s₂ hmark => ?_
      have htightens₂ := tightensTo_of_succeeds hmark
      have hcolumns₂ :=
        hcolumns' s₂ (htightens₁.trans htightens₂)
          (hcolumn₁.tightens htightens₂)
      refine .bind (ih (h₁.tightens_to htightens₂) hplanned' hcolumns₂) ?_
      exact fun _ _ _ => abidesBy_pure

/-- Behind them every table has the column. -/
theorem hasColumn_of_addColumns {result : List TableReport × List String}
    (h : Underway job start c s) (htruth : Truthful start job.plan.fingerprint)
    (hadd : Succeeds answer (addColumns c entries) s result s') :
    ∀ e ∈ entries, s'.HasColumn e.table := by
  induction entries generalizing s result s' with
  | nil => exact nofun
  | cons entry rest ih =>
    intro e he
    by_cases hdone : c.isDone (stepKey "add_column" entry.table) = true
    · obtain ⟨found, s₁, hrest, hadd⟩ :=
        succeeds_bind.1 ((succeeds_if_pos hdone).1 hadd)
      obtain ⟨-, rfl⟩ := succeeds_pure.1 hadd
      rcases List.mem_cons.1 he with rfl | he
      · exact (h.hasColumn htruth hdone).tightens
          (tightensTo_of_succeeds hrest)
      · exact ih h hrest e he
    · obtain ⟨isNew, s₁, hcolumn, hadd⟩ :=
        succeeds_bind.1 ((succeeds_if_neg hdone).1 hadd)
      obtain ⟨_, s₂, hmark, hadd⟩ := succeeds_bind.1 hadd
      obtain ⟨found, s₃, hrest, hadd⟩ := succeeds_bind.1 hadd
      obtain ⟨-, rfl⟩ := succeeds_pure.1 hadd
      have htightens :=
        (tightensTo_of_succeeds hcolumn).trans (tightensTo_of_succeeds hmark)
      rcases List.mem_cons.1 he with rfl | he
      · refine (hasColumn_of_addColumn hcolumn).tightens ?_
        exact (tightensTo_of_succeeds hmark).trans
          (tightensTo_of_succeeds hrest)
      · exact ih (h.tightens_to htightens) hrest e he

/-- The default organization is looked for behind all columns. -/
theorem abides_findDefault (h : Underway job start c s)
    (hcolumns : ∀ e ∈ job.plan.tables, s.HasColumn e.table) :
    Abides job start (findDefault c job.defaultSlug) s := by
  refine .bind (abides_ask trivial nofun) fun found s₁ hask => ?_
  cases succeeds_ask.1 hask
  cases hfound : s.organization? job.defaultSlug with
  | none => exact abidesBy_throw (.noDefault hcolumns hfound)
  | some id =>
    refine .when (fun _ => ?_) fun _ _ => abidesBy_pure
    exact abides_mark h (attested_other (by decide) (by decide) (by decide))

-- ============================================================= tables

section turn

variable (hnodup : (job.plan.tables.map Entry.table).Nodup)
  (hfirst : Plan.ParentsFirst [] job.plan.tables)

include hnodup hfirst

/-- A derivation leaves a table that the same derivation would leave alone. -/
theorem derived_of_derive {n : Nat}
    (hturn : Turn job s placed entry organization)
    (h : Succeeds answer (derive entry) s n s') :
    ∃ t, s'.table? entry.table = some t
      ∧ (fillTable (choose s' entry.derivation) t).2 = t := by
  obtain ⟨t, ht, -⟩ := hturn.hasColumn
  obtain ⟨-, -, rfl⟩ := (succeeds_derive ht).1 h
  refine ⟨_, table?_setTable _ _ _, ?_⟩
  rw [hturn.choose_setTable hnodup hfirst, fillTable_fillTable]

omit hnodup in
/-- A table is filled at its turn. -/
theorem abides_derive (hturn : Turn job s placed entry organization) :
    Abides job start (derive entry) s := by
  obtain ⟨t, ht, -⟩ := hturn.hasColumn
  have hparent := hturn.isSome_parent hfirst
  obtain ⟨table, derivation⟩ := entry
  cases derivation with
  | defaultOnly => exact abidesBy_pure
  | ownerMembership column =>
    exact abides_ask ⟨placed, organization, hturn⟩
      (onTable_ne_error ht fun e => nofun)
  | parent parent key =>
    refine abides_ask ⟨placed, organization, hturn⟩ ?_
    obtain ⟨p, hp⟩ := Option.isSome_iff_exists.1 (hparent parent rfl)
    rw [answer_deriveFromParent_of_some hp]
    exact onTable_ne_error ht fun e => nofun

/-- And its rest is left to the default, at the same turn. -/
theorem abides_fill (hturn : Turn job s placed entry organization) :
    Abides job start (fill c organization entry report) s := by
  refine .ite (fun _ => abidesBy_pure) fun _ => ?_
  refine .bind (abides_derive hfirst hturn) fun derived s₁ hderive => ?_
  obtain ⟨t, ht, hderived⟩ := derived_of_derive hnodup hfirst hturn hderive
  have hturn₁ := hturn.tightens (tightensTo_of_succeeds hderive)
  refine .bind (abides_ask ⟨placed, entry, t, rfl, hturn₁, ht, hderived⟩ ?_)
    fun _ _ _ => abidesBy_pure
  exact onTable_ne_error ht fun e => nofun

/-- A table that was filled would not change if it was filled again. -/
theorem filled_again (hturn : Turn job s placed entry organization)
    {report' : TableReport}
    (hdone : ¬c.isDone (stepKey "derive" entry.table) = true)
    (h : Succeeds answer (fill c organization entry report) s report' s')
    {t : MemoryTable} (ht : s'.table? entry.table = some t) :
    (fillTwice (choose s' entry.derivation) organization t).2 = t := by
  obtain ⟨u, -, -, -, rfl⟩ := (succeeds_fill hdone).1 h
  cases ht.symm.trans (table?_setTable _ _ _)
  rw [hturn.choose_setTable hnodup hfirst, fillTwice_fillTwice]

omit hnodup hfirst in
/-- A table is recorded as filled only if the check has found it complete. -/
theorem abides_verify (h : Underway job start c s)
    (hturn : Turn job s placed entry organization)
    (hfilled : ∀ t, s.table? entry.table = some t →
      ¬c.isDone (stepKey "derive" entry.table) = true →
        (fillTwice (choose s entry.derivation) organization t).2 = t) :
    Abides job start (verify c entry.table) s := by
  obtain ⟨t, ht, -⟩ := hturn.hasColumn
  refine .bind (abides_ask trivial (onTable_ne_error ht fun e => nofun))
    fun count s₁ hcount => ?_
  obtain ⟨u, hu, rfl, rfl⟩ := answer_countMissing.1 (succeeds_ask.1 hcount)
  cases ht.symm.trans hu
  refine .when (fun hgap => ?_) fun s₂ hthrow => ?_
  · exact abidesBy_throw (.gap hturn ht hgap fun hskips =>
      hfilled t ht fun hdone => hskips ((h.skips _).1 hdone))
  · obtain ⟨hnone, rfl⟩ : missing t = 0 ∧ s₁ = s₂ := by
      rcases hthrow with ⟨-, hthrow⟩ | ⟨hnone, rfl⟩
      · exact absurd hthrow not_succeeds_throw
      · exact ⟨Nat.eq_zero_of_not_pos hnone, rfl⟩
    refine .when (fun _ => abides_mark h (attested_filled ⟨t, ht, hnone⟩))
      fun s₃ hmark => ?_
    refine .ite (fun _ => ?_) fun _ => abidesBy_pure
    have h₃ : Underway job start c s₃ := by
      rcases hmark with ⟨-, hmark⟩ | ⟨-, rfl⟩
      · exact h.tightens_to (tightensTo_of_succeeds hmark)
      · exact h
    exact abides_mark h₃ (attested_other (by decide) (by decide) (by decide))

omit hnodup hfirst in
/-- A complete table can be enforced. -/
theorem abides_enforce (h : Underway job start c s)
    (hturn : Turn job s placed entry organization)
    (hcomplete : s.Complete entry.table) :
    Abides job start (enforce c entry.table report) s := by
  obtain ⟨t, ht, hnone⟩ := hcomplete
  refine .ite (fun _ => abidesBy_pure) fun _ => ?_
  refine .bind (abides_ask trivial nofun) fun nullable s₁ hask => ?_
  cases succeeds_ask.1 hask
  refine .when (fun _ => ?_) fun s₂ hset => ?_
  · refine abides_ask
      ⟨placed, entry, organization, rfl, hturn, t, ht, hnone⟩ ?_
    refine onTable_ne_error ht fun e => ?_
    rw [if_neg (by omega)]
    exact nofun
  obtain ⟨-, rfl⟩ := (succeeds_setNotNull ht).1 hset
  have hmandatory : t.TightensTo { t with nullable := false } :=
    .of_rows rfl rfl id (fun _ _ => rfl) id
  have htightens₂ := tightensTo_setTable ht hmandatory
  have ht₂ := table?_setTable s entry.table { t with nullable := false }
  refine .bind (abides_ask trivial nofun) fun hasKey s₃ hask => ?_
  cases succeeds_ask.1 hask
  refine .when (fun _ => ?_) fun s₄ hadd => ?_
  · refine abides_ask
      ⟨placed, entry, organization, rfl, hturn.tightens htightens₂, ?_⟩ ?_
    · exact ⟨_, ht₂, hnone⟩
    · exact onTable_ne_error ht₂ fun e => nofun
  obtain rfl := (succeeds_addForeignKey ht₂).1 hadd
  have hforeign : MemoryTable.TightensTo { t with nullable := false }
      { t with nullable := false, foreignKey := true } :=
    .of_rows rfl rfl id (fun _ => id) fun _ => rfl
  have htightens₄ := tightensTo_setTable ht₂ hforeign
  refine .bind (abides_mark (h.tightens_to (htightens₂.trans htightens₄)) ?_)
    fun _ _ _ => abidesBy_pure
  obtain ⟨u, hu, hcolumn⟩ := hturn.hasColumn
  cases ht.symm.trans hu
  exact attested_enforced ⟨_, table?_setTable _ _ _, hcolumn, rfl, rfl⟩

/-- All that is done for a table is done at its turn. -/
theorem abides_backfillTable (h : Underway job start c s)
    (hturn : Turn job s placed entry organization) :
    Abides job start (backfillTable c organization entry report) s := by
  refine .bind (abides_fill hnodup hfirst hturn) fun report₁ s₁ hfill => ?_
  have htightens₁ := tightensTo_of_succeeds hfill
  have h₁ := h.tightens_to htightens₁
  have hturn₁ := hturn.tightens htightens₁
  refine .bind (abides_verify h₁ hturn₁ ?_) fun _ s₂ hverify => ?_
  · exact fun t ht hdone => filled_again hnodup hfirst hturn hdone hfill ht
  · have htightens₂ := tightensTo_of_succeeds hverify
    obtain ⟨⟨t, ht, hnone⟩, -⟩ := succeeds_verify.1 hverify
    have hcomplete : s₁.Complete entry.table := ⟨t, ht, hnone⟩
    exact abides_enforce (h₁.tightens_to htightens₂)
      (hturn₁.tightens htightens₂)
      (hcomplete.tightens htightens₂)

omit hnodup hfirst in
/-- A table is finished behind its turn, even if its enforcement was
skipped. -/
theorem finished_of_backfillTable (h : Underway job start c s)
    (htruth : Truthful start job.plan.fingerprint)
    (hcolumn : s.HasColumn entry.table) {report' : TableReport}
    (hrun : Succeeds answer (backfillTable c organization entry report) s
      report' s') :
    s'.Complete entry.table ∧ s'.Enforced entry.table := by
  have htightens := tightensTo_of_succeeds hrun
  obtain ⟨report₁, s₁, hfill, hrun⟩ := succeeds_bind.1 hrun
  obtain ⟨_, s₂, hverify, henforce⟩ := succeeds_bind.1 hrun
  have htightens₁ := tightensTo_of_succeeds hfill
  have htightens₂ := tightensTo_of_succeeds hverify
  have htightens' := tightensTo_of_succeeds henforce
  obtain ⟨⟨t, ht, hnone⟩, -⟩ := succeeds_verify.1 hverify
  have hcomplete : s₁.Complete entry.table := ⟨t, ht, hnone⟩
  refine ⟨hcomplete.tightens (htightens₂.trans htightens'), ?_⟩
  by_cases hdone : c.isDone (stepKey "enforce" entry.table) = true
  · exact (h.tightens_to htightens).isEnforced htruth hdone
  · obtain ⟨u, hu, hcolumn⟩ := hcolumn.tightens (htightens₁.trans htightens₂)
    obtain ⟨-, -, rfl⟩ := (succeeds_enforce hu hdone).1 henforce
    refine ⟨{ u with nullable := false, foreignKey := true }, ?_, hcolumn, rfl,
      rfl⟩
    rw [table?_marked, table?_setTable]

/-- The tables have their turns in the order of the plan. -/
theorem abides_backfillTables {work : List (Entry × TableReport)}
    (h : Underway job start c s) (htruth : Truthful start job.plan.fingerprint)
    (hplanned : job.plan.tables = placed ++ work.map Prod.fst)
    (hcolumns : ∀ e ∈ job.plan.tables, s.HasColumn e.table)
    (hdefault : s.organization? job.defaultSlug = some organization)
    (hplaced : ∀ e ∈ placed, s.Complete e.table ∧ s.Enforced e.table) :
    Abides job start (backfillTables c organization work) s := by
  induction work generalizing placed s with
  | nil => exact abidesBy_pure
  | cons w rest ih =>
    obtain ⟨entry, report⟩ := w
    have hturn : Turn job s placed entry organization :=
      ⟨⟨_, hplanned⟩, hcolumns, hdefault, hplaced⟩
    refine .bind (abides_backfillTable hnodup hfirst h hturn)
      fun report' s₁ hrun => ?_
    have htightens := tightensTo_of_succeeds hrun
    have hfinished := finished_of_backfillTable h htruth hturn.hasColumn hrun
    have hturn₁ := hturn.tightens htightens
    have hplanned' :
        job.plan.tables = (placed ++ [entry]) ++ rest.map Prod.fst := by
      rw [hplanned, List.append_assoc]
      rfl
    have hplaced' :
        ∀ e ∈ placed ++ [entry],
          s₁.Complete e.table ∧ s₁.Enforced e.table := by
      intro e he
      rcases List.mem_append.1 he with he | he
      · exact hturn₁.finished e he
      · obtain rfl := List.mem_singleton.1 he
        exact hfinished
    have hrest :=
      ih (h.tightens_to htightens) hplanned' hturn₁.columns hturn₁.default
        hplaced'
    exact .bind hrest fun _ _ _ => abidesBy_pure

omit hnodup hfirst in
/-- And behind them all every one is finished. -/
theorem finished_of_backfillTables {work : List (Entry × TableReport)}
    {reports : List TableReport}
    (h : Underway job start c s) (htruth : Truthful start job.plan.fingerprint)
    (hcolumns : ∀ w ∈ work, s.HasColumn w.1.table)
    (hrun : Succeeds answer (backfillTables c organization work) s
      reports s') :
    ∀ w ∈ work, s'.Complete w.1.table ∧ s'.Enforced w.1.table := by
  induction work generalizing s reports s' with
  | nil => exact nofun
  | cons w rest ih =>
    obtain ⟨report', s₁, hfirst, hrun⟩ := succeeds_bind.1 hrun
    obtain ⟨reports', s₂, hrest, hrun⟩ := succeeds_bind.1 hrun
    obtain ⟨-, rfl⟩ := succeeds_pure.1 hrun
    have htightens₁ := tightensTo_of_succeeds hfirst
    have htightens₂ := tightensTo_of_succeeds hrest
    intro v hv
    rcases List.mem_cons.1 hv with rfl | hv
    · have hfinished :=
        finished_of_backfillTable h htruth
          (hcolumns _ (List.mem_cons_self ..)) hfirst
      exact ⟨hfinished.1.tightens htightens₂, hfinished.2.tightens htightens₂⟩
    · refine ih (h.tightens_to htightens₁) (fun w hw => ?_) hrest v hv
      exact (hcolumns w (List.mem_cons_of_mem _ hw)).tightens htightens₁

end turn

-- =============================================================== run

/-- A run of an accepted plan makes every call when it is due, and fails in one
of the three states. -/
theorem run_abides {entries : List Entry}
    (hplan : Plan.ofEntries entries = .ok job.plan)
    (htruth : Truthful s job.plan.fingerprint) : Abides job s job.run s := by
  obtain ⟨-, hnodup, hfirst⟩ := Plan.ofEntries_ok hplan
  have hcheckpoints : Abides job s job.checkpoints s := by
    refine .ite (fun _ => ?_) fun _ => abidesBy_pure
    refine .bind (abides_ask trivial nofun) fun _ _ _ => ?_
    exact .bind (abides_ask trivial nofun) fun _ _ _ => abidesBy_pure
  refine .bind hcheckpoints fun c s₁ hc => ?_
  have h₁ := underway_of_checkpoints hc
  have hcolumns₁ : ∀ e ∈ ([] : List Entry), s₁.HasColumn e.table :=
    fun _ he => nomatch he
  refine .bind (abides_addColumns h₁ htruth (List.nil_append _).symm hcolumns₁)
    fun added s₂ hadd => ?_
  have h₂ := h₁.tightens_to (tightensTo_of_succeeds hadd)
  have hcolumns₂ := hasColumn_of_addColumns h₁ htruth hadd
  refine .bind (abides_findDefault h₂ hcolumns₂)
    fun organization s₃ hfound => ?_
  have htightens₃ := tightensTo_of_succeeds hfound
  have hdefault := (succeeds_findDefault.1 hfound).1
  rw [← organization?_of_tightensTo htightens₃] at hdefault
  have hwork := (zip_reports (contents_of_addColumns hadd).2).1
  have hplanned :
      job.plan.tables = [] ++ (job.plan.tables.zip added.1).map Prod.fst :=
    hwork.symm
  refine .bind
    (abides_backfillTables hnodup hfirst (h₂.tightens_to htightens₃) htruth
      hplanned ?_
    hdefault fun _ he => nomatch he) fun _ _ _ => abidesBy_pure
  exact fun e he => (hcolumns₂ e he).tightens htightens₃

/-- A run that succeeds has found the default organization. -/
theorem organization?_of_run {result : Report}
    (hrun : Succeeds answer job.run s result s') :
    ∃ organization, s'.organization? job.defaultSlug = some organization := by
  have htightens := tightensTo_of_succeeds hrun
  obtain ⟨c, s₁, hc, hrun⟩ := succeeds_bind.1 hrun
  obtain ⟨added, s₂, hadd, hrun⟩ := succeeds_bind.1 hrun
  obtain ⟨organization, s₃, hfound, -⟩ := succeeds_bind.1 hrun
  have htightens₂ :=
    (tightensTo_of_succeeds hc).trans (tightensTo_of_succeeds hadd)
  have hdefault := (succeeds_findDefault.1 hfound).1
  rw [organization?_of_tightensTo htightens₂] at hdefault
  exact ⟨organization,
    (organization?_of_tightensTo htightens _).trans hdefault⟩

/-- A run that succeeds leaves every planned table complete and enforced. -/
theorem finished_of_run {result : Report}
    (htruth : Truthful s job.plan.fingerprint)
    (hrun : Succeeds answer job.run s result s') :
    ∀ e ∈ job.plan.tables, s'.Complete e.table ∧ s'.Enforced e.table := by
  obtain ⟨c, s₁, hc, hrun⟩ := succeeds_bind.1 hrun
  obtain ⟨added, s₂, hadd, hrun⟩ := succeeds_bind.1 hrun
  obtain ⟨organization, s₃, hfound, hrun⟩ := succeeds_bind.1 hrun
  obtain ⟨reports, s₄, hwork, hrun⟩ := succeeds_bind.1 hrun
  obtain ⟨-, rfl⟩ := succeeds_pure.1 hrun
  have h₁ := underway_of_checkpoints hc
  have htightens₂ := tightensTo_of_succeeds hadd
  have htightens₃ := tightensTo_of_succeeds hfound
  have hcolumns := hasColumn_of_addColumns h₁ htruth hadd
  have hentries := (zip_reports (contents_of_addColumns hadd).2).1
  have hfinished := finished_of_backfillTables
    ((h₁.tightens_to htightens₂).tightens_to htightens₃) htruth ?_ hwork
  · intro e he
    rw [← hentries] at he
    obtain ⟨w, hw, rfl⟩ := List.mem_map.1 he
    exact hfinished w hw
  · intro w hw
    have hmem : w.1 ∈ job.plan.tables := hentries ▸ List.mem_map_of_mem hw
    exact (hcolumns w.1 hmem).tightens htightens₃

end Tenancy.Backfill
