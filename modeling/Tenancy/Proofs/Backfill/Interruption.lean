/-
Backfills that are interrupted. No run by itself leaves a table stuck,
wherever it is cut: it fills no table whose filling is recorded, and it
records the filling only of a table that is complete (`Harmless`). So
behind every call of a run the tables are stuck that were before it, and
no others (`throughout_run`).

A call that works on a table may record the filling of that one. The
loop goes on to the others, and needs to know that their fillings are
recorded as before (`Keeps`).
-/
import Tenancy.Proofs.Backfill.Completion
import Tenancy.Proofs.Cuts

namespace Tenancy.Backfill

open Program MemoryStore

variable {fingerprint name table : String} {exempt : Option String}
  {s s' s₀ : MemoryStore}
  {c : Checkpoints} {entry : Entry} {organization : Uuid}
    {report : TableReport}

-- ============================================================== calls

/-- What a part of a run keeps: the tables that are stuck, and which fillings
are recorded, perhaps of all tables but the one that it works on. -/
structure Keeps (fingerprint : String) (exempt : Option String)
    (s s' : MemoryStore) : Prop where
  stuck : ∀ name, Stuck fingerprint s' name ↔ Stuck fingerprint s name
  recorded : ∀ name, exempt ≠ some name →
    (Recorded fingerprint s' name ↔ Recorded fingerprint s name)

theorem Keeps.refl (s : MemoryStore) : Keeps fingerprint exempt s s :=
  ⟨fun _ => .rfl, fun _ _ => .rfl⟩

theorem Keeps.trans {s'' : MemoryStore} (h : Keeps fingerprint exempt s s')
    (h' : Keeps fingerprint exempt s' s'') : Keeps fingerprint exempt s s'' :=
  ⟨fun name => (h'.stuck name).trans (h.stuck name),
    fun name hname => (h'.recorded name hname).trans (h.recorded name hname)⟩

/-- A change that records nothing keeps the record, if it keeps the rows of the
tables that are recorded as filled. -/
theorem Keeps.of_checkpoints (hcheckpoints : s'.checkpoints = s.checkpoints)
    (hrows : ∀ name, Recorded fingerprint s name →
      s'.rowsOf name = s.rowsOf name) :
    Keeps fingerprint exempt s s' := by
  have hrecorded :
      ∀ name, Recorded fingerprint s' name ↔ Recorded fingerprint s name := by
    intro name
    unfold Recorded
    rw [hcheckpoints]
  refine ⟨fun name => ?_, fun name _ => hrecorded name⟩
  unfold Stuck
  rw [hrecorded name]
  exact and_congr_right fun h => incomplete_eq (hrows name h)

/-- A change of a table changes the rows of that one at most, and nothing
that is recorded. -/
theorem keeps_onTable {α : Type}
    {change : MemoryTable → Except BackfillError (α × MemoryTable)}
    (h : Recorded fingerprint s table → ∀ t a u, change t = .ok (a, u) →
      u.rows = t.rows) :
    Keeps fingerprint exempt s (s.onTable table change).2 := by
  unfold onTable
  cases ht : s.table? table with
  | none => exact .refl s
  | some t =>
    cases hchange : change t with
    | error e =>
      simp only [hchange]
      exact .refl s
    | ok result =>
      obtain ⟨a, u⟩ := result
      simp only [hchange]
      refine .of_checkpoints rfl fun name hrecorded => ?_
      by_cases hname : table = name
      · subst hname
        rw [rowsOf_setTable, rowsOf_eq_rows ht]
        exact h hrecorded t a u hchange
      · exact rowsOf_setTable_of_ne s u hname

/-- A call that fills no table whose filling is recorded, and records no
filling but of the exempt table, and of that one only if it is complete. -/
def Harmless (fingerprint : String) (exempt : Option String)
    (s : MemoryStore) : StoreCall → Prop
  | .deriveFromParent table _ _ | .deriveFromOwner table _
  | .applyDefault table _ =>
    ¬Recorded fingerprint s table
  | .recordStep _ key =>
    ∀ name : String, key = stepKey "derive" name →
      exempt = some name ∧ ¬Incomplete s name
  | _ => True

/-- A record of any other step, or of the exempt table once it is complete, is
harmless. -/
theorem keeps_record {other key : String}
    (h : Harmless fingerprint exempt s (.recordStep other key)) :
    Keeps fingerprint exempt s (s.record other key) := by
  have hrows : ∀ name, (s.record other key).rowsOf name = s.rowsOf name :=
    fun name => rowsOf_eq (contents_record other key)
  have hrecorded : ∀ name,
      (Recorded fingerprint (s.record other key) name
        ↔ Recorded fingerprint s name)
      ∨ exempt = some name ∧ ¬Incomplete s name := by
    intro name
    by_cases hkey : key = stepKey "derive" name
    · exact .inr (h name hkey)
    · refine .inl (mem_record.trans ⟨fun hmem => ?_, .inl⟩)
      rcases hmem with hmem | hmem
      · exact hmem
      · exact absurd (Prod.mk.inj hmem).2.symm hkey
  constructor
  · intro name
    unfold Stuck
    rw [incomplete_eq (hrows name)]
    rcases hrecorded name with hsame | ⟨-, hcomplete⟩
    · rw [hsame]
    · exact ⟨fun hstuck => absurd hstuck.2 hcomplete,
        fun hstuck => absurd hstuck.2 hcomplete⟩
  · intro name hname
    rcases hrecorded name with hsame | ⟨hexempt, -⟩
    · exact hsame
    · exact absurd hexempt hname

/-- What harmless calls leave is kept. -/
theorem Harmless.keeps {call : StoreCall}
    (h : Harmless fingerprint exempt s call) :
    Keeps fingerprint exempt s (answer call s).2 := by
  cases call with
  | tableExists | columnExists | findOrganization | columnIsNullable
  | foreignKeyExists
  | completedSteps => exact .refl s
  | ensureCheckpoints => exact .of_checkpoints rfl fun _ _ => rfl
  | recordStep other key => exact keeps_record h
  | deriveFromOwner table column =>
    exact keeps_onTable fun hrecorded => absurd hrecorded h
  | applyDefault table organization =>
    exact keeps_onTable fun hrecorded => absurd hrecorded h
  | deriveFromParent table parent key =>
    cases hparent : s.table? parent with
    | none =>
      rw [answer_deriveFromParent_of_none hparent]
      exact .refl s
    | some p =>
      rw [answer_deriveFromParent_of_some hparent]
      exact keeps_onTable fun hrecorded => absurd hrecorded h
  | addNullableColumn table =>
    refine keeps_onTable fun _ t a u hchange => ?_
    cases hchange
    split <;> rfl
  | countMissing table =>
    refine keeps_onTable fun _ t a u hchange => ?_
    cases hchange
    rfl
  | setNotNull table =>
    refine keeps_onTable fun _ t a u hchange => ?_
    split at hchange
    · cases hchange
    · cases hchange
      rfl
  | addForeignKey table =>
    refine keeps_onTable fun _ t a u hchange => ?_
    cases hchange
    rfl

-- =============================================================== parts

/-- A harmless call may be the last one before a cut. -/
theorem throughout_ask {call : StoreCall} (h : Keeps fingerprint exempt s₀ s)
    (hharmless : Harmless fingerprint exempt s call) :
    Throughout answer (Keeps fingerprint exempt s₀) (ask call) s :=
  throughout_call h (h.trans hharmless.keeps)

/-- So may a mark, unless it says of an incomplete table that it is filled. -/
theorem throughout_mark {key : String} (h : Keeps fingerprint exempt s₀ s)
    (hkey : ∀ name : String, key = stepKey "derive" name →
      exempt = some name ∧ ¬Incomplete s name) :
    Throughout answer (Keeps fingerprint exempt s₀) (c.mark key) s :=
  .ite (fun _ => throughout_ask h hkey) (fun _ => throughout_pure h)

/-- Any step but a filling may be recorded. -/
theorem throughout_mark_other (step : String) (about : Option String)
    (hstep : StartsOtherwise step "derive")
    (h : Keeps fingerprint exempt s₀ s) :
    Throughout answer (Keeps fingerprint exempt s₀)
      (c.mark (stepKey step about)) s :=
  throughout_mark h fun _ hname => absurd hname (stepKey_ne hstep)

/-- A new column fills no row, so a cut there loses nothing. -/
theorem throughout_addColumn (h : Keeps fingerprint exempt s₀ s) :
    Throughout answer (Keeps fingerprint exempt s₀) (addColumn table) s := by
  refine .bind (throughout_ask h trivial) fun isTable s₁ h₁ _ => ?_
  refine .when h₁ (fun _ => throughout_throw h₁) fun s₂ h₂ _ => ?_
  refine .bind (throughout_ask h₂ trivial) fun isColumn s₃ h₃ _ => ?_
  refine .ite (fun _ => throughout_pure h₃) fun _ => ?_
  exact .bind (throughout_ask h₃ trivial) fun _ s₄ h₄ _ => throughout_pure h₄

/-- The same holds of all columns, one after another. -/
theorem throughout_addColumns {entries : List Entry}
    (h : Keeps fingerprint exempt s₀ s) :
    Throughout answer (Keeps fingerprint exempt s₀) (addColumns c entries)
      s := by
  induction entries generalizing s with
  | nil => exact throughout_pure h
  | cons entry rest ih =>
    refine .ite (fun _ => ?_) (fun _ => ?_)
    · exact .bind (ih h) fun _ s₁ h₁ _ => throughout_pure h₁
    · refine .bind (throughout_addColumn h) fun isNew s₁ h₁ _ => ?_
      refine .bind
        (throughout_mark_other "add_column" entry.table (by decide) h₁)
        fun _ s₂ h₂ _ => ?_
      exact .bind (ih h₂) fun _ s₃ h₃ _ => throughout_pure h₃

/-- Looking for the default organization changes no row. -/
theorem throughout_findDefault {slug : String}
    (h : Keeps fingerprint exempt s₀ s) :
    Throughout answer (Keeps fingerprint exempt s₀) (findDefault c slug)
      s := by
  refine .bind (throughout_ask h trivial) fun found s₁ h₁ _ => ?_
  cases found with
  | none => exact throughout_throw h₁
  | some id =>
    exact .when h₁
      (fun _ => throughout_mark_other "seed_default" none (by decide) h₁)
      fun s₂ h₂ _ => throughout_pure h₂

/-- Deriving touches a table that is not recorded as filled. -/
theorem throughout_derive (h : Keeps fingerprint exempt s₀ s)
    (hnot : ¬Recorded fingerprint s entry.table) :
    Throughout answer (Keeps fingerprint exempt s₀) (derive entry) s := by
  unfold derive
  cases entry.derivation with
  | ownerMembership column => exact throughout_ask h hnot
  | parent parent key => exact throughout_ask h hnot
  | defaultOnly => exact throughout_pure h

/-- Deriving records nothing, so the table is still open behind it. -/
theorem checkpoints_of_derive {n : Nat}
    (h : Succeeds answer (derive entry) s n s') :
    s'.checkpoints = s.checkpoints := by
  rcases of_derive h with rfl | ⟨t, u, -, rfl⟩
  · rfl
  · rfl

/-- Filling is recorded only behind both of its halves. -/
theorem throughout_fill (h : Keeps fingerprint exempt s₀ s)
    (hnot : ¬c.isDone (stepKey "derive" entry.table) = true →
      ¬Recorded fingerprint s entry.table) :
    Throughout answer (Keeps fingerprint exempt s₀)
      (fill c organization entry report) s := by
  refine .ite (fun _ => throughout_pure h) fun hdone => ?_
  refine .bind (throughout_derive h (hnot hdone))
    fun derived s₁ h₁ hderive => ?_
  have hnot₁ : ¬Recorded fingerprint s₁ entry.table := by
    unfold Recorded
    rw [checkpoints_of_derive hderive]
    exact hnot hdone
  exact .bind (throughout_ask h₁ hnot₁) fun _ s₂ h₂ _ => throughout_pure h₂

/-- The check records the filling of its table, behind having found no row
without an organization. -/
theorem throughout_verify (h : Keeps fingerprint (some table) s₀ s) :
    Throughout answer (Keeps fingerprint (some table) s₀) (verify c table)
      s := by
  refine .bind (throughout_ask h trivial) fun count s₁ h₁ hcount => ?_
  obtain ⟨t, ht, rfl, rfl⟩ := answer_countMissing.1 (succeeds_ask.1 hcount)
  refine .when h₁ (fun _ => throughout_throw h₁) fun s₂ h₂ hthrow => ?_
  obtain ⟨hnone, rfl⟩ : missing t = 0 ∧ s₁ = s₂ := by
    rcases hthrow with ⟨-, hthrow⟩ | ⟨hnone, rfl⟩
    · exact absurd hthrow not_succeeds_throw
    · exact ⟨Nat.eq_zero_of_not_pos hnone, rfl⟩
  -- Behind the count the table is complete, so its filling may be recorded.
  have hcomplete := (missing_eq_zero_iff ht).1 hnone
  have hfilled :
      ∀ name : String, stepKey "derive" table = stepKey "derive" name →
      some table = some name ∧ ¬Incomplete s₁ name := by
    intro name hname
    obtain rfl := stepKey_inj.1 hname
    exact ⟨rfl, hcomplete⟩
  refine .when h₂ (fun _ => throughout_mark h₂ hfilled) fun s₃ h₃ _ => ?_
  exact .ite (fun _ => throughout_mark_other "verify" table (by decide) h₃)
    fun _ => throughout_pure h₃

/-- Enforcement records no filling. -/
theorem throughout_enforce (h : Keeps fingerprint exempt s₀ s) :
    Throughout answer (Keeps fingerprint exempt s₀) (enforce c table report)
      s := by
  refine .ite (fun _ => throughout_pure h) fun _ => ?_
  refine .bind (throughout_ask h trivial) fun nullable s₁ h₁ _ => ?_
  refine .when h₁ (fun _ => throughout_ask h₁ trivial) fun s₂ h₂ _ => ?_
  refine .bind (throughout_ask h₂ trivial) fun hasKey s₃ h₃ _ => ?_
  refine .when h₃ (fun _ => throughout_ask h₃ trivial) fun s₄ h₄ _ => ?_
  exact .bind (throughout_mark_other "enforce" table (by decide) h₄)
    fun _ s₅ h₅ _ => throughout_pure h₅

/-- While its table is worked on, only that table may come to be recorded as
filled. -/
theorem throughout_backfillTable
    (h : Keeps fingerprint (some entry.table) s₀ s)
    (hnot : ¬c.isDone (stepKey "derive" entry.table) = true →
      ¬Recorded fingerprint s entry.table) :
    Throughout answer (Keeps fingerprint (some entry.table) s₀)
      (backfillTable c organization entry report) s := by
  refine .bind (throughout_fill h hnot) fun report₁ s₁ h₁ _ => ?_
  refine .bind (throughout_verify h₁) fun _ s₂ h₂ _ => ?_
  exact throughout_enforce h₂

-- ================================================================ runs

/-- A run leaves the tables stuck that are, and no others. -/
def SameStuck (fingerprint : String) (s s' : MemoryStore) : Prop :=
  ∀ name, Stuck fingerprint s' name ↔ Stuck fingerprint s name

/-- Each table of the work is exempt for its own turn only. -/
theorem throughout_backfillTables {work : List (Entry × TableReport)}
    (h : SameStuck fingerprint s₀ s)
    (hnodup : ((work.map Prod.fst).map Entry.table).Nodup)
    (hnot : ∀ w ∈ work, ¬c.isDone (stepKey "derive" w.1.table) = true →
      ¬Recorded fingerprint s w.1.table) :
    Throughout answer (SameStuck fingerprint s₀)
      (backfillTables c organization work) s := by
  induction work generalizing s with
  | nil => exact throughout_pure h
  | cons w rest ih =>
    obtain ⟨entry, report⟩ := w
    obtain ⟨hnew, hnodup⟩ := List.nodup_cons.1 hnodup
    have htable : Throughout answer (Keeps fingerprint (some entry.table) s)
        (backfillTable c organization entry report) s :=
      throughout_backfillTable (.refl s) (hnot (entry, report) (by simp))
    refine .bind (htable.mono fun t ht name => (ht.stuck name).trans (h name))
      fun _ s₁ h₁ hfirst => ?_
    have hkeeps := htable.final hfirst
    -- No table is listed twice, so what this one recorded is not of the
    -- others.
    refine .bind (ih h₁ hnodup fun w hw hdone hrecorded => ?_) fun _ s₂ h₂ _ =>
      throughout_pure h₂
    have hne : some entry.table ≠ some w.1.table := by
      intro hsame
      apply hnew
      rw [List.map_map]
      exact List.mem_map.2 ⟨w, hw, (Option.some.inj hsame).symm⟩
    exact hnot w (by simp [hw]) hdone ((hkeeps.recorded _ hne).1 hrecorded)

variable {job : Job}

/-- At no point of a run that goes by its checkpoints does another incomplete
table come to be recorded as filled. -/
theorem throughout_run (hnodup : (job.plan.tables.map Entry.table).Nodup)
    (huse : job.useCheckpoints = true) :
    Throughout answer (SameStuck job.plan.fingerprint s) job.run s := by
  have hcheckpoints :
      Throughout answer (Keeps job.plan.fingerprint none s) job.checkpoints
        s := by
    refine .ite (fun _ => ?_) fun _ => throughout_pure (.refl s)
    refine .bind (throughout_ask (.refl s) trivial) fun _ s₁ h₁ _ => ?_
    exact .bind (throughout_ask h₁ trivial) fun _ s₂ h₂ _ => throughout_pure h₂
  refine .bind (hcheckpoints.mono fun t ht => ht.stuck) fun c s₁ _ hc => ?_
  have h₁ := hcheckpoints.final hc
  have hcolumns : Throughout answer (Keeps job.plan.fingerprint none s)
      (addColumns c job.plan.tables) s₁ := throughout_addColumns h₁
  refine .bind (hcolumns.mono fun t ht => ht.stuck)
    fun started s₂ _ hstarted => ?_
  have h₂ := hcolumns.final hstarted
  have hdefault : Throughout answer (Keeps job.plan.fingerprint none s)
      (findDefault c job.defaultSlug) s₂ := throughout_findDefault h₂
  refine .bind (hdefault.mono fun t ht => ht.stuck)
    fun organization s₃ _ hfound => ?_
  have h₃ := hdefault.final hfound
  have hentries := (zip_reports (contents_of_addColumns hstarted).2).1
  refine .bind (throughout_backfillTables h₃.stuck (by rwa [hentries]) ?_)
    fun _ s₄ h₄ _ => throughout_pure h₄
  -- What is not recorded for this run is not recorded in its store either.
  intro w _ hdone hrecorded
  rcases succeeds_checkpoints.1 hc with ⟨-, rfl, -⟩ | ⟨hnot, -⟩
  · exact hdone
      (isDone_iff_recorded.2 ((h₃.recorded w.1.table nofun).1 hrecorded))
  · rw [huse] at hnot
    cases hnot

end Tenancy.Backfill
