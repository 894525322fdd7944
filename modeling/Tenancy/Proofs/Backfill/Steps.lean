/-
The steps of a backfill on the store in memory. Each step either stops
the run or leaves the store and the report in one way, and the lemmas
here say which: when the step succeeds, with what, and in which state —
in both directions, so that they serve a run that is known to have
succeeded as well as one that has to be shown to.

What a derivation offers a row is `choose`; a table is filled by it
first and by the default organization afterwards.
-/
import Tenancy.Backfill.Run
import Tenancy.Proofs.Backfill.Store
import Tenancy.Proofs.Outcome

namespace Tenancy.Backfill

open Program MemoryStore

variable {c : Checkpoints} {s s' : MemoryStore} {organization : Uuid}
  {entry : Entry} {table : String} {report report' : TableReport}

-- =============================================================== keys

theorem stepKey_inj {step a b : String} :
    stepKey step a = stepKey step b ↔ a = b := by
  constructor
  · intro h
    have hlist := congrArg String.toList h
    simp only [stepKey, String.toList_append, List.append_cancel_left_eq]
      at hlist
    exact String.toList_injective hlist
  · rintro rfl
    rfl

/-- The names of two steps start with different letters. -/
def StartsOtherwise (step step' : String) : Prop :=
  step ≠ "" ∧ step' ≠ "" ∧ step.toList.head? ≠ step'.toList.head?

instance (step step' : String) : Decidable (StartsOtherwise step step') :=
  inferInstanceAs (Decidable (_ ∧ _ ∧ _))

/-- A key starts as the name of its step. -/
theorem head?_stepKey {step : String} (about : Option String) (h : step ≠ "") :
    (stepKey step about).toList.head? = step.toList.head? := by
  cases about with
  | none => rfl
  | some table =>
    show (step ++ ":" ++ table).toList.head? = _
    rw [String.toList_append, String.toList_append, List.append_assoc]
    cases hstep : step.toList with
    | nil => exact absurd (String.toList_injective hstep) h
    | cons letter rest => rfl

theorem stepKey_ne {step step' : String} {about about' : Option String}
    (h : StartsOtherwise step step') :
    stepKey step about ≠ stepKey step' about' := by
  obtain ⟨hstep, hstep', hletter⟩ := h
  intro hkey
  apply hletter
  rw [← head?_stepKey about hstep, ← head?_stepKey about' hstep', hkey]

-- ============================================================ records

theorem succeeds_ask {call : StoreCall} {a : call.Result} :
    Succeeds answer (ask call) s a s' ↔ answer call s = (.ok a, s') :=
  Iff.rfl

/-- The store behind a step that is recorded. -/
def Checkpoints.marked (c : Checkpoints) (s : MemoryStore) (key : String) :
    MemoryStore :=
  if c.enabled then s.record c.fingerprint key else s

theorem succeeds_mark {key : String} {a : Unit} :
    Succeeds answer (c.mark key) s a s' ↔ s' = c.marked s key := by
  unfold Checkpoints.mark Checkpoints.marked
  by_cases henabled : c.enabled = true
  · rw [if_pos henabled]
    constructor
    · intro h
      cases succeeds_ask.1 ((succeeds_if_pos henabled).1 h)
      rfl
    · rintro rfl
      exact (succeeds_if_pos henabled).2 (succeeds_ask.2 rfl)
  · rw [if_neg henabled]
    constructor
    · intro h
      exact (succeeds_pure.1 ((succeeds_if_neg henabled).1 h)).2.symm
    · rintro rfl
      exact (succeeds_if_neg henabled).2 (succeeds_pure.2 ⟨rfl, rfl⟩)

/-- The store behind a step that is recorded unless it is already. -/
def Checkpoints.markedOnce (c : Checkpoints) (s : MemoryStore) (key : String) :
    MemoryStore :=
  if c.isDone key then s else c.marked s key

/-- A step is recorded unless it is already, and then the rest follows. -/
theorem succeeds_markOnce {α : Type} {key : String} {f : Unit → StoreProgram α}
    {a : α} :
    Succeeds answer (if (!c.isDone key) = true then c.mark key >>= f else f ())
      s a s' ↔
      Succeeds answer (f ()) (c.markedOnce s key) a s' := by
  unfold Checkpoints.markedOnce
  cases hdone : c.isDone key with
  | true =>
    constructor
    · intro h
      exact (succeeds_if_neg (by simp)).1 h
    · intro h
      exact (succeeds_if_neg (by simp)).2 h
  | false =>
    constructor
    · intro h
      obtain ⟨_, s₁, hmark, h⟩ :=
        succeeds_bind.1 ((succeeds_if_pos (by simp)).1 h)
      cases succeeds_mark.1 hmark
      exact h
    · intro h
      exact (succeeds_if_pos (by simp)).2
        (succeeds_bind.2 ⟨(), _, succeeds_mark.2 rfl, h⟩)

/-- A step is recorded unless it is already, and nothing follows. -/
theorem succeeds_markLast {key : String} {a : Unit} :
    Succeeds answer (if (!c.isDone key) = true then c.mark key else pure ())
      s a s' ↔
      s' = c.markedOnce s key := by
  unfold Checkpoints.markedOnce
  cases hdone : c.isDone key with
  | true =>
    constructor
    · intro h
      exact (succeeds_pure.1 ((succeeds_if_neg (by simp)).1 h)).2.symm
    · rintro rfl
      exact (succeeds_if_neg (by simp)).2 (succeeds_pure.2 ⟨rfl, rfl⟩)
  | false =>
    constructor
    · intro h
      exact succeeds_mark.1 ((succeeds_if_pos (by simp)).1 h)
    · intro h
      exact (succeeds_if_pos (by simp)).2 (succeeds_mark.2 h)

/-- The record that a job goes by. -/
theorem succeeds_checkpoints {job : Job} :
    Succeeds answer job.checkpoints s c s' ↔
      (job.useCheckpoints = true
          ∧ c = ⟨true, job.plan.fingerprint, s.recorded job.plan.fingerprint⟩
          ∧ s' = { s with hasCheckpoints := true })
        ∨ (job.useCheckpoints = false ∧ c = ⟨false, job.plan.fingerprint, []⟩
          ∧ s' = s) := by
  unfold Job.checkpoints
  cases huse : job.useCheckpoints with
  | true =>
    constructor
    · intro h
      obtain ⟨_, _, hensure, h⟩ :=
        succeeds_bind.1 ((succeeds_if_pos (by simp)).1 h)
      cases succeeds_ask.1 hensure
      obtain ⟨steps, _, hsteps, h⟩ := succeeds_bind.1 h
      cases succeeds_ask.1 hsteps
      obtain ⟨rfl, rfl⟩ := succeeds_pure.1 h
      exact .inl ⟨rfl, rfl, rfl⟩
    · rintro (⟨-, rfl, rfl⟩ | ⟨hnot, -⟩)
      · refine (succeeds_if_pos (by simp)).2 ?_
        refine succeeds_bind.2
          ⟨(), { s with hasCheckpoints := true }, succeeds_ask.2 rfl, ?_⟩
        exact succeeds_bind.2
          ⟨_, _, succeeds_ask.2 rfl, succeeds_pure.2 ⟨rfl, rfl⟩⟩
      · cases hnot
  | false =>
    constructor
    · intro h
      obtain ⟨rfl, rfl⟩ := succeeds_pure.1 ((succeeds_if_neg (by simp)).1 h)
      exact .inr ⟨rfl, rfl, rfl⟩
    · rintro (⟨hnot, -⟩ | ⟨-, rfl, rfl⟩)
      · cases hnot
      · exact (succeeds_if_neg (by simp)).2 (succeeds_pure.2 ⟨rfl, rfl⟩)

-- =========================================================== columns

theorem holds_of_table? {fact : MemoryTable → Bool} {t : MemoryTable}
    (ht : s.table? table = some t) :
    s.holds table fact = fact t := by
  unfold holds
  rw [ht]

/-- A table that exists gets the column if it has none. -/
theorem succeeds_addColumn {isNew : Bool} :
    Succeeds answer (addColumn table) s isNew s' ↔
      ∃ t, s.table? table = some t ∧ isNew = !t.hasColumn
        ∧ s' = s.setTable table (withColumn t) := by
  constructor
  · intro h
    obtain ⟨isTable, _, hisTable, h⟩ := succeeds_bind.1 h
    cases succeeds_ask.1 hisTable
    obtain ⟨s₁, hthrow, h⟩ := succeeds_when.1 h
    obtain ⟨hisTable, rfl⟩ : (s.table? table).isSome = true ∧ s = s₁ := by
      rcases hthrow with ⟨-, hthrow⟩ | ⟨hsome, rfl⟩
      · exact absurd hthrow not_succeeds_throw
      · exact ⟨by simpa [Option.isSome_iff_ne_none] using hsome, rfl⟩
    obtain ⟨t, ht⟩ := Option.isSome_iff_exists.1 hisTable
    obtain ⟨isColumn, _, hisColumn, h⟩ := succeeds_bind.1 h
    cases succeeds_ask.1 hisColumn
    refine ⟨t, ht, ?_⟩
    by_cases hcolumn : t.hasColumn = true
    · have hholds := (holds_of_table? ht).trans hcolumn
      obtain ⟨rfl, rfl⟩ := succeeds_pure.1 ((succeeds_if_pos hholds).1 h)
      unfold withColumn
      rw [if_pos hcolumn, setTable_self ht]
      simp [hcolumn]
    · have hholds : ¬s.holds table MemoryTable.hasColumn = true := by
        rwa [holds_of_table? ht]
      obtain ⟨_, s₂, hadd, h⟩ := succeeds_bind.1 ((succeeds_if_neg hholds).1 h)
      obtain rfl :=
        (exists_table?_iff ht).1
          (answer_addNullableColumn.1 (succeeds_ask.1 hadd))
      obtain ⟨rfl, rfl⟩ := succeeds_pure.1 h
      exact ⟨by simp [hcolumn], rfl⟩
  · rintro ⟨t, ht, rfl, rfl⟩
    refine succeeds_bind.2 ⟨_, s, succeeds_ask.2 rfl, ?_⟩
    refine succeeds_when.2 ⟨s, .inr ⟨by simp [ht], rfl⟩, ?_⟩
    refine succeeds_bind.2 ⟨_, s, succeeds_ask.2 rfl, ?_⟩
    by_cases hcolumn : t.hasColumn = true
    · have hholds := (holds_of_table? ht).trans hcolumn
      refine (succeeds_if_pos hholds).2
        (succeeds_pure.2 ⟨by simp [hcolumn], ?_⟩)
      unfold withColumn
      rw [if_pos hcolumn, setTable_self ht]
    · have hholds : ¬s.holds table MemoryTable.hasColumn = true := by
        rwa [holds_of_table? ht]
      refine (succeeds_if_neg hholds).2 ?_
      refine succeeds_bind.2
        ⟨(), _, succeeds_ask.2 (answer_addNullableColumn.2 ⟨t, ht, rfl⟩), ?_⟩
      exact succeeds_pure.2 ⟨by simp [hcolumn], rfl⟩

theorem succeeds_findDefault {slug : String} {id : Uuid} :
    Succeeds answer (findDefault c slug) s id s' ↔
      s.organization? slug = some id
        ∧ s' = c.markedOnce s (stepKey "seed_default" none) := by
  constructor
  · intro h
    obtain ⟨found, _, hfound, h⟩ := succeeds_bind.1 h
    cases succeeds_ask.1 hfound
    cases horganization : s.organization? slug with
    | none =>
      rw [horganization] at h
      exact absurd h not_succeeds_throw
    | some id' =>
      rw [horganization] at h
      have hmarked := succeeds_markOnce.1 h
      obtain ⟨rfl, rfl⟩ := succeeds_pure.1 hmarked
      exact ⟨rfl, rfl⟩
  · rintro ⟨horganization, rfl⟩
    refine succeeds_bind.2 ⟨some id, s, ?_, ?_⟩
    · refine succeeds_ask.2 ?_
      show (Except.ok (s.organization? slug), s) = _
      rw [horganization]
      rfl
    · exact succeeds_markOnce.2 (succeeds_pure.2 ⟨rfl, rfl⟩)

-- ============================================================ tables

/-- What a derivation offers a row. -/
def choose (s : MemoryStore) : Derivation → MemoryRow → Option Uuid
  | .ownerMembership column, row => (row.ref? column).bind s.firstMembership?
  | .parent parent key, row =>
    (row.ref? key).bind (organizationOf? (s.rowsOf parent))
  | .defaultOnly, _ => none

/-- A table is derived if its parent's table exists, where it has a parent. -/
theorem succeeds_derive {t : MemoryTable} {n : Nat}
    (ht : s.table? entry.table = some t) :
    Succeeds answer (derive entry) s n s' ↔
      (∀ parent ∈ entry.parent?, (s.table? parent).isSome = true)
        ∧ n = (fillTable (choose s entry.derivation) t).1
        ∧ s' = s.setTable entry.table
          (fillTable (choose s entry.derivation) t).2 := by
  unfold derive Entry.parent?
  cases entry.derivation with
  | ownerMembership column =>
    constructor
    · intro h
      exact ⟨by simp,
        (exists_table?_iff ht).1 (answer_deriveFromOwner.1 (succeeds_ask.1 h))⟩
    · rintro ⟨-, h⟩
      exact succeeds_ask.2
        (answer_deriveFromOwner.2 ((exists_table?_iff ht).2 h))
  | parent parent key =>
    constructor
    · intro h
      obtain ⟨hparent, h⟩ := answer_deriveFromParent.1 (succeeds_ask.1 h)
      exact ⟨by simpa using hparent, (exists_table?_iff ht).1 h⟩
    · rintro ⟨hparent, h⟩
      refine succeeds_ask.2
        (answer_deriveFromParent.2 ⟨hparent parent rfl, ?_⟩)
      exact (exists_table?_iff ht).2 h
  | defaultOnly =>
    have hnone : fillTable (choose s .defaultOnly) t = (0, t) :=
      fillTable_none t
    rw [hnone]
    constructor
    · intro h
      obtain ⟨rfl, rfl⟩ := succeeds_pure.1 h
      exact ⟨by simp, rfl, (setTable_self ht).symm⟩
    · rintro ⟨-, rfl, rfl⟩
      exact succeeds_pure.2 ⟨rfl, (setTable_self ht).symm⟩

/-- A derivation sets its own table, if anything. -/
theorem of_derive {n : Nat} (h : Succeeds answer (derive entry) s n s') :
    s' = s ∨ ∃ t u,
      s.table? entry.table = some t ∧ s' = s.setTable entry.table u := by
  unfold derive at h
  cases hderivation : entry.derivation with
  | ownerMembership column =>
    rw [hderivation] at h
    obtain ⟨t, ht, -, hs'⟩ := answer_deriveFromOwner.1 (succeeds_ask.1 h)
    exact .inr ⟨t, _, ht, hs'⟩
  | parent parent key =>
    rw [hderivation] at h
    obtain ⟨-, t, ht, -, hs'⟩ := answer_deriveFromParent.1 (succeeds_ask.1 h)
    exact .inr ⟨t, _, ht, hs'⟩
  | defaultOnly =>
    rw [hderivation] at h
    exact .inl (succeeds_pure.1 h).2.symm

/-- Every row without an organization gets the default. -/
theorem succeeds_applyDefault {t : MemoryTable} {n : Nat}
    (ht : s.table? table = some t) :
    Succeeds answer (ask (.applyDefault table organization)) s n s' ↔
      n = (fillTable (fun _ => some organization) t).1
        ∧ s' = s.setTable table (fillTable (fun _ => some organization) t).2 :=
  succeeds_ask.trans (answer_applyDefault.trans (exists_table?_iff ht))

/-- A table whose filling is recorded is not filled. -/
theorem succeeds_fill_of_done
    (hdone : c.isDone (stepKey "derive" entry.table) = true) :
    Succeeds answer (fill c organization entry report) s report' s' ↔
      report' = report.skip (stepKey "derive" entry.table) ∧ s' = s := by
  constructor
  · intro h
    obtain ⟨rfl, rfl⟩ := succeeds_pure.1 ((succeeds_if_pos hdone).1 h)
    exact ⟨rfl, rfl⟩
  · rintro ⟨rfl, rfl⟩
    exact (succeeds_if_pos hdone).2 (succeeds_pure.2 ⟨rfl, rfl⟩)

/-- Any other is filled by its derivation, then by the default organization. -/
theorem succeeds_fill
    (hdone : ¬c.isDone (stepKey "derive" entry.table) = true) :
    Succeeds answer (fill c organization entry report) s report' s' ↔
      ∃ t, s.table? entry.table = some t
        ∧ (∀ parent ∈ entry.parent?, (s.table? parent).isSome = true)
        ∧ report' = { report with
            derived := (fillTable (choose s entry.derivation) t).1
            defaulted :=
              (fillTwice (choose s entry.derivation) organization t).1 }
        ∧ s' = s.setTable entry.table
          (fillTwice (choose s entry.derivation) organization t).2 := by
  constructor
  · intro h
    obtain ⟨derived, s₁, hderive, h⟩ :=
      succeeds_bind.1 ((succeeds_if_neg hdone).1 h)
    obtain ⟨defaulted, s₂, hdefault, h⟩ := succeeds_bind.1 h
    obtain ⟨rfl, rfl⟩ := succeeds_pure.1 h
    obtain ⟨u, hu, -⟩ := answer_applyDefault.1 (succeeds_ask.1 hdefault)
    -- The default was applied to a table, so there was one to derive.
    obtain ⟨t, ht⟩ : ∃ t, s.table? entry.table = some t := by
      rcases of_derive hderive with rfl | ⟨t, -, ht, -⟩
      · exact ⟨u, hu⟩
      · exact ⟨t, ht⟩
    obtain ⟨hparent, rfl, rfl⟩ := (succeeds_derive ht).1 hderive
    obtain ⟨rfl, rfl⟩ :=
      (succeeds_applyDefault (table?_setTable _ _ _)).1 hdefault
    exact ⟨t, ht, hparent, rfl, setTable_setTable _ _ _ _⟩
  · rintro ⟨t, ht, hparent, rfl, rfl⟩
    have hderive := (succeeds_derive ht).2 ⟨hparent, rfl, rfl⟩
    refine (succeeds_if_neg hdone).2 (succeeds_bind.2 ⟨_, _, hderive, ?_⟩)
    have hset :=
      table?_setTable s entry.table (fillTable (choose s entry.derivation) t).2
    refine succeeds_bind.2
      ⟨_, _, (succeeds_applyDefault hset).2 ⟨rfl, rfl⟩, ?_⟩
    exact succeeds_pure.2 ⟨rfl, setTable_setTable _ _ _ _⟩

/-- The store behind a check that a table passed. -/
def Checkpoints.checked (c : Checkpoints) (s : MemoryStore) (table : String) :
    MemoryStore :=
  c.markedOnce (c.markedOnce s (stepKey "derive" table))
    (stepKey "verify" table)

/-- A table without missing organizations passes the check, which is
recorded. -/
theorem succeeds_verify {a : Unit} :
    Succeeds answer (verify c table) s a s' ↔
      (∃ t, s.table? table = some t ∧ missing t = 0)
        ∧ s' = c.checked s table := by
  constructor
  · intro h
    obtain ⟨count, _, hcount, hrest⟩ := succeeds_bind.1 h
    obtain ⟨t, ht, rfl, rfl⟩ := answer_countMissing.1 (succeeds_ask.1 hcount)
    obtain ⟨s₁, hthrow, hrest⟩ := succeeds_when.1 hrest
    rcases hthrow with ⟨-, hthrow⟩ | ⟨hnone, rfl⟩
    · exact absurd hthrow not_succeeds_throw
    · refine ⟨⟨t, ht, ?_⟩, succeeds_markLast.1 (succeeds_markOnce.1 hrest)⟩
      exact Nat.eq_zero_of_not_pos hnone
  · rintro ⟨⟨t, ht, hnone⟩, rfl⟩
    have hcount := answer_countMissing.2 ⟨t, ht, rfl, rfl⟩
    refine succeeds_bind.2 ⟨missing t, s, succeeds_ask.2 hcount, ?_⟩
    refine succeeds_when.2
      ⟨s, .inr ⟨Nat.not_lt.2 (Nat.le_of_eq hnone), rfl⟩, ?_⟩
    exact succeeds_markOnce.2 (succeeds_markLast.2 rfl)

/-- A column whose enforcement is recorded is left as it is. -/
theorem succeeds_enforce_of_done
    (hdone : c.isDone (stepKey "enforce" table) = true) :
    Succeeds answer (enforce c table report) s report' s' ↔
      report' = report.skip (stepKey "enforce" table) ∧ s' = s := by
  constructor
  · intro h
    obtain ⟨rfl, rfl⟩ := succeeds_pure.1 ((succeeds_if_pos hdone).1 h)
    exact ⟨rfl, rfl⟩
  · rintro ⟨rfl, rfl⟩
    exact (succeeds_if_pos hdone).2 (succeeds_pure.2 ⟨rfl, rfl⟩)

/-- A nullable column is made mandatory, unless a row is without an
organization; any other is mandatory already. -/
theorem succeeds_setNotNull {t : MemoryTable} (ht : s.table? table = some t) :
    (s.holds table MemoryTable.nullable = true
      ∧ Succeeds answer (ask (.setNotNull table)) s () s'
        ∨ ¬s.holds table MemoryTable.nullable = true ∧ s = s') ↔
      (t.nullable = true → missing t = 0)
        ∧ s' = s.setTable table { t with nullable := false } := by
  rw [holds_of_table? ht]
  cases hnullable : t.nullable with
  | true =>
    constructor
    · rintro (⟨-, hset⟩ | ⟨hnot, -⟩)
      · obtain ⟨hmissing, rfl⟩ :=
          (exists_table?_iff ht).1 (answer_setNotNull.1 (succeeds_ask.1 hset))
        exact ⟨fun _ => hmissing, rfl⟩
      · exact absurd rfl hnot
    · rintro ⟨hmissing, rfl⟩
      exact .inl
        ⟨rfl, succeeds_ask.2 (answer_setNotNull.2 ⟨t, ht, hmissing rfl, rfl⟩)⟩
  | false =>
    rw [← hnullable, setTable_self ht, hnullable]
    constructor
    · rintro (⟨hpos, -⟩ | ⟨-, rfl⟩)
      · cases hpos
      · exact ⟨nofun, rfl⟩
    · rintro ⟨-, rfl⟩
      exact .inr ⟨nofun, rfl⟩

/-- A column without a foreign key gets one; any other has one already. -/
theorem succeeds_addForeignKey {t : MemoryTable}
    (ht : s.table? table = some t) :
    ((!s.holds table MemoryTable.foreignKey) = true
          ∧ Succeeds answer (ask (.addForeignKey table)) s () s'
        ∨ ¬(!s.holds table MemoryTable.foreignKey) = true ∧ s = s') ↔
      s' = s.setTable table { t with foreignKey := true } := by
  rw [holds_of_table? ht]
  cases hforeign : t.foreignKey with
  | true =>
    rw [← hforeign, setTable_self ht, hforeign]
    constructor
    · rintro (⟨hpos, -⟩ | ⟨-, rfl⟩)
      · cases hpos
      · rfl
    · rintro rfl
      exact .inr ⟨nofun, rfl⟩
  | false =>
    constructor
    · rintro (⟨-, hadd⟩ | ⟨hnot, -⟩)
      · exact (exists_table?_iff ht).1
          (answer_addForeignKey.1 (succeeds_ask.1 hadd))
      · exact absurd rfl hnot
    · rintro rfl
      exact .inl ⟨rfl, succeeds_ask.2 (answer_addForeignKey.2 ⟨t, ht, rfl⟩)⟩

/-- Any other becomes mandatory and a foreign key. -/
theorem succeeds_enforce {t : MemoryTable} (ht : s.table? table = some t)
    (hdone : ¬c.isDone (stepKey "enforce" table) = true) :
    Succeeds answer (enforce c table report) s report' s' ↔
      (t.nullable = true → missing t = 0)
        ∧ report'
          = { report with
            madeNotNull := t.nullable, foreignKeyAdded := !t.foreignKey }
        ∧ s' = c.marked
          (s.setTable table { t with nullable := false, foreignKey := true })
            (stepKey "enforce" table) := by
  have hnullable : s.holds table MemoryTable.nullable = t.nullable :=
    holds_of_table? ht
  have ht₁ := table?_setTable s table { t with nullable := false }
  have hforeign : (s.setTable table { t with nullable := false }).holds table
      MemoryTable.foreignKey = t.foreignKey := by
    rw [holds_of_table? ht₁]
  constructor
  · intro h
    have h := (succeeds_if_neg hdone).1 h
    obtain ⟨_, _, hask, h⟩ := succeeds_bind.1 h
    cases succeeds_ask.1 hask
    obtain ⟨s₁, hset, h⟩ := succeeds_when.1 h
    obtain ⟨hmissing, rfl⟩ := (succeeds_setNotNull ht).1 hset
    obtain ⟨_, _, hask, h⟩ := succeeds_bind.1 h
    cases succeeds_ask.1 hask
    obtain ⟨s₂, hadd, h⟩ := succeeds_when.1 h
    obtain rfl := (succeeds_addForeignKey ht₁).1 hadd
    obtain ⟨_, s₃, hmark, h⟩ := succeeds_bind.1 h
    cases succeeds_mark.1 hmark
    obtain ⟨rfl, rfl⟩ := succeeds_pure.1 h
    refine ⟨hmissing, ?_, ?_⟩
    · rw [hnullable, hforeign]
    · rw [setTable_setTable]
  · rintro ⟨hmissing, rfl, rfl⟩
    refine (succeeds_if_neg hdone).2 ?_
    refine succeeds_bind.2 ⟨_, s, succeeds_ask.2 rfl, ?_⟩
    refine succeeds_when.2 ⟨_, (succeeds_setNotNull ht).2 ⟨hmissing, rfl⟩, ?_⟩
    refine succeeds_bind.2 ⟨_, _, succeeds_ask.2 rfl, ?_⟩
    refine succeeds_when.2 ⟨_, (succeeds_addForeignKey ht₁).2 rfl, ?_⟩
    refine succeeds_bind.2
      ⟨(), _, succeeds_mark.2 rfl, succeeds_pure.2 ⟨?_, ?_⟩⟩
    · rw [hnullable, hforeign]
    · rw [setTable_setTable]

end Tenancy.Backfill
