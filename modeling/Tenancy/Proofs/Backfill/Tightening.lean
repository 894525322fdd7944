/-
What a call of a store does to it at most. Rows without an organization
are filled and the column is tightened: no row comes, goes, moves or
changes its references, no organization is replaced, and neither the
column nor NOT NULL nor the foreign key is taken back (`TightensTo`).
Recorded steps are not part of this.

Every call does no more than that (`tightensTo_answer`), so no program
does, wherever it is cut short. What is known of a table at one time —
that it has the column, that it is complete, that the column is enforced
— is therefore known from then on.
-/
import Mathlib.Data.List.Forall2
import Mathlib.Data.Option.Basic
import Tenancy.Proofs.Backfill.Steps
import Tenancy.Proofs.Conduct

namespace Tenancy.Backfill

open Program

-- ============================================================== rows

/-- The row is the same, but for an organization that it may have got. -/
structure MemoryRow.FillsTo (row row' : MemoryRow) : Prop where
  id : row'.id = row.id
  refs : row'.refs = row.refs
  organization : ∀ o, row.organization = some o → row'.organization = some o

namespace MemoryRow

theorem FillsTo.refl (row : MemoryRow) : row.FillsTo row :=
  ⟨rfl, rfl, fun _ h => h⟩

theorem FillsTo.trans {row row' row'' : MemoryRow} (h : row.FillsTo row')
    (h' : row'.FillsTo row'') : row.FillsTo row'' :=
  ⟨h'.id.trans h.id, h'.refs.trans h.refs,
    fun o ho => h'.organization o (h.organization o ho)⟩

/-- To fill a row is to give it an organization if it has none. -/
theorem fillsTo_fillRow (choose : MemoryRow → Option Uuid) (row : MemoryRow) :
    row.FillsTo (MemoryStore.fillRow choose row) := by
  unfold MemoryStore.fillRow
  split
  · exact .refl row
  · rename_i hnull
    refine ⟨rfl, rfl, fun o ho => ?_⟩
    rw [hnull] at ho
    cases ho

theorem fillsTo_trans {rows rows' rows'' : List MemoryRow}
    (h : List.Forall₂ FillsTo rows rows')
    (h' : List.Forall₂ FillsTo rows' rows'') :
    List.Forall₂ FillsTo rows rows'' := by
  induction h generalizing rows'' with
  | nil => exact h'
  | cons hfirst _ ih =>
    obtain ⟨_, _, hfirst', hrest', rfl⟩ := List.forall₂_cons_left_iff.1 h'
    exact .cons (hfirst.trans hfirst') (ih hrest')

/-- No row is left without an organization where none was. -/
theorem complete_of_fillsTo {rows rows' : List MemoryRow}
    (h : List.Forall₂ FillsTo rows rows')
    (hcomplete : ∀ row ∈ rows, row.organization.isNone = false) :
    ∀ row' ∈ rows', row'.organization.isNone = false := by
  induction h with
  | nil => exact hcomplete
  | cons hfirst _ ih =>
    rw [List.forall_mem_cons] at hcomplete ⊢
    refine ⟨?_, ih hcomplete.2⟩
    obtain ⟨o, ho⟩ :=
      Option.isSome_iff_exists.1 (Option.isNone_eq_false_iff.1 hcomplete.1)
    rw [hfirst.organization o ho]
    rfl

end MemoryRow

-- ============================================================= tables

/-- Rows are filled at most, and the column is tightened at most. A column
that is absent has no NOT NULL to lose. -/
structure MemoryTable.TightensTo (t t' : MemoryTable) : Prop where
  rows : List.Forall₂ MemoryRow.FillsTo t.rows t'.rows
  rejectsUpdates : t'.rejectsUpdates = t.rejectsUpdates
  hasColumn : t.hasColumn = true → t'.hasColumn = true
  mandatory : t.hasColumn = true → t.nullable = false → t'.nullable = false
  foreignKey : t.foreignKey = true → t'.foreignKey = true

namespace MemoryTable

/-- A change that leaves the rows alone tightens, if it gives up no
constraint. -/
theorem TightensTo.of_rows {t t' : MemoryTable} (hrows : t'.rows = t.rows)
    (hrejects : t'.rejectsUpdates = t.rejectsUpdates)
    (hcolumn : t.hasColumn = true → t'.hasColumn = true)
    (hmandatory : t.hasColumn = true → t.nullable = false →
      t'.nullable = false)
    (hforeign : t.foreignKey = true → t'.foreignKey = true) :
    t.TightensTo t' :=
  ⟨hrows ▸ List.forall₂_same.2 fun row _ => .refl row, hrejects, hcolumn,
    hmandatory, hforeign⟩

theorem TightensTo.refl (t : MemoryTable) : t.TightensTo t :=
  .of_rows rfl rfl id (fun _ => id) id

theorem TightensTo.trans {t t' t'' : MemoryTable} (h : t.TightensTo t')
    (h' : t'.TightensTo t'') : t.TightensTo t'' where
  rows := MemoryRow.fillsTo_trans h.rows h'.rows
  rejectsUpdates := h'.rejectsUpdates.trans h.rejectsUpdates
  hasColumn hcolumn := h'.hasColumn (h.hasColumn hcolumn)
  mandatory hcolumn hnullable :=
    h'.mandatory (h.hasColumn hcolumn) (h.mandatory hcolumn hnullable)
  foreignKey hforeign := h'.foreignKey (h.foreignKey hforeign)

/-- To add the column tightens a table. -/
theorem tightensTo_withColumn (t : MemoryTable) :
    t.TightensTo (MemoryStore.withColumn t) := by
  unfold MemoryStore.withColumn
  split
  · exact .refl t
  · rename_i hcolumn
    exact .of_rows rfl rfl (fun h => absurd h hcolumn)
      (fun h => absurd h hcolumn) id

/-- To fill a table tightens it. -/
theorem tightensTo_fillTable (choose : MemoryRow → Option Uuid)
    (t : MemoryTable) : t.TightensTo (MemoryStore.fillTable choose t).2 := by
  unfold MemoryStore.fillTable
  split
  · exact .refl t
  · refine ⟨?_, rfl, id, fun _ => id, id⟩
    rw [List.forall₂_map_right_iff, List.forall₂_same]
    exact fun row _ => MemoryRow.fillsTo_fillRow choose row

/-- A complete table stays complete. -/
theorem TightensTo.missing_eq_zero {t t' : MemoryTable} (h : t.TightensTo t')
    (hnone : MemoryStore.missing t = 0) : MemoryStore.missing t' = 0 :=
  MemoryStore.missing_eq_zero.2
    (MemoryRow.complete_of_fillsTo h.rows
      (MemoryStore.missing_eq_zero.1 hnone))

end MemoryTable

-- ============================================================= stores

/-- Every table is tightened at most, and nothing else changes but what is
recorded. -/
structure MemoryStore.TightensTo (s s' : MemoryStore) : Prop where
  table :
    ∀ name t, s.table? name = some t → ∃ t',
    s'.table? name = some t' ∧ t.TightensTo t'
  absent : ∀ name, s.table? name = none → s'.table? name = none
  organizations : s'.organizations = s.organizations
  memberships : s'.memberships = s.memberships

namespace MemoryStore

variable {s s' s'' : MemoryStore} {name : String}

/-- A change of the record alone tightens a store. -/
theorem TightensTo.of_table? (htables : ∀ name, s'.table? name = s.table? name)
    (horganizations : s'.organizations = s.organizations)
    (hmemberships : s'.memberships = s.memberships) : s.TightensTo s' where
  table name t ht := ⟨t, (htables name).trans ht, .refl t⟩
  absent name hnone := (htables name).trans hnone
  organizations := horganizations
  memberships := hmemberships

theorem TightensTo.refl (s : MemoryStore) : s.TightensTo s :=
  .of_table? (fun _ => rfl) rfl rfl

theorem TightensTo.trans (h : s.TightensTo s') (h' : s'.TightensTo s'') :
    s.TightensTo s'' where
  table name t ht := by
    obtain ⟨t', ht', htightens⟩ := h.table name t ht
    obtain ⟨t'', ht'', htightens'⟩ := h'.table name t' ht'
    exact ⟨t'', ht'', htightens.trans htightens'⟩
  absent name hnone := h'.absent name (h.absent name hnone)
  organizations := h'.organizations.trans h.organizations
  memberships := h'.memberships.trans h.memberships

/-- A store is tightened by tightening one of its tables. -/
theorem tightensTo_setTable {t u : MemoryTable} (ht : s.table? name = some t)
    (htightens : t.TightensTo u) : s.TightensTo (s.setTable name u) where
  table other v hv := by
    by_cases hother : name = other
    · subst hother
      cases ht.symm.trans hv
      exact ⟨u, table?_setTable s name u, htightens⟩
    · exact ⟨v, (table?_setTable_of_ne s u hother).trans hv, .refl v⟩
  absent other hnone := by
    by_cases hother : name = other
    · subst hother
      rw [ht] at hnone
      cases hnone
    · exact (table?_setTable_of_ne s u hother).trans hnone
  organizations := rfl
  memberships := rfl

/-- So it is by any call on a table that does so. -/
theorem tightensTo_onTable {α : Type}
    {change : MemoryTable → Except BackfillError (α × MemoryTable)}
    (h : ∀ t a u, change t = .ok (a, u) → t.TightensTo u) :
    s.TightensTo (s.onTable name change).2 := by
  unfold onTable
  cases ht : s.table? name with
  | none => exact .refl s
  | some t =>
    cases hchange : change t with
    | error e =>
      simp only [hchange]
      exact .refl s
    | ok result =>
      obtain ⟨a, u⟩ := result
      simp only [hchange]
      exact tightensTo_setTable ht (h t a u hchange)

/-- A change that cannot fail, if it tightens every table. -/
theorem tightensTo_change {α : Type} {change : MemoryTable → α × MemoryTable}
    (h : ∀ t : MemoryTable, t.TightensTo (change t).2) :
    s.TightensTo (s.onTable name fun t => .ok (change t)).2 := by
  refine tightensTo_onTable fun t a u hchange => ?_
  have hpair := Except.ok.inj hchange
  have ht := h t
  rwa [hpair] at ht

/-- Every call tightens the store, whatever it answers. -/
theorem tightensTo_answer (call : StoreCall) (s : MemoryStore) :
    s.TightensTo (answer call s).2 := by
  cases call with
  | tableExists | columnExists | findOrganization | columnIsNullable
  | foreignKeyExists
  | completedSteps => exact .refl s
  | ensureCheckpoints => exact .of_table? (fun _ => rfl) rfl rfl
  | recordStep fingerprint key =>
    exact .of_table? (fun _ => record_table? s fingerprint key)
      (record_organizations s fingerprint key)
        (record_memberships s fingerprint key)
  | addNullableColumn table =>
    exact tightensTo_change (fun t => t.tightensTo_withColumn)
  | deriveFromOwner table column =>
    exact tightensTo_change fun t => t.tightensTo_fillTable _
  | applyDefault table organization =>
    exact tightensTo_change fun t => t.tightensTo_fillTable _
  | countMissing table => exact tightensTo_change fun t => .refl t
  | addForeignKey table =>
    exact tightensTo_change fun t => .of_rows rfl rfl id (fun _ => id) fun _ =>
      rfl
  | deriveFromParent table parent key =>
    cases hparent : s.table? parent with
    | none =>
      rw [answer_deriveFromParent_of_none hparent]
      exact .refl s
    | some p =>
      rw [answer_deriveFromParent_of_some hparent]
      exact tightensTo_change fun t => t.tightensTo_fillTable _
  | setNotNull table =>
    refine tightensTo_onTable fun t a u hchange => ?_
    split at hchange
    · cases hchange
    · cases hchange
      exact .of_rows rfl rfl id (fun _ _ => rfl) id

/-- No program does more, wherever it is cut short. -/
theorem tightensTo_runFor {α : Type} (p : Program storeInterface α)
    (calls : Nat)
    (s : MemoryStore) : s.TightensTo (p.runFor answer calls s).2 :=
  runFor_of_calls .refl (fun _ _ _ => .trans) tightensTo_answer p calls s

/-- So does every program that ends well. -/
theorem tightensTo_of_succeeds {α : Type} {p : StoreProgram α} {a : α}
    (h : Succeeds answer p s a s') : s.TightensTo s' := by
  have hthroughout : Throughout answer (s.TightensTo ·) p s :=
    fun calls => tightensTo_runFor p.run calls s
  exact hthroughout.final h

/-- And one that ends in an error, too. -/
theorem tightensTo_of_fails {α : Type} {p : StoreProgram α} {e : BackfillError}
    (h : Fails answer p s e s') : s.TightensTo s' := by
  have hthroughout : Throughout answer (s.TightensTo ·) p s :=
    fun calls => tightensTo_runFor p.run calls s
  have hrun := hthroughout.run
  unfold Fails at h
  rwa [h] at hrun

-- What is known of a table is known from then on.

/-- The table is there and has the column. -/
def HasColumn (s : MemoryStore) (name : String) : Prop :=
  ∃ t, s.table? name = some t ∧ t.hasColumn = true

/-- The table is there, and no row is without an organization. -/
def Complete (s : MemoryStore) (name : String) : Prop :=
  ∃ t, s.table? name = some t ∧ missing t = 0

/-- The table has the column, which is mandatory and a foreign key. -/
def Enforced (s : MemoryStore) (name : String) : Prop :=
  ∃ t, s.table? name = some t ∧ t.hasColumn = true ∧ t.nullable = false
    ∧ t.foreignKey = true

/-- A column that is there stays. -/
theorem HasColumn.tightens (h : s.HasColumn name)
    (htightens : s.TightensTo s') : s'.HasColumn name := by
  obtain ⟨t, ht, hcolumn⟩ := h
  obtain ⟨t', ht', htable⟩ := htightens.table name t ht
  exact ⟨t', ht', htable.hasColumn hcolumn⟩

/-- A complete table stays complete in a tighter store. -/
theorem Complete.tightens (h : s.Complete name) (htightens : s.TightensTo s') :
    s'.Complete name := by
  obtain ⟨t, ht, hnone⟩ := h
  obtain ⟨t', ht', htable⟩ := htightens.table name t ht
  exact ⟨t', ht', htable.missing_eq_zero hnone⟩

/-- And an enforced one stays enforced. -/
theorem Enforced.tightens (h : s.Enforced name) (htightens : s.TightensTo s') :
    s'.Enforced name := by
  obtain ⟨t, ht, hcolumn, hnullable, hforeign⟩ := h
  obtain ⟨t', ht', htable⟩ := htightens.table name t ht
  exact ⟨t', ht', htable.hasColumn hcolumn, htable.mandatory hcolumn hnullable,
    htable.foreignKey hforeign⟩

end MemoryStore

end Tenancy.Backfill
