/-
The store in memory, as its calls leave it. A table that is set is found
again and no other table changes; recording a step changes no table; and
filling a table fills rows that have no organization and leaves the
others alone. A table that refuses updates stays as it is, so it counts
as filled only if none of its rows was without an organization.
-/
import Tenancy.Backfill.Memory

namespace Tenancy.Backfill.MemoryStore

variable {store : MemoryStore} {name other : String} {t u : MemoryTable}

-- ============================================================ tables

/-- A table that was put into the store is the one that is found. -/
theorem table?_setTable (store : MemoryStore) (name : String)
    (t : MemoryTable) : (store.setTable name t).table? name = some t := by
  show ((setEntry name t store.tables).find? fun e => e.1 == name).map Prod.snd
      = some t
  induction store.tables with
  | nil => simp [setEntry]
  | cons e rest ih =>
    obtain ⟨n, u⟩ := e
    unfold setEntry
    by_cases hn : n = name
    · simp [hn]
    · rw [if_neg hn, List.find?_cons_of_neg (by simpa using hn)]
      exact ih

/-- Putting a table touches no other table. -/
theorem table?_setTable_of_ne (store : MemoryStore) (t : MemoryTable)
    (h : name ≠ other) :
    (store.setTable name t).table? other = store.table? other := by
  show ((setEntry name t store.tables).find? fun e => e.1 == other).map
      Prod.snd
    = (store.tables.find? fun e => e.1 == other).map Prod.snd
  induction store.tables with
  | nil => simp [setEntry, h]
  | cons e rest ih =>
    obtain ⟨n, u⟩ := e
    unfold setEntry
    by_cases hn : n = name
    · subst hn
      rw [if_pos rfl, List.find?_cons_of_neg (by simpa using h),
        List.find?_cons_of_neg (by simpa using h)]
    · rw [if_neg hn]
      by_cases ho : n = other
      · simp [ho]
      · rw [List.find?_cons_of_neg (by simpa using ho),
          List.find?_cons_of_neg (by simpa using ho)]
        exact ih

/-- Of two tables put under one name the second stays. -/
theorem setTable_setTable (store : MemoryStore) (name : String)
    (t u : MemoryTable) :
    (store.setTable name t).setTable name u = store.setTable name u := by
  have htables : setEntry name u (setEntry name t store.tables)
      = setEntry name u store.tables := by
    induction store.tables with
    | nil => simp [setEntry]
    | cons e rest ih =>
      obtain ⟨n, v⟩ := e
      by_cases hn : n = name
      · simp [setEntry, hn]
      · simp [setEntry, hn, ih]
  unfold setTable
  rw [htables]

/-- Setting a table to what it is changes nothing. -/
theorem setTable_self (h : store.table? name = some t) :
    store.setTable name t = store := by
  have htables : setEntry name t store.tables = store.tables := by
    unfold table? at h
    generalize store.tables = tables at h ⊢
    induction tables with
    | nil => simp at h
    | cons e rest ih =>
      obtain ⟨n, v⟩ := e
      unfold setEntry
      by_cases hn : n = name
      · subst hn
        rw [if_pos rfl]
        simp only [List.find?_cons, beq_self_eq_true, Option.map_some,
          Option.some.injEq] at h
        rw [h]
      · rw [if_neg hn, ih (by simpa [List.find?_cons, hn] using h)]
  unfold setTable
  rw [htables]

/-- What holds of the table of a name holds of the one that is there. -/
theorem exists_table?_iff (ht : store.table? name = some t)
    {p : MemoryTable → Prop} :
    (∃ u, store.table? name = some u ∧ p u) ↔ p t := by
  rw [ht]
  simp only [Option.some.injEq, exists_eq_left']

-- ======================================================== checkpoints

/-- A checkpoint leaves the tables alone. -/
theorem record_tables (store : MemoryStore) (fingerprint key : String) :
    (store.record fingerprint key).tables = store.tables := by
  unfold record
  split <;> rfl

theorem record_table? (store : MemoryStore) (fingerprint key : String) :
    (store.record fingerprint key).table? name = store.table? name := by
  unfold table?
  rw [record_tables]

/-- A checkpoint leaves the organizations alone. -/
theorem record_organizations (store : MemoryStore) (fingerprint key : String) :
    (store.record fingerprint key).organizations = store.organizations := by
  unfold record
  split <;> rfl

/-- A checkpoint leaves the memberships alone. -/
theorem record_memberships (store : MemoryStore) (fingerprint key : String) :
    (store.record fingerprint key).memberships = store.memberships := by
  unfold record
  split <;> rfl

/-- What is recorded behind a step: that step, and what was before. -/
theorem mem_record {store : MemoryStore} {fingerprint key : String}
    {c : String × String} : c ∈ (store.record fingerprint key).checkpoints ↔
      c ∈ store.checkpoints ∨ c = (fingerprint, key) := by
  unfold record
  split
  · rename_i hmem
    exact ⟨.inl, fun h => h.elim id fun h => h ▸ hmem⟩
  · simp

/-- The keys that a fingerprint has recorded, whatever their order. -/
theorem mem_recorded {fingerprint key : String} :
    key ∈ store.recorded fingerprint
      ↔ (fingerprint, key) ∈ store.checkpoints := by
  unfold recorded
  simp only [List.mem_mergeSort, List.mem_map, List.mem_filter, beq_iff_eq,
    Prod.exists, exists_eq_right]

/-- Without a record there is nothing to skip. -/
theorem recorded_eq_nil {fingerprint : String} (h : store.checkpoints = []) :
    store.recorded fingerprint = [] := by
  unfold recorded
  rw [h]
  simp

-- ============================================================= calls

/-- A change of a table that succeeds sets that table. -/
theorem onTable_ok {α : Type}
    {change : MemoryTable → Except BackfillError (α × MemoryTable)}
    {a : α} {store' : MemoryStore} :
    store.onTable name change = (.ok a, store') ↔
      ∃ t u, store.table? name = some t ∧ change t = .ok (a, u)
        ∧ store' = store.setTable name u := by
  unfold onTable
  cases store.table? name with
  | none => simp
  | some t =>
    cases hchange : change t with
    | error e => simp [hchange]
    | ok x =>
      obtain ⟨b, u⟩ := x
      simp only [hchange, Prod.mk.injEq, Except.ok.injEq, Option.some.injEq]
      constructor
      · rintro ⟨rfl, rfl⟩
        exact ⟨t, u, rfl, by rw [hchange], rfl⟩
      · rintro ⟨t', u', rfl, hok, rfl⟩
        rw [hchange] at hok
        cases hok
        exact ⟨rfl, rfl⟩

/-- A call on a table that is not there changes nothing. -/
theorem onTable_of_none {α : Type}
    (change : MemoryTable → Except BackfillError (α × MemoryTable))
    (ht : store.table? name = none) :
    store.onTable name change = (.error (.tableMissing name), store) := by
  unfold onTable
  rw [ht]

/-- A call on a table that is there leaves the table that it makes of it. -/
theorem onTable_of_some {α : Type}
    {change : MemoryTable → Except BackfillError (α × MemoryTable)}
    {a : α} (ht : store.table? name = some t)
    (hchange : change t = .ok (a, u)) :
    store.onTable name change = (.ok a, store.setTable name u) :=
  onTable_ok.2 ⟨t, u, ht, hchange, rfl⟩

/-- No call on a table records anything. -/
theorem onTable_checkpoints {α : Type}
    (change : MemoryTable → Except BackfillError (α × MemoryTable)) :
    (store.onTable name change).2.checkpoints = store.checkpoints := by
  unfold onTable
  cases store.table? name with
  | none => rfl
  | some t =>
    cases hchange : change t with
    | error e => simp only [hchange]
    | ok result =>
      simp only [hchange]
      rfl

-- =========================================================== filling

variable {choose : MemoryRow → Option Uuid} {organization : Uuid}

/-- A count of zero says that every row has an organization. -/
theorem missing_eq_zero :
    missing t = 0 ↔ ∀ row ∈ t.rows, row.organization.isNone = false := by
  unfold missing
  rw [List.length_eq_zero_iff, List.filter_eq_nil_iff]
  simp only [Bool.not_eq_true]

/-- A table whose updates touch no row is left as it is. -/
theorem fillTable_of_rejects (h : t.rejectsUpdates = true) :
    fillTable choose t = (0, t) :=
  if_pos h

/-- Any other table has every one of its rows filled. -/
theorem fillTable_of_accepts (h : t.rejectsUpdates = false) :
    fillTable choose t
      = ((t.rows.filter (isFilled choose)).length,
        { t with rows := t.rows.map (fillRow choose) }) :=
  if_neg (by simp [h])

/-- A row that has its organization keeps it. -/
theorem fillRow_of_some {row : MemoryRow}
    (h : row.organization.isNone = false) : fillRow choose row = row := by
  unfold fillRow
  cases horganization : row.organization with
  | none =>
    rw [horganization] at h
    cases h
  | some o => rfl

/-- Filling from nowhere changes nothing. -/
theorem fillTable_none (t : MemoryTable) :
    fillTable (fun _ => none) t = (0, t) := by
  have hrow : fillRow (fun _ => none) = id := by
    funext row
    unfold fillRow
    cases h : row.organization with
    | none =>
      obtain ⟨id, organization, refs⟩ := row
      cases h
      rfl
    | some o => rfl
  have hfilled : isFilled (fun _ => none) = fun _ => false := by
    funext row
    simp [isFilled]
  unfold fillTable
  rw [hrow, hfilled]
  simp

-- A table is filled by a choice, and then by one organization for all
-- rows that are left.

/-- What becomes of a row. -/
def settle (choose : MemoryRow → Option Uuid) (organization : Uuid)
    (row : MemoryRow) : MemoryRow :=
  { row with
    organization :=
      some (row.organization.getD ((choose row).getD organization)) }

/-- A table filled by a choice and then by the default: what a backfill makes
of it, and how many rows were left to the default. -/
def fillTwice (choose : MemoryRow → Option Uuid) (organization : Uuid)
    (t : MemoryTable) : Nat × MemoryTable :=
  fillTable (fun _ => some organization) (fillTable choose t).2

/-- Filling a row by a choice and then by the default settles it. -/
theorem fillRow_fillRow (row : MemoryRow) :
    fillRow (fun _ => some organization) (fillRow choose row)
      = settle choose organization row := by
  obtain ⟨id, o, refs⟩ := row
  cases o with
  | some o => rfl
  | none =>
    cases hchoose : choose ⟨id, none, refs⟩ <;> simp [fillRow, settle, hchoose]

/-- A table whose updates touch no row has no row settled. -/
theorem fillTwice_of_rejects (h : t.rejectsUpdates = true) :
    fillTwice choose organization t = (0, t) := by
  unfold fillTwice
  rw [fillTable_of_rejects h, fillTable_of_rejects h]

/-- Any other table has all its rows settled, and those that no choice was
found for are counted. -/
theorem fillTwice_of_accepts (h : t.rejectsUpdates = false) :
    fillTwice choose organization t
      = (((t.rows.map (fillRow choose)).filter
        (isFilled fun _ => some organization)).length,
        { t with rows := t.rows.map (settle choose organization) }) := by
  have hrows :
      (t.rows.map (fillRow choose)).map (fillRow fun _ => some organization)
      = t.rows.map (settle choose organization) := by
    rw [List.map_map]
    exact List.map_congr_left fun row _ => fillRow_fillRow row
  unfold fillTwice
  rw [fillTable_of_accepts h, fillTable_of_accepts (by exact h)]
  simp only [hrows]

/-- A table that takes updates is complete afterwards. -/
theorem missing_fillTwice (h : t.rejectsUpdates = false) :
    missing (fillTwice choose organization t).2 = 0 := by
  rw [fillTwice_of_accepts h, missing_eq_zero]
  intro row hrow
  obtain ⟨row₀, -, rfl⟩ := List.mem_map.1 hrow
  rfl

/-- A table that is complete afterwards has every row settled, whether it
took updates or did not need any. -/
theorem rows_fillTwice (h : missing (fillTwice choose organization t).2 = 0) :
    (fillTwice choose organization t).2.rows
      = t.rows.map (settle choose organization) := by
  cases hrejects : t.rejectsUpdates with
  | false => rw [fillTwice_of_accepts hrejects]
  | true =>
    rw [fillTwice_of_rejects hrejects] at h ⊢
    refine (List.map_id _).symm.trans (List.map_congr_left fun row hrow => ?_)
    have hsome := missing_eq_zero.1 h row hrow
    rw [← fillRow_fillRow, fillRow_of_some hsome, fillRow_of_some hsome]
    rfl

/-- The two fillings count the rows that they filled: those without an
organization for which there is a choice, and those for which there is none. -/
theorem counts_fillTwice
    (h : missing (fillTwice choose organization t).2 = 0) :
    (fillTable choose t).1
        = t.rows.countP
          (fun row => row.organization.isNone && (choose row).isSome)
      ∧ (fillTwice choose organization t).1
        = t.rows.countP
          (fun row => row.organization.isNone && !(choose row).isSome) := by
  cases hrejects : t.rejectsUpdates with
  | false =>
    rw [fillTable_of_accepts hrejects, fillTwice_of_accepts hrejects]
    refine ⟨List.countP_eq_length_filter.symm, ?_⟩
    show ((t.rows.map (fillRow choose)).filter _).length = _
    rw [← List.countP_eq_length_filter, List.countP_map]
    refine List.countP_congr fun row _ => ?_
    obtain ⟨id, o, refs⟩ := row
    cases o <;> simp [fillRow, isFilled]
  | true =>
    rw [fillTwice_of_rejects hrejects] at h ⊢
    rw [fillTable_of_rejects hrejects]
    have hnone : ∀ q : MemoryRow → Bool,
        t.rows.countP (fun row => row.organization.isNone && q row) = 0 := by
      intro q
      rw [List.countP_eq_zero]
      intro row hrow
      simp [missing_eq_zero.1 h row hrow]
    exact ⟨(hnone _).symm, (hnone _).symm⟩

/-- A complete table has nothing to fill. -/
theorem fillTable_of_complete (h : missing t = 0) :
    (fillTable choose t).2 = t := by
  cases hrejects : t.rejectsUpdates with
  | true => rw [fillTable_of_rejects hrejects]
  | false =>
    have hrows : t.rows.map (fillRow choose) = t.rows := by
      refine (List.map_congr_left fun row hrow => ?_).trans (List.map_id _)
      exact fillRow_of_some (missing_eq_zero.1 h row hrow)
    rw [fillTable_of_accepts hrejects, hrows]

/-- A complete table has nothing left to settle. -/
theorem fillTwice_of_complete (h : missing t = 0) :
    (fillTwice choose organization t).2 = t := by
  unfold fillTwice
  rw [fillTable_of_complete h, fillTable_of_complete h]

-- Filling may be asked for again without doing more.

/-- Filling a table again does nothing more. -/
theorem fillTable_fillTable (choose : MemoryRow → Option Uuid)
    (t : MemoryTable) :
    (fillTable choose (fillTable choose t).2).2 = (fillTable choose t).2 := by
  cases hrejects : t.rejectsUpdates with
  | true => rw [fillTable_of_rejects hrejects, fillTable_of_rejects hrejects]
  | false =>
    have hrow :
        ∀ row, fillRow choose (fillRow choose row) = fillRow choose row := by
      intro row
      obtain ⟨id, o, refs⟩ := row
      cases o with
      | some o => rfl
      | none =>
        cases hchoose : choose ⟨id, none, refs⟩ <;> simp [fillRow, hchoose]
    rw [fillTable_of_accepts hrejects,
      fillTable_of_accepts (by exact hrejects)]
    simp [hrow]

/-- Settling a table again does nothing more. -/
theorem fillTwice_fillTwice (choose : MemoryRow → Option Uuid)
    (organization : Uuid) (t : MemoryTable) :
    (fillTwice choose organization (fillTwice choose organization t).2).2
      = (fillTwice choose organization t).2 := by
  cases hrejects : t.rejectsUpdates with
  | true => rw [fillTwice_of_rejects hrejects, fillTwice_of_rejects hrejects]
  | false => exact fillTwice_of_complete (missing_fillTwice hrejects)

-- =========================================================== answers

/-- A table that is there is changed, unless the change itself fails. -/
theorem onTable_ne_error {α : Type}
    {change : MemoryTable → Except BackfillError (α × MemoryTable)}
    (ht : store.table? name = some t) (h : ∀ e, change t ≠ .error e)
    (e : BackfillError) : (store.onTable name change).1 ≠ .error e := by
  unfold onTable
  rw [ht]
  cases hchange : change t with
  | error e' => exact absurd hchange (h e')
  | ok result =>
    simp only [hchange]
    exact nofun

/-- A change of a table that cannot fail, if the table exists. -/
theorem onTable_total {α : Type} {change : MemoryTable → α × MemoryTable}
    {a : α} {store' : MemoryStore} :
    store.onTable name (fun t => .ok (change t)) = (.ok a, store') ↔
      ∃ t, store.table? name = some t ∧ a = (change t).1
        ∧ store' = store.setTable name (change t).2 := by
  rw [onTable_ok]
  constructor
  · rintro ⟨t, u, ht, hchange, rfl⟩
    have hpair := Except.ok.inj hchange
    exact ⟨t, ht, by rw [hpair], by rw [hpair]⟩
  · rintro ⟨t, ht, rfl, rfl⟩
    exact ⟨t, _, ht, rfl, rfl⟩

/-- The table with the column. -/
def withColumn (t : MemoryTable) : MemoryTable :=
  if t.hasColumn then t else { t with hasColumn := true, nullable := true }

/-- The rows of a table; none of one that does not exist. -/
def rowsOf (store : MemoryStore) (name : String) : List MemoryRow :=
  ((store.table? name).map MemoryTable.rows).getD []

theorem rowsOf_eq_rows (h : store.table? name = some t) :
    store.rowsOf name = t.rows := by
  unfold rowsOf
  rw [h]
  rfl

theorem rowsOf_setTable (store : MemoryStore) (name : String)
    (t : MemoryTable) : (store.setTable name t).rowsOf name = t.rows :=
  rowsOf_eq_rows (table?_setTable store name t)

/-- Putting a table touches the rows of no other table. -/
theorem rowsOf_setTable_of_ne (store : MemoryStore) (t : MemoryTable)
    (h : name ≠ other) :
    (store.setTable name t).rowsOf other = store.rowsOf other := by
  unfold rowsOf
  rw [table?_setTable_of_ne store t h]

variable {store' : MemoryStore}

/-- The column is added to a table that is there, and to no other. -/
theorem answer_addNullableColumn :
    answer (.addNullableColumn name) store = (.ok (), store') ↔
      ∃ t, store.table? name = some t
        ∧ store' = store.setTable name (withColumn t) := by
  change (store.onTable name fun t => .ok ((), withColumn t))
      = (.ok (), store') ↔ _
  rw [onTable_total]
  simp

/-- A table is filled with the first memberships of its owners. -/
theorem answer_deriveFromOwner {column : String} {n : Nat} :
    answer (.deriveFromOwner name column) store = (.ok n, store') ↔
      ∃ t, store.table? name = some t
        ∧ n = (fillTable
          (fun row => (row.ref? column).bind store.firstMembership?) t).1
        ∧ store' = store.setTable name
            (fillTable
              (fun row => (row.ref? column).bind store.firstMembership?)
                t).2 :=
  onTable_total

/-- There is nothing to derive from a parent that is not there. -/
theorem answer_deriveFromParent_of_none {parent key : String}
    (h : store.table? parent = none) :
    answer (.deriveFromParent name parent key) store
      = (.error (.tableMissing parent), store) := by
  simp only [answer, h]

/-- A table is filled with the organizations of the parent's rows that its own
rows refer to. -/
theorem answer_deriveFromParent_of_some {parent key : String} {p : MemoryTable}
    (h : store.table? parent = some p) :
    answer (.deriveFromParent name parent key) store
      = store.onTable name fun t =>
          .ok (fillTable
            (fun row => (row.ref? key).bind (organizationOf? p.rows)) t) := by
  simp only [answer, h]
  rfl

/-- Deriving from a parent needs the parent's table as well. -/
theorem answer_deriveFromParent {parent key : String} {n : Nat} :
    answer (.deriveFromParent name parent key) store = (.ok n, store') ↔
      (store.table? parent).isSome = true ∧ ∃ t, store.table? name = some t
        ∧ n = (fillTable
            (fun row =>
              (row.ref? key).bind (organizationOf? (store.rowsOf parent))) t).1
        ∧ store' = store.setTable name (fillTable
            (fun row =>
              (row.ref? key).bind (organizationOf? (store.rowsOf parent)))
                t).2 := by
  cases hparent : store.table? parent with
  | none =>
    rw [answer_deriveFromParent_of_none hparent]
    constructor
    · intro h
      exact absurd (congrArg Prod.fst h) (by simp)
    · intro h
      exact absurd h.1 (by simp)
  | some p =>
    rw [answer_deriveFromParent_of_some hparent, rowsOf_eq_rows hparent]
    constructor
    · intro h
      exact ⟨rfl, onTable_total.1 h⟩
    · intro h
      exact onTable_total.2 h.2

/-- A table is filled with one organization throughout. -/
theorem answer_applyDefault {organization : Uuid} {n : Nat} :
    answer (.applyDefault name organization) store = (.ok n, store') ↔
      ∃ t, store.table? name = some t
        ∧ n = (fillTable (fun _ => some organization) t).1
        ∧ store'
          = store.setTable name (fillTable (fun _ => some organization) t).2 :=
  onTable_total

/-- Counting tells how many rows are left, and only tells it. -/
theorem answer_countMissing {n : Nat} :
    answer (.countMissing name) store = (.ok n, store') ↔
      ∃ t, store.table? name = some t ∧ n = missing t ∧ store' = store := by
  change (store.onTable name fun t => .ok (missing t, t)) = (.ok n, store') ↔ _
  rw [onTable_total]
  constructor
  · rintro ⟨t, ht, rfl, rfl⟩
    exact ⟨t, ht, rfl, setTable_self ht⟩
  · rintro ⟨t, ht, rfl, rfl⟩
    exact ⟨t, ht, rfl, (setTable_self ht).symm⟩

/-- A column becomes mandatory only when no row is left without it. -/
theorem answer_setNotNull :
    answer (.setNotNull name) store = (.ok (), store') ↔
      ∃ t, store.table? name = some t ∧ missing t = 0
        ∧ store' = store.setTable name { t with nullable := false } := by
  refine Iff.trans onTable_ok ⟨?_, ?_⟩
  · rintro ⟨t, u, ht, hchange, rfl⟩
    by_cases hmissing : missing t > 0
    · rw [if_pos hmissing] at hchange
      cases hchange
    · rw [if_neg hmissing] at hchange
      cases hchange
      exact ⟨t, ht, by omega, rfl⟩
  · rintro ⟨t, ht, hmissing, rfl⟩
    refine ⟨t, _, ht, ?_, rfl⟩
    rw [if_neg (by omega)]

/-- The foreign key is added to a table that is there, and to no other. -/
theorem answer_addForeignKey :
    answer (.addForeignKey name) store = (.ok (), store') ↔
      ∃ t, store.table? name = some t
        ∧ store' = store.setTable name { t with foreignKey := true } := by
  change (store.onTable name fun t => .ok ((), { t with foreignKey := true }))
    = (.ok (), store') ↔ _
  rw [onTable_total]
  simp

end Tenancy.Backfill.MemoryStore
