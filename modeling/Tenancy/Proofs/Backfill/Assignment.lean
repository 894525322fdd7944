/-
Which organization a backfill gives each row. The rule of a table is
recursive along the chain of its parents (`Assigned`), while a run fills
table after table. What ties the two is the order of the plan: when a
table's turn comes, the tables placed before it are complete and the
others are untouched (`Progress`), so what its derivation finds in the
store is what the rule says (`Progress.choose_ok`).

The rule does not mention the order of the plan, so neither that nor the
use of checkpoints has a part in the result.
-/
import Mathlib.Data.List.Forall2
import Mathlib.Data.List.Nodup
import Tenancy.Proofs.Backfill.Contents
import Tenancy.Proofs.Backfill.Order
import Tenancy.Proofs.Uuid

namespace Tenancy.Backfill

open Program MemoryStore

variable {plan plan' : Plan} {store : MemoryStore} {fallback : Uuid}
  {entry : Entry}

-- ============================================================== rule

/-- Does the relationship that a table derives from know of a row: is there a
membership of its owner, or a row that it has as its parent? -/
def relates (store : MemoryStore) : Derivation → MemoryRow → Bool
  | .ownerMembership column, row =>
    ((row.ref? column).bind store.firstMembership?).isSome
  | .parent parent key, row =>
    (row.ref? key).any fun id => (store.rowsOf parent).any fun p => p.id == id
  | .defaultOnly, _ => false

/-- The organization that a row of a planned table gets. -/
inductive Assigned (plan : Plan) (store : MemoryStore) (fallback : Uuid) :
    Entry → MemoryRow → Uuid → Prop
  | kept {entry : Entry} {row : MemoryRow} {o : Uuid}
      (hkept : row.organization = some o) :
    Assigned plan store fallback entry row o
  | owner {entry : Entry} {row : MemoryRow} {o user : Uuid} {column : String}
      (hnull : row.organization = none)
      (hderivation : entry.derivation = .ownerMembership column)
      (huser : row.ref? column = some user)
      (hfirst : store.firstMembership? user = some o) :
    Assigned plan store fallback entry row o
  | parent {entry parent : Entry} {row p : MemoryRow} {o : Uuid} {key : String}
      (hnull : row.organization = none)
      (hderivation : entry.derivation = .parent parent.table key)
      (hplanned : parent ∈ plan.tables) (hrow : p ∈ store.rowsOf parent.table)
      (href : row.ref? key = some p.id)
      (hparent : Assigned plan store fallback parent p o) :
    Assigned plan store fallback entry row o
  | unrelated {entry : Entry} {row : MemoryRow}
      (hnull : row.organization = none)
      (hrelates : relates store entry.derivation row = false) :
    Assigned plan store fallback entry row fallback

/-- No row of a planned table has another's identifier. -/
def UniqueIds (plan : Plan) (store : MemoryStore) : Prop :=
  ∀ entry ∈ plan.tables, ((store.rowsOf entry.table).map MemoryRow.id).Nodup

instance : Decidable (UniqueIds plan store) :=
  inferInstanceAs (Decidable (∀ entry ∈ plan.tables,
    ((store.rowsOf entry.table).map MemoryRow.id).Nodup))

/-- A row with a member for its owner relates to an organization. -/
theorem relates_owner {row : MemoryRow} {o user : Uuid} {column : String}
    (huser : row.ref? column = some user)
    (hfirst : store.firstMembership? user = some o) :
    relates store (.ownerMembership column) row = true := by
  show ((row.ref? column).bind store.firstMembership?).isSome = true
  rw [huser, Option.bind_some, hfirst]
  rfl

/-- A row relates to its parent if that is there. -/
theorem relates_parent {row : MemoryRow} {parent key : String} :
    relates store (.parent parent key) row = true ↔
      ∃ p ∈ store.rowsOf parent, row.ref? key = some p.id := by
  show ((row.ref? key).any fun id =>
      (store.rowsOf parent).any fun p => p.id == id) = true ↔ _
  cases row.ref? key with
  | none => simp
  | some id =>
    simp only [Option.any_some, List.any_eq_true, beq_iff_eq,
      Option.some.injEq]
    refine exists_congr fun p => and_congr_right fun _ => ?_
    exact eq_comm

/-- The rule gives a row one organization. -/
theorem Assigned.unique (hnodup : (plan.tables.map Entry.table).Nodup)
    (hids : UniqueIds plan store)
    {row : MemoryRow} {o o' : Uuid}
    (h : Assigned plan store fallback entry row o)
    (h' : Assigned plan store fallback entry row o') : o = o' := by
  induction h generalizing o' with
  | kept hkept =>
    cases h' with
    | kept hkept' => exact Option.some.inj (hkept.symm.trans hkept')
    | owner hnull => exact absurd (hkept.symm.trans hnull) nofun
    | parent hnull => exact absurd (hkept.symm.trans hnull) nofun
    | unrelated hnull => exact absurd (hkept.symm.trans hnull) nofun
  | owner hnull hderivation huser hfirst =>
    cases h' with
    | kept hkept' => exact absurd (hkept'.symm.trans hnull) nofun
    | owner _ hderivation' huser' hfirst' =>
      cases hderivation.symm.trans hderivation'
      cases huser.symm.trans huser'
      exact Option.some.inj (hfirst.symm.trans hfirst')
    | parent _ hderivation' =>
      exact absurd (hderivation.symm.trans hderivation') nofun
    | unrelated _ hrelates =>
      rw [hderivation, relates_owner huser hfirst] at hrelates
      cases hrelates
  | @parent entry parent row p o key hnull hderivation hplanned hrow href
    _ ih =>
    cases h' with
    | kept hkept' => exact absurd (hkept'.symm.trans hnull) nofun
    | owner _ hderivation' =>
      exact absurd (hderivation.symm.trans hderivation') nofun
    | @parent _ parent' _ p' _ key' _ hderivation' hplanned' hrow' href'
      hparent' =>
      obtain ⟨htable, rfl⟩ : parent.table = parent'.table ∧ key = key' := by
        simpa using hderivation.symm.trans hderivation'
      obtain rfl := List.inj_on_of_nodup_map hnodup hplanned hplanned' htable
      have hid : p.id = p'.id := Option.some.inj (href.symm.trans href')
      obtain rfl :=
        List.inj_on_of_nodup_map (hids parent hplanned) hrow hrow' hid
      exact ih hparent'
    | unrelated _ hrelates =>
      rw [hderivation, relates_parent.2 ⟨p, hrow, href⟩] at hrelates
      cases hrelates
  | unrelated hnull hrelates =>
    cases h' with
    | kept hkept' => exact absurd (hkept'.symm.trans hnull) nofun
    | owner _ hderivation huser hfirst =>
      rw [hderivation, relates_owner huser hfirst] at hrelates
      cases hrelates
    | parent _ hderivation _ hrow href =>
      rw [hderivation, relates_parent.2 ⟨_, hrow, href⟩] at hrelates
      cases hrelates
    | unrelated => rfl

/-- The rule depends on which tables are planned, not on their order. -/
theorem Assigned.of_subset (hsub : ∀ e ∈ plan.tables, e ∈ plan'.tables)
    {row : MemoryRow} {o : Uuid}
    (h : Assigned plan store fallback entry row o) :
    Assigned plan' store fallback entry row o := by
  induction h with
  | kept hkept => exact .kept hkept
  | owner hnull hderivation huser hfirst =>
    exact .owner hnull hderivation huser hfirst
  | parent hnull hderivation hplanned hrow href _ ih =>
    exact .parent hnull hderivation (hsub _ hplanned) hrow href ih
  | unrelated hnull hrelates => exact .unrelated hnull hrelates

-- ============================================================= tables

/-- These are the rows of a table, each with the organization that it gets. -/
def Completes (plan : Plan) (store : MemoryStore) (fallback : Uuid)
    (entry : Entry) (rows : List MemoryRow) : Prop :=
  ∃ assign : MemoryRow → Uuid,
    rows = (store.rowsOf entry.table).map
        (fun row => { row with organization := some (assign row) })
      ∧ ∀ row ∈ store.rowsOf entry.table,
        Assigned plan store fallback entry row (assign row)

/-- There is one way to complete a table. -/
theorem Completes.unique (hnodup : (plan.tables.map Entry.table).Nodup)
    (hids : UniqueIds plan store)
    {rows rows' : List MemoryRow}
    (h : Completes plan store fallback entry rows)
    (h' : Completes plan store fallback entry rows') : rows = rows' := by
  obtain ⟨assign, rfl, hassign⟩ := h
  obtain ⟨assign', rfl, hassign'⟩ := h'
  refine List.map_congr_left fun row hrow => ?_
  rw [(hassign row hrow).unique hnodup hids (hassign' row hrow)]

/-- It is the same way in any plan that has the tables. -/
theorem Completes.of_subset (hsub : ∀ e ∈ plan.tables, e ∈ plan'.tables)
    {rows : List MemoryRow}
    (h : Completes plan store fallback entry rows) :
    Completes plan' store fallback entry rows := by
  obtain ⟨assign, hrows, hassign⟩ := h
  exact ⟨assign, hrows, fun row hrow => (hassign row hrow).of_subset hsub⟩

/-- In a complete table every row has the organization that it gets. -/
theorem Completes.organizationOf? {rows : List MemoryRow}
    (hnodup : ((store.rowsOf entry.table).map MemoryRow.id).Nodup)
    (h : Completes plan store fallback entry rows) {p : MemoryRow}
    (hp : p ∈ store.rowsOf entry.table) :
    ∃ o, organizationOf? rows p.id = some o
      ∧ Assigned plan store fallback entry p o := by
  obtain ⟨assign, rfl, hassign⟩ := h
  refine ⟨assign p, ?_, hassign p hp⟩
  unfold MemoryStore.organizationOf?
  cases hfind : ((store.rowsOf entry.table).map fun row =>
      ({ row with organization := some (assign row) } :
        MemoryRow)).reverse.find?
        fun r => r.id == p.id with
  | none =>
    have hnone :=
      List.find?_eq_none.1 hfind { p with organization := some (assign p) }
        (List.mem_reverse.2 (List.mem_map_of_mem hp))
    simp at hnone
  | some r =>
    obtain ⟨q, hq, rfl⟩ :=
      List.mem_map.1 (List.mem_reverse.1 (List.mem_of_find?_eq_some hfind))
    have hid : q.id = p.id := by simpa using List.find?_some hfind
    obtain rfl := List.inj_on_of_nodup_map hnodup hq hp hid
    rfl

/-- A row that is not there has no organization. -/
theorem Completes.organizationOf?_eq_none {rows : List MemoryRow} {id : Uuid}
    (h : Completes plan store fallback entry rows)
    (hid : ∀ p ∈ store.rowsOf entry.table, p.id ≠ id) :
    MemoryStore.organizationOf? rows id = none := by
  obtain ⟨assign, rfl, -⟩ := h
  unfold MemoryStore.organizationOf?
  rw [List.find?_eq_none.2]
  · rfl
  · intro r hr
    obtain ⟨p, hp, rfl⟩ := List.mem_map.1 (List.mem_reverse.1 hr)
    simpa using hid p hp

/-- A report counts the rows that were filled by the relationship, and those
that were filled by the default. -/
def Counts (store : MemoryStore) (entry : Entry) (report : TableReport) :
    Prop :=
  report.derived = (store.rowsOf entry.table).countP (fun row =>
      row.organization.isNone && relates store entry.derivation row)
    ∧ report.defaulted = (store.rowsOf entry.table).countP (fun row =>
      row.organization.isNone && !relates store entry.derivation row)

/-- The counts add up to the rows that had no organization. -/
theorem Counts.sum {report : TableReport} (h : Counts store entry report) :
    report.derived + report.defaulted
      = (store.rowsOf entry.table).countP
        (fun row => row.organization.isNone) := by
  rw [h.1, h.2]
  induction store.rowsOf entry.table with
  | nil => rfl
  | cons row rest ih =>
    simp only [List.countP_cons, ← ih]
    cases row.organization.isNone <;> cases relates store entry.derivation row
      <;> simp <;> omega

-- =============================================================== loop

/-- How far a run is: the placed tables are complete, the others untouched. -/
structure Progress (plan : Plan) (store : MemoryStore) (fallback : Uuid)
    (placed : List Entry) (s : MemoryStore) : Prop where
  memberships : s.firstMembership? = store.firstMembership?
  complete :
    ∀ entry ∈ placed,
    Completes plan store fallback entry (s.rowsOf entry.table)
  untouched :
    ∀ name, name ∉ placed.map Entry.table → s.rowsOf name = store.rowsOf name

namespace Progress

variable {placed : List Entry} {s s' : MemoryStore}

/-- What the derivation finds in the store is what the rule says. -/
theorem choose_ok (hprogress : Progress plan store fallback placed s)
    (hids : UniqueIds plan store) (hplanned : ∀ e ∈ placed, e ∈ plan.tables)
    (hparent : ∀ parent ∈ entry.parent?, parent ∈ placed.map Entry.table)
    (row : MemoryRow) :
    (choose s entry.derivation row).isSome = relates store entry.derivation row
      ∧ (row.organization = none → ∀ o,
        choose s entry.derivation row = some o →
          Assigned plan store fallback entry row o) := by
  unfold Entry.parent? at hparent
  cases hderivation : entry.derivation with
  | ownerMembership column =>
    have hchoose : choose s (.ownerMembership column) row
        = (row.ref? column).bind store.firstMembership? := by
      rw [← hprogress.memberships]
      rfl
    rw [hchoose]
    refine ⟨rfl, fun hnull o ho => ?_⟩
    obtain ⟨user, huser, hfirst⟩ := Option.bind_eq_some_iff.1 ho
    exact .owner hnull hderivation huser hfirst
  | parent table key =>
    rw [hderivation] at hparent
    obtain ⟨parent, hmem, rfl⟩ := List.mem_map.1 (hparent table rfl)
    have hcomplete := hprogress.complete parent hmem
    have hchoose : choose s (.parent parent.table key) row
        = (row.ref? key).bind (organizationOf? (s.rowsOf parent.table)) := rfl
    rw [hchoose]
    by_cases hrelates : relates store (.parent parent.table key) row = true
    · obtain ⟨p, hp, href⟩ := relates_parent.1 hrelates
      obtain ⟨o, ho, hassigned⟩ :=
        hcomplete.organizationOf? (hids parent (hplanned parent hmem)) hp
      rw [hrelates, href, Option.bind_some, ho]
      refine ⟨rfl, fun hnull o' ho' => ?_⟩
      obtain rfl := Option.some.inj ho'
      exact .parent hnull hderivation (hplanned parent hmem) hp href hassigned
    · have hnone :
          (row.ref? key).bind (organizationOf? (s.rowsOf parent.table))
          = none := by
        cases href : row.ref? key with
        | none => rfl
        | some id =>
          refine hcomplete.organizationOf?_eq_none fun p hp hid => hrelates ?_
          exact relates_parent.2 ⟨p, hp, hid ▸ href⟩
      rw [hnone, Bool.eq_false_iff.2 hrelates]
      exact ⟨rfl, nofun⟩
  | defaultOnly => exact ⟨rfl, nofun⟩

variable {c : Checkpoints} {report report' : TableReport}

/-- One more table is complete behind its turn. -/
theorem step (hprogress : Progress plan store fallback placed s)
    (hids : UniqueIds plan store)
    (hplanned : ∀ e ∈ entry :: placed, e ∈ plan.tables)
    (hparent : ∀ parent ∈ entry.parent?, parent ∈ placed.map Entry.table)
    (hnew : entry.table ∉ placed.map Entry.table)
    (hfresh : ¬c.isDone (stepKey "derive" entry.table) = true)
    (h : Succeeds answer (backfillTable c fallback entry report) s
      report' s') :
    Progress plan store fallback (entry :: placed) s'
      ∧ report'.table = report.table
      ∧ Counts store entry report' := by
  obtain ⟨t, ht, hnone, hcontents, htable, hcounts⟩ := of_backfillTable h
  rw [filled_of_not_done hfresh] at hnone hcontents
  have hrows : t.rows = store.rowsOf entry.table :=
    (rowsOf_eq_rows ht).symm.trans (hprogress.untouched _ hnew)
  have hchoose :=
    choose_ok hprogress hids (fun e he => hplanned e (by simp [he])) hparent
  have hothers :
      ∀ name, name ≠ entry.table → s'.rowsOf name = s.rowsOf name := by
    intro name hname
    rw [rowsOf_eq hcontents, rowsOf_setTable_of_ne _ _ hname.symm]
  refine ⟨⟨?_, ?_, ?_⟩, htable, ?_⟩
  · rw [firstMembership?_eq hcontents]
    exact hprogress.memberships
  · intro e he
    rcases List.mem_cons.1 he with rfl | he
    · rw [rowsOf_eq hcontents, rowsOf_setTable, rows_fillTwice hnone, hrows]
      refine ⟨fun row =>
        row.organization.getD ((choose s e.derivation row).getD fallback), rfl,
        ?_⟩
      intro row _
      obtain ⟨hsome, hassigned⟩ := hchoose row
      show Assigned plan store fallback e row
        (row.organization.getD ((choose s e.derivation row).getD fallback))
      cases horganization : row.organization with
      | some o => exact .kept horganization
      | none =>
        cases hfound : choose s e.derivation row with
        | some o => exact hassigned horganization o hfound
        | none =>
          rw [hfound] at hsome
          exact .unrelated horganization hsome.symm
    · rw [hothers]
      · exact hprogress.complete e he
      · intro hsame
        exact hnew (hsame ▸ List.mem_map_of_mem he)
  · intro name hname
    rw [List.map_cons, List.mem_cons, not_or] at hname
    rw [hothers name hname.1, hprogress.untouched name hname.2]
  · obtain ⟨hderived, hdefaulted⟩ := hcounts hfresh
    obtain ⟨hfirst, hsecond⟩ := counts_fillTwice hnone
    simp only [hrows, hchoose] at hfirst hsecond
    exact ⟨hderived.trans hfirst, hdefaulted.trans hsecond⟩

/-- Table after table, parents first. -/
theorem run (hids : UniqueIds plan store)
    (hfresh : ∀ key, ¬c.isDone key = true)
    {work : List (Entry × TableReport)} {reports : List TableReport}
    (hprogress : Progress plan store fallback placed s)
    (hplanned : ∀ e ∈ work.map Prod.fst ++ placed, e ∈ plan.tables)
    (hnodup : ((work.map Prod.fst ++ placed).map Entry.table).Nodup)
    (hfirst : Plan.ParentsFirst (placed.map Entry.table) (work.map Prod.fst))
    (htables : ∀ w ∈ work, w.2.table = w.1.table)
    (h : Succeeds answer (backfillTables c fallback work) s reports s') :
    Progress plan store fallback ((work.map Prod.fst).reverse ++ placed) s'
      ∧ List.Forall₂
        (fun entry report => report.table = entry.table
          ∧ Counts store entry report)
          (work.map Prod.fst) reports := by
  induction work generalizing placed s reports with
  | nil =>
    obtain ⟨rfl, rfl⟩ := succeeds_pure.1 h
    exact ⟨hprogress, .nil⟩
  | cons w rest ih =>
    obtain ⟨entry, report⟩ := w
    obtain ⟨report', s₁, hfirstTable, h⟩ := succeeds_bind.1 h
    obtain ⟨reports', s₂, hrest, h⟩ := succeeds_bind.1 h
    obtain ⟨rfl, rfl⟩ := succeeds_pure.1 h
    obtain ⟨hnew, hnodup⟩ := List.nodup_cons.1 hnodup
    have hperm : (rest.map Prod.fst ++ entry :: placed).Perm
        (entry :: (rest.map Prod.fst ++ placed)) := List.perm_middle
    have hplannedStep : ∀ e ∈ entry :: placed, e ∈ plan.tables := by
      intro e he
      rcases List.mem_cons.1 he with rfl | he
      · exact hplanned e (by simp)
      · exact hplanned e (by simp [he])
    have hnewStep : entry.table ∉ placed.map Entry.table := by
      intro hmem
      obtain ⟨e, he, hsame⟩ := List.mem_map.1 hmem
      exact hnew (List.mem_map.2 ⟨e, List.mem_append_right _ he, hsame⟩)
    obtain ⟨hprogress₁, htable, hcounts⟩ :=
      hprogress.step hids hplannedStep hfirst.1 hnewStep (hfresh _) hfirstTable
    obtain ⟨hprogress₂, hreports⟩ := ih hprogress₁
      (fun e he => hplanned e (hperm.mem_iff.1 he))
      ((hperm.map Entry.table).nodup_iff.2 (List.nodup_cons.2 ⟨hnew, hnodup⟩))
        hfirst.2
      (fun w hw => htables w (by simp [hw])) hrest
    refine ⟨?_,
      .cons ⟨htable.trans (htables (entry, report) (by simp)), hcounts⟩
      hreports⟩
    rw [List.map_cons, List.reverse_cons, List.append_assoc]
    exact hprogress₂

end Progress

-- =============================================================== run

/-- A store without a record of the plan has nothing skipped. -/
theorem not_isDone_of_checkpoints {job : Job} {c : Checkpoints}
    {s s' : MemoryStore}
    (hfresh : s.recorded job.plan.fingerprint = [])
    (h : Succeeds answer job.checkpoints s c s')
    (key : String) : ¬c.isDone key = true := by
  rcases succeeds_checkpoints.1 h with ⟨-, rfl, -⟩ | ⟨-, rfl, -⟩
  · show ¬(true && (s.recorded job.plan.fingerprint).contains key) = true
    rw [hfresh]
    simp
  · simp [Checkpoints.isDone]

variable {entries : List Entry} {job : Job} {store' : MemoryStore}
  {report : Report}

/-- A run completes its tables and counts what it has done. -/
theorem run_completes (hplan : Plan.ofEntries entries = .ok job.plan)
    (hids : UniqueIds job.plan store)
    (hfresh : store.recorded job.plan.fingerprint = [])
    (hrun : Succeeds answer job.run store report store') :
    store.organization? job.defaultSlug = some report.defaultOrganization
      ∧ (∀ entry ∈ job.plan.tables,
        Completes job.plan store report.defaultOrganization entry
          (store'.rowsOf entry.table))
      ∧ List.Forall₂
        (fun entry report => report.table = entry.table
          ∧ Counts store entry report)
          job.plan.tables report.tables := by
  obtain ⟨-, hnodup, hfirst⟩ := Plan.ofEntries_ok hplan
  obtain ⟨c, s₁, hcheckpoints, hrun⟩ := succeeds_bind.1 hrun
  obtain ⟨⟨started, added⟩, s₂, hcolumns, hrun⟩ := succeeds_bind.1 hrun
  obtain ⟨fallback, s₃, hdefault, hrun⟩ := succeeds_bind.1 hrun
  obtain ⟨reports, s₄, htables, hrun⟩ := succeeds_bind.1 hrun
  obtain ⟨rfl, rfl⟩ := succeeds_pure.1 hrun
  obtain ⟨hcontents, hstarted⟩ := contents_of_addColumns hcolumns
  obtain ⟨hfound, rfl⟩ := succeeds_findDefault.1 hdefault
  replace hcontents := hcontents.trans (contents_of_checkpoints hcheckpoints)
  have hcontents₃ :=
    (contents_markedOnce c s₂ (stepKey "seed_default" none)).trans hcontents
  obtain ⟨hentries, hstartedTables⟩ := zip_reports hstarted
  have hstart : Progress job.plan store fallback []
      (c.markedOnce s₂ (stepKey "seed_default" none)) :=
    ⟨firstMembership?_eq hcontents₃, nofun, fun _ _ => rowsOf_eq hcontents₃⟩
  obtain ⟨hprogress, hreports⟩ :=
    hstart.run hids (not_isDone_of_checkpoints hfresh hcheckpoints)
      (by simp [hentries]) (by simpa [hentries] using hnodup)
      (by simpa [hentries] using hfirst)
      hstartedTables htables
  rw [hentries] at hprogress hreports
  refine ⟨?_, fun entry hentry => hprogress.complete entry (by simp [hentry]),
    hreports⟩
  rw [← organization?_eq hcontents]
  exact hfound

/-- A run that succeeds gives every row of a planned table the organization of
the rule, which is one and the same for every order of the plan and for
both uses of checkpoints, and reports how many rows took it from where. -/
theorem run_assigns_organizations
    (hplan : Plan.ofEntries entries = .ok job.plan)
    (hids : UniqueIds job.plan store)
    (hfresh : store.recorded job.plan.fingerprint = [])
    (hrun : Succeeds answer job.run store report store') :
    ∃ fallback, store.organization? job.defaultSlug = some fallback
      ∧ report.defaultOrganization = fallback
      ∧ (∀ entry ∈ entries, List.Forall₂
          (fun row row' => ∃ o, Assigned job.plan store fallback entry row o
            ∧ row' = { row with organization := some o })
          (store.rowsOf entry.table) (store'.rowsOf entry.table))
      ∧ (∀ entry row o o', Assigned job.plan store fallback entry row o →
          Assigned job.plan store fallback entry row o' → o = o')
      ∧ List.Forall₂
          (fun entry report => report.table = entry.table
            ∧ Counts store entry report
            ∧ report.derived + report.defaulted
              = (store.rowsOf entry.table).countP
                (fun row => row.organization.isNone))
          job.plan.tables report.tables
      ∧ ∀ (entries' : List Entry) (job' : Job) (report' : Report)
        (store'' : MemoryStore),
          entries'.Perm entries → Plan.ofEntries entries' = .ok job'.plan →
          job'.defaultSlug = job.defaultSlug →
            store.recorded job'.plan.fingerprint = [] →
          Succeeds answer job'.run store report' store'' →
          ∀ entry ∈ entries,
            store''.rowsOf entry.table = store'.rowsOf entry.table := by
  obtain ⟨hperm, hnodup, -⟩ := Plan.ofEntries_ok hplan
  obtain ⟨hdefault, hcomplete, hreports⟩ :=
    run_completes hplan hids hfresh hrun
  refine ⟨report.defaultOrganization, hdefault, rfl, ?_, ?_, ?_, ?_⟩
  · intro entry hentry
    obtain ⟨assign, hrows, hassign⟩ := hcomplete entry (hperm.mem_iff.2 hentry)
    rw [hrows, List.forall₂_map_right_iff, List.forall₂_same]
    exact fun row hrow => ⟨assign row, hassign row hrow, rfl⟩
  · intro entry row o o' h h'
    exact h.unique hnodup hids h'
  · exact hreports.imp fun entry report h => ⟨h.1, h.2, h.2.sum⟩
  · intro entries' job' report' store'' hsame hplan' hslug hfresh' hrun'
      entry hentry
    have hperm' := (Plan.ofEntries_ok hplan').1.trans (hsame.trans hperm.symm)
    have hids' : UniqueIds job'.plan store :=
      fun e he => hids e (hperm'.mem_iff.1 he)
    obtain ⟨hdefault', hcomplete', -⟩ :=
      run_completes hplan' hids' hfresh' hrun'
    rw [hslug, hdefault] at hdefault'
    have hmem := hperm.mem_iff.2 hentry
    have hother :=
      (hcomplete' entry (hperm'.mem_iff.2 hmem)).of_subset fun e =>
        hperm'.mem_iff.1
    rw [← Option.some.inj hdefault'] at hother
    exact hother.unique hnodup hids (hcomplete entry hmem)

-- A project of a member of the organization 1, with two tasks; the second
-- task's project is unknown. The tasks are listed before the projects.

/-- A plan of an owned table and one that hangs on it. -/
def smallEntries : List Entry :=
  [⟨"tasks", .parent "projects" "project_id"⟩,
    ⟨"projects", .ownerMembership "user_id"⟩]

/-- A job for that plan. -/
def smallJob : Job where
  plan :=
    ⟨[⟨"projects", .ownerMembership "user_id"⟩,
      ⟨"tasks", .parent "projects" "project_id"⟩]⟩
  defaultSlug := "default"
  useCheckpoints := false

/-- A store with a project that has an owner, a task of that project, and a
task of a project that is not there. -/
def smallStore : MemoryStore where
  tables := [
    ("projects", .ofRows [⟨.ofNat 10, none, [("user_id", .ofNat 7)]⟩]),
    ("tasks", .ofRows [
      ⟨.ofNat 20, none, [("project_id", .ofNat 10)]⟩,
      ⟨.ofNat 21, none, [("project_id", .ofNat 99)]⟩])]
  organizations := [("default", .ofNat 0)]
  memberships := [(.ofNat 7, .ofNat 1)]
  checkpoints := []
  hasCheckpoints := false

/-- The job runs to its end there. -/
theorem smallJob_succeeds :
    ∃ report store', Succeeds answer smallJob.run smallStore report store' :=
  succeeds_of_isOk (by decide +kernel)

/-- The tasks are complete behind the run: each has the organization of the
rule. -/
theorem smallJob_assigns_organizations :
    ∃ report store', Plan.ofEntries smallEntries = .ok smallJob.plan
      ∧ Succeeds answer smallJob.run smallStore report store'
      ∧ List.Forall₂
          (fun row row' => ∃ o, Assigned smallJob.plan smallStore (.ofNat 0)
              ⟨"tasks", .parent "projects" "project_id"⟩ row o
            ∧ row' = { row with organization := some o })
          (smallStore.rowsOf "tasks") (store'.rowsOf "tasks") := by
  have hplan : Plan.ofEntries smallEntries = .ok smallJob.plan := by rfl
  have hids : UniqueIds smallJob.plan smallStore := by decide +kernel
  obtain ⟨report, store', hrun⟩ := smallJob_succeeds
  obtain ⟨fallback, hdefault, -, hrows, -⟩ :=
    run_assigns_organizations hplan hids (recorded_eq_nil rfl) hrun
  obtain rfl : Uuid.ofNat 0 = fallback := Option.some.inj hdefault
  exact ⟨report, store', hplan, hrun, hrows _ (by simp [smallEntries])⟩

end Tenancy.Backfill
