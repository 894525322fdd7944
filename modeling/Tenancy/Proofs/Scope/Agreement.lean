/-
The two readings of a predicate agree. A predicate is a test of a row in
memory, and it is a condition of SQL. On a row of an entity's table, in
sight of the grants, the condition selects the row exactly if the test
admits it (`selects_condition`), whatever the predicate's tree is and
whatever else stands among the parameters. So does the condition that
is read back from the predicate's text, with the parameters pushed for
it (`toSql_selects_iff_admits`).

The condition says more than yes and no — a row without an owner makes
the test of its owner unknown — but a predicate holds no negation, so an
unknown part can hide a row and never show one.

Three things would make the names in a condition mean something else,
and an entity for which none of them holds is unambiguous: two of a
table's columns with one name, two of a grant table's columns with one
name, and a table named as the alias of the grants.
-/
import Tenancy.Proofs.Sql.Evaluation
import Tenancy.Proofs.Sql.Legible
import Tenancy.Proofs.Uuid
import Tenancy.Scope.Predicate

namespace Tenancy

open Sql

-- ============================================================== scene

/-- Every name in a condition over the entity's table means one thing. -/
structure Entity.Unambiguous (e : Entity) : Prop where
  columns : [e.idColumn, e.organizationColumn, e.ownerColumn].Nodup
  table : e.table ≠ "peer"
  grants : ∀ grants ∈ e.peers,
    [grants.entityColumn, grants.userColumn, grants.organizationColumn].Nodup

theorem Entity.unambiguous_of_mem_all : ∀ e ∈ Entity.all, e.Unambiguous := by
  intro e he
  simp only [Entity.all, List.mem_cons, List.not_mem_nil, or_false] at he
  rcases he with rfl | rfl | rfl | rfl
    <;> exact ⟨by decide, by decide, by decide⟩

/-- The identifiers in a row's columns. -/
def ScopedRow.identifier (row : ScopedRow) (e : Entity) (column : String) :
    Option Uuid :=
  if column = e.idColumn then some row.id
  else if column = e.organizationColumn then some row.organizationId
  else if column = e.ownerColumn then row.ownerId
  else none

/-- The identifiers in a grant's columns. -/
def PeerGrant.identifier (g : PeerGrant) (grants : GrantTable)
    (column : String) : Option Uuid :=
  if column = grants.entityColumn then some g.entityId
  else if column = grants.userColumn then some g.userId
  else if column = grants.organizationColumn then some g.organizationId
  else none

/-- The scene of a row of the entity's table, in sight of the grants. -/
def Entity.scene (e : Entity) (row : ScopedRow) (grants : List PeerGrant)
    (test : String → ColumnTest → Truth) (params : List Json) : Scene where
  params := params
  identifier table column :=
    if table = e.table then row.identifier e column else none
  rows table :=
    match e.peers with
    | none => []
    | some peers => if table = peers.table then
        (grants.filter fun g => g.table = table).map fun g =>
          g.identifier peers
      else []
  test := test

-- ============================================================ legible

namespace Predicate

mutual

/-- The condition of a predicate can be read back. -/
theorem legible_condition (e : Entity) :
    (start : Nat) → (p : Predicate) → (p.condition e start).1.Legible
  | _, .always => trivial
  | _, .organizationIs _ => trivial
  | _, .ownerIs _ => trivial
  | start, .peerGrant user organization => by
    unfold condition
    cases e.peers <;> trivial
  | start, .and parts => legibleParts_conditions e start parts
  | start, .or parts => legibleParts_conditions e start parts

theorem legibleParts_conditions (e : Entity) :
    (start : Nat) → (ps : List Predicate) →
      Condition.LegibleParts (conditions e start ps).1
  | _, [] => trivial
  | start, p :: ps =>
    ⟨rfl, legible_condition e start p, legibleParts_conditions e _ ps⟩

end

-- ========================================================== agreement

section

variable {e : Entity} {row : ScopedRow} {grants : List PeerGrant}
  {test : String → ColumnTest → Truth} {params : List Json}

/-- The placeholder of an identifier that is carried stands for it. -/
theorem uuid?_of_carries {scene : Scene} {start : Nat} (i : Nat)
    {ids : List Uuid} {id : Uuid}
    (h : Carries scene.params start (ids.map Json.uuid))
    (hid : ids[i]? = some id) :
    scene.uuid? (.uuid (start + i + 1)) = some id := by
  have hvalue : scene.value (start + i + 1) = Json.uuid id :=
    h.value (by simp [hid])
  show (scene.value (start + i + 1)).uuid? = some id
  rw [hvalue, Json.uuid?_uuid]

/-- Two identifiers are equal in SQL if both are there and the same. -/
theorem compare_eq_yes {scene : Scene} (table name : String) {y : Operand}
    {id : Uuid} (hy : scene.uuid? y = some id) :
    scene.eval (.compare (.column (some table) name) .eq y) = .yes
      ↔ scene.identifier table name = some id := by
  have hcolumn :
      scene.uuid? (.column (some table) name) = scene.identifier table name :=
    rfl
  show scene.compare (.column (some table) name) .eq y = .yes ↔ _
  cases hidentifier : scene.identifier table name with
  | none =>
    rw [hidentifier] at hcolumn
    cases y <;> simp [Scene.compare, hcolumn]
  | some a =>
    rw [hidentifier] at hcolumn
    cases y <;> simp [Scene.compare, hcolumn, hy]

theorem identifier_id :
    (e.scene row grants test params).identifier e.table e.idColumn
      = some row.id := by
  simp [Entity.scene, ScopedRow.identifier]

theorem identifier_organization (he : e.Unambiguous) :
    (e.scene row grants test params).identifier e.table e.organizationColumn
      = some row.organizationId := by
  have hne : e.organizationColumn ≠ e.idColumn := by
    have := he.columns
    simp_all [eq_comm]
  simp [Entity.scene, ScopedRow.identifier, hne]

theorem identifier_owner (he : e.Unambiguous) :
    (e.scene row grants test params).identifier e.table e.ownerColumn
      = row.ownerId := by
  have hne :
      e.ownerColumn ≠ e.idColumn ∧ e.ownerColumn ≠ e.organizationColumn := by
    have := he.columns
    simp_all [eq_comm]
  simp [Entity.scene, ScopedRow.identifier, hne.1, hne.2]

/-- A grant read under the alias is the grant looked for. -/
theorem eval_grant (he : e.Unambiguous) {peers : GrantTable}
    (hpeers : e.peers = some peers) {u o : Nat} {user organization : Uuid}
    (hu : (e.scene row grants test params).uuid? (.uuid u) = some user)
    (ho : (e.scene row grants test params).uuid? (.uuid o) = some organization)
    (g : PeerGrant) :
    ((e.scene row grants test params).bind "peer" (g.identifier peers)).eval
        (.conjoin
          [.compare (peerOperand peers.entityColumn) .eq e.idOf.operand,
          .compare (peerOperand peers.userColumn) .eq (.uuid u),
          .compare (peerOperand peers.organizationColumn) .eq (.uuid o)])
            = .yes
      ↔ g.entityId = row.id ∧ g.userId = user
        ∧ g.organizationId = organization := by
  have hcolumns := he.grants peers (by simp [hpeers])
  have hrow :
      ((e.scene row grants test params).bind "peer" (g.identifier peers)).uuid?
        e.idOf.operand
      = some row.id := by
    show (if e.table = "peer" then g.identifier peers e.idColumn
      else (e.scene row grants test params).identifier e.table e.idColumn) = _
    rw [if_neg he.table, identifier_id]
  -- An alias changes nothing for a placeholder.
  have hu' :
      ((e.scene row grants test params).bind "peer" (g.identifier peers)).uuid?
        (.uuid u)
      = some user := hu
  have ho' :
      ((e.scene row grants test params).bind "peer" (g.identifier peers)).uuid?
        (.uuid o)
      = some organization := ho
  have hentity : g.identifier peers peers.entityColumn = some g.entityId := by
    simp [PeerGrant.identifier]
  have huser : g.identifier peers peers.userColumn = some g.userId := by
    have hne : peers.userColumn ≠ peers.entityColumn := by
      simp_all [eq_comm]
    simp [PeerGrant.identifier, hne]
  have horganization :
      g.identifier peers peers.organizationColumn = some g.organizationId := by
    have hne : peers.organizationColumn ≠ peers.entityColumn
        ∧ peers.organizationColumn ≠ peers.userColumn := by
      simp_all [eq_comm]
    simp [PeerGrant.identifier, hne.1, hne.2]
  rw [Scene.eval_conjoin]
  simp only [Truth.all, List.map_cons, List.map_nil, List.foldr_cons,
    List.foldr_nil, Truth.and_eq_yes, and_true, peerOperand]
  rw [compare_eq_yes "peer" peers.entityColumn hrow,
    compare_eq_yes "peer" peers.userColumn hu',
    compare_eq_yes "peer" peers.organizationColumn ho']
  simp [Scene.bind, hentity, huser, horganization]

theorem eval_granted (he : e.Unambiguous) {peers : GrantTable}
    (hpeers : e.peers = some peers) {u o : Nat} {user organization : Uuid}
    (hu : (e.scene row grants test params).uuid? (.uuid u) = some user)
    (ho : (e.scene row grants test params).uuid? (.uuid o)
      = some organization) :
    (e.scene row grants test params).eval (grantedMeaning peers e.idOf u o)
      = .yes
      ↔ (Predicate.peerGrant user organization).admits e row grants
        = true := by
  have hrows : (e.scene row grants test params).rows peers.table
      = (grants.filter fun g => g.table = peers.table).map fun g =>
        g.identifier peers := by
    simp [Entity.scene, hpeers]
  unfold grantedMeaning
  rw [Scene.eval, Truth.ofBool_eq_yes, hrows]
  simp only [List.any_map, List.any_filter, admits, hpeers]
  rw [List.any_eq_true, List.any_eq_true]
  refine exists_congr fun g => and_congr_right fun _ => ?_
  have hgrant := eval_grant he hpeers hu ho g
  simp only [Function.comp_apply, Bool.and_eq_true, beq_iff_eq,
    decide_eq_true_eq, hgrant]
  tauto

mutual

/-- On a row of the entity's table the condition of a predicate is true
exactly if the predicate admits the row. -/
theorem selects_condition (he : e.Unambiguous) :
    (start : Nat) → (p : Predicate) →
    Carries params start ((p.condition e start).2.map Json.uuid) →
    ((e.scene row grants test params).eval (p.condition e start).1.meaning
      = .yes
      ↔ p.admits e row grants = true)
  | _, .always, _ => by simp [condition, Condition.meaning, Scene.eval, admits]
  | start, .organizationIs id, h => by
    have hid :
        (e.scene row grants test params).uuid? (.uuid (start + 1)) = some id :=
      uuid?_of_carries 0 h rfl
    show (e.scene row grants test params).eval
        (.compare (.column (some e.table) e.organizationColumn) .eq
          (.uuid (start + 1))) = .yes ↔ _
    rw [compare_eq_yes _ _ hid, identifier_organization he]
    simp [admits]
  | start, .ownerIs id, h => by
    have hid :
        (e.scene row grants test params).uuid? (.uuid (start + 1)) = some id :=
      uuid?_of_carries 0 h rfl
    show (e.scene row grants test params).eval
        (.compare (.column (some e.table) e.ownerColumn) .eq
          (.uuid (start + 1))) = .yes ↔ _
    rw [compare_eq_yes _ _ hid, identifier_owner he]
    simp [admits]
  | start, .peerGrant user organization, h => by
    cases hpeers : e.peers with
    | none =>
      simp [condition, hpeers, Condition.meaning, Scene.eval, admits,
        Truth.ofBool]
    | some peers =>
      simp only [condition, hpeers] at h ⊢
      have hu : (e.scene row grants test params).uuid? (.uuid (start + 1))
          = some user :=
        uuid?_of_carries 0 h rfl
      have ho : (e.scene row grants test params).uuid? (.uuid (start + 2))
          = some organization :=
        uuid?_of_carries 1 h rfl
      exact eval_granted he hpeers hu ho
  | start, .and parts, h => by
    show (e.scene row grants test params).eval
      (.conjoin (Condition.meanings (conditions e start parts).1)) = .yes ↔ _
    rw [Scene.eval_conjoin]
    exact (selects_conditions he start parts h).1
  | start, .or parts, h => by
    show (e.scene row grants test params).eval
      (.disjoin (Condition.meanings (conditions e start parts).1)) = .yes ↔ _
    rw [Scene.eval_disjoin]
    exact (selects_conditions he start parts h).2

/-- The conditions of several predicates are all true if all admit the row,
and one is true if one admits it. -/
theorem selects_conditions (he : e.Unambiguous) :
    (start : Nat) → (ps : List Predicate) →
    Carries params start ((conditions e start ps).2.map Json.uuid) →
    (Truth.all ((Condition.meanings (conditions e start ps).1).map
        (e.scene row grants test params).eval) = .yes
          ↔ admitsAll e row grants ps = true)
    ∧ (Truth.any ((Condition.meanings (conditions e start ps).1).map
        (e.scene row grants test params).eval) = .yes
          ↔ admitsAny e row grants ps = true)
  | _, [], _ => by
    simp [conditions, Condition.meanings, admitsAll, admitsAny, Truth.all,
      Truth.any]
  | start, p :: ps, h => by
    have hsplit : (conditions e start (p :: ps)).2.map Json.uuid
        = (p.condition e start).2.map Json.uuid
          ++ (conditions e (start + (p.condition e start).2.length) ps).2.map
            Json.uuid := by
      simp [conditions]
    rw [hsplit, carries_append, List.length_map] at h
    have hfirst := selects_condition he start p h.1
    have hothers :=
      selects_conditions he (start + (p.condition e start).2.length) ps h.2
    have hmeanings : Condition.meanings (conditions e start (p :: ps)).1
        = (p.condition e start).1.meaning
          :: Condition.meanings
            (conditions e (start + (p.condition e start).2.length) ps).1 := rfl
    rw [hmeanings, List.map_cons]
    constructor
    · rw [Truth.all_cons, Truth.and_eq_yes, hfirst, hothers.1]
      simp [admitsAll]
    · rw [Truth.any_cons, Truth.or_eq_yes, hfirst, hothers.2]
      simp [admitsAny]

end

end

/-- The two readings agree. The text of a predicate, written behind any
parameters that are there already, is a condition; with all parameters
bound it is true of a row, in sight of the grants of all tables, exactly
if the predicate admits the row. -/
theorem toSql_selects_iff_admits {e : Entity} (he : e.Unambiguous)
    (p : Predicate) (before : List Json) :
    ∃ c, searchCondition? (p.toSql e before).1 = some c ∧
      ∀ row grants test,
        (e.scene row grants test (p.toSql e before).2).Selects c
        ↔ p.admits e row grants = true := by
  refine ⟨_, searchCondition?_text (legible_condition e before.length p),
    fun row grants test => ?_⟩
  have hcarried : Carries (p.toSql e before).2 before.length
      ((p.condition e before.length).2.map Json.uuid) := by
    simpa [toSql] using
      carries_between before ((p.condition e before.length).2.map Json.uuid) []
  exact selects_condition he before.length p hcarried

/-- A user's own rows, and those of an organization that are granted to the
user in it. -/
def ownOrGranted : Predicate :=
  .or [.ownerIs (.ofNat 9),
    .and [.organizationIs (.ofNat 7), .peerGrant (.ofNat 9) (.ofNat 7)]]

/-- A task that nobody owns is selected for the grant of it, and not for one of
the same numbers in the table of another entity, nor for one in another
organization. -/
theorem ownOrGranted_selects_granted_task :
    ∃ c, searchCondition? (ownOrGranted.toSql .task [.str "open"]).1 = some c ∧
      ∀ test params, params = (ownOrGranted.toSql .task [.str "open"]).2 →
        (Entity.task.scene ⟨.ofNat 1, .ofNat 7, none⟩
            [⟨"task_assignees", .ofNat 1, .ofNat 9, .ofNat 7⟩] test
              params).Selects c
        ∧ ¬ (Entity.task.scene ⟨.ofNat 1, .ofNat 7, none⟩
            [⟨"project_members", .ofNat 1, .ofNat 9, .ofNat 7⟩,
              ⟨"task_assignees", .ofNat 1, .ofNat 9, .ofNat 8⟩] test
                params).Selects c := by
  have htask : Entity.task ∈ Entity.all := by simp [Entity.all]
  obtain ⟨c, hc, hselects⟩ :=
    toSql_selects_iff_admits (Entity.unambiguous_of_mem_all _ htask)
      ownOrGranted [.str "open"]
  refine ⟨c, hc, fun test params hparams => ?_⟩
  subst hparams
  rw [hselects, hselects]
  decide

end Predicate

end Tenancy
