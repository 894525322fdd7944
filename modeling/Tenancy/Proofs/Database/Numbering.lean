/-
Which parameter a placeholder stands for is said by its number alone, and
the numbers of a statement come from two counters. A predicate numbers by
the parameters that are there already; a where-object is told how many
there are and counts on by itself; the lookup of a row takes the number
that follows. Nothing checks that they agree, and a value that is pushed
without a placeholder would shift a client's value into the place of an
organization.

They do agree (`placeholders_stand_for_parameters`). What is carried
through a predicate, an object and a statement is one and the same: the
placeholders of the text so far are numbered from the start without a
gap, as many as parameters were added. The names of tables and columns
may be any text, also one that looks like a placeholder.
-/
import Tenancy.Proofs.Database.ScopedStatements

namespace Tenancy

open Sql Tenancy.Filter

-- =========================================================== counting

/-- A text that is written behind parameters counts on for those that are
added: read from left to right, its placeholders are numbered on from the
parameters before, are as many as were added, and stand for these in their
order. -/
def CountsOn (text : String) (before added : List Json) : Prop :=
  ∃ ns,
    placeholdersOf? text = some ns
    ∧ ns = List.range' (before.length + 1) added.length
    ∧ ns.map (valueAt (before ++ added)) = added

theorem countsOn_of_placeholders {text : String} {before added : List Json}
    (h : placeholdersOf? text
      = some (List.range' (before.length + 1) added.length)) :
    CountsOn text before added := by
  have hcarried : Carries (before ++ added) before.length added := by
    simpa using carries_between before added []
  exact ⟨_, h, rfl, hcarried.map_valueAt⟩

-- ========================================================== predicates

namespace Predicate

mutual

/-- The identifiers that a predicate's condition compares with, from left to
right; without a table of grants those of a grant are not needed. -/
def identifiers (e : Entity) : Predicate → List Uuid
  | .always => []
  | .organizationIs id => [id]
  | .ownerIs id => [id]
  | .peerGrant user organization =>
    if e.peers.isSome then [user, organization] else []
  | .and parts => identifiersOfEach e parts
  | .or parts => identifiersOfEach e parts

def identifiersOfEach (e : Entity) : List Predicate → List Uuid
  | [] => []
  | p :: rest => identifiers e p ++ identifiersOfEach e rest

end

mutual

/-- A predicate adds its identifiers, and numbers its placeholders on from the
start. -/
theorem condition_numbered (e : Entity) : (start : Nat) → (p : Predicate) →
    (p.condition e start).2 = p.identifiers e
      ∧ (p.condition e start).1.placeholders
        = List.range' (start + 1) (p.identifiers e).length
  | _, .always => ⟨rfl, rfl⟩
  | start, .organizationIs _
  | start, .ownerIs _ => ⟨rfl, Condition.placeholders_identified _ _⟩
  | start, .peerGrant user organization => by
    cases hpeers : e.peers with
    | none => simp [condition, identifiers, hpeers]
    | some grants => simp [condition, identifiers, hpeers, List.range']
  | start, .and parts => by
    obtain ⟨hids, hnumbers⟩ := conditions_numbered e start parts
    exact ⟨hids, (Condition.placeholders_all _).trans hnumbers⟩
  | start, .or parts => by
    obtain ⟨hids, hnumbers⟩ := conditions_numbered e start parts
    exact ⟨hids, (Condition.placeholders_any _).trans hnumbers⟩

theorem conditions_numbered (e : Entity) :
    (start : Nat) → (ps : List Predicate) →
    (conditions e start ps).2 = identifiersOfEach e ps
      ∧ (conditions e start ps).1.flatMap Condition.placeholders
        = List.range' (start + 1) (identifiersOfEach e ps).length
  | _, [] => ⟨rfl, rfl⟩
  | start, p :: ps => by
    obtain ⟨hids, hnumbers⟩ := condition_numbered e start p
    obtain ⟨hmore, hothers⟩ :=
      conditions_numbered e (start + (p.condition e start).2.length) ps
    simp only [conditions, identifiersOfEach]
    refine ⟨?_, ?_⟩
    · rw [hids] at hmore ⊢
      rw [hmore]
    · rw [List.flatMap_cons, Condition.placeholders_group, hnumbers, hothers,
        hids, count_append, List.length_append]

end

/-- The text of a predicate counts on for the identifiers that are pushed for
it. -/
theorem toSql_countsOn (p : Predicate) (e : Entity) (before : List Json) :
    (p.toSql e before).2 = before ++ (p.identifiers e).map Json.uuid
      ∧ CountsOn (p.toSql e before).1 before
        ((p.identifiers e).map Json.uuid) := by
  obtain ⟨hids, hnumbers⟩ := condition_numbered e before.length p
  refine ⟨congrArg (fun ids : List Uuid => before ++ ids.map Json.uuid) hids,
    countsOn_of_placeholders ?_⟩
  show placeholdersOf? (p.condition e before.length).1.text = _
  rw [Condition.placeholdersOf?_text (legible_condition e before.length p),
    hnumbers, List.length_map]

end Predicate

-- ============================================================ filters

/-- The text of a where-object counts on for its operands. -/
theorem Filter.Where.Renders.countsOn {f : Formula} {start : Nat}
    {fragment : Where.Fragment}
    (h : Where.Renders f start fragment) {before : List Json}
    (hstart : before.length = start) :
    CountsOn fragment.1.text before fragment.2 := by
  refine countsOn_of_placeholders ?_
  rw [hstart, Condition.placeholdersOf?_text h.legible, h.placeholders]

namespace Filter

theorem placeholdersIn_projectionTokens (filter : Filter) :
    placeholdersIn filter.projectionTokens = [] := by
  unfold projectionTokens
  split
  · rfl
  · rw [placeholdersIn_intercalate rfl, List.flatMap_map]
    simp

theorem placeholdersIn_orderTokens (filter : Filter) :
    placeholdersIn filter.orderTokens = [] := by
  unfold orderTokens
  split
  · rfl
  · rw [placeholdersIn_append, placeholdersIn_intercalate rfl,
      List.flatMap_map]
    simp [SortKey.tokens]

theorem placeholdersIn_intTokens (z : Int) :
    placeholdersIn (intTokens z) = [] := by
  cases z <;> rfl

theorem placeholdersIn_limitTokens (filter : Filter) :
    placeholdersIn filter.limitTokens = [] := by
  unfold limitTokens
  split <;> simp [placeholdersIn_intTokens]

end Filter

-- ========================================================= statements

namespace ScopedQuery

/-- A query as it can be made: without a filter, or with an accepted one. -/
def IsMade (q : ScopedQuery) : Prop :=
  q = unfiltered q.entity q.scope ∨ ∃ cap data,
    withFilter cap q.entity q.scope data = .ok q

theorem IsMade.checked {q : ScopedQuery} (h : q.IsMade) :
    q.filter.Checked := by
  rcases h with h | ⟨cap, data, h⟩
  · rw [h]
    exact ⟨by simp [unfiltered, Filter.empty],
      by simp [unfiltered, Filter.empty]⟩
  · obtain ⟨filter, hfilter, h⟩ := bind_eq_ok.1 h
    have hq : q.filter = filter :=
      (congrArg ScopedQuery.filter (Except.ok.inj h)).symm
    rw [hq]
    exact checked_ofData (refuse_eq_ok.1 hfilter)

/-- The parameters of a statement: the scope's, then the client's, then the
identifier that is looked up. -/
def parameters (q : ScopedQuery) (id : Option Uuid) : List Json :=
  (q.scope.identifiers q.entity).map Json.uuid
    ++ (Where.formula (q.filter.condition.getD .null)).operands
    ++ id.toList.map Json.uuid

/-- The placeholders of a statement's condition count its parameters. -/
theorem condition_numbered {q : ScopedQuery} {id : Option Uuid} {c : Condition}
    {params : List Json} (h : q.condition id = .ok (c, params)) :
    params = q.parameters id
      ∧ c.placeholders = List.range' 1 params.length := by
  obtain ⟨fragment, hfragment, hparams, rfl⟩ := condition_ok h
  obtain ⟨hids, hscope⟩ := Predicate.condition_numbered q.entity 0 q.scope
  rw [hids] at hfragment hparams
  have hclient := whereFragment_ok hfragment
  have hlength :
      params.length = (q.scope.identifiers q.entity).length + fragment.2.length
      + id.toList.length := by
    simp [hparams, Nat.add_assoc]
  have hlookup :
      (lookup q.entity params.length id).flatMap Condition.placeholders
      = List.range'
        ((q.scope.identifiers q.entity).length + fragment.2.length + 1)
          id.toList.length := by
    rw [hlength]
    cases id <;> simp [lookup]
  refine ⟨?_, ?_⟩
  · rw [hparams, hclient.operands]
    rfl
  · -- Each part starts counting where the parameters before it end.
    have hboth : List.range' 1 (q.scope.identifiers q.entity).length
        ++ List.range' ((q.scope.identifiers q.entity).length + 1)
          fragment.2.length
        = List.range' 1
          ((q.scope.identifiers q.entity).length + fragment.2.length) := by
      simpa only [Nat.zero_add] using
        count_append 0 (q.scope.identifiers q.entity).length fragment.2.length
    have hthree :=
      count_append 0
        ((q.scope.identifiers q.entity).length + fragment.2.length)
        id.toList.length
    rw [Nat.zero_add, Nat.zero_add, ← hlength] at hthree
    rw [Condition.placeholders_all, List.flatMap_cons, List.flatMap_cons,
      Condition.placeholders_group, Condition.placeholders_group, hscope,
      hclient.placeholders, hlookup, ← List.append_assoc, Nat.zero_add, hboth,
      hthree]

theorem placeholdersIn_statementTokens {projection tail : List Token}
    (table : String)
    (c : Condition) (hprojection : placeholdersIn projection = [])
    (htail : placeholdersIn tail = []) :
    placeholdersIn (statementTokens projection table c tail)
      = c.placeholders := by
  simp [statementTokens, hprojection, htail, Condition.placeholders]

/-- The text of a statement counts its parameters. -/
theorem countsOn_of_spells {q : ScopedQuery} {id : Option Uuid} {c : Condition}
    {text : String}
    {params : List Json} {projection tail : List Token}
    (hc : q.condition id = .ok (c, params))
    (htext : Spells text (statementTokens projection q.entity.table c tail))
    (hprojection : placeholdersIn projection = [])
    (htail : placeholdersIn tail = []) :
    params = q.parameters id ∧ CountsOn text [] params := by
  obtain ⟨hparams, hnumbers⟩ := condition_numbered hc
  refine ⟨hparams, countsOn_of_placeholders ?_⟩
  rw [placeholdersOf?_of_spells htext,
    placeholdersIn_statementTokens _ _ hprojection htail, hnumbers]
  rfl

end ScopedQuery

/-- Placeholders stand for the parameters they are written for. A predicate
only adds parameters, the identifiers it compares with, and its text counts on
for these whatever is there before them; a where-object that is accepted adds
its operands, and its text counts on for these wherever it is told to start. So
each statement of a query, of a page, of one row or of the total, has its
placeholders numbered from one on to the last parameter: first the scope's,
then the client's as they are read in the text, then the identifier that is
looked up. -/
theorem placeholders_stand_for_parameters :
    (∀ (e : Entity) (p : Predicate) (before : List Json),
      (p.toSql e before).2 = before ++ (p.identifiers e).map Json.uuid
        ∧ CountsOn (p.toSql e before).1 before
          ((p.identifiers e).map Json.uuid))
    ∧ (∀ (start : Nat) (v : Json) (fragment : Where.Fragment),
      Where.condition start v = .ok fragment →
        fragment.2 = (Where.formula v).operands
          ∧ ∀ before : List Json, before.length = start →
            CountsOn fragment.1.text before fragment.2)
    ∧ ∀ q : ScopedQuery, q.IsMade → ∀ id text params,
      q.select id = .ok (text, params)
        ∨ id = none ∧ q.count = .ok (text, params) →
        params = q.parameters id ∧ CountsOn text [] params := by
  refine ⟨fun e p before => p.toSql_countsOn e before,
    fun start v fragment h => ?_,
    fun q hq id text params h => ?_⟩
  · have hrenders := Where.condition_renders start v h
    exact ⟨hrenders.operands, fun before hstart => hrenders.countsOn hstart⟩
  · rcases h with h | ⟨rfl, h⟩
    · obtain ⟨c, hc, htext⟩ := ScopedQuery.spells_select hq.checked h
      refine ScopedQuery.countsOn_of_spells hc htext
        q.filter.placeholdersIn_projectionTokens ?_
      rw [placeholdersIn_append, q.filter.placeholdersIn_orderTokens,
        q.filter.placeholdersIn_limitTokens]
      rfl
    · obtain ⟨c, hc, htext⟩ := ScopedQuery.spells_count h
      exact ScopedQuery.countsOn_of_spells hc htext rfl rfl

/-- A table with names like placeholders, ends of names, and clauses. -/
def misnamedEntity : Entity where
  name := "misnamed"
  table := "t$9\" WHERE $8"
  idColumn := "$1"
  organizationColumn := "org\"\""
  ownerColumn := "$2::uuid"
  peers := some ⟨"$3, $4", "row", "user", "org"⟩

/-- A query of it for a user's own rows and those granted to them, under a
filter. -/
def misnamedQuery : ScopedQuery where
  entity := misnamedEntity
  scope := .and [.organizationIs (.ofNat 7),
    .or [.ownerIs (.ofNat 9), .peerGrant (.ofNat 9) (.ofNat 7)]]
  filter :=
    ⟨["id"], some Where.nestedTree, [⟨"id", .descending⟩], some 5, none⟩

/-- Even so the lookup of a row counts seven values: four of the scope, the two
bounds of the client, and the row. -/
theorem misnamedQuery_countsOn :
    misnamedQuery.IsMade ∧ ∃ text params,
      misnamedQuery.select (some (.ofNat 5)) = .ok (text, params)
        ∧ placeholdersOf? text = some [1, 2, 3, 4, 5, 6, 7]
        ∧ params
          = [.uuid (.ofNat 7), .uuid (.ofNat 9), .uuid (.ofNat 9),
            .uuid (.ofNat 7),
          .int 1, .int 2, .uuid (.ofNat 5)] := by
  have hmade : misnamedQuery.IsMade :=
    .inr ⟨some 5,
      ⟨some ["id"], some Where.nestedTree, some (.obj [("id", .str "DESC")]),
        some 50, none⟩,
      rfl⟩
  obtain ⟨hparams, ns, hns, rfl, -⟩ :=
    placeholders_stand_for_parameters.2.2 misnamedQuery hmade
      (some (.ofNat 5)) _ _ (.inl rfl)
  exact ⟨hmade, _, _, rfl, hns, hparams⟩

end Tenancy
