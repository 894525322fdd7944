/-
What the statements of a scoped query show. Their condition is assembled
from two texts — that of a scope, which the server wrote, and that of a
where-object, which a client wrote — and for a lookup from a third. Read
back as SQL reads it, by precedence and not by who wrote what, it is the
conjunction of the three as they are read alone. So a row is shown only
if the scope admits it, whatever the client's condition is.

The number of a placeholder is part of its text, so the parameters are
looked at together with the conditions: the scope's stand first, the
client's operands behind them, and the identifier of a lookup last
(`condition_ok`).
-/
import Tenancy.Database.ScopedQuery
import Tenancy.Proofs.Filter.Clauses
import Tenancy.Proofs.Filter.Rendering
import Tenancy.Proofs.Scope.Agreement
import Tenancy.Scope.Tenant

namespace Tenancy.ScopedQuery

open Sql Tenancy.Filter

-- ========================================================= condition

theorem refuse_eq_ok {α : Type} {x : Except FilterError α} {a : α} :
    refuse x = .ok a ↔ x = .ok a := by
  cases x with
  | ok b => exact ⟨fun h => by cases h; rfl, fun h => by cases h; rfl⟩
  | error e => exact ⟨nofun, nofun⟩

/-- What is asked of the identifier of a row that is looked up. -/
def lookup (e : Entity) (n : Nat) (id : Option Uuid) : List Condition :=
  id.toList.map fun _ => .identified e.idOf n

/-- The parts of a statement's condition, and its parameters in their order. -/
theorem condition_ok {q : ScopedQuery} {id : Option Uuid} {c : Condition}
    {params : List Json} (h : q.condition id = .ok (c, params)) :
    ∃ fragment,
      q.filter.whereFragment (q.scope.condition q.entity 0).2.length
        = .ok fragment ∧
      params = (q.scope.condition q.entity 0).2.map Json.uuid ++ fragment.2
        ++ id.toList.map Json.uuid ∧
      c = .all (.group (q.scope.condition q.entity 0).1 :: .group fragment.1
        :: lookup q.entity params.length id) := by
  obtain ⟨fragment, hfragment, h⟩ := bind_eq_ok.1 h
  refine ⟨fragment, refuse_eq_ok.1 hfragment, ?_⟩
  cases id with
  | none =>
    cases h
    exact ⟨by simp, rfl⟩
  | some id =>
    cases h
    exact ⟨rfl, by simp [lookup, Nat.add_assoc]⟩

/-- The condition of a statement can be read back. -/
theorem legible_condition {q : ScopedQuery} {id : Option Uuid} {c : Condition}
    {params : List Json}
    (h : q.condition id = .ok (c, params)) : c.Legible := by
  obtain ⟨fragment, hfragment, -, rfl⟩ := condition_ok h
  refine ⟨rfl, Predicate.legible_condition q.entity 0 q.scope, rfl,
    (whereFragment_ok hfragment).legible, ?_⟩
  cases id with
  | none => trivial
  | some id => exact ⟨rfl, trivial, trivial⟩

/-- A row is the one looked up exactly if the last condition says so. -/
theorem selects_lookup {e : Entity} {row : ScopedRow} {grants : List PeerGrant}
    {test : String → ColumnTest → Truth} (before : List Json)
    (id : Option Uuid) : let params := before ++ id.toList.map Json.uuid
    Truth.all ((Condition.meanings (lookup e params.length id)).map
        (e.scene row grants test params).eval) = .yes
      ↔ ∀ i ∈ id, row.id = i := by
  intro params
  cases id with
  | none => simp [lookup, Condition.meanings, Truth.all]
  | some id =>
    have hcarried : Carries params before.length ([id].map Json.uuid) := by
      simpa [params] using carries_between before ([id].map Json.uuid) []
    have hlength : params.length = before.length + 0 + 1 := by simp [params]
    have hid : (e.scene row grants test params).uuid? (.uuid params.length)
        = some id := by
      rw [hlength]
      exact Predicate.uuid?_of_carries 0 hcarried rfl
    have hcompare := Predicate.compare_eq_yes e.table e.idColumn hid
    rw [Predicate.identifier_id] at hcompare
    show ((e.scene row grants test params).eval
        (.compare (.column (some e.table) e.idColumn) .eq
          (.uuid params.length))).and .yes = .yes ↔ _
    rw [Truth.and_yes, hcompare]
    simp

/-- A row is selected exactly if the scope admits it, the client's condition
is true of it, and it is the row looked up. -/
theorem selects_condition {q : ScopedQuery} {id : Option Uuid} {c : Condition}
    {params : List Json}
    (he : q.entity.Unambiguous) (h : q.condition id = .ok (c, params))
    (row : ScopedRow)
    (grants : List PeerGrant) (test : String → ColumnTest → Truth) :
    (q.entity.scene row grants test params).Selects c.meaning ↔
      q.scope.admits q.entity row grants = true
        ∧ Where.truth test (q.filter.condition.getD .null) = .yes ∧ ∀ i ∈ id,
          row.id = i := by
  obtain ⟨fragment, hfragment, hparams, rfl⟩ := condition_ok h
  have hscope :
      Carries params 0 ((q.scope.condition q.entity 0).2.map Json.uuid) := by
    rw [hparams, List.append_assoc]
    exact carries_between [] _ _
  have hclient :
      Carries params (q.scope.condition q.entity 0).2.length fragment.2 := by
    rw [hparams]
    simpa using carries_between
      ((q.scope.condition q.entity 0).2.map Json.uuid) fragment.2
      (id.toList.map Json.uuid)
  have hadmits : (q.entity.scene row grants test params).eval
      (q.scope.condition q.entity 0).1.meaning = .yes
        ↔ q.scope.admits q.entity row grants = true :=
    Predicate.selects_condition he 0 q.scope hscope
  have htruth : (q.entity.scene row grants test params).eval fragment.1.meaning
      = Where.truth test (q.filter.condition.getD .null) := by
    rw [Where.truth_eq_value]
    exact (whereFragment_ok hfragment).eval hclient
  have hlookup :
      Truth.all ((Condition.meanings (lookup q.entity params.length id)).map
        (q.entity.scene row grants test params).eval) = .yes
        ↔ ∀ i ∈ id, row.id = i := by
    rw [hparams]
    exact selects_lookup _ id
  unfold Scene.Selects
  rw [Condition.meaning, Scene.eval_conjoin]
  simp only [Condition.meanings, Condition.meaning, List.map_cons,
    Truth.all_cons, Truth.and_eq_yes]
  rw [hadmits, htruth, hlookup]

-- ======================================================== statements

/-- What stands behind the condition of a statement. -/
def tailText (filter : Filter) : String :=
  (if filter.orderClause = "" then "" else " " ++ filter.orderClause)
    ++ (if filter.limitClause = "" then "" else " " ++ filter.limitClause)

/-- Three clauses and two that may be empty, joined by blanks. -/
theorem join_clauses {a b c : String} (ha : a ≠ "") (hb : b ≠ "") (hc : c ≠ "")
    (d e : String) :
    " ".intercalate ([a, b, c, d, e].filter (· ≠ ""))
      = a ++ " " ++ b ++ " " ++ c ++ (if d = "" then "" else " " ++ d)
        ++ (if e = "" then "" else " " ++ e) := by
  by_cases hd : d = "" <;> by_cases he : e = "" <;>
    simp [ha, hb, hc, hd, he, String.append_assoc]

/-- The statement that selects rows, around its condition. -/
theorem select_ok {q : ScopedQuery} {id : Option Uuid} {text : String}
    {params : List Json} (h : q.select id = .ok (text, params)) :
    ∃ c, q.condition id = .ok (c, params) ∧
      text = "SELECT " ++ q.filter.selectClause ++ " FROM "
        ++ Identifier.quote q.entity.table
        ++ " WHERE " ++ c.text ++ tailText q.filter := by
  obtain ⟨⟨c, params'⟩, hc, h⟩ := bind_eq_ok.1 h
  cases h
  refine ⟨c, hc, ?_⟩
  have hfrom : " FROM " = " " ++ "FROM " := by decide
  have hwhere : " WHERE " = " " ++ "WHERE " := by decide
  rw [join_clauses (by simp) (by simp) (by simp), tailText, hfrom, hwhere]
  simp only [String.append_assoc]

theorem count_ok {q : ScopedQuery} {text : String} {params : List Json}
    (h : q.count = .ok (text, params)) :
    ∃ c, q.condition none = .ok (c, params) ∧
      text = "SELECT COUNT(*) as count FROM "
        ++ Identifier.quote q.entity.table ++ " WHERE "
        ++ c.text := by
  obtain ⟨⟨c, params'⟩, hc, h⟩ := bind_eq_ok.1 h
  cases h
  exact ⟨c, hc, rfl⟩

/-- The statement is over the entity's table, and its condition, as SQL reads
it, is the conjunction of the scope's and the client's, each as it is
read alone, and for a lookup of the identifier bound last. -/
def Conjoins (q : ScopedQuery) (id : Option Uuid) (text : String)
    (params : List Json) : Prop :=
  ∃ fragment scope client projection tail,
    q.filter.whereFragment (q.scope.condition q.entity 0).2.length
      = .ok fragment
      ∧ searchCondition? (q.scope.toSql q.entity []).1 = some scope
      ∧ searchCondition? fragment.1.text = some client
      ∧ selection? text = some ⟨projection, q.entity.table,
          .conjoin (scope :: client
            :: id.toList.map fun _ =>
              .compare q.entity.idOf.operand .eq (.uuid params.length)),
          tail⟩

/-- The statement shows a row: it is over the row's table and its condition is
true of the row, in sight of all grants. -/
def Shows (e : Entity) (text : String) (params : List Json) (row : ScopedRow)
    (grants : List PeerGrant) (test : String → ColumnTest → Truth) : Prop :=
  ∃ s, selection? text = some s ∧ s.table = e.table
    ∧ (e.scene row grants test params).Selects s.condition

/-- The tokens of a statement over a table, around its condition. -/
def statementTokens (projection : List Token) (table : String) (c : Condition)
    (tail : List Token) : List Token :=
  .word "select" :: (projection
    ++ .word "from" :: .quoted table :: .word "where" :: (c.tokens ++ tail))

/-- A statement is spelled as its parts are. -/
theorem spells_statement {table : String} {c : Condition}
    {before after : String} {projection tail : List Token} (hc : c.Legible)
    (hbefore : Spells before (.word "select" :: projection))
    (hafter : after = "" ∧ tail = [] ∨ Parts after ∧ Spells after tail) :
    Spells
      (before ++ " FROM " ++ Identifier.quote table ++ " WHERE " ++ c.text
        ++ after)
      (statementTokens projection table c tail) := by
  have hfrom : Separates " FROM " [.word "from"] := by decide
  have hwhere : Separates " WHERE " [.word "where"] := by decide
  have hhead :=
    ((hbefore.between hfrom (spells_quote table)).between hwhere
      (spells_text c hc))
  unfold statementTokens
  rcases hafter with ⟨rfl, rfl⟩ | ⟨hparts, hafter⟩
  · simpa using hhead
  · simpa using hhead.append hparts hafter

theorem spells_tailText {filter : Filter} (hf : filter.Checked) :
    tailText filter = "" ∧ filter.orderTokens ++ filter.limitTokens = []
      ∨ Parts (tailText filter)
        ∧ Spells (tailText filter)
          (filter.orderTokens ++ filter.limitTokens) := by
  have hgap : Closes " " [] := by decide
  have hblank : ∀ s : String, Parts (" " ++ s) :=
    fun s => Parts.append (by decide) s
  have horder := spells_orderClause hf
  have hlimit := spells_limitClause filter
  unfold tailText
  by_cases ho : filter.orderClause = ""
    <;> by_cases hl : filter.limitClause = ""
  · rw [ho] at horder
    rw [hl] at hlimit
    have hos : filter.orderTokens = [] :=
      Option.some.inj (horder.symm.trans rfl)
    have hls : filter.limitTokens = [] :=
      Option.some.inj (hlimit.symm.trans rfl)
    simp [ho, hl, hos, hls]
  · rw [ho] at horder
    have hos : filter.orderTokens = [] :=
      Option.some.inj (horder.symm.trans rfl)
    right
    simpa [ho, hl, hos] using ⟨hblank _, hgap.append hlimit⟩
  · rw [hl] at hlimit
    have hls : filter.limitTokens = [] :=
      Option.some.inj (hlimit.symm.trans rfl)
    right
    simpa [ho, hl, hls] using ⟨hblank _, hgap.append horder⟩
  · right
    rw [if_neg ho, if_neg hl]
    exact ⟨(hblank _).append _,
      (hgap.append horder).append (hblank _) (hgap.append hlimit)⟩

/-- What is read of a statement whose condition is that of the query. -/
theorem conjoins_of_selection? {q : ScopedQuery} {id : Option Uuid}
    {c : Condition}
    {text : String} {params : List Json} {projection tail : List Token}
    (hc : q.condition id = .ok (c, params))
    (hread : selection? text
      = some ⟨projection, q.entity.table, c.meaning, tail⟩) :
    Conjoins q id text params := by
  obtain ⟨fragment, hfragment, -, rfl⟩ := condition_ok hc
  have hscope : searchCondition? (q.scope.toSql q.entity []).1
      = some (q.scope.condition q.entity 0).1.meaning :=
    searchCondition?_text (Predicate.legible_condition q.entity 0 q.scope)
  have hclient := searchCondition?_text (whereFragment_ok hfragment).legible
  refine ⟨fragment, _, _, projection, tail, hfragment, hscope, hclient, ?_⟩
  rw [hread]
  cases id <;> rfl

theorem shows_iff_of_selection? {q : ScopedQuery} {id : Option Uuid}
    {c : Condition}
    {text : String} {params : List Json} {projection tail : List Token}
    (he : q.entity.Unambiguous) (hc : q.condition id = .ok (c, params))
    (hread : selection? text
      = some ⟨projection, q.entity.table, c.meaning, tail⟩)
    (row : ScopedRow) (grants : List PeerGrant)
    (test : String → ColumnTest → Truth) :
    Shows q.entity text params row grants test ↔
      q.scope.admits q.entity row grants = true
        ∧ Where.truth test (q.filter.condition.getD .null) = .yes ∧ ∀ i ∈ id,
          row.id = i := by
  rw [← selects_condition he hc row grants test]
  constructor
  · rintro ⟨s, hs, -, hselects⟩
    rw [hread] at hs
    cases hs
    exact hselects
  · intro hselects
    exact ⟨_, hread, rfl, hselects⟩

/-- The projection of a total. -/
def countProjection : List Token :=
  [.word "count", .symbol "(", .symbol "*", .symbol ")", .word "as",
    .word "count"]

theorem spells_select {q : ScopedQuery} {id : Option Uuid} {text : String}
    {params : List Json}
    (hf : q.filter.Checked) (h : q.select id = .ok (text, params)) :
    ∃ c, q.condition id = .ok (c, params) ∧
      Spells text (statementTokens q.filter.projectionTokens q.entity.table c
        (q.filter.orderTokens ++ q.filter.limitTokens)) := by
  have hopen : Closes "SELECT " [.word "select"] := by decide
  obtain ⟨c, hc, rfl⟩ := select_ok h
  exact ⟨c, hc,
    spells_statement (legible_condition hc)
    (hopen.append (spells_selectClause hf))
    (spells_tailText hf)⟩

theorem spells_count {q : ScopedQuery} {text : String} {params : List Json}
    (h : q.count = .ok (text, params)) :
    ∃ c, q.condition none = .ok (c, params) ∧
      Spells text (statementTokens countProjection q.entity.table c []) := by
  have hopen : Spells "SELECT COUNT(*) as count"
      (.word "select" :: countProjection) := by
    decide +kernel
  have hsplit : "SELECT COUNT(*) as count FROM "
      = "SELECT COUNT(*) as count" ++ " FROM " := by
    decide
  obtain ⟨c, hc, rfl⟩ := count_ok h
  refine ⟨c, hc, ?_⟩
  rw [hsplit]
  simpa using spells_statement (legible_condition hc) hopen (.inl ⟨rfl, rfl⟩)

theorem selection?_select {q : ScopedQuery} {id : Option Uuid} {text : String}
    {params : List Json}
    (hf : q.filter.Checked) (h : q.select id = .ok (text, params)) :
    ∃ c, q.condition id = .ok (c, params) ∧
      selection? text
        = some ⟨q.filter.projectionTokens, q.entity.table, c.meaning,
        q.filter.orderTokens ++ q.filter.limitTokens⟩ := by
  obtain ⟨c, hc, htext⟩ := spells_select hf h
  exact ⟨c, hc,
    selection?_text htext (ne_from_of_mem_projectionTokens q.filter)
    (legible_condition hc) (isTail_clauses q.filter)⟩

theorem selection?_count {q : ScopedQuery} {text : String} {params : List Json}
    (h : q.count = .ok (text, params)) :
    ∃ c, q.condition none = .ok (c, params) ∧
      selection? text
        = some ⟨countProjection, q.entity.table, c.meaning, []⟩ := by
  obtain ⟨c, hc, htext⟩ := spells_count h
  exact ⟨c, hc, selection?_text htext (by decide) (legible_condition hc) rfl⟩

/-- A query is refused, whatever it asks for, exactly if its filter is. -/
theorem condition_of_error {q : ScopedQuery} {failure : FilterError}
    (h : q.filter.whereFragment (q.scope.condition q.entity 0).2.length
      = .error failure)
    (id : Option Uuid) :
    q.condition id = .error (.queryError failure.message) := by
  unfold condition
  simp only [h, refuse]
  rfl

theorem condition_of_ok {q : ScopedQuery} {fragment : Where.Fragment}
    (h : q.filter.whereFragment (q.scope.condition q.entity 0).2.length
      = .ok fragment)
    (id : Option Uuid) : ∃ c params, q.condition id = .ok (c, params) := by
  unfold condition
  simp only [h, refuse]
  cases id with
  | none => exact ⟨_, _, rfl⟩
  | some id => exact ⟨_, _, rfl⟩

/-- Pages and total are refused alike or stand over one condition. -/
theorem count_select_together (q : ScopedQuery) :
    (∃ failure, q.count = .error failure ∧ ∀ id, q.select id = .error failure)
      ∨ ∃ condition params, (∀ id, ∃ statement, q.select id = .ok statement)
        ∧ q.select none = .ok ("SELECT " ++ q.filter.selectClause ++ " FROM "
            ++ Identifier.quote q.entity.table ++ " WHERE " ++ condition
            ++ tailText q.filter, params)
        ∧ q.count
          = .ok
            ("SELECT COUNT(*) as count FROM "
              ++ Identifier.quote q.entity.table
            ++ " WHERE " ++ condition, params) := by
  have hselect : ∀ {id c params}, q.condition id = .ok (c, params) →
      ∃ text, q.select id = .ok (text, params) := by
    intro id c params hc
    unfold select
    rw [hc]
    exact ⟨_, rfl⟩
  cases hfragment : q.filter.whereFragment
    (q.scope.condition q.entity 0).2.length with
  | error failure =>
    left
    refine ⟨.queryError failure.message, ?_, fun id => ?_⟩
    · unfold count
      rw [condition_of_error hfragment]
      rfl
    · unfold select
      rw [condition_of_error hfragment]
      rfl
  | ok fragment =>
    right
    obtain ⟨c, params, hc⟩ := condition_of_ok hfragment none
    obtain ⟨text, htext⟩ := hselect hc
    refine ⟨c.text, params, fun id => ?_, ?_, ?_⟩
    · obtain ⟨c', params', hc'⟩ := condition_of_ok hfragment id
      obtain ⟨text', htext'⟩ := hselect hc'
      exact ⟨_, htext'⟩
    · obtain ⟨c', hc', rfl⟩ := select_ok htext
      rw [hc] at hc'
      cases hc'
      exact htext
    · unfold count
      rw [hc]
      rfl

/-- A client's filter stays within the scope that it stands under. Whatever
filter is accepted, each statement that is written for it — of a page,
of one row, or of the total — is over the entity's table under the
conjunction of the scope, the client's condition and the lookup, and
shows a row exactly if the scope admits it, the client's condition is
true of it, and it is the row looked up. Pages and total have one and
the same condition and parameters or are refused alike, and only the
where-object enters the total. -/
theorem client_filter_stays_within_scope {cap : Option Int} {e : Entity}
    {scope : Predicate}
    {data : FilterData} {q : ScopedQuery} (he : e.Unambiguous)
    (hq : withFilter cap e scope data = .ok q) :
    (∀ id text params,
      q.select id = .ok (text, params)
        ∨ id = none ∧ q.count = .ok (text, params) →
      Conjoins q id text params ∧
      ∀ row grants test, Shows e text params row grants test ↔
        scope.admits e row grants = true
          ∧ Where.truth test (data.condition.getD .null) = .yes ∧ ∀ i ∈ id,
            row.id = i)
    ∧ ((∃ failure, q.count = .error failure ∧ ∀ id,
      q.select id = .error failure)
      ∨ ∃ condition params, (∀ id, ∃ statement, q.select id = .ok statement)
        ∧ q.select none = .ok ("SELECT " ++ q.filter.selectClause ++ " FROM "
            ++ Identifier.quote e.table ++ " WHERE " ++ condition
              ++ tailText q.filter, params)
        ∧ q.count
          = .ok ("SELECT COUNT(*) as count FROM " ++ Identifier.quote e.table
            ++ " WHERE " ++ condition, params))
    ∧ ∀ cap' data' q', withFilter cap' e scope data' = .ok q' →
        data'.condition = data.condition → q'.count = q.count := by
  obtain ⟨filter, hfilter, hq⟩ := bind_eq_ok.1 hq
  cases hq
  have hdata := refuse_eq_ok.1 hfilter
  have hcondition := condition_ofData hdata
  have hchecked := checked_ofData hdata
  refine ⟨?_, ?_, ?_⟩
  · intro id text params h
    rw [← hcondition]
    rcases h with h | ⟨rfl, h⟩
    · obtain ⟨c, hc, hread⟩ := selection?_select hchecked h
      exact ⟨conjoins_of_selection? hc hread,
        shows_iff_of_selection? he hc hread⟩
    · obtain ⟨c, hc, hread⟩ := selection?_count h
      exact ⟨conjoins_of_selection? hc hread,
        shows_iff_of_selection? he hc hread⟩
  · exact count_select_together _
  · intro cap' data' q' hq' hsame
    obtain ⟨filter', hfilter', hq'⟩ := bind_eq_ok.1 hq'
    cases hq'
    have hcondition' := condition_ofData (refuse_eq_ok.1 hfilter')
    have hwhere : filter'.whereFragment = filter.whereFragment := by
      funext start
      unfold whereFragment
      rw [hcondition', hsame, hcondition]
    unfold count condition
    rw [hwhere]

/-- A filter that is true of every row, with OR at its top. -/
def wideFilter : FilterData where
  select := none
  condition :=
    some (.obj [("$or", .arr [.obj [], .obj [("status", .str "open")]])])
  order := none
  limit := some 5
  offset := none

/-- Even so a caller counts their own and granted rows only. -/
theorem wideFilter_stays_within_scope :
    ∃ q text params,
      withFilter (some 100) .project (TenantScope.personal ⟨7⟩ ⟨9⟩).predicate
        wideFilter = .ok q
        ∧ q.count = .ok (text, params)
        ∧ ∀ row grants test, Shows .project text params row grants test ↔
            (TenantScope.personal ⟨7⟩ ⟨9⟩).admits .project row grants
              = true := by
  refine ⟨_, _, _, rfl, rfl, fun row grants test => ?_⟩
  have htrue : Where.truth test (wideFilter.condition.getD .null) = .yes := by
    show ((Truth.any
        [.yes, (test "status" (.compare .eq (.str "open"))).and .yes]).and
          .yes) = .yes
    simp [Truth.any]
  have hproject : Entity.project ∈ Entity.all := by simp [Entity.all]
  have hshows :=
    (client_filter_stays_within_scope
      (Entity.unambiguous_of_mem_all _ hproject)
      (show withFilter (some 100) .project
        (TenantScope.personal ⟨7⟩ ⟨9⟩).predicate wideFilter
          = .ok _ from rfl)).1 none _ _ (.inr ⟨rfl, rfl⟩)
  rw [hshows.2 row grants test, htrue]
  simp [TenantScope.admits]

end Tenancy.ScopedQuery
