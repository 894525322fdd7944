/-
A client's values never reach the text of a statement. Two filters that
are equal but for plain scalars compared with columns (`FilterData.Alike`)
are refused for the same reason, or make the same text for every page,
every row and the total; only the parameters tell them apart, each
operand being bound at its own place (`operands_stay_out_of_text`).

Of the parts of a filter only the where-object holds values; where it is
set nothing but its outermost form is looked at, so the filters that two
alike clients build are alike again, part by part (`setAll_agree`).
-/
import Tenancy.Proofs.Database.ScopedStatements
import Tenancy.Proofs.Filter.Operands

namespace Tenancy

open Tenancy.Filter Sql

/-- Two clients' filters that differ in operands only. -/
structure FilterData.Alike (data other : FilterData) : Prop where
  select : data.select = other.select
  condition : Option.Rel Where.Alike data.condition other.condition
  order : data.order = other.order
  limit : data.limit = other.limit
  offset : data.offset = other.offset

/-- The operands of a client's filter. -/
def FilterData.operands (data : FilterData) : List Json :=
  Where.boundBy (data.condition.getD .null)

namespace Filter

-- =========================================================== filters

/-- Two filters that differ in operands only. -/
structure Alike (f g : Filter) : Prop where
  columns : f.columns = g.columns
  condition : Option.Rel Where.Alike f.condition g.condition
  order : f.order = g.order
  limit : f.limit = g.limit
  offset : f.offset = g.offset

/-- Two parts that differ in operands only. -/
inductive PartAlike : Part → Part → Prop
  | select (columns : List String) :
      PartAlike (.select columns) (.select columns)
  | condition {v w : Json} (h : Where.Alike v w) :
      PartAlike (.condition v) (.condition w)
  | order (v : Json) : PartAlike (.order v) (.order v)
  | limit (n : Int) : PartAlike (.limit n) (.limit n)
  | offset (n : Int) : PartAlike (.offset n) (.offset n)

/-- The check of a where-object sees its outermost form only. -/
theorem validate_alike {v w : Json} (h : Where.Alike v w) :
    Where.validate v = Where.validate w := by
  unfold Where.Alike at h
  split at h
  · rfl
  · rw [h]

/-- Alike parts are refused alike, or leave alike filters alike. -/
theorem set_agree (cap : Option Int) {f g : Filter} {p q : Part}
    (hfg : f.Alike g) (hpq : PartAlike p q) :
    (∃ e, f.set cap p = .error e ∧ g.set cap q = .error e)
      ∨ ∃ f' g',
        f.set cap p = .ok f' ∧ g.set cap q = .ok g' ∧ f'.Alike g' := by
  cases hpq with
  | select columns =>
    simp only [set]
    cases checkSelect columns with
    | error e => exact .inl ⟨e, rfl, rfl⟩
    | ok _ =>
      exact .inr
        ⟨_, _, rfl, rfl,
          ⟨rfl, hfg.condition, hfg.order, hfg.limit, hfg.offset⟩⟩
  | @condition v w h =>
    simp only [set, validate_alike h]
    cases Where.validate w with
    | error e => exact .inl ⟨e, rfl, rfl⟩
    | ok _ =>
      exact .inr
        ⟨_, _, rfl, rfl,
          ⟨hfg.columns, .some h, hfg.order, hfg.limit, hfg.offset⟩⟩
  | order v =>
    simp only [set]
    cases Order.parse v with
    | error e => exact .inl ⟨e, rfl, rfl⟩
    | ok keys =>
      exact .inr
        ⟨_, _, rfl, rfl,
          ⟨hfg.columns, hfg.condition, rfl, hfg.limit, hfg.offset⟩⟩
  | limit n =>
    simp only [set]
    by_cases hn : n < 0
    · simp only [if_pos hn]
      exact .inl ⟨_, rfl, rfl⟩
    · simp only [if_neg hn]
      exact .inr
        ⟨_, _, rfl, rfl,
          ⟨hfg.columns, hfg.condition, hfg.order, rfl, hfg.offset⟩⟩
  | offset n =>
    simp only [set]
    by_cases hn : n < 0
    · simp only [if_pos hn]
      exact .inl ⟨_, rfl, rfl⟩
    · simp only [if_neg hn]
      exact .inr
        ⟨_, _, rfl, rfl,
          ⟨hfg.columns, hfg.condition, hfg.order, hfg.limit, rfl⟩⟩

theorem setAll_agree (cap : Option Int) {f g : Filter} {ps qs : List Part}
    (hfg : f.Alike g) (hparts : List.Forall₂ PartAlike ps qs) :
    (∃ e, (setAll cap f ps).2 = .error e ∧ (setAll cap g qs).2 = .error e)
      ∨ ∃ f' g',
        setAll cap f ps = (f', .ok ()) ∧ setAll cap g qs = (g', .ok ())
          ∧ f'.Alike g' := by
  induction hparts generalizing f g with
  | nil => exact .inr ⟨f, g, rfl, rfl, hfg⟩
  | cons hfirst _ ih =>
    unfold setAll
    rcases set_agree cap hfg hfirst with ⟨e, hf, hg⟩ | ⟨f', g', hf, hg, hset⟩
    · rw [hf, hg]
      exact .inl ⟨e, rfl, rfl⟩
    · rw [hf, hg]
      exact ih hset

/-- A part that is given or not given, in both filters. -/
theorem forall₂_toList {α : Type} {x y : Option α} {r : α → α → Prop}
    {s : Part → Part → Prop}
    {f : α → Part} (h : Option.Rel r x y)
    (hrel : ∀ a b, r a b → s (f a) (f b)) :
    List.Forall₂ s (x.map f).toList (y.map f).toList := by
  cases h with
  | none => exact .nil
  | some hab => exact .cons (hrel _ _ hab) .nil

theorem parts_alike {data other : FilterData} (h : data.Alike other) :
    List.Forall₂ PartAlike (parts data) (parts other) := by
  have hsame : ∀ {α : Type} (x : Option α), Option.Rel Eq x x := by
    intro α x
    cases x with
    | none => exact .none
    | some a => exact .some rfl
  unfold parts
  rw [← h.select, ← h.order, ← h.limit, ← h.offset]
  refine List.rel_append
    (List.rel_append (List.rel_append (List.rel_append ?_ ?_) ?_) ?_) ?_
  · exact forall₂_toList (hsame _) fun columns _ heq => heq ▸ .select columns
  · exact forall₂_toList h.condition fun _ _ => .condition
  · exact forall₂_toList (hsame _) fun v _ heq => heq ▸ .order v
  · exact forall₂_toList (hsame _) fun n _ heq => heq ▸ .limit n
  · exact forall₂_toList (hsame _) fun n _ heq => heq ▸ .offset n

/-- Filters of alike clients are refused alike or are alike. -/
theorem ofData_agree (cap : Option Int) {data other : FilterData}
    (h : data.Alike other) :
    (∃ e, ofData cap data = .error e ∧ ofData cap other = .error e)
      ∨ ∃ f g,
        ofData cap data = .ok f ∧ ofData cap other = .ok g ∧ f.Alike g := by
  have hempty : empty.Alike empty := ⟨rfl, .none, rfl, rfl, rfl⟩
  have hrefused :
      ∀ {d : FilterData} {e : FilterError},
        (setAll cap empty (parts d)).2 = .error e →
      ofData cap d = .error e := by
    intro d e he
    unfold ofData assign
    cases hset : setAll cap empty (parts d) with
    | mk f result =>
      rw [hset] at he
      cases he
      rfl
  have hgiven :
      ∀ {d : FilterData} {f : Filter},
        setAll cap empty (parts d) = (f, .ok ()) →
      ofData cap d = .ok f := by
    intro d f hf
    unfold ofData assign
    rw [hf]
  rcases setAll_agree cap hempty (parts_alike h) with
    ⟨e, hd, ho⟩ | ⟨f, g, hd, ho, hfg⟩
  · exact .inl ⟨e, hrefused hd, hrefused ho⟩
  · exact .inr ⟨f, g, hgiven hd, hgiven ho, hfg⟩

/-- Conditions of alike filters differ in their operands only. -/
theorem whereFragment_agree {f g : Filter} (h : f.Alike g) (start : Nat) :
    Where.Agree (Where.boundBy (f.condition.getD .null))
      (Where.boundBy (g.condition.getD .null))
      (f.whereFragment start) (g.whereFragment start) := by
  obtain ⟨columns, c, order, limit, offset⟩ := f
  obtain ⟨columns', c', order', limit', offset'⟩ := g
  have hcondition : Option.Rel Where.Alike c c' := h.condition
  unfold whereFragment
  cases hcondition with
  | none =>
    exact Where.condition_agree start .null .null (by simp only [Where.Alike])
  | some hvw => exact Where.condition_agree start _ _ hvw

end Filter

namespace ScopedQuery

-- ======================================================== statements

/-- The statement for a page of rows, or for one row, under a client's
filter. -/
def page (cap : Option Int) (e : Entity) (scope : Predicate)
    (data : FilterData) (id : Option Uuid) :
    Except DatabaseError (String × List Json) := do
  (← withFilter cap e scope data).select id

/-- The statement for the number of rows on all pages. -/
def total (cap : Option Int) (e : Entity) (scope : Predicate)
    (data : FilterData) : Except DatabaseError (String × List Json) := do
  (← withFilter cap e scope data).count

/-- The parameters around a filter's operands: the scope's identifiers before
them, that of a row that is looked up behind. -/
def around (e : Entity) (scope : Predicate) (operands : List Json)
    (id : Option Uuid) : List Json :=
  (scope.condition e 0).2.map Json.uuid ++ operands ++ id.toList.map Json.uuid

/-- Nothing is sent: the filter is refused, when it is built or when its
condition is written. -/
structure Refused (cap : Option Int) (e : Entity) (scope : Predicate)
    (data : FilterData) (refusal : FilterError) : Prop where
  cause : (do
    let filter ← Filter.ofData cap data
    filter.whereFragment (scope.condition e 0).2.length) = .error refusal
  page : ∀ id, page cap e scope data id = .error (.queryError refusal.message)
  total : total cap e scope data = .error (.queryError refusal.message)

section

variable {cap : Option Int} {e : Entity} {scope : Predicate}
  {data : FilterData}

theorem withFilter_of_ok {f : Filter} (h : Filter.ofData cap data = .ok f) :
    withFilter cap e scope data = .ok ⟨e, scope, f⟩ := by
  unfold withFilter
  rw [h]
  rfl

theorem refused_of_ofData {refusal : FilterError}
    (h : Filter.ofData cap data = .error refusal) :
    Refused cap e scope data refusal := by
  have hquery :
      withFilter cap e scope data = .error (.queryError refusal.message) := by
    unfold withFilter
    rw [h]
    rfl
  refine ⟨?_, fun id => ?_, ?_⟩
  · rw [h]
    rfl
  · unfold page
    rw [hquery]
    rfl
  · unfold total
    rw [hquery]
    rfl

theorem refused_of_whereFragment {f : Filter} {refusal : FilterError}
    (hf : Filter.ofData cap data = .ok f)
    (h : f.whereFragment (scope.condition e 0).2.length = .error refusal) :
    Refused cap e scope data refusal := by
  have hcondition := fun id => condition_of_error (q := ⟨e, scope, f⟩) h id
  refine ⟨?_, fun id => ?_, ?_⟩
  · rw [hf]
    exact h
  · unfold page
    rw [withFilter_of_ok hf]
    show select _ id = _
    unfold select
    rw [hcondition id]
    rfl
  · unfold total
    rw [withFilter_of_ok hf]
    show count _ = _
    unfold count
    rw [hcondition none]
    rfl

end

/-- One condition over operands of one number is one condition in
statements. -/
theorem condition_same {e : Entity} {scope : Predicate} {f g : Filter}
    {c : Condition}
    {xs ys : List Json}
    (hf : f.whereFragment (scope.condition e 0).2.length = .ok (c, xs))
    (hg : g.whereFragment (scope.condition e 0).2.length = .ok (c, ys))
    (hlength : xs.length = ys.length) (id : Option Uuid) :
    ∃ whole, condition ⟨e, scope, f⟩ id = .ok (whole, around e scope xs id)
      ∧ condition ⟨e, scope, g⟩ id = .ok (whole, around e scope ys id) := by
  obtain ⟨whole, params, hwhole⟩ := condition_of_ok (q := ⟨e, scope, f⟩) hf id
  obtain ⟨other, params', hother⟩ := condition_of_ok (q := ⟨e, scope, g⟩) hg id
  obtain ⟨fragment, hfragment, hparams, htext⟩ := condition_ok hwhole
  obtain ⟨fragment', hfragment', hparams', htext'⟩ := condition_ok hother
  cases hf.symm.trans hfragment
  cases hg.symm.trans hfragment'
  have hsame : whole = other := by
    rw [htext, htext', hparams, hparams']
    simp [hlength]
  refine ⟨whole, ?_, ?_⟩
  · rw [hwhole, hparams]
    rfl
  · rw [hother, hparams', hsame]
    rfl

theorem select_of_condition {q : ScopedQuery} {id : Option Uuid}
    {c : Condition}
    {params : List Json} (hc : q.condition id = .ok (c, params)) :
    q.select id = .ok ("SELECT " ++ q.filter.selectClause ++ " FROM "
      ++ Identifier.quote q.entity.table ++ " WHERE " ++ c.text
        ++ tailText q.filter, params) := by
  cases hselect : q.select id with
  | error e =>
    unfold select at hselect
    rw [hc] at hselect
    cases hselect
  | ok statement =>
    obtain ⟨c', hc', htext⟩ := select_ok hselect
    cases hc.symm.trans hc'
    rw [← htext]

theorem count_of_condition {q : ScopedQuery} {c : Condition}
    {params : List Json} (hc : q.condition none = .ok (c, params)) :
    q.count
      = .ok
        ("SELECT COUNT(*) as count FROM " ++ Identifier.quote q.entity.table
          ++ " WHERE " ++ c.text, params) := by
  unfold count
  rw [hc]
  rfl

/-- A client's values stay out of the text. Two filters that differ in
nothing but plain scalars compared with columns are refused for the same
reason, whatever is asked for; or each page, each row and the total have
the same text under both, and parameters of the same number: the scope's
identifiers, the filter's operands as they were given, in the order in
which its tree has them, and the identifier that is looked up. -/
theorem operands_stay_out_of_text {cap : Option Int} {e : Entity}
    {scope : Predicate} {data other : FilterData} (h : data.Alike other) :
    (∃ refusal,
      Refused cap e scope data refusal ∧ Refused cap e scope other refusal)
      ∨ List.Forall₂ Where.Exchanged data.operands other.operands
        ∧ (∀ id, ∃ text,
            page cap e scope data id
              = .ok (text, around e scope data.operands id)
              ∧ page cap e scope other id
                = .ok (text, around e scope other.operands id))
        ∧ ∃ text,
            total cap e scope data
              = .ok (text, around e scope data.operands none)
              ∧ total cap e scope other
                = .ok (text, around e scope other.operands none) := by
  rcases ofData_agree cap h with
    ⟨refusal, hdata, hother⟩ | ⟨f, g, hdata, hother, hfg⟩
  · exact .inl ⟨refusal, refused_of_ofData hdata, refused_of_ofData hother⟩
  · have hfragment := whereFragment_agree hfg (scope.condition e 0).2.length
    rw [condition_ofData hdata, condition_ofData hother] at hfragment
    rcases hfragment with ⟨refusal, hf, hg⟩ | ⟨hoperands, c, hf, hg⟩
    · exact .inl
        ⟨refusal, refused_of_whereFragment hdata hf,
          refused_of_whereFragment hother hg⟩
    · right
      have hsame := condition_same hf hg hoperands.length_eq
      have hselect : selectClause g = selectClause f := by
        unfold selectClause
        rw [hfg.columns]
      have htail : tailText g = tailText f := by
        unfold tailText orderClause limitClause
        rw [hfg.order, hfg.limit, hfg.offset]
      refine ⟨hoperands, fun id => ?_, ?_⟩
      · obtain ⟨whole, hwhole, hwhole'⟩ := hsame id
        have hrow := select_of_condition hwhole'
        rw [hselect, htail] at hrow
        unfold page
        rw [withFilter_of_ok hdata, withFilter_of_ok hother]
        exact ⟨_, select_of_condition hwhole, hrow⟩
      · obtain ⟨whole, hwhole, hwhole'⟩ := hsame none
        unfold total
        rw [withFilter_of_ok hdata, withFilter_of_ok hother]
        exact ⟨_, count_of_condition hwhole, count_of_condition hwhole'⟩

/-- A harmless filter, as a client may send it. -/
def tameFilter : FilterData where
  select := none
  condition :=
    some (.obj [("$or", .arr [
      .obj [("priority", .obj [("$in", .arr [.int 1, .null])])],
      .obj [("status", .str "open")]])])
  order := none
  limit := some 5
  offset := none

/-- The same filter with SQL in the place of a value. -/
def wildFilter : FilterData where
  select := none
  condition :=
    some (.obj [("$or", .arr [
      .obj [("priority", .obj [("$in", .arr [.int 1, .null])])],
      .obj [("status", .str "' OR TRUE --")]])])
  order := none
  limit := some 5
  offset := none

/-- The SQL is a parameter, and the statement the same. -/
theorem wildFilter_same_text :
    tameFilter.Alike wildFilter
      ∧ ∃ text,
        total none .project .always tameFilter
          = .ok (text, [.int 1, .null, .str "open"])
          ∧ total none .project .always wildFilter
            = .ok (text, [.int 1, .null, .str "' OR TRUE --"]) := by
  have halike : tameFilter.Alike wildFilter := by
    refine ⟨rfl, .some ?_, rfl, rfl, rfl⟩
    have hor : Where.Key.of "$or" = .connective .or := rfl
    have hpriority : Where.Key.of "priority" = .column := rfl
    have hstatus : Where.Key.of "status" = .column := rfl
    simp only [Where.Alike, Where.MembersAlike, hor, Where.ConnectedAlike,
      Where.EachAlike, hpriority, hstatus, true_and, and_true]
    refine ⟨.cons ⟨rfl, ?_⟩ .nil, .inr ⟨rfl, rfl⟩⟩
    exact .cons (Where.exchanged_refl _) (.cons (Where.exchanged_refl _) .nil)
  refine ⟨halike, ?_⟩
  rcases @operands_stay_out_of_text none .project .always _ _ halike with
    ⟨_, hrefused, -⟩ | ⟨-, -, htotal⟩
  · exact absurd hrefused.total nofun
  · exact htotal

end ScopedQuery

end Tenancy
