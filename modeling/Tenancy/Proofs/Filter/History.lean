/-
A filter and its history. On a new filter, parts are set and assigned in
any order, again and again, and some of them are refused (`after`). What
the filter holds behind such steps is told from the parts that were taken
alone: of each kind, the last one (`Remembers`).

A part is taken or refused whatever the filter holds (`set_of_acceptable`,
`set_of_not_acceptable`), so which parts of a history were taken can be
said without running it (`partsTaken`): a part that is set alone, if it is
acceptable, and of parts that are assigned together those before the
first that is not. One part replaces one part of the filter and leaves
the others (`Replaced`), which is the step of the induction.

Only acceptable parts get into a filter, so its clauses are always made
of valid names, and its condition is an object if it is anything
(`WellWritten`).
-/
import Tenancy.Proofs.Filter.Pagination
import Tenancy.Proofs.Filter.Spelling

namespace Tenancy.Filter

open Sql

-- ========================================================== vocabulary

/-- A step on a filter: a part is set, or parts are assigned together. -/
inductive Step where
  | set (part : Part)
  | assign (data : FilterData)

/-- The filter that a step leaves, and what it answers. -/
def takeStep (cap : Option Int) (filter : Filter) :
    Step → Filter × Except FilterError Unit
  | .set part =>
    match filter.set cap part with
    | .ok filter => (filter, .ok ())
    | .error e => (filter, .error e)
  | .assign data => filter.assign cap data

/-- A filter behind steps. -/
def takeSteps (cap : Option Int) (filter : Filter) (steps : List Step) :
    Filter :=
  steps.foldl (fun filter step => (filter.takeStep cap step).1) filter

/-- A new filter behind steps. -/
def after (cap : Option Int) (steps : List Step) : Filter :=
  takeSteps cap empty steps

/-- What is demanded of a part. -/
def Part.Acceptable : Part → Prop
  | .select columns => ∀ c ∈ columns, c = "*" ∨ Identifier.isValid c = true
  | .condition value => value.isNull = true ∨ value.obj?.isSome = true
  | .order value => (Order.parse value).isOk = true
  | .limit n => 0 ≤ n
  | .offset n => 0 ≤ n

instance (part : Part) : Decidable part.Acceptable :=
  match part with
  | .select columns =>
    inferInstanceAs
      (Decidable (∀ c ∈ columns, c = "*" ∨ Identifier.isValid c = true))
  | .condition value =>
    inferInstanceAs
      (Decidable (value.isNull = true ∨ value.obj?.isSome = true))
  | .order value =>
    inferInstanceAs (Decidable ((Order.parse value).isOk = true))
  | .limit n => inferInstanceAs (Decidable (0 ≤ n))
  | .offset n => inferInstanceAs (Decidable (0 ≤ n))

/-- A filter with one part replaced by what it was set to, and no other. -/
def Replaced (cap : Option Int) (filter : Filter) : Part → Filter → Prop
  | .select columns, filter' => filter' = { filter with columns := columns }
  | .condition value, filter' =>
    filter' = { filter with condition := some value }
  | .order value, filter' =>
    ∃ keys,
      Order.parse value = .ok keys ∧ filter' = { filter with order := keys }
  | .limit n, filter' =>
    ∃ l, Stands cap n l ∧ filter' = { filter with limit := some l }
  | .offset n, filter' => filter' = { filter with offset := some n }

/-- The parts that are given, in the order in which they are to be set. -/
def present (data : FilterData) : List Part :=
  [data.select.map Part.select, data.condition.map Part.condition,
    data.order.map Part.order,
    data.limit.map Part.limit, data.offset.map Part.offset].reduceOption

/-- What a step does. A part that is set replaces what was there, or nothing
is changed. Parts that are assigned do what they do one after the other, up
to the first that is refused; its error is the answer. -/
def Obeys (cap : Option Int) (filter : Filter) : Step → Prop
  | .set part =>
    (part.Acceptable ∧ ∃ filter', Replaced cap filter part filter'
        ∧ filter.takeStep cap (.set part) = (filter', .ok ()))
      ∨ (¬part.Acceptable ∧ ∃ e,
        filter.takeStep cap (.set part) = (filter, .error e))
  | .assign data =>
    ((∀ part ∈ present data, part.Acceptable)
        ∧ filter.takeStep cap (.assign data)
          = (filter.takeSteps cap ((present data).map .set), .ok ()))
      ∨ ∃ before part behind e, present data = before ++ part :: behind
        ∧ (∀ p ∈ before, p.Acceptable) ∧ ¬part.Acceptable
        ∧ ((filter.takeSteps cap (before.map .set)).takeStep cap (.set part)).2
          = .error e
        ∧ filter.takeStep cap (.assign data)
          = (filter.takeSteps cap (before.map .set), .error e)

-- =========================================================== memory

/-- The parts of a step, in the order in which they are set. -/
def Step.parts : Step → List Part
  | .set part => [part]
  | .assign data => present data

/-- The parts that steps have set: those of each before the first refused
one. -/
def partsTaken (steps : List Step) : List Part :=
  steps.flatMap fun step => step.parts.takeWhile fun part => part.Acceptable

/-- The last of some parts that is of a kind. -/
def lastOf {α : Type} (kind : Part → Option α) (parts : List Part) :
    Option α :=
  parts.reverse.findSome? kind

/-- The columns that a part sets. -/
def Part.columns? : Part → Option (List String)
  | .select columns => some columns
  | _ => none

/-- The condition that a part sets. -/
def Part.condition? : Part → Option Json
  | .condition value => some value
  | _ => none

/-- The order that a part sets. -/
def Part.order? : Part → Option Json
  | .order value => some value
  | _ => none

/-- The limit that a part sets. -/
def Part.limit? : Part → Option Int
  | .limit n => some n
  | _ => none

/-- The offset that a part sets. -/
def Part.offset? : Part → Option Int
  | .offset n => some n
  | _ => none

/-- What some parts come to: of each kind the last one. -/
def latest (parts : List Part) : FilterData where
  select := lastOf Part.columns? parts
  condition := lastOf Part.condition? parts
  order := lastOf Part.order? parts
  limit := lastOf Part.limit? parts
  offset := lastOf Part.offset? parts

/-- A filter holds what was given, and nothing where nothing was. -/
structure Remembers (cap : Option Int) (given : FilterData) (filter : Filter) :
    Prop where
  columns : filter.columns = given.select.getD []
  condition : filter.condition = given.condition
  order : match given.order with
    | some value => Order.parse value = .ok filter.order
    | none => filter.order = []
  limit : match given.limit with
    | some n => ∃ l, Stands cap n l ∧ filter.limit = some l
    | none => filter.limit = none
  offset : filter.offset = given.offset

/-- The projection of columns: everything, if there are none or the star is
among them, and else their names, which are valid, in quotes between commas. -/
inductive ProjectionOf (columns : List String) : String → Prop where
  | everything (all : columns = [] ∨ "*" ∈ columns) :
      ProjectionOf columns "*"
  | named (some : columns ≠ [])
      (valid : ∀ name ∈ columns, Identifier.isValid name = true) :
      ProjectionOf columns
        (", ".intercalate (columns.map fun name => "\"" ++ name ++ "\""))

/-- What is written of a filter is written of its own columns and sort keys,
and made of valid names only. -/
structure WellWritten (filter : Filter) : Prop where
  projection : ProjectionOf filter.columns filter.selectClause
  keys : ∀ key ∈ filter.order, Identifier.isValid key.column = true
  order : Order.ClauseOf filter.order filter.orderClause
  condition : ∀ value, filter.condition = some value →
    value = .null ∨ ∃ members, value = .obj members

/-- Each clause of two filters is the same if what was given for it is. -/
structure FollowGiven (given given' : FilterData) (filter filter' : Filter) :
    Prop where
  projection :
    given.select = given'.select → filter.selectClause = filter'.selectClause
  condition : given.condition = given'.condition →
    ∀ start, filter.whereFragment start = filter'.whereFragment start
  order : given.order = given'.order → filter.orderClause = filter'.orderClause
  pagination : given.limit = given'.limit → given.offset = given'.offset →
    filter.limitClause = filter'.limitClause

variable {cap : Option Int} {filter filter' : Filter} {part : Part}
  {taken : List Part} {given given' : FilterData}

-- ============================================================ one part

/-- Columns are accepted if every one is a star or a valid name. -/
theorem checkSelect_of_forall {columns : List String}
    (h : ∀ c ∈ columns, c = "*" ∨ Identifier.isValid c = true) :
    checkSelect columns = .ok () := by
  induction columns with
  | nil => rfl
  | cons column rest ih =>
    obtain ⟨hcolumn, hrest⟩ := List.forall_mem_cons.1 h
    unfold checkSelect
    by_cases hstar : column = "*"
    · rw [if_neg (not_not_intro hstar)]
      exact ih hrest
    · rw [if_pos hstar, checkColumn, if_pos (hcolumn.resolve_left hstar)]
      exact ih hrest

/-- A condition is accepted if it is null or an object. -/
theorem validate_iff (value : Json) :
    Where.validate value = .ok ()
      ↔ value.isNull = true ∨ value.obj?.isSome = true := by
  cases value <;> simp [Where.validate, Json.isNull, Json.obj?]

/-- An acceptable part is taken by every filter, and replaces what was
there. -/
theorem set_of_acceptable (h : part.Acceptable) (cap : Option Int)
    (filter : Filter) :
    ∃ filter',
      filter.set cap part = .ok filter'
        ∧ Replaced cap filter part filter' := by
  cases part with
  | select columns =>
    refine ⟨_, ?_, rfl⟩
    rw [Filter.set, checkSelect_of_forall h]
    rfl
  | condition value =>
    refine ⟨_, ?_, rfl⟩
    rw [Filter.set, (validate_iff value).2 h]
    rfl
  | order value =>
    have hok : (Order.parse value).isOk = true := h
    rw [Filter.set]
    cases hparse : Order.parse value with
    | error e =>
      rw [hparse] at hok
      cases hok
    | ok keys => exact ⟨_, rfl, keys, hparse, rfl⟩
  | limit n => exact ⟨_, set_limit h, capped cap n, stands_capped cap n, rfl⟩
  | offset n => exact ⟨_, set_offset h, rfl⟩

/-- Any other part is refused by every filter for the same reason. -/
theorem set_of_not_acceptable (h : ¬part.Acceptable) :
    ∃ e, ∀ cap filter, Filter.set cap filter part = .error e := by
  cases part with
  | select columns =>
    cases hcheck : checkSelect columns with
    | ok => exact absurd (checkSelect_ok hcheck) h
    | error e =>
      refine ⟨e, fun cap filter => ?_⟩
      rw [Filter.set, hcheck]
      rfl
  | condition value =>
    cases hcheck : Where.validate value with
    | ok => exact absurd ((validate_iff value).1 hcheck) h
    | error e =>
      refine ⟨e, fun cap filter => ?_⟩
      rw [Filter.set, hcheck]
      rfl
  | order value =>
    cases hparse : Order.parse value with
    | ok keys => exact absurd (congrArg Except.isOk hparse) h
    | error e =>
      refine ⟨e, fun cap filter => ?_⟩
      rw [Filter.set, hparse]
      rfl
  | limit n => exact ⟨_, fun _ _ => set_limit_of_neg (Int.not_le.1 h)⟩
  | offset n => exact ⟨_, fun _ _ => set_offset_of_neg (Int.not_le.1 h)⟩

-- ============================================================= steps

/-- A part that is accepted is set. -/
theorem takeStep_set_of_ok (h : filter.set cap part = .ok filter') :
    filter.takeStep cap (.set part) = (filter', .ok ()) := by
  rw [takeStep, h]

/-- A part that is refused leaves the filter as it was. -/
theorem takeStep_set_of_error {e : FilterError}
    (h : filter.set cap part = .error e) :
    filter.takeStep cap (.set part) = (filter, .error e) := by
  rw [takeStep, h]

/-- The data are assigned part by part, those that are there. -/
theorem parts_eq_present (data : FilterData) : parts data = present data := by
  obtain ⟨select, condition, order, limit, offset⟩ := data
  cases select <;> cases condition <;> cases order <;> cases limit
    <;> cases offset <;> rfl

/-- A part that is set alone is the only one of its step. -/
theorem takeStep_eq_setAll (cap : Option Int) (filter : Filter) (step : Step) :
    filter.takeStep cap step = filter.setAll cap step.parts := by
  cases step with
  | set part =>
    rw [takeStep]
    show _ = filter.setAll cap [part]
    rw [setAll]
    cases filter.set cap part <;> rfl
  | assign data =>
    show filter.setAll cap (parts data) = filter.setAll cap (present data)
    rw [parts_eq_present]

/-- Acceptable parts are set one after the other, before any others. -/
theorem setAll_append (cap : Option Int) (filter : Filter)
    {accepted : List Part}
    (h : ∀ p ∈ accepted, p.Acceptable) (others : List Part) :
    filter.setAll cap (accepted ++ others)
      = (filter.takeSteps cap (accepted.map .set)).setAll cap others := by
  induction accepted generalizing filter with
  | nil => rfl
  | cons part rest ih =>
    obtain ⟨hpart, hrest⟩ := List.forall_mem_cons.1 h
    obtain ⟨next, hset, -⟩ := set_of_acceptable hpart cap filter
    show (match filter.set cap part with
      | .ok filter => filter.setAll cap (rest ++ others)
      | .error e => (filter, .error e))
      = (takeSteps cap (filter.takeStep cap (.set part)).1
        (rest.map .set)).setAll cap others
    rw [hset, takeStep_set_of_ok hset]
    exact ih next hrest

/-- All of some parts are acceptable, or there is a first that is not. -/
theorem all_or_first_not (parts : List Part) :
    (∀ p ∈ parts, p.Acceptable)
      ∨ ∃ before part behind, parts = before ++ part :: behind
        ∧ (∀ p ∈ before, p.Acceptable) ∧ ¬part.Acceptable := by
  induction parts with
  | nil => exact .inl nofun
  | cons first rest ih =>
    by_cases hfirst : first.Acceptable
    · rcases ih with hall | ⟨before, part, behind, rfl, hbefore, hpart⟩
      · exact .inl (List.forall_mem_cons.2 ⟨hfirst, hall⟩)
      · exact .inr ⟨first :: before, part, behind, rfl,
          List.forall_mem_cons.2 ⟨hfirst, hbefore⟩, hpart⟩
    · exact .inr ⟨[], first, rest, rfl, nofun, hfirst⟩

/-- Every step does what is said of steps. -/
theorem obeys (cap : Option Int) (filter : Filter) (step : Step) :
    Obeys cap filter step := by
  cases step with
  | set part =>
    by_cases hpart : part.Acceptable
    · obtain ⟨next, hset, hreplaced⟩ := set_of_acceptable hpart cap filter
      exact .inl ⟨hpart, next, hreplaced, takeStep_set_of_ok hset⟩
    · obtain ⟨e, hset⟩ := set_of_not_acceptable hpart
      exact .inr ⟨hpart, e, takeStep_set_of_error (hset cap filter)⟩
  | assign data =>
    rcases all_or_first_not
      (present data) with hall | ⟨before, part, behind, hsplit, hbefore, hpart⟩
    · refine .inl ⟨hall, ?_⟩
      rw [takeStep_eq_setAll]
      show filter.setAll cap (present data) = _
      rw [← List.append_nil (present data), setAll_append cap filter hall,
        List.append_nil]
      rfl
    · obtain ⟨e, hset⟩ := set_of_not_acceptable hpart
      refine .inr ⟨before, part, behind, e, hsplit, hbefore, hpart, ?_, ?_⟩
      · rw [takeStep_set_of_error (hset cap _)]
      · rw [takeStep_eq_setAll]
        show filter.setAll cap (present data) = _
        rw [hsplit, setAll_append cap filter hbefore, setAll, hset]

-- ============================================================ memory

/-- The last part of a kind is the newest one, if that is of the kind. -/
theorem lastOf_concat {α : Type} (kind : Part → Option α) (taken : List Part)
    (part : Part) :
    lastOf kind (taken ++ [part]) = (kind part).or (lastOf kind taken) := by
  rw [lastOf, List.reverse_append, List.reverse_singleton,
    List.singleton_append, List.findSome?_cons]
  cases kind part <;> rfl

/-- What was given, with one part given anew. -/
def Part.over (given : FilterData) : Part → FilterData
  | .select columns => { given with select := some columns }
  | .condition value => { given with condition := some value }
  | .order value => { given with order := some value }
  | .limit n => { given with limit := some n }
  | .offset n => { given with offset := some n }

/-- A newer part takes the place of those of its kind. -/
theorem latest_concat (taken : List Part) (part : Part) :
    latest (taken ++ [part]) = part.over (latest taken) := by
  simp only [latest, lastOf_concat]
  cases part <;> rfl

/-- A part that replaces what was there is remembered with what was given
before. -/
theorem Remembers.replaced (h : Remembers cap given filter)
    (hpart : Replaced cap filter part filter') :
    Remembers cap (part.over given) filter' := by
  cases part with
  | select columns =>
    cases hpart
    exact { h with columns := rfl }
  | condition value =>
    cases hpart
    exact { h with condition := rfl }
  | order value =>
    obtain ⟨keys, hparse, rfl⟩ := hpart
    exact { h with order := hparse }
  | limit n =>
    obtain ⟨l, hstands, rfl⟩ := hpart
    exact { h with limit := ⟨l, hstands, rfl⟩ }
  | offset n =>
    cases hpart
    exact { h with offset := rfl }

/-- Of parts that are set one after the other, those before the first refused
one are remembered. -/
theorem Remembers.setAll (h : Remembers cap (latest taken) filter)
    (parts : List Part) :
    Remembers cap
      (latest (taken ++ parts.takeWhile fun part => part.Acceptable))
      (filter.setAll cap parts).1 := by
  induction parts generalizing filter taken with
  | nil =>
    rw [List.takeWhile_nil, List.append_nil]
    exact h
  | cons part rest ih =>
    by_cases hpart : part.Acceptable
    · obtain ⟨next, hset, hreplaced⟩ := set_of_acceptable hpart cap filter
      have htaken :
          (part :: rest).takeWhile (fun part => decide part.Acceptable)
          = part :: rest.takeWhile fun part => decide part.Acceptable :=
        List.takeWhile_cons_of_pos (by simpa using hpart)
      rw [htaken, List.append_cons, Filter.setAll, hset]
      apply ih
      rw [latest_concat]
      exact h.replaced hreplaced
    · obtain ⟨e, hset⟩ := set_of_not_acceptable hpart
      rw [List.takeWhile_cons_of_neg (by simpa using hpart), List.append_nil,
        Filter.setAll, hset]
      exact h

/-- A filter remembers the last parts that it took, whatever the steps. -/
theorem Remembers.takeSteps (h : Remembers cap (latest taken) filter)
    (steps : List Step) :
    Remembers cap (latest (taken ++ partsTaken steps))
      (filter.takeSteps cap steps) := by
  induction steps generalizing filter taken with
  | nil =>
    rw [partsTaken, List.flatMap_nil, List.append_nil]
    exact h
  | cons step steps ih =>
    rw [partsTaken, List.flatMap_cons, ← List.append_assoc]
    apply ih
    show Remembers cap _ (filter.takeStep cap step).1
    rw [takeStep_eq_setAll]
    exact h.setAll step.parts

/-- A new filter remembers what was given to it, and nothing else. -/
theorem remembers_after (cap : Option Int) (steps : List Step) :
    Remembers cap (latest (partsTaken steps)) (after cap steps) := by
  have hnew : Remembers cap (latest []) empty := ⟨rfl, rfl, rfl, rfl, rfl⟩
  exact hnew.takeSteps steps

-- =========================================================== clauses

/-- And what it stores stays checked. -/
theorem Checked.takeSteps (h : filter.Checked) (steps : List Step) :
    (filter.takeSteps cap steps).Checked := by
  induction steps generalizing filter with
  | nil => exact h
  | cons step steps ih =>
    apply ih
    show (filter.takeStep cap step).1.Checked
    rw [takeStep_eq_setAll]
    exact h.setAll

/-- Only acceptable parts are taken. -/
theorem acceptable_of_mem_partsTaken {steps : List Step}
    (h : part ∈ partsTaken steps) : part.Acceptable := by
  obtain ⟨step, -, hstep⟩ := List.mem_flatMap.1 h
  have hall :=
    List.all_eq_true.1 (List.all_takeWhile (l := step.parts)) part hstep
  exact of_decide_eq_true hall

/-- A part that sets a condition sets nothing else. -/
theorem Part.eq_condition {value : Json} (h : part.condition? = some value) :
    part = .condition value := by
  cases part <;> cases h
  rfl

/-- A condition that is held was given, and so it was acceptable. -/
theorem object_of_condition {steps : List Step} {value : Json}
    (h : (after cap steps).condition = some value) :
    value = .null ∨ ∃ members, value = .obj members := by
  rw [(remembers_after cap steps).condition] at h
  obtain ⟨part, hmem, hpart⟩ := List.exists_of_findSome?_eq_some h
  have hacceptable := acceptable_of_mem_partsTaken (List.mem_reverse.1 hmem)
  rw [Part.eq_condition hpart] at hacceptable
  cases value with
  | null => exact .inl rfl
  | obj members => exact .inr ⟨members, rfl⟩
  | _ => rcases hacceptable with h | h <;> cases h

/-- The projection of a checked filter is its columns, quoted, or a star. -/
theorem projectionOf_selectClause (h : filter.Checked) :
    ProjectionOf filter.columns filter.selectClause := by
  unfold selectClause
  by_cases hall :
      (filter.columns.isEmpty || filter.columns.contains "*") = true
  · rw [if_pos hall]
    rw [Bool.or_eq_true, List.isEmpty_iff, List.contains_iff_mem] at hall
    exact .everything hall
  · rw [if_neg hall]
    rw [Bool.or_eq_true, List.isEmpty_iff, List.contains_iff_mem,
      not_or] at hall
    refine .named hall.1 fun name hname =>
      (h.columns name hname).resolve_left ?_
    rintro rfl
    exact hall.2 hname

/-- Only acceptable parts are taken, so what is written is well written. -/
theorem wellWritten_after (cap : Option Int) (steps : List Step) :
    WellWritten (after cap steps) := by
  have hchecked : (after cap steps).Checked :=
    checked_empty.takeSteps steps
  exact ⟨projectionOf_selectClause hchecked, hchecked.order,
    Order.clauseOf_clause _, fun _ h => object_of_condition h⟩

/-- A limit stands for one number of rows. -/
theorem Stands.unique {l n n' : Int} (h : Stands cap l n)
    (h' : Stands cap l n') : n = n' := by
  by_cases hwithin : ∀ c, cap = some c → l ≤ c
  · rw [h.1 hwithin, h'.1 hwithin]
  · obtain ⟨c, hc⟩ := not_forall.1 hwithin
    obtain ⟨hcap, hlt⟩ := Classical.not_imp.1 hc
    rw [h.2 c hcap (Int.not_le.1 hlt), h'.2 c hcap (Int.not_le.1 hlt)]

/-- What was given for a clause is all that it is written from. -/
theorem Remembers.follow (h : Remembers cap given filter)
    (h' : Remembers cap given' filter') :
    FollowGiven given given' filter filter' where
  projection hgiven := by
    have hsame : filter.columns = filter'.columns := by
      rw [h.columns, h'.columns, hgiven]
    rw [selectClause, selectClause, hsame]
  condition hgiven start := by
    have hsame : filter.condition = filter'.condition := by
      rw [h.condition, h'.condition, hgiven]
    rw [whereFragment, whereFragment, hsame]
  order hgiven := by
    have hsame : filter.order = filter'.order := by
      have hthis := h.order
      have hother := h'.order
      rw [hgiven] at hthis
      cases hlast : given'.order with
      | none =>
        rw [hlast] at hthis hother
        exact hthis.trans hother.symm
      | some value =>
        rw [hlast] at hthis hother
        exact Except.ok.inj (hthis.symm.trans hother)
    rw [orderClause, orderClause, hsame]
  pagination hlimit hoffset := by
    have hsame : filter.limit = filter'.limit := by
      have hthis := h.limit
      have hother := h'.limit
      rw [hlimit] at hthis
      cases hlast : given'.limit with
      | none =>
        rw [hlast] at hthis hother
        exact hthis.trans hother.symm
      | some n =>
        rw [hlast] at hthis hother
        obtain ⟨l, hstands, hl⟩ := hthis
        obtain ⟨l', hstands', hl'⟩ := hother
        rw [hl, hl', hstands.unique hstands']
    have hsame' : filter.offset = filter'.offset := by
      rw [h.offset, h'.offset, hoffset]
    rw [limitClause, limitClause, hsame, hsame']

/-- Behind any steps a filter is what the last parts that it took make of it.
Its next step sets one part and leaves the others, changes nothing, or, for
parts that are assigned, sets them up to the first refused one; its clauses are
made of valid names and its condition is an object or null; and two histories
with the same last part of a kind have the same clause for it. -/
theorem filter_is_its_last_assignments (cap : Option Int) (steps : List Step) :
    (∀ step, Obeys cap (after cap steps) step)
      ∧ Remembers cap (latest (partsTaken steps)) (after cap steps)
      ∧ WellWritten (after cap steps)
      ∧ ∀ others,
        FollowGiven (latest (partsTaken steps)) (latest (partsTaken others))
        (after cap steps) (after cap others) := by
  have hmemory :
      ∀ steps, Remembers cap (latest (partsTaken steps)) (after cap steps) :=
    remembers_after cap
  refine ⟨obeys cap _, hmemory steps, wellWritten_after cap steps, ?_⟩
  intro others
  exact (hmemory steps).follow (hmemory others)

end Tenancy.Filter
