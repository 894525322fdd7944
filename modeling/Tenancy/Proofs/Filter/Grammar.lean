/-
The grammar of where-objects, and that exactly its trees are rendered.
The grammar is written by the keys as a client spells them, without a
word about how they are looked up or in which order: `Tree` is null or an
object of `Member`s, a member is a connective over trees or a column, and
a column is asked a scalar or an object of `OperatorMember`s.

Whether a step of the rendering succeeds never depends on what an earlier
one gave, nor on where the numbering stands. So the steps of one function
are accepted one by one (`accepts_bind`), and the tree is gone through
with the start left open (`accepts_condition`).
-/
import Tenancy.Filter.Basic
import Tenancy.Proofs.Filter.Meaning
import Tenancy.Proofs.Outcome

namespace Tenancy.Filter.Where

open Sql

-- =========================================================== grammar

/-- An operator's key with data that fits it. -/
inductive OperatorMember : String → Json → Prop
  | comparison {key : String} {v : Json}
      (hkey : key
        ∈ ["$eq", "$ne", "$neq", "$gt", "$gte", "$lt", "$lte", "$like",
          "$ilike"])
      (hv : v.isScalar = true) : OperatorMember key v
  | single {key : String} {v : Json} (hkey : key ∈ ["$in", "$nin"])
      (hv : v.isScalar = true) :
    OperatorMember key v
  | list {key : String} {vs : List Json} (hkey : key ∈ ["$in", "$nin"])
      (hvs : ∀ v ∈ vs, v.isScalar = true) : OperatorMember key (.arr vs)
  | between {low high : Json} (hlow : low.isScalar = true)
      (hhigh : high.isScalar = true) :
    OperatorMember "$between" (.arr [low, high])
  | null {isNull : Bool} : OperatorMember "$null" (.bool isNull)

/-- What may be asked of a column. -/
inductive ColumnValue : Json → Prop
  | scalar {v : Json} (h : v.isScalar = true) : ColumnValue v
  | operators {named : Json.Members}
      (h : ∀ m ∈ named, OperatorMember m.1 m.2) :
    ColumnValue (.obj named)

mutual

/-- A condition as a client may give it. -/
inductive Tree : Json → Prop
  | null : Tree .null
  | obj {entries : Json.Members} (h : ∀ m ∈ entries, Member m.1 m.2) :
      Tree (.obj entries)

/-- A member of an object, by its key. -/
inductive Member : String → Json → Prop
  | and {items : List Json} (h : ∀ v ∈ items, Tree v) :
      Member "$and" (.arr items)
  | or {items : List Json} (h : ∀ v ∈ items, Tree v) :
      Member "$or" (.arr items)
  | not {v : Json} (h : Tree v) : Member "$not" v
  | column {name : String} {v : Json} (hkey : name.toList.head? ≠ some '$')
      (hname : Identifier.isValid name = true) (hv : ColumnValue v) :
      Member name v

end

-- ======================================================== acceptance

variable {ε α β : Type}

/-- A result that is no error. -/
def Accepts (x : Except ε α) : Prop := ∃ a, x = .ok a

theorem accepts_ok (a : α) : Accepts (.ok a : Except ε α) := ⟨a, rfl⟩

theorem not_accepts_error (e : ε) : ¬ Accepts (.error e : Except ε α) := nofun

/-- Two steps of which the second is accepted after any or after no result of
the first. -/
theorem accepts_bind {x : Except ε α} {f : α → Except ε β} {p : Prop}
    (h : ∀ a, Accepts (f a) ↔ p) : Accepts (x >>= f) ↔ Accepts x ∧ p := by
  unfold Accepts
  constructor
  · intro ⟨b, hb⟩
    obtain ⟨a, ha, hb⟩ := bind_eq_ok.1 hb
    exact ⟨⟨a, ha⟩, (h a).1 ⟨b, hb⟩⟩
  · intro ⟨⟨a, ha⟩, hp⟩
    obtain ⟨b, hb⟩ := (h a).2 hp
    exact ⟨b, bind_eq_ok.2 ⟨a, ha, hb⟩⟩

/-- What is made of a result does not refuse it. -/
theorem accepts_bind_ok {x : Except ε α} {f : α → β} :
    Accepts (x >>= fun a => .ok (f a)) ↔ Accepts x := by
  rw [accepts_bind (p := True) fun a => iff_true_intro (accepts_ok (f a)),
    and_true]

-- ========================================================= operators

/-- An operand is accepted if it is a scalar. -/
theorem accepts_operand (v : Json) :
    Accepts (operand v) ↔ v.isScalar = true := by
  unfold operand
  by_cases hv : v.isScalar = true
  · rw [if_pos hv]
    exact iff_of_true (accepts_ok v) hv
  · rw [if_neg hv]
    exact iff_of_false (not_accepts_error _) hv

/-- Operands are accepted if all of them are. -/
theorem accepts_operands (vs : List Json) :
    Accepts (operands vs) ↔ ∀ v ∈ vs, v.isScalar = true := by
  induction vs with
  | nil => exact iff_of_true (accepts_ok []) nofun
  | cons v vs ih =>
    rw [List.forall_mem_cons, ← accepts_operand v, ← ih]
    exact accepts_bind fun w => accepts_bind_ok

/-- A comparison asks the same of its operand. -/
theorem accepts_comparison (start : Nat) (column : String) (op : Comparison)
    (v : Json) :
    Accepts (comparison start column op v) ↔ v.isScalar = true := by
  rw [← accepts_operand v]
  exact accepts_bind_ok

/-- A membership asks it of each member of its list. -/
theorem accepts_membership (start : Nat) (column : String) (isIn : Bool)
    (data : Json) :
    Accepts (membership start column isIn data)
      ↔ ∀ v ∈ values data, v.isScalar = true := by
  have hoperands : Accepts (membership start column isIn data)
      ↔ Accepts (operands (values data)) ∧ True := by
    refine accepts_bind fun listed => iff_true_intro ?_
    cases listed with
    | nil => exact accepts_ok _
    | cons v vs => exact accepts_ok _
  rw [hoperands, and_true, accepts_operands]

/-- The data that an operator takes. -/
def Fits : FilterOperator → Json → Prop
  | .in_, data | .notIn, data => ∀ v ∈ values data, v.isScalar = true
  | .between, data =>
    ∃ low high,
      data = .arr [low, high] ∧ low.isScalar = true ∧ high.isScalar = true
  | .null, data => ∃ isNull, data = .bool isNull
  | _, data => data.isScalar = true

/-- Null is a scalar. -/
theorem isScalar_of_isNull {v : Json} (h : v.isNull = true) :
    v.isScalar = true := by
  cases v with
  | null => rfl
  | bool _ | int _ | float _ | str _ | arr _ | obj _ => cases h

/-- Null, which is told apart from the operands of an equality, is one
itself. -/
theorem accepts_equality (start : Nat) (column : String) (op : Comparison)
    (isNull : Bool) (data : Json) :
    Accepts (if data.isNull then .ok (.nullness column isNull, [])
      else comparison start column op data) ↔ data.isScalar = true := by
  by_cases hnull : data.isNull = true
  · rw [if_pos hnull]
    exact iff_of_true (accepts_ok _) (isScalar_of_isNull hnull)
  · rw [if_neg hnull]
    exact accepts_comparison start column op data

/-- Every operator accepts the data that fit it. -/
theorem accepts_test (start : Nat) (column : String) (op : FilterOperator)
    (data : Json) : Accepts (test start column op data) ↔ Fits op data := by
  cases op with
  | eq => exact accepts_equality start column .eq true data
  | ne => exact accepts_equality start column .ne false data
  | gt | gte | lt | lte | like
  | ilike => exact accepts_comparison start column _ data
  | in_ | notIn => exact accepts_membership start column _ data
  | between =>
    unfold test Fits
    dsimp only
    split
    · rename_i low high
      refine (accepts_bind fun _ =>
        accepts_bind_ok.trans (accepts_operand high)).trans ?_
      rw [accepts_operand]
      constructor
      · intro ⟨hlow, hhigh⟩
        exact ⟨low, high, rfl, hlow, hhigh⟩
      · intro ⟨_, _, hdata, hlow, hhigh⟩
        cases hdata
        exact ⟨hlow, hhigh⟩
    · rename_i hother
      exact iff_of_false (not_accepts_error _) fun ⟨low, high, hdata, _⟩ =>
        hother low high hdata
  | null =>
    unfold test Fits
    dsimp only
    split
    · rename_i isNull
      exact iff_of_true (accepts_ok _) ⟨isNull, rfl⟩
    · rename_i hother
      exact iff_of_false (not_accepts_error _) fun ⟨isNull, hdata⟩ =>
        hother isNull hdata

-- =========================================================== columns

/-- An operator has one key, and one has a second. -/
theorem key_of_ofKey? {key : String} {op : FilterOperator}
    (h : FilterOperator.ofKey? key = some op) :
    key = op.key ∨ key = "$neq" ∧ op = .ne := by
  unfold FilterOperator.ofKey? at h
  by_cases hneq : key = "$neq"
  · rw [if_pos hneq] at h
    cases h
    exact .inr ⟨hneq, rfl⟩
  · rw [if_neg hneq] at h
    have hkey := List.find?_some h
    exact .inl (beq_iff_eq.1 hkey).symm

/-- The keys of the grammar are those that are looked up, each with the data of
its operator. -/
theorem operatorMember_iff {key : String} {data : Json} :
    OperatorMember key data
      ↔ ∃ op, FilterOperator.ofKey? key = some op ∧ Fits op data := by
  constructor
  · intro h
    cases h with
    | comparison hkey hv =>
      simp only [List.mem_cons, List.not_mem_nil, or_false] at hkey
      rcases hkey with rfl | rfl | rfl | rfl | rfl | rfl | rfl | rfl | rfl
      · exact ⟨.eq, by decide, hv⟩
      · exact ⟨.ne, by decide, hv⟩
      · exact ⟨.ne, by decide, hv⟩
      · exact ⟨.gt, by decide, hv⟩
      · exact ⟨.gte, by decide, hv⟩
      · exact ⟨.lt, by decide, hv⟩
      · exact ⟨.lte, by decide, hv⟩
      · exact ⟨.like, by decide, hv⟩
      · exact ⟨.ilike, by decide, hv⟩
    | single hkey hv =>
      have hfits : ∀ w ∈ values data, w.isScalar = true := by
        cases data with
        | arr _ | obj _ => cases hv
        | null | bool _ | int _ | float _ | str _ => simpa [values] using hv
      simp only [List.mem_cons, List.not_mem_nil, or_false] at hkey
      rcases hkey with rfl | rfl
      · exact ⟨.in_, by decide, hfits⟩
      · exact ⟨.notIn, by decide, hfits⟩
    | list hkey hvs =>
      simp only [List.mem_cons, List.not_mem_nil, or_false] at hkey
      rcases hkey with rfl | rfl
      · exact ⟨.in_, by decide, hvs⟩
      · exact ⟨.notIn, by decide, hvs⟩
    | between hlow hhigh => exact ⟨.between, by decide, _, _, rfl, hlow, hhigh⟩
    | null => exact ⟨.null, by decide, _, rfl⟩
  · intro h
    obtain ⟨op, hop, hfits⟩ := h
    have hlisted : (∀ v ∈ values data, v.isScalar = true) → ∀ {key : String},
        key ∈ ["$in", "$nin"] → OperatorMember key data := by
      intro hvalues key hkey
      cases data with
      | arr vs => exact .list hkey hvalues
      | null | bool _ | int _ | float _ | str _ | obj _ =>
        exact .single hkey (hvalues _ (by simp [values]))
    rcases key_of_ofKey? hop with rfl | ⟨rfl, rfl⟩
    · cases op with
      | eq | ne | gt | gte | lt | lte | like | ilike =>
        exact .comparison (by simp [FilterOperator.key]) hfits
      | in_ | notIn => exact hlisted hfits (by simp [FilterOperator.key])
      | between =>
        obtain ⟨low, high, rfl, hlow, hhigh⟩ := hfits
        exact .between hlow hhigh
      | null =>
        obtain ⟨isNull, rfl⟩ := hfits
        exact .null
    · exact .comparison (by simp) hfits

/-- Operators on a column are accepted one by one. -/
theorem accepts_tests (start : Nat) (column : String)
    (named : List (FilterOperator × Json)) :
    Accepts (tests start column named) ↔ ∀ m ∈ named, Fits m.1 m.2 := by
  induction named generalizing start with
  | nil => exact iff_of_true (accepts_ok _) nofun
  | cons m named ih =>
    rw [List.forall_mem_cons, ← accepts_test start column m.1 m.2]
    refine accepts_bind fun (c, xs) => ?_
    rw [← ih (start + xs.length)]
    exact accepts_bind_ok

/-- An object's operators are found and fit if they are members by the
grammar. -/
theorem namedTests_fit_iff (named : Json.Members) :
    (∃ found, namedTests named = .ok found ∧ ∀ m ∈ found, Fits m.1 m.2)
      ↔ ∀ m ∈ named, OperatorMember m.1 m.2 := by
  induction named with
  | nil => exact iff_of_true ⟨[], rfl, nofun⟩ nofun
  | cons m named ih =>
    obtain ⟨key, data⟩ := m
    rw [List.forall_mem_cons, ← ih, operatorMember_iff]
    conv =>
      lhs
      rw [namedTests]
    cases hop : FilterOperator.ofKey? key with
    | none =>
      exact iff_of_false (fun ⟨_, h, _⟩ => nomatch h) fun ⟨⟨_, h, _⟩, _⟩ =>
        nomatch h
    | some op =>
      constructor
      · intro ⟨found, hfound, hfits⟩
        obtain ⟨rest, hrest, hfound⟩ := bind_eq_ok.1 hfound
        cases hfound
        rw [List.forall_mem_cons] at hfits
        exact ⟨⟨op, rfl, hfits.1⟩, rest, hrest, hfits.2⟩
      · intro ⟨⟨_, hop', hfirst⟩, rest, hrest, hfits⟩
        cases hop'
        exact ⟨(op, data) :: rest, bind_eq_ok.2 ⟨rest, hrest, rfl⟩,
          List.forall_mem_cons.2 ⟨hfirst, hfits⟩⟩

/-- The operators are all looked up before the first is tested. -/
theorem accepts_namedTests (start : Nat) (column : String)
    (named : Json.Members) :
    Accepts (namedTests named >>= tests start column)
      ↔ ∀ m ∈ named, OperatorMember m.1 m.2 := by
  rw [← namedTests_fit_iff]
  constructor
  · intro ⟨r, hr⟩
    obtain ⟨found, hfound, hr⟩ := bind_eq_ok.1 hr
    exact ⟨found, hfound, (accepts_tests start column found).1 ⟨r, hr⟩⟩
  · intro ⟨found, hfound, hfits⟩
    obtain ⟨r, hr⟩ := (accepts_tests start column found).2 hfits
    exact ⟨r, bind_eq_ok.2 ⟨found, hfound, hr⟩⟩

/-- A value alone is compared for equality. -/
theorem accepts_columnTests (start : Nat) (name : String) (value : Json) :
    Accepts (columnTests value >>= tests start name) ↔ ColumnValue value := by
  cases value with
  | obj named =>
    rw [columnTests, accepts_namedTests]
    constructor
    · exact .operators
    · intro h
      cases h with
      | scalar h => cases h
      | operators h => exact h
  | null | bool _ | int _ | float _ | str _ | arr _ =>
    rw [columnTests]
    · refine (accepts_tests start name _).trans ?_
      rw [List.forall_mem_singleton]
      refine ⟨.scalar, fun h => ?_⟩
      cases h with
      | scalar h => exact h
    · exact nofun

/-- A column is accepted if its name is valid. -/
theorem accepts_checkColumn (name : String) :
    Accepts (checkColumn Identifier.isValid name)
      ↔ Identifier.isValid name = true := by
  unfold checkColumn
  by_cases hname : Identifier.isValid name = true
  · rw [if_pos hname]
    exact iff_of_true (accepts_ok ()) hname
  · rw [if_neg hname]
    exact iff_of_false (not_accepts_error _) hname

/-- What is said of a column is accepted if its value is that of one. -/
theorem accepts_column (start : Nat) (name : String) (value : Json) :
    Accepts (column start name value)
      ↔ Identifier.isValid name = true ∧ ColumnValue value := by
  rw [← accepts_checkColumn, ← accepts_columnTests start name value]
  exact accepts_bind fun _ => .rfl

-- ============================================================== tree

/-- What a member's value has to be, by what its key is. -/
theorem member_iff {key : String} {value : Json} :
    Member key value ↔ match Key.of key with
      | .column => Identifier.isValid key = true ∧ ColumnValue value
      | .connective _ => ∃ items, value = .arr items ∧ ∀ v ∈ items, Tree v
      | .not => Tree value
      | .unknown => False := by
  constructor
  · intro h
    cases h with
    | and h => exact ⟨_, rfl, h⟩
    | or h => exact ⟨_, rfl, h⟩
    | not h => exact h
    | column hkey hname hv =>
      rw [Key.of, if_pos hkey]
      exact ⟨hname, hv⟩
  · intro h
    unfold Key.of at h
    split_ifs at h with hcolumn hand hor hnot
    · exact .column hcolumn h.1 h.2
    · obtain ⟨items, rfl, h⟩ := h
      rw [hand]
      exact .and h
    · obtain ⟨items, rfl, h⟩ := h
      rw [hor]
      exact .or h
    · rw [hnot]
      exact .not h
    · exact h.elim

mutual

/-- A where-tree is accepted, from any start, if it is one by the grammar. -/
theorem accepts_condition : (start : Nat) → (v : Json) →
    (Accepts (condition start v) ↔ Tree v)
  | _, .null => by
    simp only [condition]
    exact iff_of_true (accepts_ok _) .null
  | start, .obj entries => by
    simp only [condition]
    have hmembers : Accepts (members start entries) ↔ Tree (.obj entries) := by
      rw [accepts_members start entries]
      refine ⟨.obj, fun h => ?_⟩
      cases h with
      | obj h => exact h
    exact accepts_bind_ok.trans hmembers
  | _, .bool _ | _, .int _ | _, .float _ | _, .str _ | _, .arr _ => by
    simp only [condition]
    exact iff_of_false (not_accepts_error _) nofun

/-- An object is accepted if its members are. -/
theorem accepts_members : (start : Nat) → (entries : List (String × Json)) →
    (Accepts (members start entries) ↔ ∀ m ∈ entries, Member m.1 m.2)
  | _, [] => by
    simp only [members]
    exact iff_of_true (accepts_ok _) nofun
  | start, (key, value) :: rest => by
    simp only [members]
    rw [List.forall_mem_cons]
    have hrest : ∀ (cs : List Condition) (xs : List Json),
        Accepts
          (members (start + xs.length) rest
            >>= fun r => .ok (cs ++ r.1, xs ++ r.2))
          ↔ ∀ m ∈ rest, Member m.1 m.2 :=
      fun cs xs =>
        accepts_bind_ok.trans (accepts_members (start + xs.length) rest)
    rw [member_iff]
    cases Key.of key with
    | column =>
      rw [← accepts_column start key value]
      exact accepts_bind fun (cs, xs) => hrest cs xs
    | connective op =>
      rw [← accepts_connected op start value]
      exact accepts_bind fun (c, xs) => hrest [c] xs
    | not =>
      rw [← accepts_condition start value]
      exact accepts_bind fun (c, xs) => hrest [.not c] xs
    | unknown => exact iff_of_false (not_accepts_error _) fun h => h.1

/-- A connective accepts a list of trees. -/
theorem accepts_connected (op : Connective) : (start : Nat) → (v : Json) →
    (Accepts (connected op start v)
      ↔ ∃ items, v = .arr items ∧ ∀ w ∈ items, Tree w)
  | start, .arr items => by
    simp only [connected]
    refine (accepts_bind_ok.trans (accepts_conditions start items)).trans ?_
    refine ⟨fun h => ⟨items, rfl, h⟩, fun ⟨_, hitems, h⟩ => ?_⟩
    cases hitems
    exact h
  | _, .null | _, .bool _ | _, .int _ | _, .float _ | _, .str _
  | _, .obj _ => by
    simp only [connected]
    exact iff_of_false (not_accepts_error _) nofun

/-- And the trees of a list are accepted one by one. -/
theorem accepts_conditions : (start : Nat) → (items : List Json) →
    (Accepts (conditions start items) ↔ ∀ v ∈ items, Tree v)
  | _, [] => by
    simp only [conditions]
    exact iff_of_true (accepts_ok _) nofun
  | start, v :: rest => by
    simp only [conditions]
    rw [List.forall_mem_cons, ← accepts_condition start v]
    exact accepts_bind fun (c, xs) =>
      accepts_bind_ok.trans (accepts_conditions (start + xs.length) rest)

end

/-- All that is looked at when a condition is set is whether it is an object or
null. -/
theorem validate_of_tree {v : Json} (h : Tree v) : validate v = .ok () := by
  cases h with
  | null => rfl
  | obj h => rfl

/-- The rendering accepts the trees of the grammar and nothing else, wherever
the numbering of the operands starts; and no filter refuses to be given a
condition that can be rendered. -/
theorem condition_accepts_exactly_trees (start : Nat) (v : Json) :
    ((∃ fragment, condition start v = .ok fragment) ↔ Tree v)
      ∧ ∀ fragment, condition start v = .ok fragment →
        validate v = .ok () ∧ ∀ (cap : Option Int) (filter : Filter),
          filter.set cap (.condition v)
            = .ok { filter with condition := some v } := by
  have htree : Accepts (condition start v) ↔ Tree v :=
    accepts_condition start v
  refine ⟨htree, fun fragment hfragment => ?_⟩
  have hvalid : validate v = .ok () :=
    validate_of_tree (htree.1 ⟨fragment, hfragment⟩)
  refine ⟨hvalid, fun cap filter => ?_⟩
  exact bind_eq_ok.2 ⟨(), hvalid, rfl⟩

/-- A range has two bounds: with both it is rendered, with one it is no
tree. -/
theorem condition_accepts_range_of_two :
    (∃ fragment, condition 2 (.obj [("$not", .obj [("age", .obj
        [("$between", .arr [.int 18, .int 65]), ("$ne", .null)])])])
          = .ok fragment)
      ∧ ¬ Tree
        (.obj
          [("$not",
            .obj [("age", .obj [("$between", .arr [.int 18])])])]) := by
  constructor
  · have hage : Member "age"
        (.obj [("$between", .arr [.int 18, .int 65]), ("$ne", .null)]) := by
      refine .column (by decide) (by decide) (.operators ?_)
      rw [List.forall_mem_cons, List.forall_mem_singleton]
      exact ⟨.between rfl rfl, .comparison (by decide) rfl⟩
    refine (condition_accepts_exactly_trees 2 _).1.2 (.obj ?_)
    rw [List.forall_mem_singleton]
    refine .not (.obj ?_)
    rw [List.forall_mem_singleton]
    exact hage
  · intro h
    obtain ⟨fragment, hfragment⟩ := (condition_accepts_exactly_trees 0 _).1.2 h
    cases hfragment

end Tenancy.Filter.Where
