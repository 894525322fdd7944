/-
What a where-object means. The tree is read directly, without SQL: null
and the object without members are true, an object is the conjunction
of its members, a column's operators are asked one by one, and the
connectives are those of three-valued logic.

It is read twice, as a truth value for every outcome of its comparisons
(`truth`) and as the formula that has this value (`formula`), in which
each comparison stands in its place with the values it asks for. The
first is the second evaluated (`truth_eq_value`). Trees that are not
accepted have no meaning; where one has to be given to them it is
unknown.
-/
import Tenancy.Filter.Where
import Tenancy.Proofs.Sql.Formula

namespace Tenancy.Filter.Where

open Sql

-- ============================================================= truth

/-- The values of a membership's list; a scalar is a list of one. -/
def values : Json → List Json
  | .arr values => values
  | v => [v]

section

variable (test : String → ColumnTest → Truth)

/-- The truth of a membership in a list; an empty list has no member. -/
def membershipTruth (column : String) (isIn : Bool) (data : Json) : Truth :=
  let isMember :=
    if (values data).isEmpty then Truth.no
    else test column (.isIn (values data))
  if isIn then isMember else isMember.not

/-- The truth of one operator on a column. -/
def testTruth (column : String) (op : FilterOperator) (data : Json) : Truth :=
  match op with
  | .eq =>
    if data.isNull then test column .isNull
    else test column (.compare .eq data)
  | .ne =>
    if data.isNull then (test column .isNull).not
    else test column (.compare .ne data)
  | .gt => test column (.compare .gt data)
  | .gte => test column (.compare .gte data)
  | .lt => test column (.compare .lt data)
  | .lte => test column (.compare .lte data)
  | .like => test column (.compare .like data)
  | .ilike => test column (.compare .ilike data)
  | .in_ => membershipTruth test column true data
  | .notIn => membershipTruth test column false data
  | .between =>
    match data with
    | .arr [low, high] => test column (.between low high)
    | _ => .unknown
  | .null =>
    match data with
    | .bool isNull =>
      if isNull then test column .isNull else (test column .isNull).not
    | _ => .unknown

/-- The truth of the operators of a column's object. -/
def namedTestsTruth (column : String) (members : Json.Members) : Truth :=
  Truth.all (members.map fun m =>
    match FilterOperator.ofKey? m.1 with
    | some op => testTruth test column op m.2
    | none => .unknown)

/-- The truth of a column's member of a where-object. -/
def columnTruth (column : String) (value : Json) : Truth :=
  match value with
  | .obj members => namedTestsTruth test column members
  | v => testTruth test column .eq v

/-- The truth of a connective over truths. -/
def Connective.truth : Connective → List Truth → Truth
  | .and, ts => Truth.all ts
  | .or, ts => Truth.any ts

mutual

/-- The truth of a where-tree. -/
def truth : Json → Truth
  | .null => .yes
  | .obj entries => membersTruth entries
  | _ => .unknown

/-- The truth of an object's members together. -/
def membersTruth : List (String × Json) → Truth
  | [] => .yes
  | (key, value) :: rest =>
    (match Key.of key with
      | .column => columnTruth test key value
      | .connective op => connectedTruth op value
      | .not => (truth value).not
      | .unknown => .unknown).and (membersTruth rest)

/-- The truth of a connective over a list of trees. -/
def connectedTruth (op : Connective) : Json → Truth
  | .arr items => op.truth (truths items)
  | _ => .unknown

/-- The truths of a list of trees. -/
def truths : List Json → List Truth
  | [] => []
  | v :: rest => truth v :: truths rest

end

end

-- =========================================================== formula

/-- The formula of a membership in a list; an empty list has no member. -/
def membershipFormula (column : String) (isIn : Bool) (data : Json) :
    Formula :=
  let isMember :=
    if (values data).isEmpty then .constant .no
    else .test column (.isIn (values data))
  if isIn then isMember else isMember.not

/-- The formula of one operator on a column. -/
def testFormula (column : String) (op : FilterOperator) (data : Json) :
    Formula :=
  match op with
  | .eq =>
    if data.isNull then .test column .isNull
    else .test column (.compare .eq data)
  | .ne =>
    if data.isNull then .not (.test column .isNull)
    else .test column (.compare .ne data)
  | .gt => .test column (.compare .gt data)
  | .gte => .test column (.compare .gte data)
  | .lt => .test column (.compare .lt data)
  | .lte => .test column (.compare .lte data)
  | .like => .test column (.compare .like data)
  | .ilike => .test column (.compare .ilike data)
  | .in_ => membershipFormula column true data
  | .notIn => membershipFormula column false data
  | .between =>
    match data with
    | .arr [low, high] => .test column (.between low high)
    | _ => .constant .unknown
  | .null =>
    match data with
    | .bool isNull =>
      if isNull then .test column .isNull else .not (.test column .isNull)
    | _ => .constant .unknown

/-- The formula of the operators of a column's object. -/
def namedTestsFormula (column : String) (members : Json.Members) : Formula :=
  Formula.all (members.map fun m =>
    match FilterOperator.ofKey? m.1 with
    | some op => testFormula column op m.2
    | none => .constant .unknown)

/-- The formula of a column's member of a where-object. -/
def columnFormula (column : String) (value : Json) : Formula :=
  match value with
  | .obj members => namedTestsFormula column members
  | v => testFormula column .eq v

/-- The formula of a connective over formulas. -/
def Connective.formula : Connective → List Formula → Formula
  | .and, fs => Formula.all fs
  | .or, fs => Formula.any fs

mutual

/-- The formula of a where-tree. -/
def formula : Json → Formula
  | .null => .constant .yes
  | .obj entries => membersFormula entries
  | _ => .constant .unknown

/-- The formula of an object's members together. -/
def membersFormula : List (String × Json) → Formula
  | [] => .constant .yes
  | (key, value) :: rest =>
    (match Key.of key with
      | .column => columnFormula key value
      | .connective op => connectedFormula op value
      | .not => (formula value).not
      | .unknown => .constant .unknown).and (membersFormula rest)

/-- The formula of a connective over a list of trees. -/
def connectedFormula (op : Connective) : Json → Formula
  | .arr items => op.formula (formulas items)
  | _ => .constant .unknown

/-- The formulas of a list of trees. -/
def formulas : List Json → List Formula
  | [] => []
  | v :: rest => formula v :: formulas rest

end

-- ========================================================= agreement

section

variable (test : String → ColumnTest → Truth)

theorem value_membershipFormula (column : String) (isIn : Bool) (data : Json) :
    (membershipFormula column isIn data).value test
      = membershipTruth test column isIn data := by
  unfold membershipFormula membershipTruth
  cases (values data).isEmpty <;> cases isIn <;> rfl

theorem value_testFormula (column : String) (op : FilterOperator)
    (data : Json) :
    (testFormula column op data).value test
      = testTruth test column op data := by
  cases op with
  | eq | ne =>
    cases hnull : data.isNull
      <;> simp [testFormula, testTruth, hnull, Formula.value]
  | gt | gte | lt | lte | like | ilike => rfl
  | in_ => exact value_membershipFormula test column true data
  | notIn => exact value_membershipFormula test column false data
  | between =>
    simp only [testFormula, testTruth]
    split <;> rfl
  | null =>
    simp only [testFormula, testTruth]
    split
    · rename_i isNull
      cases isNull <;> rfl
    · rfl

theorem value_columnFormula (column : String) (value : Json) :
    (columnFormula column value).value test
      = columnTruth test column value := by
  unfold columnFormula columnTruth
  split
  · unfold namedTestsFormula namedTestsTruth
    rw [Formula.value_all, List.map_map]
    refine congrArg Truth.all (List.map_congr_left fun m _ => ?_)
    simp only [Function.comp_apply]
    split
    · exact value_testFormula test column _ m.2
    · rfl
  · exact value_testFormula test column .eq _

theorem value_connective (op : Connective) (fs : List Formula) :
    (op.formula fs).value test = op.truth (fs.map (Formula.value test)) := by
  cases op with
  | and => exact Formula.value_all test fs
  | or => exact Formula.value_any test fs

mutual

/-- The truth of a where-tree is the value of its formula. -/
theorem truth_eq_value : (v : Json) → truth test v = (formula v).value test
  | .null => by simp [truth, formula, Formula.value]
  | .obj entries => by
    simpa only [truth, formula] using membersTruth_eq_value entries
  | .bool _ | .int _ | .float _ | .str _ | .arr _ => by
    simp [truth, formula, Formula.value]

theorem membersTruth_eq_value : (entries : List (String × Json)) →
    membersTruth test entries = (membersFormula entries).value test
  | [] => by simp [membersTruth, membersFormula, Formula.value]
  | (key, value) :: rest => by
    simp only [membersTruth, membersFormula, Formula.value,
      membersTruth_eq_value rest]
    cases Key.of key with
    | column => simp only [value_columnFormula]
    | connective op => simp only [connectedTruth_eq_value op value]
    | not => simp only [truth_eq_value value, Formula.value]
    | unknown => rfl

theorem connectedTruth_eq_value (op : Connective) : (v : Json) →
    connectedTruth test op v = (connectedFormula op v).value test
  | .arr items => by
    simp only [connectedTruth, connectedFormula]
    rw [value_connective, truths_eq_values items]
  | .null | .bool _ | .int _ | .float _ | .str _ | .obj _ => by
    simp [connectedTruth, connectedFormula, Formula.value]

theorem truths_eq_values : (items : List Json) →
    truths test items = (formulas items).map (Formula.value test)
  | [] => by simp [truths, formulas]
  | v :: rest => by
    simp only [truths, formulas, List.map_cons, truth_eq_value v,
      truths_eq_values rest]

end

end

end Tenancy.Filter.Where
