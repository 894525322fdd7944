/-
Conditions evaluated on a row, in SQL's three-valued logic. A comparison
with NULL is unknown; NOT, AND and OR carry the unknown along; a row is
selected only where the whole condition is true, so an unknown condition
hides the row just as a false one does. EXISTS is never unknown: it is
true if its condition is true of some row, and false otherwise.

What is in sight of a condition is a `Scene`: the values bound to the
placeholders, the identifiers in the columns of the row and of the
aliases around it, the rows of the other tables, and the truth of every
test of a column that stands without its table. The last are not
computed — the columns of a client's filter may hold anything and have
any type — so every statement over all scenes is one over all outcomes
of such tests. A test asks for the column, the operator and the values
it compares with, never for a placeholder's number.
-/
import Tenancy.Json.Scalars
import Tenancy.Proofs.Sql.Parsing

namespace Tenancy.Sql

-- ====================================================== truth values

/-- A truth value of SQL. -/
inductive Truth where
  | no
  | unknown
  | yes
deriving DecidableEq

namespace Truth

/-- What is known for certain. -/
def ofBool (b : Bool) : Truth := if b then .yes else .no

/-- The negation: what is unknown stays so. -/
def not : Truth → Truth
  | .no => .yes
  | .unknown => .unknown
  | .yes => .no

/-- The lesser of two values, no below unknown below yes. -/
def and : Truth → Truth → Truth
  | .no, _ | _, .no => .no
  | .yes, b => b
  | .unknown, _ => .unknown

/-- The greater of two values. -/
def or : Truth → Truth → Truth
  | .yes, _ | _, .yes => .yes
  | .no, b => b
  | .unknown, _ => .unknown

@[simp] theorem ofBool_eq_yes {b : Bool} : ofBool b = .yes ↔ b = true := by
  cases b <;> decide

@[simp] theorem and_eq_yes {a b : Truth} :
    a.and b = .yes ↔ a = .yes ∧ b = .yes := by
  cases a <;> cases b <;> decide

@[simp] theorem or_eq_yes {a b : Truth} :
    a.or b = .yes ↔ a = .yes ∨ b = .yes := by
  cases a <;> cases b <;> decide

@[simp] theorem and_yes (a : Truth) : a.and .yes = a := by
  cases a <;> rfl

@[simp] theorem or_no (a : Truth) : a.or .no = a := by
  cases a <;> rfl

/-- Conjunctions may be grouped either way. -/
theorem and_assoc (a b c : Truth) : (a.and b).and c = a.and (b.and c) := by
  cases a <;> cases b <;> cases c <;> rfl

/-- The conjunction of many. -/
def all (ts : List Truth) : Truth := ts.foldr and .yes

/-- The disjunction of many. -/
def any (ts : List Truth) : Truth := ts.foldr or .no

theorem all_cons (a : Truth) (as : List Truth) :
    all (a :: as) = a.and (all as) := rfl

theorem any_cons (a : Truth) (as : List Truth) :
    any (a :: as) = a.or (any as) := rfl

end Truth

-- ============================================================= scenes

/-- A test of a column that stands without its table. -/
inductive ColumnTest where
  | compare (op : Comparison) (value : Json)
  | isNull
  | isIn (values : List Json)
  | between (low high : Json)
deriving DecidableEq

/-- What is in sight of a condition. -/
structure Scene where
  /-- The values of the placeholders, the first for `$1`. -/
  params : List Json
  /-- The identifier in a column of a table or alias; none is NULL. -/
  identifier : (table column : String) → Option Uuid
  /-- The rows of a table, each by the identifiers in its columns. -/
  rows : (table : String) → List ((column : String) → Option Uuid)
  /-- The outcome of a test of a column without its table. -/
  test : (column : String) → ColumnTest → Truth

namespace Scene

/-- The value of a placeholder. -/
def value (scene : Scene) (n : Nat) : Json := (scene.params[n - 1]?).getD .null

/-- The scene around a row of another table, under a label. The label hides
a table of its name, and a column without its table is in doubt. -/
def bind (scene : Scene) (label : String) (row : String → Option Uuid) :
    Scene where
  params := scene.params
  identifier table column :=
    if table = label then row column else scene.identifier table column
  rows := scene.rows
  test _ _ := .unknown

/-- The identifier that an operand stands for. -/
def uuid? (scene : Scene) : Operand → Option Uuid
  | .column (some table) name => scene.identifier table name
  | .uuid n => (scene.value n).uuid?
  | .column none _ | .placeholder _ => none

/-- A comparison: a test of a column without its table, or two identifiers. -/
def compare (scene : Scene) : Operand → Comparison → Operand → Truth
  | .column none name, op, .placeholder n =>
    scene.test name (.compare op (scene.value n))
  | x, .eq, y =>
    match scene.uuid? x, scene.uuid? y with
    | some a, some b => .ofBool (a == b)
    | _, _ => .unknown
  | _, _, _ => .unknown

/-- The truth of a condition. -/
def eval (scene : Scene) : SearchCondition → Truth
  | .truth value => .ofBool value
  | .compare x op y => scene.compare x op y
  | .isNull (.column none name) => scene.test name .isNull
  | .isIn (.column none name) ns =>
    scene.test name (.isIn (ns.map scene.value))
  | .between (.column none name) (.placeholder low) (.placeholder high) =>
    scene.test name (.between (scene.value low) (scene.value high))
  | .isNull _ | .isIn _ _ | .between _ _ _ => .unknown
  | .someRow table label c =>
    .ofBool
      ((scene.rows table).any fun row => (scene.bind label row).eval c == .yes)
  | .not c => (scene.eval c).not
  | .and a b => (scene.eval a).and (scene.eval b)
  | .or a b => (scene.eval a).or (scene.eval b)

/-- Is the row of the scene selected by a condition? -/
def Selects (scene : Scene) (c : SearchCondition) : Prop := scene.eval c = .yes

instance (scene : Scene) (c : SearchCondition) : Decidable (scene.Selects c) :=
  inferInstanceAs (Decidable (_ = _))

/-- Conditions that are joined by AND are evaluated one by one. -/
theorem eval_conjoin (scene : Scene) (cs : List SearchCondition) :
    scene.eval (.conjoin cs) = Truth.all (cs.map scene.eval) := by
  induction cs with
  | nil => rfl
  | cons c cs ih =>
    cases cs with
    | nil => simp [SearchCondition.conjoin, Truth.all]
    | cons d ds =>
      show (scene.eval c).and (scene.eval (.conjoin (d :: ds))) = _
      rw [ih]
      rfl

/-- So are those that are joined by OR. -/
theorem eval_disjoin (scene : Scene) (cs : List SearchCondition) :
    scene.eval (.disjoin cs) = Truth.any (cs.map scene.eval) := by
  induction cs with
  | nil => rfl
  | cons c cs ih =>
    cases cs with
    | nil => simp [SearchCondition.disjoin, Truth.any]
    | cons d ds =>
      show (scene.eval c).or (scene.eval (.disjoin (d :: ds))) = _
      rw [ih]
      rfl

end Scene

-- ============================================================ binding

/-- The values stand among the parameters, the first of them behind `start`
others. -/
def Carries (params : List Json) (start : Nat) (values : List Json) : Prop :=
  ∀ (i : Nat) (v : Json), values[i]? = some v → params[start + i]? = some v

/-- Parameters are carried from where those before them have ended. -/
theorem carries_append {params : List Json} {start : Nat} {xs ys : List Json} :
    Carries params start (xs ++ ys) ↔
      Carries params start xs ∧ Carries params (start + xs.length) ys := by
  unfold Carries
  refine ⟨fun h => ⟨fun i v hv => ?_, fun i v hv => ?_⟩,
    fun ⟨hx, hy⟩ i v hv => ?_⟩
  · refine h i v ?_
    obtain ⟨hi, -⟩ := List.getElem?_eq_some_iff.1 hv
    rw [List.getElem?_append_left hi, hv]
  · rw [Nat.add_assoc]
    refine h (xs.length + i) v ?_
    rw [List.getElem?_append_right (by omega), Nat.add_sub_cancel_left, hv]
  · by_cases hi : i < xs.length
    · rw [List.getElem?_append_left hi] at hv
      exact hx i v hv
    · rw [List.getElem?_append_right (by omega)] at hv
      have := hy (i - xs.length) v hv
      rwa [show start + xs.length + (i - xs.length) = start + i by omega]
        at this

/-- Values that stand between others are carried where they stand. -/
theorem carries_between (before values after : List Json) :
    Carries (before ++ values ++ after) before.length values := by
  intro i v hv
  obtain ⟨hi, -⟩ := List.getElem?_eq_some_iff.1 hv
  rw [List.append_assoc, List.getElem?_append_right (by omega),
    Nat.add_sub_cancel_left, List.getElem?_append_left hi, hv]

/-- The parameter that a placeholder refers to, the first for `$1`. -/
def valueAt (params : List Json) (n : Nat) : Json :=
  (params[n - 1]?).getD .null

/-- The placeholder of a carried value refers to it. -/
theorem Carries.valueAt {params : List Json} {start i : Nat}
    {values : List Json} {v : Json}
    (h : Carries params start values) (hv : values[i]? = some v) :
    valueAt params (start + i + 1) = v := by
  have hcarried := h i v hv
  unfold Sql.valueAt
  simp [hcarried]

/-- The placeholders of carried values refer to them in their order. -/
theorem Carries.map_valueAt {params values : List Json} {start : Nat}
    (h : Carries params start values) :
    (List.range' (start + 1) values.length).map (Sql.valueAt params)
      = values := by
  refine List.ext_getElem (by simp) fun i _ hi => ?_
  have hvalue : Sql.valueAt params (start + i + 1) = values[i] :=
    h.valueAt (List.getElem?_eq_getElem hi)
  simp only [List.getElem_map, List.getElem_range', Nat.one_mul,
    Nat.add_right_comm start 1 i, hvalue]

/-- The placeholder of a carried value has that value. -/
theorem Carries.value {scene : Scene} {start i : Nat} {values : List Json}
    {v : Json}
    (h : Carries scene.params start values) (hv : values[i]? = some v) :
    scene.value (start + i + 1) = v :=
  h.valueAt hv

end Tenancy.Sql
