/-
Formulas: conditions on columns with the values that are compared with in
their places. A condition that was read back still refers to its values
by number; with the parameters at hand it is a formula (`formula?`), and
a client's where-object is one as it stands, so that the two can be
compared.

The comparisons of a formula are counted from left to right. Its truth is
said for every outcome of each of them (`Formula.eval`), also where the
same comparison stands in two places. Two formulas with the same
comparisons in the same order and the same truth whatever the outcomes
are say the same (`Formula.Alike`): they may differ in how conjunctions
are bracketed, and in constants that change nothing.
-/
import Mathlib.Data.List.Forall2
import Tenancy.Proofs.Sql.Evaluation

namespace Tenancy.Sql

/-- The values that a test of a column compares with. -/
def ColumnTest.operands : ColumnTest → List Json
  | .compare _ value => [value]
  | .isNull => []
  | .isIn values => values
  | .between low high => [low, high]

/-- A condition on columns. -/
inductive Formula where
  | constant (value : Truth)
  | test (column : String) (asked : ColumnTest)
  | not (f : Formula)
  | and (f g : Formula)
  | or (f g : Formula)

namespace Formula

-- =========================================================== meaning

/-- What is asked of columns, from left to right. -/
def comparisons : Formula → List (String × ColumnTest)
  | .constant _ => []
  | .test column asked => [(column, asked)]
  | .not f => f.comparisons
  | .and f g | .or f g => f.comparisons ++ g.comparisons

/-- The values that are compared with, from left to right. -/
def operands (f : Formula) : List Json :=
  f.comparisons.flatMap fun c => c.2.operands

/-- The truth of a formula whose comparisons, counted on from a number, turn
out as given. -/
def eval (outcome : Nat → Truth) : (first : Nat) → Formula → Truth
  | _, .constant value => value
  | first, .test _ _ => outcome first
  | first, .not f => (f.eval outcome first).not
  | first, .and f g =>
    (f.eval outcome first).and (g.eval outcome (first + f.comparisons.length))
  | first, .or f g =>
    (f.eval outcome first).or (g.eval outcome (first + f.comparisons.length))

/-- The truth of a formula where a comparison turns out alike wherever it
stands. -/
def value (test : String → ColumnTest → Truth) : Formula → Truth
  | .constant value => value
  | .test column asked => test column asked
  | .not f => (f.value test).not
  | .and f g => (f.value test).and (g.value test)
  | .or f g => (f.value test).or (g.value test)

/-- The conjunction of formulas, true without any. -/
def all (fs : List Formula) : Formula := fs.foldr and (.constant .yes)

/-- The disjunction of formulas, false without any. -/
def any (fs : List Formula) : Formula := fs.foldr or (.constant .no)

/-- A conjunction has the least of its values. -/
theorem value_all (test : String → ColumnTest → Truth) (fs : List Formula) :
    (all fs).value test = Truth.all (fs.map (value test)) := by
  induction fs with
  | nil => rfl
  | cons f fs ih => exact congrArg ((f.value test).and ·) ih

/-- A disjunction has the greatest of its values. -/
theorem value_any (test : String → ColumnTest → Truth) (fs : List Formula) :
    (any fs).value test = Truth.any (fs.map (value test)) := by
  induction fs with
  | nil => rfl
  | cons f fs ih => exact congrArg ((f.value test).or ·) ih

/-- A conjunction compares what its parts compare, in their order. -/
theorem comparisons_all (fs : List Formula) :
    (all fs).comparisons = fs.flatMap comparisons := by
  induction fs with
  | nil => rfl
  | cons f fs ih => exact congrArg (f.comparisons ++ ·) ih

/-- So does a disjunction. -/
theorem comparisons_any (fs : List Formula) :
    (any fs).comparisons = fs.flatMap comparisons := by
  induction fs with
  | nil => rfl
  | cons f fs ih => exact congrArg (f.comparisons ++ ·) ih

/-- Outcomes that a test gives to the comparisons are outcomes like any
others. -/
theorem eval_eq_value {test : String → ColumnTest → Truth}
    {outcome : Nat → Truth} (f : Formula) (first : Nat)
    (h : ∀ i column asked, f.comparisons[i]? = some (column, asked) →
      outcome (first + i) = test column asked) :
    f.eval outcome first = f.value test := by
  induction f generalizing first with
  | constant value => rfl
  | test column asked => exact h 0 column asked rfl
  | not f ih => exact congrArg Truth.not (ih first h)
  | and f g ihf ihg | or f g ihf ihg =>
    have hf : f.eval outcome first = f.value test := by
      refine ihf first fun i column asked hi => h i column asked ?_
      obtain ⟨hlt, -⟩ := List.getElem?_eq_some_iff.1 hi
      simpa [comparisons, List.getElem?_append_left hlt] using hi
    have hg :
        g.eval outcome (first + f.comparisons.length) = g.value test := by
      refine ihg _ fun i column asked hi => ?_
      rw [Nat.add_assoc]
      refine h _ column asked ?_
      simpa [comparisons, List.getElem?_append_right (Nat.le_add_right _ _)]
        using hi
    simp only [eval, value, hf, hg]

-- ============================================================= alike

/-- The same comparisons in the same order, and the same truth however each of
them turns out. -/
structure Alike (f g : Formula) : Prop where
  comparisons : f.comparisons = g.comparisons
  eval : ∀ outcome first, f.eval outcome first = g.eval outcome first

variable {f f' g g' h : Formula}

theorem Alike.refl (f : Formula) : f.Alike f := ⟨rfl, fun _ _ => rfl⟩

theorem Alike.symm (hfg : f.Alike g) : g.Alike f :=
  ⟨hfg.comparisons.symm, fun outcome first => (hfg.eval outcome first).symm⟩

theorem Alike.trans (hfg : f.Alike g) (hgh : g.Alike h) : f.Alike h :=
  ⟨hfg.comparisons.trans hgh.comparisons,
    fun outcome first =>
      (hfg.eval outcome first).trans (hgh.eval outcome first)⟩

/-- Formulas that are alike have the same operands. -/
theorem Alike.operands (hfg : f.Alike g) : f.operands = g.operands := by
  unfold Formula.operands
  rw [hfg.comparisons]

/-- Alike formulas are equally true for every test. -/
theorem Alike.value (hfg : f.Alike g) (test : String → ColumnTest → Truth) :
    f.value test = g.value test := by
  let outcome : Nat → Truth :=
    fun i => (f.comparisons[i]?).elim .unknown fun c => test c.1 c.2
  have hf : f.eval outcome 0 = f.value test :=
    f.eval_eq_value 0 fun i column asked hi => by simp [outcome, hi]
  have hg : g.eval outcome 0 = g.value test :=
    g.eval_eq_value 0 fun i column asked hi => by
      simp [outcome, hfg.comparisons, hi]
  rw [← hf, ← hg, hfg.eval]

theorem Alike.not (hf : f.Alike f') : f.not.Alike f'.not :=
  ⟨hf.comparisons,
    fun outcome first => congrArg Truth.not (hf.eval outcome first)⟩

theorem Alike.and (hf : f.Alike f') (hg : g.Alike g') :
    (f.and g).Alike (f'.and g') := by
  refine ⟨?_, fun outcome first => ?_⟩
  · simp only [Formula.comparisons, hf.comparisons, hg.comparisons]
  · simp only [Formula.eval, hf.eval, hg.eval, hf.comparisons]

theorem Alike.or (hf : f.Alike f') (hg : g.Alike g') :
    (f.or g).Alike (f'.or g') := by
  refine ⟨?_, fun outcome first => ?_⟩
  · simp only [Formula.comparisons, hf.comparisons, hg.comparisons]
  · simp only [Formula.eval, hf.eval, hg.eval, hf.comparisons]

/-- A truth behind a conjunction adds nothing. -/
theorem alike_and_yes (f : Formula) : (f.and (.constant .yes)).Alike f :=
  ⟨by simp [comparisons], fun outcome first => by simp [eval]⟩

/-- A falsehood behind a disjunction adds nothing. -/
theorem alike_or_no (f : Formula) : (f.or (.constant .no)).Alike f :=
  ⟨by simp [comparisons], fun outcome first => by simp [eval]⟩

/-- A truth before a conjunction adds nothing, either. -/
theorem alike_yes_and (f : Formula) :
    ((Formula.constant .yes).and f).Alike f := by
  refine ⟨by simp [comparisons], fun outcome first => ?_⟩
  simp only [eval, comparisons, List.length_nil, Nat.add_zero]
  cases f.eval outcome first <;> rfl

/-- Conjunctions may be grouped either way. -/
theorem alike_and_assoc (f g h : Formula) :
    ((f.and g).and h).Alike (f.and (g.and h)) :=
  ⟨by simp [comparisons], fun outcome first => by
    simp [eval, comparisons, Truth.and_assoc, Nat.add_assoc]⟩

/-- Conjunctions behind each other are one conjunction. -/
theorem alike_all_append (fs gs : List Formula) :
    (all (fs ++ gs)).Alike ((all fs).and (all gs)) := by
  induction fs with
  | nil => exact (alike_yes_and _).symm
  | cons f fs ih =>
    have hinner :
        (all (f :: fs ++ gs)).Alike (f.and ((all fs).and (all gs))) :=
      (Alike.refl f).and ih
    exact hinner.trans (alike_and_assoc f (all fs) (all gs)).symm

end Formula

-- ======================================================= conditions

/-- The formula of a condition that asks of columns of one table only, with the
values of its placeholders. -/
def SearchCondition.formula? (params : List Json) :
    SearchCondition → Option Formula
  | .truth value => some (.constant (.ofBool value))
  | .compare (.column none name) op (.placeholder n) =>
    some (.test name (.compare op (valueAt params n)))
  | .isNull (.column none name) => some (.test name .isNull)
  | .isIn (.column none name) ns =>
    some (.test name (.isIn (ns.map (valueAt params))))
  | .between (.column none name) (.placeholder low) (.placeholder high) =>
    some (.test name (.between (valueAt params low) (valueAt params high)))
  | .not c => (c.formula? params).map .not
  | .and a b => do return .and (← a.formula? params) (← b.formula? params)
  | .or a b => do return .or (← a.formula? params) (← b.formula? params)
  | .compare _ _ _ | .isNull _ | .isIn _ _ | .between _ _ _
  | .someRow _ _ _ => none

/-- The condition has a formula, which says the same as a given one. -/
def Denotes (params : List Json) (c : SearchCondition) (f : Formula) : Prop :=
  ∃ g, c.formula? params = some g ∧ g.Alike f

section

variable {params : List Json} {a b c : SearchCondition} {f g : Formula}

/-- A condition denotes the formula that it is turned into. -/
theorem denotes_of_formula? (h : c.formula? params = some f) :
    Denotes params c f :=
  ⟨f, h, .refl f⟩

/-- And any formula that is alike. -/
theorem Denotes.alike (hc : Denotes params c f) (hfg : f.Alike g) :
    Denotes params c g := by
  obtain ⟨f', hf', halike⟩ := hc
  exact ⟨f', hf', halike.trans hfg⟩

/-- A negation denotes the negation. -/
theorem Denotes.not (hc : Denotes params c f) :
    Denotes params (.not c) f.not := by
  obtain ⟨f', hf', halike⟩ := hc
  exact ⟨f'.not, by simp [SearchCondition.formula?, hf'], halike.not⟩

/-- A conjunction denotes the conjunction. -/
theorem Denotes.and (ha : Denotes params a f) (hb : Denotes params b g) :
    Denotes params (.and a b) (f.and g) := by
  obtain ⟨f', hf', hf⟩ := ha
  obtain ⟨g', hg', hg⟩ := hb
  exact ⟨f'.and g', by simp [SearchCondition.formula?, hf', hg'], hf.and hg⟩

/-- A disjunction denotes the disjunction. -/
theorem Denotes.or (ha : Denotes params a f) (hb : Denotes params b g) :
    Denotes params (.or a b) (f.or g) := by
  obtain ⟨f', hf', hf⟩ := ha
  obtain ⟨g', hg', hg⟩ := hb
  exact ⟨f'.or g', by simp [SearchCondition.formula?, hf', hg'], hf.or hg⟩

/-- A conjunction of many denotes that of their formulas. -/
theorem denotes_conjoin {cs : List SearchCondition} {fs : List Formula}
    (h : List.Forall₂ (Denotes params) cs fs) :
    Denotes params (.conjoin cs) (.all fs) := by
  induction h with
  | nil => exact denotes_of_formula? rfl
  | cons hfirst hrest ih =>
    cases hrest with
    | nil => exact hfirst.alike (Formula.alike_and_yes _).symm
    | cons hnext hmore => exact hfirst.and ih

/-- A disjunction of many denotes that of their formulas. -/
theorem denotes_disjoin {cs : List SearchCondition} {fs : List Formula}
    (h : List.Forall₂ (Denotes params) cs fs) :
    Denotes params (.disjoin cs) (.any fs) := by
  induction h with
  | nil => exact denotes_of_formula? rfl
  | cons hfirst hrest ih =>
    cases hrest with
    | nil => exact hfirst.alike (Formula.alike_or_no _).symm
    | cons hnext hmore => exact hfirst.or ih

end

/-- In a scene the formula of a condition is as true as the condition. -/
theorem Scene.eval_of_formula? {scene : Scene} {c : SearchCondition}
    {f : Formula}
    (h : c.formula? scene.params = some f) :
    scene.eval c = f.value scene.test := by
  induction c generalizing f with
  | truth value =>
    cases h
    rfl
  | compare left op right =>
    rcases left with ⟨_ | table, name⟩ | n | n <;> rcases right with
      ⟨table', name'⟩ | m | m <;>
      cases h
    rfl
  | isNull x =>
    rcases x with ⟨_ | table, name⟩ | n | n <;> cases h
    rfl
  | isIn x ns =>
    rcases x with ⟨_ | table, name⟩ | n | n <;> cases h
    rfl
  | between x low high =>
    rcases x with ⟨_ | table, name⟩ | n | n <;> rcases low with
      ⟨table', name'⟩ | m | m <;>
      rcases high with ⟨table'', name''⟩ | k | k <;> cases h
    rfl
  | someRow table label c => cases h
  | not c ih =>
    obtain ⟨g, hg, rfl⟩ := Option.map_eq_some_iff.1 h
    exact congrArg Truth.not (ih hg)
  | and a b iha ihb =>
    obtain ⟨f', hf', h⟩ := Option.bind_eq_some_iff.1 h
    obtain ⟨g', hg', h⟩ := Option.bind_eq_some_iff.1 h
    cases h
    exact congrArg₂ Truth.and (iha hf') (ihb hg')
  | or a b iha ihb =>
    obtain ⟨f', hf', h⟩ := Option.bind_eq_some_iff.1 h
    obtain ⟨g', hg', h⟩ := Option.bind_eq_some_iff.1 h
    cases h
    exact congrArg₂ Truth.or (iha hf') (ihb hg')

end Tenancy.Sql
