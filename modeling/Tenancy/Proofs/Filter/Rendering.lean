/-
The condition that is written for a where-object is what the object means.
Four things are true of a fragment for a formula (`Renders`), and each
step of the rendering keeps them together: its text can be read back, its
placeholders are numbered on from the start without a gap, its operands
are those of the formula in their order, and read back with them it says
what the formula says, wherever the operands stand among the parameters.

The parts of an object are written one behind the other and joined by
AND without brackets, those of a column's operators among them. So what
is carried through an object is a list of parts whose conjunction is the
object's formula (`RendersParts`), and an AND inside an AND is the same
as one long AND (`Formula.Alike`). The parts of a connective are
bracketed each and all together.
-/
import Tenancy.Filter.Basic
import Tenancy.Proofs.Filter.Meaning
import Tenancy.Proofs.Outcome
import Tenancy.Proofs.Sql.Placeholders

namespace Tenancy.Filter.Where

open Sql

-- ========================================================= fragments

/-- A condition with its operands that is written, from a start on, for a
formula. -/
structure Renders (f : Formula) (start : Nat) (fragment : Fragment) :
    Prop where
  legible : fragment.1.Legible
  placeholders :
    fragment.1.placeholders = List.range' (start + 1) fragment.2.length
  operands : fragment.2 = f.operands
  denotes :
    ∀ params, Carries params start fragment.2 →
    Denotes params fragment.1.meaning f

/-- Conditions that are written one behind the other, each for its formula. -/
inductive RendersEach : List Formula → Nat → List Condition × List Json → Prop
  | nil {start : Nat} : RendersEach [] start ([], [])
  | cons {f : Formula} {fs : List Formula} {start : Nat} {c : Condition}
      {cs : List Condition}
      {xs ys : List Json} (first : Renders f start (c, xs))
      (rest : RendersEach fs (start + xs.length) (cs, ys)) :
    RendersEach (f :: fs) start (c :: cs, xs ++ ys)

/-- Conditions that may stand beside AND and OR, and together say what a
formula says. -/
def RendersParts (f : Formula) (start : Nat)
    (parts : List Condition × List Json) : Prop :=
  ∃ fs,
    RendersEach fs start parts ∧ (∀ c ∈ parts.1, c.isFactor = true)
    ∧ (Formula.all fs).Alike f

variable {f g : Formula} {fs gs : List Formula} {start : Nat} {c : Condition}
  {cs ds : List Condition} {xs ys : List Json} {fragment : Fragment}

/-- What renders a formula renders any that is alike. -/
theorem Renders.alike (h : Renders f start fragment) (hfg : f.Alike g) :
    Renders g start fragment :=
  ⟨h.legible, h.placeholders, h.operands.trans hfg.operands,
    fun params hparams => (h.denotes params hparams).alike hfg⟩

/-- Parentheses change nothing. -/
theorem Renders.group (h : Renders f start (c, xs)) :
    Renders f start (.group c, xs) :=
  ⟨h.legible, (Condition.placeholders_group c).trans h.placeholders,
    h.operands, h.denotes⟩

/-- A negation renders the negation. -/
theorem Renders.not (h : Renders f start (c, xs)) :
    Renders f.not start (.not c, xs) :=
  ⟨h.legible, (Condition.placeholders_not c).trans h.placeholders, h.operands,
    fun params hparams => (h.denotes params hparams).not⟩

/-- Where its operands are carried, the condition is as true as the formula. -/
theorem Renders.eval (h : Renders f start fragment) {scene : Scene}
    (hparams : Carries scene.params start fragment.2) :
    scene.eval fragment.1.meaning = f.value scene.test := by
  obtain ⟨g, hg, halike⟩ := h.denotes scene.params hparams
  rw [Scene.eval_of_formula? hg, halike.value]

/-- Parts are rendered one after another, each from where the one before has
ended. -/
theorem RendersEach.append (h : RendersEach fs start (cs, xs))
    (hmore : RendersEach gs (start + xs.length) (ds, ys)) :
    RendersEach (fs ++ gs) start (cs ++ ds, xs ++ ys) := by
  generalize hparts : (cs, xs) = parts at h
  induction h generalizing cs xs with
  | nil =>
    cases hparts
    simpa using hmore
  | cons first rest ih =>
    cases hparts
    rw [List.append_assoc]
    refine .cons first (ih ?_ rfl)
    simpa [Nat.add_assoc] using hmore

/-- Each of them may stand in parentheses. -/
theorem RendersEach.group (h : RendersEach fs start (cs, xs)) :
    RendersEach fs start (cs.map .group, xs) := by
  generalize hparts : (cs, xs) = parts at h
  induction h generalizing cs xs with
  | nil =>
    cases hparts
    exact .nil
  | cons first rest ih =>
    cases hparts
    exact .cons first.group (ih rfl)

/-- What is true of each fragment is true of all behind each other. -/
theorem RendersEach.together (h : RendersEach fs start (cs, xs)) :
    (∀ c ∈ cs, c.Legible)
      ∧ cs.flatMap Condition.placeholders = List.range' (start + 1) xs.length
      ∧ xs = fs.flatMap Formula.operands
      ∧ ∀ params, Carries params start xs →
          List.Forall₂ (Denotes params) (Condition.meanings cs) fs := by
  generalize hparts : (cs, xs) = parts at h
  induction h generalizing cs xs with
  | nil =>
    cases hparts
    exact ⟨nofun, rfl, rfl, fun _ _ => .nil⟩
  | cons first rest ih =>
    cases hparts
    obtain ⟨hlegible, hplaceholders, hoperands, hdenotes⟩ := ih rfl
    refine ⟨by simpa using ⟨first.legible, hlegible⟩, ?_, ?_,
      fun params hparams => ?_⟩
    · rw [List.flatMap_cons, first.placeholders, hplaceholders, count_append,
        List.length_append]
    · rw [List.flatMap_cons, ← first.operands, ← hoperands]
    · obtain ⟨hfirst, hrest⟩ := carries_append.1 hparams
      exact .cons (first.denotes params hfirst) (hdenotes params hrest)

/-- The operands of a conjunction are those of its parts in turn. -/
theorem operands_all (fs : List Formula) :
    (Formula.all fs).operands = fs.flatMap Formula.operands := by
  unfold Formula.operands
  rw [Formula.comparisons_all, List.flatMap_assoc]

/-- So are those of a disjunction. -/
theorem operands_any (fs : List Formula) :
    (Formula.any fs).operands = fs.flatMap Formula.operands := by
  unfold Formula.operands
  rw [Formula.comparisons_any, List.flatMap_assoc]

/-- Factors with AND between them. -/
theorem RendersEach.all (h : RendersEach fs start (cs, xs))
    (hfactor : ∀ c ∈ cs, c.isFactor = true) :
    Renders (.all fs) start (.all cs, xs) := by
  obtain ⟨hlegible, hplaceholders, hoperands, hdenotes⟩ := h.together
  exact ⟨Condition.legibleParts_iff.2 fun c hc =>
    ⟨hfactor c hc, hlegible c hc⟩,
    (Condition.placeholders_all cs).trans hplaceholders,
    hoperands.trans (operands_all fs).symm,
    fun params hparams => denotes_conjoin (hdenotes params hparams)⟩

/-- Factors with OR between them. -/
theorem RendersEach.any (h : RendersEach fs start (cs, xs))
    (hfactor : ∀ c ∈ cs, c.isFactor = true) :
    Renders (.any fs) start (.any cs, xs) := by
  obtain ⟨hlegible, hplaceholders, hoperands, hdenotes⟩ := h.together
  exact ⟨Condition.legibleParts_iff.2 fun c hc =>
    ⟨hfactor c hc, hlegible c hc⟩,
    (Condition.placeholders_any cs).trans hplaceholders,
    hoperands.trans (operands_any fs).symm,
    fun params hparams => denotes_disjoin (hdenotes params hparams)⟩

/-- A connective over conditions, each of them and all together in brackets. -/
theorem RendersEach.join (h : RendersEach fs start (cs, xs))
    (op : Connective) : Renders (op.formula fs) start (op.join cs, xs) := by
  have hfactor : ∀ c ∈ cs.map Condition.group, c.isFactor = true := by
    intro c hc
    obtain ⟨d, -, rfl⟩ := List.mem_map.1 hc
    rfl
  cases cs with
  | nil =>
    -- Over nothing the connective is a constant, without brackets.
    cases h
    cases op <;> exact ⟨trivial, rfl, rfl, fun _ _ => denotes_of_formula? rfl⟩
  | cons c cs =>
    cases op with
    | and => exact (h.group.all hfactor).group
    | or => exact (h.group.any hfactor).group

/-- What is joined stands in parentheses, so it is a factor. -/
theorem isFactor_join (op : Connective) (cs : List Condition) :
    (op.join cs).isFactor = true := by
  cases cs <;> rfl

/-- No part renders what is true. -/
theorem RendersParts.nil : RendersParts (.constant .yes) start ([], []) :=
  ⟨[], .nil, nofun, .refl _⟩

/-- One factor is a part by itself. -/
theorem Renders.parts (h : Renders f start (c, xs))
    (hfactor : c.isFactor = true) : RendersParts f start ([c], xs) := by
  have hsingle : RendersEach [f] start ([c], xs ++ []) := .cons h .nil
  rw [List.append_nil] at hsingle
  exact ⟨[f], hsingle, by simpa using hfactor, Formula.alike_and_yes f⟩

/-- More parts render the conjunction. -/
theorem RendersParts.append (h : RendersParts f start (cs, xs))
    (hmore : RendersParts g (start + xs.length) (ds, ys)) :
    RendersParts (f.and g) start (cs ++ ds, xs ++ ys) := by
  obtain ⟨fs, hfs, hfactor, hf⟩ := h
  obtain ⟨gs, hgs, hfactors, hg⟩ := hmore
  refine ⟨fs ++ gs, hfs.append hgs, fun c hc => ?_,
    (Formula.alike_all_append fs gs).trans (hf.and hg)⟩
  exact (List.mem_append.1 hc).elim (hfactor c) (hfactors c)

-- ============================================================ leaves

/-- An operand is taken as it is given. -/
theorem operand_ok {v w : Json} (h : operand v = .ok w) : w = v := by
  unfold operand at h
  split at h
  · cases h
    rfl
  · cases h

/-- And so are the operands of a list. -/
theorem operands_ok {vs ws : List Json} (h : operands vs = .ok ws) :
    ws = vs := by
  induction vs generalizing ws with
  | nil =>
    cases h
    rfl
  | cons v vs ih =>
    obtain ⟨w, hw, h⟩ := bind_eq_ok.1 h
    obtain ⟨rest, hrest, h⟩ := bind_eq_ok.1 h
    cases h
    rw [operand_ok hw, ih hrest]

section

variable {column : String} {data : Json}

/-- A comparison that is accepted renders its test. -/
theorem comparison_ok {op : Comparison} {v : Json}
    (hcolumn : Identifier.isValid column = true)
    (h : comparison start column op v = .ok fragment) :
    Renders (.test column (.compare op v)) start fragment
      ∧ fragment.1.isFactor = true := by
  obtain ⟨w, hw, h⟩ := bind_eq_ok.1 h
  rw [operand_ok hw] at h
  cases h
  refine ⟨⟨hcolumn, by simp, rfl,
    fun params hparams => denotes_of_formula? ?_⟩, rfl⟩
  have hvalue : valueAt params (start + 1) = v := hparams.valueAt (i := 0) rfl
  simp only [Condition.meaning, SearchCondition.formula?, hvalue]

/-- A membership that is accepted renders its tests, and a constant if the list
is empty. -/
theorem membership_ok {isIn : Bool}
    (hcolumn : Identifier.isValid column = true)
    (h : membership start column isIn data = .ok fragment) :
    Renders (membershipFormula column isIn data) start fragment
      ∧ fragment.1.isFactor = true := by
  obtain ⟨listed, hlisted, h⟩ := bind_eq_ok.1 h
  have hvalues : listed = values data := operands_ok hlisted
  unfold membershipFormula
  rw [← hvalues]
  cases listed with
  | nil =>
    cases h
    -- FALSE, or TRUE in the place of a negation
    refine ⟨⟨trivial, by simp, ?_, fun params _ => ?_⟩, rfl⟩
    · cases isIn <;> rfl
    · cases isIn
      · have hyes :
            Denotes params (Condition.truth true, ([] : List Json)).1.meaning
              (.constant .yes) :=
          denotes_of_formula? rfl
        exact hyes.alike ⟨rfl, fun _ _ => rfl⟩
      · exact denotes_of_formula? rfl
  | cons v vs =>
    have hnumbers : (List.range (v :: vs).length).map (start + 1 + ·)
        = List.range' (start + 1) (v :: vs).length :=
          List.range'_eq_map_range.symm
    rw [hnumbers] at h
    cases h
    refine ⟨⟨⟨hcolumn, by simp⟩, by simp, ?_, fun params hparams => ?_⟩, rfl⟩
    · cases isIn
        <;> simp [Formula.operands, Formula.comparisons, ColumnTest.operands]
    · have hmap := hparams.map_valueAt
      have hin : Denotes params
          (.isIn (.column none column)
            (List.range' (start + 1) (v :: vs).length))
          (.test column (.isIn (v :: vs))) :=
        denotes_of_formula? (by simp only [SearchCondition.formula?, hmap])
      cases isIn with
      | true => exact hin
      | false => exact hin.not

/-- A range renders its test, the lower bound first. -/
theorem renders_between (hcolumn : Identifier.isValid column = true)
    (low high : Json) : Renders (.test column (.between low high)) start
      (.between column (start + 1) (start + 2), [low, high]) := by
  refine ⟨hcolumn, by simp [List.range'], rfl,
    fun params hparams => denotes_of_formula? ?_⟩
  have hlow : valueAt params (start + 1) = low := hparams.valueAt (i := 0) rfl
  have hhigh : valueAt params (start + 2) = high :=
    hparams.valueAt (i := 1) rfl
  simp only [Condition.meaning, SearchCondition.formula?, hlow, hhigh]

/-- A test for null takes no operand. -/
theorem renders_nullness (hcolumn : Identifier.isValid column = true)
    (isNull : Bool) :
    Renders
      (if isNull then .test column .isNull else .not (.test column .isNull))
        start
      (.nullness column isNull, []) := by
  cases isNull
    <;> exact ⟨hcolumn, by simp, rfl, fun _ _ => denotes_of_formula? rfl⟩

/-- The condition of one operator says what the operator asks. -/
theorem test_ok {op : FilterOperator}
    (hcolumn : Identifier.isValid column = true)
    (h : test start column op data = .ok fragment) :
    Renders (testFormula column op data) start fragment
      ∧ fragment.1.isFactor = true := by
  cases op with
  | eq =>
    simp only [test, testFormula] at h ⊢
    by_cases hnull : data.isNull = true
    · rw [if_pos hnull] at h
      cases h
      simpa [hnull, Condition.isFactor] using renders_nullness hcolumn true
    · rw [if_neg hnull] at h
      simpa [hnull] using comparison_ok hcolumn h
  | ne =>
    simp only [test, testFormula] at h ⊢
    by_cases hnull : data.isNull = true
    · rw [if_pos hnull] at h
      cases h
      simpa [hnull, Condition.isFactor] using renders_nullness hcolumn false
    · rw [if_neg hnull] at h
      simpa [hnull] using comparison_ok hcolumn h
  | gt => exact comparison_ok hcolumn h
  | gte => exact comparison_ok hcolumn h
  | lt => exact comparison_ok hcolumn h
  | lte => exact comparison_ok hcolumn h
  | like => exact comparison_ok hcolumn h
  | ilike => exact comparison_ok hcolumn h
  | in_ => exact membership_ok hcolumn h
  | notIn => exact membership_ok hcolumn h
  | between =>
    simp only [test] at h
    split at h
    · obtain ⟨low', hlow, h⟩ := bind_eq_ok.1 h
      obtain ⟨high', hhigh, h⟩ := bind_eq_ok.1 h
      cases h
      rw [operand_ok hlow, operand_ok hhigh]
      exact ⟨renders_between hcolumn _ _, rfl⟩
    · cases h
  | null =>
    simp only [test] at h
    split at h
    · cases h
      exact ⟨renders_nullness hcolumn _, rfl⟩
    · cases h

end

-- =========================================================== columns

/-- The tests of a column, one after the other, are the parts of their
conjunction. -/
theorem tests_ok {column : String} {named : List (FilterOperator × Json)}
    (hcolumn : Identifier.isValid column = true)
    (h : tests start column named = .ok (cs, xs)) :
    RendersParts (.all (named.map fun m => testFormula column m.1 m.2)) start
      (cs, xs) := by
  induction named generalizing start cs xs with
  | nil =>
    cases h
    exact .nil
  | cons m named ih =>
    obtain ⟨⟨c, ys⟩, hc, h⟩ := bind_eq_ok.1 h
    obtain ⟨⟨ds, zs⟩, hds, h⟩ := bind_eq_ok.1 h
    cases h
    obtain ⟨htest, hfactor⟩ := test_ok hcolumn hc
    exact (htest.parts hfactor).append (ih hds)

/-- The operators found by their keys are those that the formula asks. -/
theorem namedTests_ok {members : Json.Members}
    {named : List (FilterOperator × Json)}
    (h : namedTests members = .ok named) (column : String) :
    namedTestsFormula column members
      = Formula.all (named.map fun m => testFormula column m.1 m.2) := by
  induction members generalizing named with
  | nil =>
    cases h
    rfl
  | cons m members ih =>
    obtain ⟨key, data⟩ := m
    unfold namedTests at h
    cases hop : FilterOperator.ofKey? key with
    | none =>
      rw [hop] at h
      cases h
    | some op =>
      rw [hop] at h
      obtain ⟨rest, hrest, h⟩ := bind_eq_ok.1 h
      cases h
      have hfirst : namedTestsFormula column ((key, data) :: members)
          = (testFormula column op data).and
            (namedTestsFormula column members) := by
        simp only [namedTestsFormula, List.map_cons, hop]
        rfl
      rw [hfirst, ih hrest]
      rfl

/-- What is said of a column renders the conjunction of it. -/
theorem column_ok {name : String} {value : Json}
    (h : column start name value = .ok (cs, xs)) :
    RendersParts (columnFormula name value) start (cs, xs) := by
  obtain ⟨_, hname, h⟩ := bind_eq_ok.1 h
  obtain ⟨named, hnamed, h⟩ := bind_eq_ok.1 h
  have hcolumn : Identifier.isValid name = true := by
    unfold checkColumn at hname
    split at hname
    · assumption
    · cases hname
  have htests := tests_ok hcolumn h
  cases value with
  | obj members =>
    show RendersParts (namedTestsFormula name members) start (cs, xs)
    rw [namedTests_ok hnamed name]
    exact htests
  | null | bool _ | int _ | float _ | str _ | arr _ =>
    -- A value alone asks one operator; its parts are a conjunction of one.
    cases hnamed
    obtain ⟨fs, hfs, hfactor, halike⟩ := htests
    exact ⟨fs, hfs, hfactor, halike.trans (Formula.alike_and_yes _)⟩

-- ============================================================== tree

mutual

/-- The condition of an accepted where-tree is written for the tree's
formula. -/
theorem condition_renders :
    (start : Nat) → (v : Json) → {fragment : Fragment} →
    condition start v = .ok fragment → Renders (formula v) start fragment
  | start, .null, _, h => by
    simp only [condition] at h
    cases h
    simp only [formula]
    exact ⟨trivial, by simp, rfl, fun _ _ => denotes_of_formula? rfl⟩
  | start, .obj entries, _, h => by
    simp only [condition] at h
    obtain ⟨⟨cs, xs⟩, hmembers, h⟩ := bind_eq_ok.1 h
    cases h
    obtain ⟨fs, hfs, hfactor, halike⟩ := members_render start entries hmembers
    simpa only [formula] using (hfs.all hfactor).alike halike
  | _, .bool _, _, h | _, .int _, _, h | _, .float _, _, h | _, .str _, _, h
  | _, .arr _, _, h => by
    simp [condition] at h

/-- The conditions of an accepted object's members are its parts. -/
theorem members_render :
    (start : Nat) → (entries : List (String × Json)) → {cs : List Condition} →
    {xs : List Json} → members start entries = .ok (cs, xs) →
    RendersParts (membersFormula entries) start (cs, xs)
  | start, [], _, _, h => by
    simp only [members] at h
    cases h
    simpa only [membersFormula] using RendersParts.nil
  | start, (key, value) :: rest, _, _, h => by
    simp only [members] at h
    simp only [membersFormula]
    cases hkey : Key.of key with
    | column =>
      rw [hkey] at h
      obtain ⟨⟨cs, xs⟩, hfirst, h⟩ := bind_eq_ok.1 h
      obtain ⟨⟨ds, ys⟩, hrest, h⟩ := bind_eq_ok.1 h
      cases h
      exact (column_ok hfirst).append (members_render _ rest hrest)
    | connective op =>
      rw [hkey] at h
      obtain ⟨⟨c, xs⟩, hfirst, h⟩ := bind_eq_ok.1 h
      obtain ⟨_, hsingle, h⟩ := bind_eq_ok.1 h
      cases hsingle
      obtain ⟨⟨ds, ys⟩, hrest, h⟩ := bind_eq_ok.1 h
      cases h
      obtain ⟨hconnected, hfactor⟩ := connected_renders op start value hfirst
      exact (hconnected.parts hfactor).append (members_render _ rest hrest)
    | not =>
      rw [hkey] at h
      obtain ⟨⟨c, xs⟩, hfirst, h⟩ := bind_eq_ok.1 h
      obtain ⟨_, hsingle, h⟩ := bind_eq_ok.1 h
      cases hsingle
      obtain ⟨⟨ds, ys⟩, hrest, h⟩ := bind_eq_ok.1 h
      cases h
      exact ((condition_renders start value hfirst).not.parts rfl).append
        (members_render _ rest hrest)
    | unknown =>
      rw [hkey] at h
      cases h

/-- The condition of an accepted connective is one factor. -/
theorem connected_renders (op : Connective) :
    (start : Nat) → (v : Json) → {fragment : Fragment} →
    connected op start v = .ok fragment →
    Renders (connectedFormula op v) start fragment ∧ fragment.1.isFactor = true
  | start, .arr items, _, h => by
    simp only [connected] at h
    obtain ⟨⟨cs, xs⟩, hitems, h⟩ := bind_eq_ok.1 h
    cases h
    simp only [connectedFormula]
    exact ⟨(conditions_render start items hitems).join op, isFactor_join op cs⟩
  | _, .null, _, h | _, .bool _, _, h | _, .int _, _, h | _, .float _, _, h
  | _, .str _, _, h
  | _, .obj _, _, h => by
    simp [connected] at h

/-- The conditions of accepted trees are written each for its formula. -/
theorem conditions_render :
    (start : Nat) → (items : List Json) → {cs : List Condition} →
    {xs : List Json} → conditions start items = .ok (cs, xs) →
    RendersEach (formulas items) start (cs, xs)
  | start, [], _, _, h => by
    simp only [conditions] at h
    cases h
    simpa only [formulas] using RendersEach.nil
  | start, v :: rest, _, _, h => by
    simp only [conditions] at h
    obtain ⟨⟨c, xs⟩, hfirst, h⟩ := bind_eq_ok.1 h
    obtain ⟨⟨cs, ys⟩, hrest, h⟩ := bind_eq_ok.1 h
    cases h
    simp only [formulas]
    exact .cons (condition_renders start v hfirst)
      (conditions_render (start + xs.length) rest hrest)

end

/-- The text written for an accepted where-tree means what the tree says.
Read by SQL's precedence, with the operands standing behind as many
parameters as the numbering was started from, it asks exactly what the
tree asks of which columns, in the tree's order and with the tree's
operands, and however each of these comparisons turns out it has the
tree's truth. -/
theorem text_means_what_tree_says {start : Nat} {v : Json}
    {fragment : Fragment} (h : condition start v = .ok fragment) :
    ∃ c, searchCondition? fragment.1.text = some c ∧
      ∀ before after : List Json, before.length = start →
        ∃ f, c.formula? (before ++ fragment.2 ++ after) = some f
          ∧ f.comparisons = (formula v).comparisons
          ∧ (∀ outcome, f.eval outcome 0 = (formula v).eval outcome 0)
          ∧ ∀ test, f.value test = truth test v := by
  have hrenders := condition_renders start v h
  refine ⟨_, searchCondition?_text hrenders.legible,
    fun before after hstart => ?_⟩
  have hcarried :
      Carries (before ++ fragment.2 ++ after) start fragment.2 := by
    rw [← hstart]
    exact carries_between before fragment.2 after
  obtain ⟨f, hf, halike⟩ := hrenders.denotes _ hcarried
  refine ⟨f, hf, halike.comparisons, fun outcome => halike.eval outcome 0,
    fun test => ?_⟩
  rw [truth_eq_value, halike.value]

/-- Two operators on one column, the first with an AND of its own, beside the
negation of a membership in no list, and a null. -/
def nestedTree : Json :=
  .obj [("$or",
    .arr [.obj
      [("a", .obj [("$between", .arr [.int 1, .int 2]), ("$ne", .null)])],
      .obj [("$not", .obj [("b", .obj [("$nin", .arr [])])])]]),
    ("c", .null)]

/-- The AND of BETWEEN, those of the objects, and the OR each keep to their
place. -/
theorem nestedTree_read_back :
    ∃ fragment c f, condition 3 nestedTree = .ok fragment
      ∧ fragment.1.text
        = "((\"a\" BETWEEN $4 AND $5 AND \"a\" IS NOT NULL) "
          ++ "OR (NOT (TRUE))) AND \"c\" IS NULL"
      ∧ searchCondition? fragment.1.text = some c
      ∧ c.formula? ([.null, .null, .null] ++ fragment.2) = some f
      ∧ f.comparisons
        = [("a", .between (.int 1) (.int 2)), ("a", .isNull), ("c", .isNull)]
      ∧ ∀ outcome, f.eval outcome 0
        = ((outcome 0).and (outcome 1).not).and (outcome 2) := by
  have hcondition : condition 3 nestedTree = .ok _ := rfl
  obtain ⟨c, hc, hread⟩ := text_means_what_tree_says hcondition
  obtain ⟨f, hf, hcomparisons, heval, -⟩ := hread [.null, .null, .null] [] rfl
  refine ⟨_, c, f, hcondition, by decide +kernel, hc, by simpa using hf,
    hcomparisons,
    fun outcome => ?_⟩
  have htree : (formula nestedTree).eval outcome 0
      = ((((outcome 0).and ((outcome 1).not.and .yes)).and .yes).or .no).and
          ((outcome 2).and .yes) := rfl
  rw [heval, htree]
  simp

end Tenancy.Filter.Where

-- ============================================================= filters

namespace Tenancy.Filter

/-- The condition of a filter is written for the client's where-object. -/
theorem whereFragment_ok {filter : Filter} {start : Nat}
    {fragment : Where.Fragment}
    (h : filter.whereFragment start = .ok fragment) :
    Where.Renders (Where.formula (filter.condition.getD .null)) start
      fragment := by
  refine Where.condition_renders start _ ?_
  unfold whereFragment at h
  cases hcondition : filter.condition with
  | none =>
    rw [hcondition] at h
    simpa [Where.condition] using h
  | some value =>
    rw [hcondition] at h
    exact h

end Tenancy.Filter
