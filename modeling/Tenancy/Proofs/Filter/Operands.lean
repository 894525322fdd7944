/-
Where-trees that differ in operands only. Two trees are alike if they
have the same members, keys and connectives, and the same operators with
the same nulls and list lengths, so that only scalars that are compared
with a column may differ (`Alike`). A tree's operands are read off it in
the order in which they are numbered (`boundBy`).

Conditions of alike trees are the same condition over other operands,
and are refused for the same reason (`condition_agree`). The invariant
of the induction is `Agree`: what has been written so far refers to
operands by number only, and equally many have been numbered, so the
remainder starts at the same number in both.
-/
import Mathlib.Data.List.Forall2
import Tenancy.Proofs.Filter.Meaning

namespace Tenancy.Filter.Where

open Sql

-- ========================================================= alike trees

/-- A scalar that is not null; its value is never part of a condition. -/
def isPlain (v : Json) : Bool := v.isScalar && !v.isNull

/-- What stands in one place of two trees: the same, or two plain scalars. -/
def Exchanged (v w : Json) : Prop :=
  v = w ∨ isPlain v = true ∧ isPlain w = true

/-- Lists whose items are exchanged one for one, or single values exchanged. -/
def ItemsExchanged : Json → Json → Prop
  | .arr vs, .arr ws => List.Forall₂ Exchanged vs ws
  | v, w => Exchanged v w

/-- What an operator is given in one place of two trees. -/
def DataAlike (op : FilterOperator) (v w : Json) : Prop :=
  match op with
  | .eq | .ne | .gt | .gte | .lt | .lte | .like | .ilike => Exchanged v w
  | .in_ | .notIn | .between => ItemsExchanged v w
  | .null => v = w

/-- One operator of a column, in two trees; of an unknown one nothing
differs. -/
def TestAlike (m n : String × Json) : Prop :=
  m.1 = n.1 ∧ match FilterOperator.ofKey? m.1 with
    | some op => DataAlike op m.2 n.2
    | none => m.2 = n.2

/-- What is asked of one column, in two trees. -/
def ColumnAlike : Json → Json → Prop
  | .obj ms, .obj ns => List.Forall₂ TestAlike ms ns
  | v, w => Exchanged v w

mutual

/-- Two trees that are equal but for plain scalars compared with a column. -/
def Alike : Json → Json → Prop
  | .obj ms, .obj ns => MembersAlike ms ns
  | v, w => v = w

/-- The members of two alike objects. -/
def MembersAlike : List (String × Json) → List (String × Json) → Prop
  | [], [] => True
  | (key, v) :: ms, (key', w) :: ns =>
    key = key' ∧ (match Key.of key with
      | .column => ColumnAlike v w
      | .connective _ => ConnectedAlike v w
      | .not => Alike v w
      | .unknown => v = w) ∧ MembersAlike ms ns
  | _, _ => False

/-- What one connective connects in two alike trees. -/
def ConnectedAlike : Json → Json → Prop
  | .arr vs, .arr ws => EachAlike vs ws
  | v, w => v = w

/-- Lists of trees, alike one by one. -/
def EachAlike : List Json → List Json → Prop
  | [], [] => True
  | v :: vs, w :: ws => Alike v w ∧ EachAlike vs ws
  | _, _ => False

end

-- ===================================================== bound operands

/-- What an operator binds: what it is given, item by item if it takes a list;
nothing where it asks for a null or for the presence of a value. -/
def testBinds (op : FilterOperator) (data : Json) : List Json :=
  match op with
  | .eq | .ne => if data.isNull then [] else [data]
  | .gt | .gte | .lt | .lte | .like | .ilike => [data]
  | .in_ | .notIn | .between => values data
  | .null => []

/-- The operands of a column's operators, in their order. -/
def columnBinds : Json → List Json
  | .obj ms => ms.flatMap fun m =>
      match FilterOperator.ofKey? m.1 with
      | some op => testBinds op m.2
      | none => []
  | v => testBinds .eq v

mutual

/-- The operands of a where-tree, in the order in which they are met. -/
def boundBy : Json → List Json
  | .obj entries => membersBind entries
  | _ => []

/-- The operands of the members of an object, in the order of its members. -/
def membersBind : List (String × Json) → List Json
  | [] => []
  | (key, value) :: rest =>
    (match Key.of key with
      | .column => columnBinds value
      | .connective _ => connectedBind value
      | .not => boundBy value
      | .unknown => []) ++ membersBind rest

/-- The operands of what a connective joins. -/
def connectedBind : Json → List Json
  | .arr items => eachBinds items
  | _ => []

/-- The operands of trees, one tree after another. -/
def eachBinds : List Json → List Json
  | [] => []
  | v :: rest => boundBy v ++ eachBinds rest

end

-- =============================================================== agree

/-- Two results over operands: refused for the same reason, or the same but
for operands that are exchanged one for one. -/
def Agree {γ : Type} (xs ys : List Json)
    (r r' : Except FilterError (γ × List Json)) : Prop :=
  (∃ e, r = .error e ∧ r' = .error e)
    ∨ List.Forall₂ Exchanged xs ys ∧ ∃ c, r = .ok (c, xs) ∧ r' = .ok (c, ys)

section

variable {γ δ η : Type} {xs ys us vs : List Json}
  {r r' : Except FilterError (γ × List Json)}

/-- The same refusal is agreement. -/
theorem agree_error (e : FilterError) :
    Agree (γ := γ) xs ys (.error e) (.error e) :=
  .inl ⟨e, rfl, rfl⟩

/-- So is the same text with operands that may be exchanged. -/
theorem agree_ok (h : List.Forall₂ Exchanged xs ys) (c : γ) :
    Agree xs ys (.ok (c, xs)) (.ok (c, ys)) :=
  .inr ⟨h, c, rfl, rfl⟩

/-- What is made of the text alone keeps the agreement. -/
theorem Agree.map (h : Agree xs ys r r') (f : γ → δ) :
    Agree xs ys (r >>= fun x => pure (f x.1, x.2))
      (r' >>= fun x => pure (f x.1, x.2)) := by
  rcases h with ⟨e, rfl, rfl⟩ | ⟨hxs, c, rfl, rfl⟩
  · exact agree_error e
  · exact agree_ok hxs (f c)

/-- Two steps agree if each does, the second starting at whatever number. -/
theorem Agree.append {k k' : Nat → Except FilterError (δ × List Json)}
    (h : Agree xs ys r r')
    (hk : ∀ n, Agree us vs (k n) (k' n)) (f : γ → δ → η) :
    Agree (xs ++ us) (ys ++ vs)
      (r >>= fun x => k x.2.length >>= fun y => pure (f x.1 y.1, x.2 ++ y.2))
      (r' >>= fun x => k' x.2.length
        >>= fun y => pure (f x.1 y.1, x.2 ++ y.2)) := by
  rcases h with ⟨e, rfl, rfl⟩ | ⟨hxs, c, rfl, rfl⟩
  · exact agree_error e
  · have hlength : xs.length = ys.length := hxs.length_eq
    show Agree _ _ (k xs.length >>= fun y => pure (f c y.1, xs ++ y.2))
      (k' ys.length >>= fun y => pure (f c y.1, ys ++ y.2))
    rw [← hlength]
    rcases hk xs.length with ⟨e, hr, hr'⟩ | ⟨hus, d, hr, hr'⟩
    · rw [hr, hr']
      exact agree_error e
    · rw [hr, hr']
      exact agree_ok (List.rel_append hxs hus) (f c d)

end

-- ============================================================== leaves

theorem exchanged_refl (v : Json) : Exchanged v v := .inl rfl

/-- A plain value is a scalar. -/
theorem isScalar_of_isPlain {v : Json} (h : isPlain v = true) :
    v.isScalar = true := by
  unfold isPlain at h
  exact (Bool.and_eq_true_iff.1 h).1

/-- A null is exchanged for a null only. -/
theorem Exchanged.isNull_eq {v w : Json} (h : Exchanged v w) :
    v.isNull = w.isNull := by
  rcases h with rfl | ⟨hv, hw⟩
  · rfl
  · unfold isPlain at hv hw
    simp only [Bool.and_eq_true, Bool.not_eq_true'] at hv hw
    rw [hv.2, hw.2]

/-- Values that are no scalars are exchanged for themselves only. -/
theorem Exchanged.eq_of_not_isScalar {v w : Json} (h : Exchanged v w)
    (hnot : v.isScalar = false ∨ w.isScalar = false) : v = w := by
  rcases h with rfl | ⟨hv, hw⟩
  · rfl
  · rw [isScalar_of_isPlain hv, isScalar_of_isPlain hw] at hnot
    simp at hnot

/-- Exchanged operands are both accepted, or refused for the same reason. -/
theorem Exchanged.operand {v w : Json} (h : Exchanged v w) :
    (∃ e, operand v = .error e ∧ operand w = .error e)
      ∨ Where.operand v = .ok v ∧ Where.operand w = .ok w := by
  by_cases hv : v.isScalar = true
  · right
    have hw : w.isScalar = true := by
      rcases h with rfl | ⟨-, hw⟩
      · exact hv
      · exact isScalar_of_isPlain hw
    unfold Where.operand
    rw [if_pos hv, if_pos hw]
    exact ⟨rfl, rfl⟩
  · left
    have heq := h.eq_of_not_isScalar (.inl (by simpa using hv))
    subst heq
    unfold Where.operand
    rw [if_neg hv]
    exact ⟨_, rfl, rfl⟩

/-- Lists that may be exchanged are accepted or refused alike. -/
theorem operands_agree {vs ws : List Json} (h : List.Forall₂ Exchanged vs ws) :
    (∃ e, operands vs = .error e ∧ operands ws = .error e)
      ∨ operands vs = .ok vs ∧ operands ws = .ok ws := by
  induction h with
  | nil => exact .inr ⟨rfl, rfl⟩
  | cons hfirst _ ih =>
    unfold operands
    rcases hfirst.operand with ⟨e, hv, hw⟩ | ⟨hv, hw⟩
    · rw [hv, hw]
      exact .inl ⟨e, rfl, rfl⟩
    · rw [hv, hw]
      rcases ih with ⟨e, hvs, hws⟩ | ⟨hvs, hws⟩
      · rw [hvs, hws]
        exact .inl ⟨e, rfl, rfl⟩
      · rw [hvs, hws]
        exact .inr ⟨rfl, rfl⟩

/-- Comparisons with values that may be exchanged agree. -/
theorem comparison_agree (start : Nat) (column : String) (op : Comparison)
    {v w : Json} (h : Exchanged v w) :
    Agree [v] [w] (comparison start column op v)
      (comparison start column op w) := by
  unfold comparison
  rcases h.operand with ⟨e, hv, hw⟩ | ⟨hv, hw⟩
  · rw [hv, hw]
    exact agree_error e
  · rw [hv, hw]
    exact agree_ok (.cons h .nil) _

/-- Exchanged items are both in lists, or are both no lists. -/
theorem ItemsExchanged.cases {v w : Json} (h : ItemsExchanged v w) :
    (∃ vs ws, v = .arr vs ∧ w = .arr ws ∧ List.Forall₂ Exchanged vs ws)
      ∨ ((∀ vs, v ≠ .arr vs) ∧ ∀ ws, w ≠ .arr ws) ∧ Exchanged v w := by
  unfold ItemsExchanged at h
  split at h
  · exact .inl ⟨_, _, rfl, rfl, h⟩
  · rename_i hnot
    refine .inr ⟨⟨fun vs hv => ?_, fun ws hw => ?_⟩, h⟩
    · subst hv
      exact hnot _ _ rfl (h.eq_of_not_isScalar (.inl rfl)).symm
    · subst hw
      exact hnot _ _ (h.eq_of_not_isScalar (.inr rfl)) rfl

/-- What is no list is its own only value. -/
theorem values_of_ne_arr {v : Json} (h : ∀ vs, v ≠ .arr vs) :
    values v = [v] := by
  unfold values
  split
  · exact absurd rfl (h _)
  · rfl

/-- Lists are exchanged item by item. -/
theorem ItemsExchanged.values {v w : Json} (h : ItemsExchanged v w) :
    List.Forall₂ Exchanged (values v) (values w) := by
  rcases h.cases with ⟨vs, ws, rfl, rfl, hitems⟩ | ⟨⟨hv, hw⟩, hexchanged⟩
  · exact hitems
  · rw [values_of_ne_arr hv, values_of_ne_arr hw]
    exact .cons hexchanged .nil

/-- So do memberships in lists of one length. -/
theorem membership_agree (start : Nat) (column : String) (isIn : Bool)
    {v w : Json} (h : ItemsExchanged v w) :
    Agree (values v) (values w) (membership start column isIn v)
      (membership start column isIn w) := by
  have hvalues := h.values
  show Agree _ _ (operands (values v) >>= _) (operands (values w) >>= _)
  generalize values v = vs at *
  generalize values w = ws at *
  rcases operands_agree hvalues with ⟨e, hv, hw⟩ | ⟨hv, hw⟩
  · rw [hv, hw]
    exact agree_error e
  · rw [hv, hw]
    cases hvalues with
    | nil => exact agree_ok .nil _
    | cons hfirst hrest =>
      -- the placeholders are counted off by the length of the list
      have hlength := hrest.length_eq
      refine .inr ⟨.cons hfirst hrest, _, rfl, ?_⟩
      simp only [List.length_cons, hlength]
      rfl

/-- So do ranges. -/
theorem between_agree (start : Nat) (column : String) {v w : Json}
    (h : ItemsExchanged v w) :
    Agree (values v) (values w) (test start column .between v)
      (test start column .between w) := by
  rcases h.cases with ⟨vs, ws, rfl, rfl, hitems⟩ | ⟨⟨hv, hw⟩, -⟩
  · cases hitems with
    | nil => exact agree_error _
    | cons hlow hrest =>
      cases hrest with
      | nil => exact agree_error _
      | cons hhigh hmore =>
        cases hmore with
        | nil =>
          simp only [test]
          rcases hlow.operand with ⟨e, hv, hw⟩ | ⟨hv, hw⟩
          · rw [hv, hw]
            exact agree_error e
          · rw [hv, hw]
            rcases hhigh.operand with ⟨e, hv', hw'⟩ | ⟨hv', hw'⟩
            · rw [hv', hw']
              exact agree_error e
            · rw [hv', hw']
              exact agree_ok (.cons hlow (.cons hhigh .nil)) _
        | cons _ _ => exact agree_error _
  · have hrefused : ∀ {data : Json}, (∀ items, data ≠ .arr items) →
        test start column .between data
          = .error
            (.invalidOperatorData "$between requires exactly 2 values") := by
      intro data hdata
      simp only [test]
      split
      · exact absurd rfl (hdata _)
      · rfl
    rw [hrefused hv, hrefused hw]
    exact agree_error _

/-- Equality and its negation, which ask for null by a text of its own. -/
theorem nullness_agree (start : Nat) (column : String) (op : Comparison)
    (isNull : Bool) {v w : Json} (h : Exchanged v w) :
    Agree (if v.isNull then [] else [v]) (if w.isNull then [] else [w])
      (if v.isNull then .ok (.nullness column isNull, [])
        else comparison start column op v)
      (if w.isNull then .ok (.nullness column isNull, [])
        else comparison start column op w) := by
  rw [← h.isNull_eq]
  by_cases hnull : v.isNull = true
  · simp only [if_pos hnull]
    exact agree_ok .nil _
  · simp only [if_neg hnull]
    exact comparison_agree start column op h

/-- So does every operator, with data that are alike for it. -/
theorem test_agree (start : Nat) (column : String) {op : FilterOperator}
    {v w : Json} (h : DataAlike op v w) :
    Agree (testBinds op v) (testBinds op w) (test start column op v)
      (test start column op w) := by
  cases op with
  | eq => exact nullness_agree start column .eq true h
  | ne => exact nullness_agree start column .ne false h
  | gt => exact comparison_agree start column .gt h
  | gte => exact comparison_agree start column .gte h
  | lt => exact comparison_agree start column .lt h
  | lte => exact comparison_agree start column .lte h
  | like => exact comparison_agree start column .like h
  | ilike => exact comparison_agree start column .ilike h
  | in_ => exact membership_agree start column true h
  | notIn => exact membership_agree start column false h
  | between => exact between_agree start column h
  | null =>
    have hsame : v = w := h
    subst hsame
    simp only [test]
    split
    · exact agree_ok .nil _
    · exact agree_error _

-- =========================================================== columns

/-- One operator that was looked up, in two trees. -/
def NamedAlike (m n : FilterOperator × Json) : Prop :=
  m.1 = n.1 ∧ DataAlike m.1 m.2 n.2

/-- The operands of operators that were looked up. -/
def namedBinds (named : List (FilterOperator × Json)) : List Json :=
  named.flatMap fun m => testBinds m.1 m.2

/-- An operator binds its data before those behind it. -/
theorem columnBinds_cons {key : String} {op : FilterOperator}
    (h : FilterOperator.ofKey? key = some op)
    (data : Json) (ms : Json.Members) :
    columnBinds (.obj ((key, data) :: ms))
      = testBinds op data ++ columnBinds (.obj ms) := by
  simp only [columnBinds, List.flatMap_cons, h]

/-- The operators of alike objects are looked up alike. -/
theorem namedTests_agree {ms ns : Json.Members}
    (h : List.Forall₂ TestAlike ms ns) :
    (∃ e, namedTests ms = .error e ∧ namedTests ns = .error e)
      ∨ ∃ named others, namedTests ms = .ok named ∧ namedTests ns = .ok others
        ∧ List.Forall₂ NamedAlike named others
        ∧ columnBinds (.obj ms) = namedBinds named
        ∧ columnBinds (.obj ns) = namedBinds others := by
  induction h with
  | nil => exact .inr ⟨[], [], rfl, rfl, .nil, rfl, rfl⟩
  | @cons m n ms ns hfirst _ ih =>
    obtain ⟨key, v⟩ := m
    obtain ⟨key', w⟩ := n
    obtain ⟨hkey, hdata⟩ := hfirst
    cases hkey
    unfold namedTests
    cases hop : FilterOperator.ofKey? key with
    | none => exact .inl ⟨_, rfl, rfl⟩
    | some op =>
      simp only [hop] at hdata ⊢
      rcases ih with
        ⟨e, hms, hns⟩ | ⟨named, others, hms, hns, halike, hbinds, hbinds'⟩
      · rw [hms, hns]
        exact .inl ⟨e, rfl, rfl⟩
      · rw [hms, hns]
        refine .inr
          ⟨(op, v) :: named, (op, w) :: others, rfl, rfl,
            .cons ⟨rfl, hdata⟩ halike, ?_, ?_⟩
        · rw [columnBinds_cons hop, hbinds]
          rfl
        · rw [columnBinds_cons hop, hbinds']
          rfl

/-- Operators on one column agree one by one. -/
theorem tests_agree (start : Nat) (column : String)
    {named others : List (FilterOperator × Json)}
    (h : List.Forall₂ NamedAlike named others) :
    Agree (namedBinds named) (namedBinds others) (tests start column named)
      (tests start column others) := by
  induction h generalizing start with
  | nil => exact agree_ok .nil _
  | @cons m n named others hfirst _ ih =>
    obtain ⟨op, v⟩ := m
    obtain ⟨op', w⟩ := n
    obtain ⟨hop, hdata⟩ := hfirst
    cases hop
    exact (test_agree start column hdata).append (fun k => ih (start + k))
      List.cons

/-- What is asked of a column is in both trees an object, or in none. -/
theorem ColumnAlike.cases {v w : Json} (h : ColumnAlike v w) :
    (∃ ms ns, v = .obj ms ∧ w = .obj ns ∧ List.Forall₂ TestAlike ms ns)
      ∨ ((∀ ms, v ≠ .obj ms) ∧ ∀ ns, w ≠ .obj ns) ∧ Exchanged v w := by
  unfold ColumnAlike at h
  split at h
  · exact .inl ⟨_, _, rfl, rfl, h⟩
  · rename_i hnot
    refine .inr ⟨⟨fun ms hv => ?_, fun ns hw => ?_⟩, h⟩
    · subst hv
      exact hnot _ _ rfl (h.eq_of_not_isScalar (.inl rfl)).symm
    · subst hw
      exact hnot _ _ (h.eq_of_not_isScalar (.inr rfl)) rfl

/-- A value that is no object is compared by equality. -/
theorem columnTests_of_ne_obj {v : Json} (h : ∀ ms, v ≠ .obj ms) :
    columnTests v = .ok [(.eq, v)]
      ∧ columnBinds v = namedBinds [(.eq, v)] := by
  unfold columnTests columnBinds namedBinds
  constructor
  · split
    · exact absurd rfl (h _)
    · rfl
  · split
    · exact absurd rfl (h _)
    · simp

/-- And so does what is said of a column. -/
theorem column_agree (start : Nat) (name : String) {v w : Json}
    (h : ColumnAlike v w) :
    Agree (columnBinds v) (columnBinds w) (column start name v)
      (column start name w) := by
  unfold column
  cases checkColumn Sql.Identifier.isValid name with
  | error e => exact agree_error e
  | ok _ =>
    show Agree _ _ (columnTests v >>= tests start name)
        (columnTests w >>= tests start name)
    rcases h.cases with ⟨ms, ns, rfl, rfl, halike⟩ | ⟨⟨hv, hw⟩, hexchanged⟩
    · show Agree _ _ (namedTests ms >>= tests start name)
          (namedTests ns >>= tests start name)
      rcases namedTests_agree halike with
        ⟨e, hms, hns⟩ | ⟨named, others, hms, hns, hnamed, hv, hw⟩
      · rw [hms, hns]
        exact agree_error e
      · rw [hms, hns, hv, hw]
        exact tests_agree start name hnamed
    · obtain ⟨htests, hbinds⟩ := columnTests_of_ne_obj hv
      obtain ⟨htests', hbinds'⟩ := columnTests_of_ne_obj hw
      rw [htests, htests', hbinds, hbinds']
      exact tests_agree start name (.cons ⟨rfl, hexchanged⟩ .nil)

-- ============================================================== trees

mutual

/-- Conditions of alike trees differ in their operands only. -/
theorem condition_agree : (start : Nat) → (v w : Json) → Alike v w →
    Agree (boundBy v) (boundBy w) (condition start v) (condition start w)
  | start, .obj ms, .obj ns, h => by
    simp only [Alike] at h
    simp only [condition, boundBy]
    exact (members_agree start ms ns h).map Condition.all
  | _, .null, w, h => by
    simp only [Alike] at h
    subst h
    simp only [condition, boundBy]
    exact agree_ok .nil _
  | _, .bool _, w, h | _, .int _, w, h | _, .float _, w, h | _, .str _, w, h
  | _, .arr _, w, h => by
    simp only [Alike] at h
    subst h
    simp only [condition]
    exact agree_error _
  | _, .obj _, .null, h | _, .obj _, .bool _, h | _, .obj _, .int _, h
  | _, .obj _, .float _, h
  | _, .obj _, .str _, h | _, .obj _, .arr _, h => by
    simp [Alike] at h
termination_by structural _ v => v

/-- The conditions of alike members, one behind the other. -/
theorem members_agree :
    (start : Nat) → (ms ns : List (String × Json)) → MembersAlike ms ns →
    Agree (membersBind ms) (membersBind ns) (members start ms)
      (members start ns)
  | _, [], [], _ => by
    simp only [members, membersBind]
    exact agree_ok .nil _
  | start, (key, v) :: ms, (key', w) :: ns, h => by
    simp only [MembersAlike] at h
    obtain ⟨hkey, hvalue, hrest⟩ := h
    subst hkey
    simp only [members, membersBind]
    have hmore := fun k => members_agree (start + k) ms ns hrest
    cases hof : Key.of key with
    | column =>
      rw [hof] at hvalue
      exact (column_agree start key hvalue).append hmore List.append
    | connective op =>
      rw [hof] at hvalue
      exact (connected_agree op start v w hvalue).append hmore fun c cs => [c]
        ++ cs
    | not =>
      rw [hof] at hvalue
      exact (condition_agree start v w hvalue).append hmore fun c cs => [c.not]
        ++ cs
    | unknown => exact agree_error _
  | _, [], _ :: _, h | _, _ :: _, [], h => by
    simp [MembersAlike] at h
termination_by structural _ ms => ms

/-- The conditions of alike connectives. -/
theorem connected_agree (op : Connective) :
    (start : Nat) → (v w : Json) → ConnectedAlike v w →
    Agree (connectedBind v) (connectedBind w) (connected op start v)
      (connected op start w)
  | start, .arr vs, .arr ws, h => by
    simp only [ConnectedAlike] at h
    simp only [connected, connectedBind]
    exact (conditions_agree start vs ws h).map op.join
  | _, .null, w, h | _, .bool _, w, h | _, .int _, w, h | _, .float _, w, h
  | _, .str _, w, h
  | _, .obj _, w, h => by
    simp only [ConnectedAlike] at h
    subst h
    simp only [connected]
    exact agree_error _
  | _, .arr _, .null, h | _, .arr _, .bool _, h | _, .arr _, .int _, h
  | _, .arr _, .float _, h
  | _, .arr _, .str _, h | _, .arr _, .obj _, h => by
    simp [ConnectedAlike] at h
termination_by structural _ v => v

/-- The conditions of lists of trees that are alike one by one. -/
theorem conditions_agree :
    (start : Nat) → (vs ws : List Json) → EachAlike vs ws →
    Agree (eachBinds vs) (eachBinds ws) (conditions start vs)
      (conditions start ws)
  | _, [], [], _ => by
    simp only [conditions, eachBinds]
    exact agree_ok .nil _
  | start, v :: vs, w :: ws, h => by
    simp only [EachAlike] at h
    simp only [conditions, eachBinds]
    exact (condition_agree start v w h.1).append
      (fun k => conditions_agree (start + k) vs ws h.2) List.cons
  | _, [], _ :: _, h | _, _ :: _, [], h => by
    simp [EachAlike] at h
termination_by structural _ vs => vs

end

end Tenancy.Filter.Where
