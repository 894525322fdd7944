/-
Success, taken apart. A computation in steps succeeds if each of its
steps does, so a success is undone step by step: what the first step
gave, and that the rest succeeded on it. This holds of plain results
(`bind_eq_ok`) and of programs run in a world, where each step also
leaves the state in which the next one starts (`succeeds_bind`).
-/
import Tenancy.Program

namespace Tenancy

variable {ε α β σ : Type}

-- =========================================================== results

/-- Steps succeed if the first of them does and the rest on its result. -/
theorem bind_eq_ok {x : Except ε α} {f : α → Except ε β} {b : β} :
    (x >>= f) = .ok b ↔ ∃ a, x = .ok a ∧ f a = .ok b := by
  cases x with
  | error e => exact ⟨nofun, fun ⟨_, h, _⟩ => nomatch h⟩
  | ok a =>
    exact ⟨fun h => ⟨a, rfl, h⟩, fun ⟨_, ha, h⟩ => by cases ha; exact h⟩

/-- They fail where the first of them does, or where the rest does. -/
theorem bind_eq_error {x : Except ε α} {f : α → Except ε β} {e : ε} :
    (x >>= f) = .error e ↔ x = .error e ∨ ∃ a, x = .ok a ∧ f a = .error e := by
  cases x with
  | error e' => exact ⟨fun h => .inl (by cases h; rfl), fun h => by
      rcases h with h | ⟨_, h, -⟩
      · cases h
        rfl
      · cases h⟩
  | ok a => exact ⟨fun h => .inr ⟨a, rfl, h⟩, fun h => by
      rcases h with h | ⟨_, ha, h⟩
      · cases h
      · cases ha
        exact h⟩

theorem pure_eq_ok {a : α} : (pure a : Except ε α) = .ok a := rfl

theorem throw_eq_error {e : ε} : (throw e : Except ε α) = .error e := rfl

theorem exists_unit {p : Unit → Prop} : (∃ u, p u) ↔ p () :=
  ⟨fun ⟨(), h⟩ => h, fun h => ⟨(), h⟩⟩

-- ========================================================== programs

namespace Program

variable {I : Interface} {world : World I σ}

/-- Run in a world from a state, the program gives a value and leaves a
state. -/
def Succeeds (world : World I σ) (p : ExceptT ε (Program I) α) (s : σ) (a : α)
    (s' : σ) : Prop :=
  p.run.run world s = (.ok a, s')

/-- A program that ends well ends with a value. -/
theorem succeeds_of_isOk {p : ExceptT ε (Program I) α} {s : σ}
    (h : (p.run.run world s).1.isOk = true) :
    ∃ a s', Succeeds world p s a s' := by
  unfold Succeeds
  cases hrun : p.run.run world s with
  | mk result s' =>
    rw [hrun] at h
    cases result with
    | ok a => exact ⟨a, s', rfl⟩
    | error e => cases h

/-- A result leaves the state as it was. -/
theorem succeeds_pure {s s' : σ} {a b : α} :
    Succeeds world (pure a : ExceptT ε (Program I) α) s b s'
      ↔ a = b ∧ s = s' := by
  show ((Except.ok a : Except ε α), s) = (.ok b, s') ↔ _
  simp

/-- What is thrown is no success. -/
theorem not_succeeds_throw {s s' : σ} {e : ε} {b : α} :
    ¬ Succeeds world (throw e : ExceptT ε (Program I) α) s b s' := by
  intro h
  exact absurd (congrArg Prod.fst h) nofun

/-- A step that fails is the end of what it is a step of. -/
theorem run_bind_except (world : World I σ) (p : ExceptT ε (Program I) α)
    (f : α → ExceptT ε (Program I) β) (s : σ) :
    (p >>= f).run.run world s
      = match p.run.run world s with
        | (.ok a, s₁) => (f a).run.run world s₁
        | (.error e, s₁) => (.error e, s₁) := by
  show (Program.bind p.run _).run world s = _
  rw [run_bind]
  cases h : p.run.run world s with
  | mk x s₁ => cases x <;> rfl

/-- Steps succeed one after another, each in the state that the last one
left. -/
theorem succeeds_bind {p : ExceptT ε (Program I) α}
    {f : α → ExceptT ε (Program I) β} {s s' : σ} {b : β} :
    Succeeds world (p >>= f) s b s' ↔
      ∃ a s₁, Succeeds world p s a s₁ ∧ Succeeds world (f a) s₁ b s' := by
  unfold Succeeds
  rw [run_bind_except]
  cases h : p.run.run world s with
  | mk x s₁ =>
    cases x with
    | error e => simp
    | ok a =>
      constructor
      · intro hrest
        exact ⟨a, s₁, rfl, hrest⟩
      · rintro ⟨_, _, hfirst, hrest⟩
        cases hfirst
        exact hrest

theorem succeeds_if_pos {c : Prop} [Decidable c]
    {p q : ExceptT ε (Program I) α} {s s' : σ} {a : α}
    (hc : c) :
    Succeeds world (if c then p else q) s a s' ↔ Succeeds world p s a s' := by
  rw [if_pos hc]

theorem succeeds_if_neg {c : Prop} [Decidable c]
    {p q : ExceptT ε (Program I) α} {s s' : σ} {a : α}
    (hc : ¬c) :
    Succeeds world (if c then p else q) s a s' ↔ Succeeds world q s a s' := by
  rw [if_neg hc]

/-- A step that is made only if a condition holds, and what follows in any
case. -/
theorem succeeds_when {c : Prop} [Decidable c] {p : ExceptT ε (Program I) Unit}
    {f : Unit → ExceptT ε (Program I) α} {s s' : σ} {a : α} :
    Succeeds world (if c then p >>= f else f ()) s a s' ↔
      ∃ s₁,
        (c ∧ Succeeds world p s () s₁ ∨ ¬c ∧ s = s₁)
          ∧ Succeeds world (f ()) s₁ a s' := by
  by_cases hc : c
  · rw [succeeds_if_pos hc, succeeds_bind]
    constructor
    · rintro ⟨_, s₁, hp, hf⟩
      exact ⟨s₁, .inl ⟨hc, hp⟩, hf⟩
    · rintro ⟨s₁, ⟨-, hp⟩ | ⟨hnot, -⟩, hf⟩
      · exact ⟨(), s₁, hp, hf⟩
      · exact absurd hc hnot
  · rw [succeeds_if_neg hc]
    simp [hc]

/-- One of two steps, and what follows either. -/
theorem succeeds_bind_ite {c : Prop} [Decidable c]
    {p q : ExceptT ε (Program I) α}
    {f : α → ExceptT ε (Program I) β} {s s' : σ} {b : β} :
    Succeeds world (if c then p >>= f else q >>= f) s b s' ↔
      ∃ a s₁,
        Succeeds world (if c then p else q) s a s₁
          ∧ Succeeds world (f a) s₁ b s' := by
  by_cases hc : c
  · simp only [if_pos hc]
    exact succeeds_bind
  · simp only [if_neg hc]
    exact succeeds_bind

end Program

end Tenancy
