/-
What a program does while it runs: the calls that it makes, each in the
state in which it makes it, and how it fails if it fails (`AbidesBy`).
It is proved along the program once, and serves every statement about
what the program keeps: one that survives each allowed call holds
wherever the program is cut short (`AbidesBy.throughout`), and one that
survives every call of the interface needs no look at the program at
all (`runFor_of_calls`). Two runs whose allowed calls are answered alike
end alike (`AbidesBy.alike`).
-/
import Tenancy.Proofs.Cuts

namespace Tenancy.Program

variable {I : Interface} {ε α β σ : Type} {world : World I σ}
  {Allowed : σ → I.Call → Prop} {Err : ε → σ → Prop}

/-- Run in a world from a state, the program fails and leaves a state. -/
def Fails (world : World I σ) (p : ExceptT ε (Program I) α) (s : σ) (e : ε)
    (s' : σ) : Prop :=
  p.run.run world s = (.error e, s')

-- ========================================================== failures

/-- A program ends in one of the two ways. -/
theorem succeeds_or_fails (world : World I σ) (p : ExceptT ε (Program I) α)
    (s : σ) :
    (∃ a s', Succeeds world p s a s') ∨ ∃ e s', Fails world p s e s' := by
  unfold Succeeds Fails
  cases p.run.run world s with
  | mk result s' =>
    cases result with
    | ok a => exact .inl ⟨a, s', rfl⟩
    | error e => exact .inr ⟨e, s', rfl⟩

/-- And in only one of them. -/
theorem Fails.not_succeeds {p : ExceptT ε (Program I) α} {s s' s₁ : σ} {e : ε}
    {a : α} (h : Fails world p s e s') : ¬Succeeds world p s a s₁ := by
  intro hsucceeds
  exact absurd (h.symm.trans hsucceeds) nofun

/-- A program fails in one way at most. -/
theorem Fails.unique {p : ExceptT ε (Program I) α} {s s' s₁ : σ} {e e₁ : ε}
    (h : Fails world p s e s') (h₁ : Fails world p s e₁ s₁) :
    e = e₁ ∧ s' = s₁ := by
  have hsame := h.symm.trans h₁
  rw [Prod.mk.injEq, Except.error.injEq] at hsame
  exact hsame

/-- A result is no failure. -/
theorem not_fails_pure {s s' : σ} {a : α} {e : ε} :
    ¬Fails world (pure a : ExceptT ε (Program I) α) s e s' := by
  intro h
  exact absurd (congrArg Prod.fst h) nofun

/-- A failure is the one that is thrown. -/
theorem fails_throw {s s' : σ} {e e' : ε} :
    Fails world (throw e : ExceptT ε (Program I) α) s e' s'
      ↔ e = e' ∧ s = s' := by
  show ((Except.error e : Except ε α), s) = (.error e', s') ↔ _
  simp

/-- Steps fail where the first of them fails, or where the rest does. -/
theorem fails_bind {p : ExceptT ε (Program I) α}
    {f : α → ExceptT ε (Program I) β} {s s' : σ} {e : ε} :
    Fails world (p >>= f) s e s' ↔
      Fails world p s e s' ∨ ∃ a s₁,
        Succeeds world p s a s₁ ∧ Fails world (f a) s₁ e s' := by
  unfold Succeeds Fails
  rw [run_bind_except]
  cases h : p.run.run world s with
  | mk x s₁ =>
    cases x with
    | error e => simp
    | ok a =>
      constructor
      · intro hrest
        exact .inr ⟨a, s₁, rfl, hrest⟩
      · rintro (hfirst | ⟨_, _, hfirst, hrest⟩)
        · cases hfirst
        · cases hfirst
          exact hrest

theorem fails_if_pos {c : Prop} [Decidable c] {p q : ExceptT ε (Program I) α}
    {s s' : σ} {e : ε}
    (hc : c) :
    Fails world (if c then p else q) s e s' ↔ Fails world p s e s' := by
  rw [if_pos hc]

theorem fails_if_neg {c : Prop} [Decidable c] {p q : ExceptT ε (Program I) α}
    {s s' : σ} {e : ε}
    (hc : ¬c) :
    Fails world (if c then p else q) s e s' ↔ Fails world q s e s' := by
  rw [if_neg hc]

-- ============================================================= calls

/-- What every call of an interface respects, every program does. -/
theorem runFor_of_calls {R : σ → σ → Prop} (hrefl : ∀ s, R s s)
    (htrans : ∀ s t u, R s t → R t u → R s u)
    (hcall : ∀ call s, R s (world call s).2)
    (p : Program I α) (calls : Nat) (s : σ) :
    R s (p.runFor world calls s).2 := by
  induction p generalizing calls s with
  | done a => cases calls <;> exact hrefl s
  | ask call next ih =>
    cases calls with
    | zero => exact hrefl s
    | succ calls => exact htrans _ _ _ (hcall call s) (ih _ calls _)

/-- Every call that the program makes is allowed where it is made, and a
failure is as stated. -/
def AbidesBy (world : World I σ) (Allowed : σ → I.Call → Prop)
    (Err : ε → σ → Prop) : Program I (Except ε α) → σ → Prop
  | .done (.ok _), _ => True
  | .done (.error e), s => Err e s
  | .ask call next, s =>
    Allowed s call
      ∧ AbidesBy world Allowed Err (next (world call s).1) (world call s).2

/-- What the allowed calls keep holds at every cut. -/
theorem AbidesBy.runFor {Inv : σ → Prop} {p : Program I (Except ε α)} {s : σ}
    (h : AbidesBy world Allowed Err p s)
    (hstep : ∀ call s, Inv s → Allowed s call → Inv (world call s).2)
    (hs : Inv s) (calls : Nat) : Inv (p.runFor world calls s).2 := by
  induction p generalizing calls s with
  | done a => cases calls <;> exact hs
  | ask call next ih =>
    cases calls with
    | zero => exact hs
    | succ calls => exact ih _ h.2 (hstep call s hs h.1) calls

/-- What allowed calls keep holds wherever the program is cut short. -/
theorem AbidesBy.throughout {Inv : σ → Prop} {p : ExceptT ε (Program I) α}
    {s : σ} (h : AbidesBy world Allowed Err p.run s)
    (hstep : ∀ call s, Inv s → Allowed s call → Inv (world call s).2)
    (hs : Inv s) : Throughout world Inv p s :=
  fun calls => h.runFor hstep hs calls

/-- A failure is one of those that are allowed. -/
theorem AbidesBy.failure {p : ExceptT ε (Program I) α} {s s' : σ} {e : ε}
    (h : AbidesBy world Allowed Err p.run s) (hfails : Fails world p s e s') :
    Err e s' := by
  unfold Fails at hfails
  generalize p.run = q at h hfails
  induction q generalizing s with
  | done result =>
    cases hfails
    exact h
  | ask call next ih => exact ih _ h.2 hfails

/-- What abides by one rule abides by a wider one. -/
theorem AbidesBy.mono {Allowed' : σ → I.Call → Prop} {Err' : ε → σ → Prop}
    {p : Program I (Except ε α)} {s : σ} (h : AbidesBy world Allowed Err p s)
    (hcall : ∀ s call, Allowed s call → Allowed' s call)
    (herr : ∀ e s, Err e s → Err' e s) : AbidesBy world Allowed' Err' p s := by
  induction p generalizing s with
  | done result =>
    cases result with
    | ok a => trivial
    | error e => exact herr e s h
  | ask call next ih => exact ⟨hcall s call h.1, ih _ h.2⟩

/-- What allowed calls keep holds at the end. -/
theorem AbidesBy.final {Inv : σ → Prop} {p : Program I (Except ε α)} {s : σ}
    (h : AbidesBy world Allowed Err p s)
    (hstep : ∀ call s, Inv s → Allowed s call → Inv (world call s).2)
    (hs : Inv s) : Inv (p.run world s).2 := by
  obtain ⟨calls, hcalls⟩ := exists_runFor_eq_run world p s
  have hrun := h.runFor hstep hs calls
  rw [hcalls] at hrun
  exact hrun

/-- If allowed calls are answered alike in related states and leave related
states, so does the program as a whole. -/
theorem AbidesBy.alike {R : σ → σ → Prop} {p : Program I (Except ε α)}
    {s t : σ} (h : AbidesBy world Allowed Err p s)
    (hcall : ∀ call s t, R s t → Allowed s call →
      (world call s).1 = (world call t).1
        ∧ R (world call s).2 (world call t).2)
    (hst : R s t) :
    (p.run world s).1 = (p.run world t).1
      ∧ R (p.run world s).2 (p.run world t).2 := by
  induction p generalizing s t with
  | done a => exact ⟨rfl, hst⟩
  | ask call next ih =>
    obtain ⟨hanswer, hnext⟩ := hcall call s t hst h.1
    simp only [Program.run]
    rw [← hanswer]
    exact ih _ h.2 hnext

-- ============================================================= parts

theorem abidesBy_pure {s : σ} {a : α} :
    AbidesBy world Allowed Err (pure a : ExceptT ε (Program I) α).run s :=
  trivial

theorem abidesBy_throw {s : σ} {e : ε} (h : Err e s) :
    AbidesBy world Allowed Err (throw e : ExceptT ε (Program I) α).run s :=
  h

/-- What follows a step starts in a state that the step leaves. -/
theorem AbidesBy.bind {p : ExceptT ε (Program I) α}
    {f : α → ExceptT ε (Program I) β} {s : σ}
    (hp : AbidesBy world Allowed Err p.run s)
    (hf : ∀ a s', Succeeds world p s a s' →
      AbidesBy world Allowed Err (f a).run s') :
    AbidesBy world Allowed Err (p >>= f).run s := by
  show AbidesBy world Allowed Err (Program.bind p.run _) s
  unfold Succeeds at hf
  generalize p.run = q at hp hf ⊢
  induction q generalizing s with
  | done result =>
    cases result with
    | ok a => exact hf a s rfl
    | error e => exact hp
  | ask call next ih => exact ⟨hp.1, ih _ hp.2 hf⟩

/-- A result is followed by what it is turned into. -/
theorem AbidesBy.recast {ε' : Type} {Err' : ε' → σ → Prop}
    {q : Program I (Except ε α)}
    {k : Except ε α → Program I (Except ε' β)} {s : σ}
    (h : AbidesBy world Allowed Err q s)
    (hok : ∀ a s', q.run world s = (.ok a, s') →
      AbidesBy world Allowed Err' (k (.ok a)) s')
    (herr : ∀ e s', Err e s' → AbidesBy world Allowed Err' (k (.error e)) s') :
    AbidesBy world Allowed Err' (q.bind k) s := by
  induction q generalizing s with
  | done result =>
    cases result with
    | ok a => exact hok a s rfl
    | error e => exact herr e s h
  | ask call next ih => exact ⟨h.1, ih _ h.2 hok⟩

theorem AbidesBy.ite {c : Prop} [Decidable c] {p q : ExceptT ε (Program I) α}
    {s : σ} (hp : c → AbidesBy world Allowed Err p.run s)
    (hq : ¬c → AbidesBy world Allowed Err q.run s) :
    AbidesBy world Allowed Err (if c then p else q).run s := by
  by_cases hc : c
  · rw [if_pos hc]
    exact hp hc
  · rw [if_neg hc]
    exact hq hc

/-- A step that is made only if a condition holds, and what follows in any
case. -/
theorem AbidesBy.when {c : Prop} [Decidable c] {p : ExceptT ε (Program I) Unit}
    {f : Unit → ExceptT ε (Program I) α} {s : σ}
    (hp : c → AbidesBy world Allowed Err p.run s)
    (hf : ∀ s', (c ∧ Succeeds world p s () s' ∨ ¬c ∧ s = s') →
      AbidesBy world Allowed Err (f ()).run s') :
    AbidesBy world Allowed Err (if c then p >>= f else f ()).run s := by
  refine .ite (fun hc => ?_) (fun hc => hf s (.inr ⟨hc, rfl⟩))
  exact (hp hc).bind fun _ s' h => hf s' (.inl ⟨hc, h⟩)

end Tenancy.Program
