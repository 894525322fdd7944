/-
Programs cut short. A run can end behind any of its calls, and a
statement about all of these ends is a statement about what the program
keeps throughout. It is proved along the program: each step keeps it if
its own calls do, and what follows a step starts in a state that the
step leaves when it succeeds (`Throughout.bind`). The end of a whole run
is one of the cuts (`Throughout.final`).
-/
import Tenancy.Proofs.Outcome

namespace Tenancy.Program

variable {I : Interface} {ε α β σ : Type} {world : World I σ} {Inv : σ → Prop}

-- ============================================================== cuts

/-- A run for enough calls is the whole run. -/
theorem exists_runFor_eq_run (world : World I σ) (p : Program I α) (s : σ) :
    ∃ calls, (p.runFor world calls s).2 = (p.run world s).2 := by
  induction p generalizing s with
  | done a => exact ⟨0, rfl⟩
  | ask call next ih =>
    obtain ⟨calls, hrun⟩ := ih (world call s).1 (world call s).2
    exact ⟨calls + 1, hrun⟩

/-- A cut of two programs in a row is a cut of the first, or of the second
behind the whole first. -/
theorem runFor_bind (world : World I σ) (p : Program I α) (f : α → Program I β)
    (calls : Nat) (s : σ) :
    ((p.bind f).runFor world calls s).2 = (p.runFor world calls s).2
      ∨ ∃ later, ((p.bind f).runFor world calls s).2
          = ((f (p.run world s).1).runFor world later
            (p.run world s).2).2 := by
  induction p generalizing calls s with
  | done a => exact .inr ⟨calls, rfl⟩
  | ask call next ih =>
    cases calls with
    | zero => exact .inl rfl
    | succ calls => exact ih (world call s).1 calls (world call s).2

-- ======================================================== throughout

/-- Wherever the program is cut short, the state is as stated. -/
def Throughout (world : World I σ) (Inv : σ → Prop)
    (p : ExceptT ε (Program I) α) (s : σ) : Prop :=
  ∀ calls, Inv (p.run.runFor world calls s).2

theorem Throughout.run {p : ExceptT ε (Program I) α} {s : σ}
    (h : Throughout world Inv p s) : Inv (p.run.run world s).2 := by
  obtain ⟨calls, hrun⟩ := exists_runFor_eq_run world p.run s
  rw [← hrun]
  exact h calls

theorem Throughout.final {p : ExceptT ε (Program I) α} {s s' : σ} {a : α}
    (h : Throughout world Inv p s) (hp : Succeeds world p s a s') :
    Inv s' := by
  have hrun := h.run
  unfold Succeeds at hp
  rwa [hp] at hrun

theorem Throughout.mono {Inv' : σ → Prop} {p : ExceptT ε (Program I) α} {s : σ}
    (h : Throughout world Inv p s) (himp : ∀ t, Inv t → Inv' t) :
    Throughout world Inv' p s :=
  fun calls => himp _ (h calls)

theorem throughout_pure {s : σ} {a : α} (h : Inv s) :
    Throughout world Inv (pure a : ExceptT ε (Program I) α) s := by
  intro calls
  cases calls <;> exact h

theorem throughout_throw {s : σ} {e : ε} (h : Inv s) :
    Throughout world Inv (throw e : ExceptT ε (Program I) α) s := by
  intro calls
  cases calls <;> exact h

/-- One call is kept through if its answer is. -/
theorem throughout_call {call : I.Call} {s : σ} (h : Inv s)
    (hanswer : Inv (world call s).2) :
    ∀ calls, Inv ((Program.call call).runFor world calls s).2 := by
  intro calls
  cases calls with
  | zero => exact h
  | succ calls => cases calls <;> exact hanswer

/-- What follows a step starts in a state that the step leaves. -/
theorem Throughout.bind {p : ExceptT ε (Program I) α}
    {f : α → ExceptT ε (Program I) β} {s : σ} (hp : Throughout world Inv p s)
    (hf : ∀ a s', Inv s' → Succeeds world p s a s' →
      Throughout world Inv (f a) s') :
    Throughout world Inv (p >>= f) s := by
  intro calls
  have hfinal := hp.run
  obtain hcut | ⟨later, hcut⟩ := runFor_bind world p.run (fun x => match x with
    | .ok a => (f a).run
    | .error e => Program.done (.error e)) calls s
  · exact hcut ▸ hp calls
  · refine hcut ▸ ?_
    cases hrun : p.run.run world s with
    | mk x s' =>
      rw [hrun] at hfinal
      cases x with
      | ok a => exact hf a s' hfinal hrun later
      | error e => cases later <;> exact hfinal

theorem Throughout.ite {c : Prop} [Decidable c] {p q : ExceptT ε (Program I) α}
    {s : σ}
    (hp : c → Throughout world Inv p s) (hq : ¬c → Throughout world Inv q s) :
    Throughout world Inv (if c then p else q) s := by
  by_cases hc : c
  · rw [if_pos hc]
    exact hp hc
  · rw [if_neg hc]
    exact hq hc

/-- A step that is made only if a condition holds, and what follows in any
case. -/
theorem Throughout.when {c : Prop} [Decidable c]
    {p : ExceptT ε (Program I) Unit}
    {f : Unit → ExceptT ε (Program I) α} {s : σ} (h : Inv s)
    (hp : c → Throughout world Inv p s)
    (hf : ∀ s', Inv s' → (c ∧ Succeeds world p s () s' ∨ ¬c ∧ s = s') →
      Throughout world Inv (f ()) s') :
    Throughout world Inv (if c then p >>= f else f ()) s := by
  refine .ite (fun hc => ?_) (fun hc => hf s h (.inr ⟨hc, rfl⟩))
  exact (hp hc).bind fun _ s' hs' h => hf s' hs' (.inl ⟨hc, h⟩)

end Tenancy.Program
