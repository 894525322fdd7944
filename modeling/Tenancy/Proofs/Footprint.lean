/-
Programs by the calls that they can make. Some calls are out of a
program's reach whatever it is answered, and that is read off the program
once, without a world and without a state (`CallsOnly`). It holds of a
program if it holds of its parts.

What the calls within reach keep, the program keeps wherever it is cut
short (`CallsOnly.runFor`). And two states that these calls cannot tell
apart lead to the same result (`CallsOnly.alike`).
-/
import Tenancy.Proofs.Conduct

namespace Tenancy.Program

variable {I : Interface} {ε α β σ : Type} {world : World I σ}
  {Of : I.Call → Prop}

/-- Every call of the program is of a kind, whatever those before it were
answered. -/
def CallsOnly (Of : I.Call → Prop) : Program I α → Prop
  | .done _ => True
  | .ask call next => Of call ∧ ∀ answer, CallsOnly Of (next answer)

theorem CallsOnly.mono {Of' : I.Call → Prop} {p : Program I α}
    (h : CallsOnly Of p)
    (himp : ∀ call, Of call → Of' call) : CallsOnly Of' p := by
  induction p with
  | done a => trivial
  | ask call next ih =>
    exact ⟨himp call h.1, fun answer => ih answer (h.2 answer)⟩

-- ============================================================== runs

/-- In every world the program makes these calls only. -/
theorem CallsOnly.abidesBy {p : Program I (Except ε α)} (h : CallsOnly Of p)
    (world : World I σ)
    (s : σ) :
    AbidesBy world (fun _ call => Of call) (fun _ _ => True) p s := by
  induction p generalizing s with
  | done result => cases result <;> trivial
  | ask call next ih => exact ⟨h.1, ih _ (h.2 _) _⟩

/-- What these calls keep holds wherever the program is cut short. -/
theorem CallsOnly.runFor {Inv : σ → Prop} {p : Program I (Except ε α)}
    (h : CallsOnly Of p)
    (hstep : ∀ call s, Inv s → Of call → Inv (world call s).2) {s : σ}
    (hs : Inv s) (calls : Nat) : Inv (p.runFor world calls s).2 :=
  (h.abidesBy world s).runFor hstep hs calls

theorem CallsOnly.final {Inv : σ → Prop} {p : ExceptT ε (Program I) α}
    (h : CallsOnly Of p.run)
    (hstep : ∀ call s, Inv s → Of call → Inv (world call s).2) {s s' : σ}
    {a : α} (hs : Inv s) (hp : Succeeds world p s a s') : Inv s' := by
  have hfinal := (h.abidesBy world s).final hstep hs
  unfold Succeeds at hp
  rwa [hp] at hfinal

/-- States that these calls cannot tell apart, and leave so, give the program
the same result wherever it is cut short. -/
theorem CallsOnly.alike {R : σ → σ → Prop} {p : Program I α}
    (h : CallsOnly Of p) (hcall : ∀ call s t, R s t → Of call →
      (world call s).1 = (world call t).1
        ∧ R (world call s).2 (world call t).2)
    {s t : σ} (hst : R s t) (calls : Nat) :
    (p.runFor world calls s).1 = (p.runFor world calls t).1
      ∧ R (p.runFor world calls s).2 (p.runFor world calls t).2 := by
  induction p generalizing calls s t with
  | done a => cases calls <;> exact ⟨rfl, hst⟩
  | ask call next ih =>
    cases calls with
    | zero => exact ⟨rfl, hst⟩
    | succ calls =>
      obtain ⟨hanswer, hnext⟩ := hcall call s t hst h.1
      simp only [Program.runFor]
      rw [← hanswer]
      exact ih _ (h.2 _) hnext calls

-- ============================================================= parts

theorem callsOnly_pure {a : α} :
    CallsOnly Of (pure a : ExceptT ε (Program I) α).run :=
  trivial

theorem callsOnly_throw {e : ε} :
    CallsOnly Of (throw e : ExceptT ε (Program I) α).run :=
  trivial

theorem CallsOnly.bind {p : ExceptT ε (Program I) α}
    {f : α → ExceptT ε (Program I) β}
    (hp : CallsOnly Of p.run) (hf : ∀ a, CallsOnly Of (f a).run) :
    CallsOnly Of (p >>= f).run := by
  show CallsOnly Of (Program.bind p.run _)
  generalize p.run = q at hp
  induction q with
  | done result =>
    cases result with
    | ok a => exact hf a
    | error e => trivial
  | ask call next ih => exact ⟨hp.1, fun answer => ih answer (hp.2 answer)⟩

theorem CallsOnly.ite {c : Prop} [Decidable c] {p q : ExceptT ε (Program I) α}
    (hp : c → CallsOnly Of p.run) (hq : ¬c → CallsOnly Of q.run) :
    CallsOnly Of (if c then p else q).run := by
  by_cases hc : c
  · rw [if_pos hc]
    exact hp hc
  · rw [if_neg hc]
    exact hq hc

/-- A step that is made only if a condition holds, and what follows in any
case. -/
theorem CallsOnly.when {c : Prop} [Decidable c]
    {p : ExceptT ε (Program I) Unit}
    {f : Unit → ExceptT ε (Program I) α} (hp : c → CallsOnly Of p.run)
    (hf : CallsOnly Of (f ()).run) :
    CallsOnly Of (if c then p >>= f else f ()).run :=
  .ite (fun hc => (hp hc).bind fun _ => hf) fun _ => hf

end Tenancy.Program
