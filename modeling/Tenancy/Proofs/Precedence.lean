/-
Programs by the order of their calls. A run makes a list of calls
(`callsFor`). Whatever it is answered, a program may not succeed without
a call of one kind (`Needs`), and may make no call of one kind before
one of another (`Precedes`). Both are read off the program without a
world and come from its parts: what a first part needs, everything
behind it has (`Precedes.bind_of_needs`). Of what a first part gives the
second may know what is so whatever it is answered (`Gives`).

So from a call that a run made, or from its success, an earlier call can
be told (`Precedes.exists_call`, `Needs.exists_call`).
-/
import Tenancy.Proofs.Footprint

namespace Tenancy.Program

variable {I : Interface} {ε α β σ : Type} {world : World I σ}
  {Of Later : I.Call → Prop}

-- ============================================================= calls

/-- The calls that a program makes if it is cut short behind so many. -/
def callsFor (world : World I σ) :
    (calls : Nat) → Program I α → σ → List I.Call
  | _, .done _, _ => []
  | 0, .ask _ _, _ => []
  | calls + 1, .ask call next, s =>
    call :: callsFor world calls (next (world call s).1) (world call s).2

theorem CallsOnly.of_mem {p : Program I α} (h : CallsOnly Of p) {calls : Nat}
    {s : σ}
    {call : I.Call} (hmem : call ∈ p.callsFor world calls s) : Of call := by
  induction p generalizing calls s with
  | done a => cases calls <;> cases hmem
  | ask first next ih =>
    cases calls with
    | zero => cases hmem
    | succ calls =>
      rcases List.mem_cons.1 hmem with rfl | hmem
      · exact h.1
      · exact ih _ (h.2 _) hmem

/-- A program of two steps is cut short in the first, or behind it. -/
theorem callsFor_bind (p : ExceptT ε (Program I) α)
    (f : α → ExceptT ε (Program I) β) (calls : Nat) (s : σ) :
    ((p >>= f).run.callsFor world calls s = p.run.callsFor world calls s
        ∧ ∀ b, ((p >>= f).run.runFor world calls s).1 ≠ some (.ok b))
      ∨ ∃ a s₁ later, Succeeds world p s a s₁
        ∧ (p >>= f).run.callsFor world calls s
          = p.run.callsFor world calls s ++ (f a).run.callsFor world later s₁
        ∧ ((p >>= f).run.runFor world calls s).1
          = ((f a).run.runFor world later s₁).1 := by
  have hbind : (p >>= f).run = Program.bind p.run fun x => match x with
      | .ok a => (f a).run
      | .error e => .done (.error e) := rfl
  rw [hbind]
  unfold Succeeds
  generalize p.run = q
  induction q generalizing calls s with
  | done result =>
    cases result with
    | ok a => exact .inr ⟨a, s, calls, rfl, by cases calls <;> rfl, rfl⟩
    | error e =>
      refine .inl ⟨by cases calls <;> rfl, fun b => ?_⟩
      cases calls <;> exact fun h => nomatch h
  | ask call next ih =>
    cases calls with
    | zero => exact .inl ⟨rfl, fun b h => nomatch h⟩
    | succ calls =>
      rcases ih (world call s).1 calls (world call s).2 with
        ⟨hcalls, hcut⟩ | ⟨a, s₁, later, hp, hcalls, hresult⟩
      · exact .inl ⟨congrArg (call :: ·) hcalls, hcut⟩
      · exact .inr ⟨a, s₁, later, hp, congrArg (call :: ·) hcalls, hresult⟩

-- =========================================================== results

/-- Whatever the program is answered, what it gives is of a kind. -/
def Gives (Is : α → Prop) : Program I (Except ε α) → Prop
  | .done (.ok a) => Is a
  | .done (.error _) => True
  | .ask _ next => ∀ answer, Gives Is (next answer)

theorem gives_any (p : Program I (Except ε α)) : Gives (fun _ => True) p := by
  induction p with
  | done result => cases result <;> trivial
  | ask call next ih => exact ih

theorem Gives.bind {Is : α → Prop} {Is' : β → Prop}
    {p : ExceptT ε (Program I) α}
    {f : α → ExceptT ε (Program I) β} (hp : Gives Is p.run)
    (hf : ∀ a, Is a → Gives Is' (f a).run) : Gives Is' (p >>= f).run := by
  show Gives Is' (Program.bind p.run _)
  generalize p.run = q at hp
  induction q with
  | done result =>
    cases result with
    | ok a => exact hf a hp
    | error e => trivial
  | ask call next ih => exact fun answer => ih answer (hp answer)

-- ============================================================= needs

/-- The program does not succeed without a call of a kind. -/
def Needs (Of : I.Call → Prop) : Program I (Except ε α) → Prop
  | .done (.ok _) => False
  | .done (.error _) => True
  | .ask call next => Of call ∨ ∀ answer, Needs Of (next answer)

theorem Needs.exists_call {p : Program I (Except ε α)} (h : Needs Of p)
    {calls : Nat} {s : σ}
    {a : α} (hrun : (p.runFor world calls s).1 = some (.ok a)) :
    ∃ call ∈ p.callsFor world calls s, Of call := by
  induction p generalizing calls s with
  | done result =>
    have hresult : some result = some (.ok a) := by cases calls <;> exact hrun
    cases Option.some.inj hresult
    exact h.elim
  | ask call next ih =>
    cases calls with
    | zero => cases hrun
    | succ calls =>
      rcases h with h | h
      · exact ⟨call, List.mem_cons_self .., h⟩
      · obtain ⟨found, hmem, hfound⟩ := ih _ (h _) hrun
        exact ⟨found, List.mem_cons_of_mem _ hmem, hfound⟩

theorem Needs.bind_left {p : ExceptT ε (Program I) α}
    {f : α → ExceptT ε (Program I) β}
    (h : Needs Of p.run) : Needs Of (p >>= f).run := by
  show Needs Of (Program.bind p.run _)
  generalize p.run = q at h
  induction q with
  | done result =>
    cases result with
    | ok a => exact h.elim
    | error e => trivial
  | ask call next ih => exact h.imp_right fun h answer => ih answer (h answer)

theorem Needs.bind_right {Is : α → Prop} {p : ExceptT ε (Program I) α}
    {f : α → ExceptT ε (Program I) β} (hp : Gives Is p.run)
    (hf : ∀ a, Is a → Needs Of (f a).run) : Needs Of (p >>= f).run := by
  show Needs Of (Program.bind p.run _)
  generalize p.run = q at hp
  induction q with
  | done result =>
    cases result with
    | ok a => exact hf a hp
    | error e => trivial
  | ask call next ih => exact .inr fun answer => ih answer (hp answer)

-- ========================================================== precedes

/-- No call of the later kind is made before one of the other. -/
def Precedes (Of Later : I.Call → Prop) : Program I α → Prop
  | .done _ => True
  | .ask call next =>
    Of call ∨ ¬Later call ∧ ∀ answer, Precedes Of Later (next answer)

theorem Precedes.exists_call {p : Program I α} (h : Precedes Of Later p)
    {calls : Nat} {s : σ}
    {later : I.Call} (hmem : later ∈ p.callsFor world calls s)
    (hlater : Later later) : ∃ call ∈ p.callsFor world calls s, Of call := by
  induction p generalizing calls s with
  | done a => cases calls <;> cases hmem
  | ask call next ih =>
    cases calls with
    | zero => cases hmem
    | succ calls =>
      rcases h with h | ⟨hnot, h⟩
      · exact ⟨call, List.mem_cons_self .., h⟩
      · rcases List.mem_cons.1 hmem with rfl | hmem
        · exact absurd hlater hnot
        · obtain ⟨found, hmem, hfound⟩ := ih _ (h _) hmem
          exact ⟨found, List.mem_cons_of_mem _ hmem, hfound⟩

/-- A program that makes no later call has none before the other kind. -/
theorem CallsOnly.precedes {p : Program I α}
    (h : CallsOnly (fun call => ¬Later call) p) : Precedes Of Later p := by
  induction p with
  | done a => trivial
  | ask call next ih => exact .inr ⟨h.1, fun answer => ih answer (h.2 answer)⟩

/-- Only the later calls that the program makes matter. -/
theorem Precedes.of_callsOnly {Later' Made : I.Call → Prop} {p : Program I α}
    (h : Precedes Of Later p) (hmade : CallsOnly Made p)
    (himp : ∀ call, Made call → Later' call → Later call) :
    Precedes Of Later' p := by
  induction p with
  | done a => trivial
  | ask call next ih =>
    rcases h with h | ⟨hnot, h⟩
    · exact .inl h
    · exact .inr ⟨fun hlater => hnot (himp call hmade.1 hlater),
        fun answer => ih answer (h answer) (hmade.2 answer)⟩

theorem Precedes.bind {Is : α → Prop} {p : ExceptT ε (Program I) α}
    {f : α → ExceptT ε (Program I) β} (hp : Precedes Of Later p.run)
    (hgives : Gives Is p.run)
    (hf : ∀ a, Is a → Precedes Of Later (f a).run) :
    Precedes Of Later (p >>= f).run := by
  show Precedes Of Later (Program.bind p.run _)
  generalize p.run = q at hp hgives
  induction q with
  | done result =>
    cases result with
    | ok a => exact hf a hgives
    | error e => trivial
  | ask call next ih =>
    exact hp.imp_right fun ⟨hnot, h⟩ =>
      ⟨hnot, fun answer => ih answer (h answer) (hgives answer)⟩

/-- Behind a step that needs a call, every call comes behind that one. -/
theorem Precedes.bind_of_needs {p : ExceptT ε (Program I) α}
    {f : α → ExceptT ε (Program I) β}
    (hp : Precedes Of Later p.run) (hneeds : Needs Of p.run) :
    Precedes Of Later (p >>= f).run := by
  show Precedes Of Later (Program.bind p.run _)
  generalize p.run = q at hp hneeds
  induction q with
  | done result =>
    cases result with
    | ok a => exact hneeds.elim
    | error e => trivial
  | ask call next ih =>
    rcases hp with h | ⟨hnot, hp⟩
    · exact .inl h
    · rcases hneeds with h | hneeds
      · exact .inl h
      · exact .inr ⟨hnot, fun answer => ih answer (hp answer) (hneeds answer)⟩

end Tenancy.Program
