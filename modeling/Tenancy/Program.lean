/-
Programs that ask. A handler does not hold the directory or the
database; it asks for things and goes on with the answers. So a program
is either done, or one call together with what follows for each answer.

What the calls mean is decided by whoever runs the program: a store in
memory, calls of a lower kind, a store that fails on demand. And because
every call is visible, a run can be cut short after any of them, and the
calls of several programs can be interleaved.
-/
namespace Tenancy

/-- The calls of one kind, and what answers each. -/
structure Interface where
  Call : Type
  Answer : Call → Type

/-- A computation that asks for answers before it is done. -/
inductive Program (I : Interface) (α : Type) : Type where
  | done (result : α)
  | ask (call : I.Call) (next : I.Answer call → Program I α)

namespace Program

variable {I J : Interface} {α β σ : Type}

/-- Go on with a program once another is done. -/
def bind : Program I α → (α → Program I β) → Program I β
  | .done a, f => f a
  | .ask call next, f => .ask call fun answer => bind (next answer) f

instance : Monad (Program I) where
  pure := .done
  bind := bind

/-- The program of one call. -/
def call (c : I.Call) : Program I (I.Answer c) := .ask c .done

/-- How a world answers calls, changing with each. -/
abbrev World (I : Interface) (σ : Type) := (c : I.Call) → σ → I.Answer c × σ

/-- Run a program in a world, to its end. -/
def run (world : World I σ) : Program I α → σ → α × σ
  | .done a, s => (a, s)
  | .ask call next, s =>
    let (answer, s) := world call s
    run world (next answer) s

/-- Run a program in a world for at most so many calls; no result if it is
cut short. -/
def runFor (world : World I σ) : (calls : Nat) → Program I α → σ → Option α × σ
  | _, .done a, s => (some a, s)
  | 0, .ask _ _, s => (none, s)
  | calls + 1, .ask call next, s =>
    let (answer, s) := world call s
    runFor world calls (next answer) s

/-- Answer each call by a program of another kind. -/
def lower (f : (c : I.Call) → Program J (I.Answer c)) :
    Program I α → Program J α
  | .done a => .done a
  | .ask call next => (f call).bind fun answer => lower f (next answer)

-- ============================================================== laws

theorem bind_done (p : Program I α) : p.bind .done = p := by
  induction p with
  | done a => rfl
  | ask c next ih => simp [bind, ih]

theorem bind_bind {γ : Type} (p : Program I α) (f : α → Program I β)
    (g : β → Program I γ) :
    (p.bind f).bind g = p.bind fun a => (f a).bind g := by
  induction p with
  | done a => rfl
  | ask c next ih => simp [bind, ih]

instance : LawfulMonad (Program I) :=
  LawfulMonad.mk' (Program I) (fun p => bind_done p) (fun _ _ => rfl)
    (fun p f g => bind_bind p f g)

theorem run_bind (world : World I σ) (p : Program I α) (f : α → Program I β)
    (s : σ) :
    (p.bind f).run world s
      = (f (p.run world s).1).run world (p.run world s).2 := by
  induction p generalizing s with
  | done a => rfl
  | ask c next ih => simp [bind, run, ih]

end Program

end Tenancy
