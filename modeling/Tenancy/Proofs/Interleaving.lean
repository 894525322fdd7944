/-
Programs side by side. Each of them makes its own calls in its own order;
whose call comes next, a schedule says. At a turn the world answers the
call, or lets the caller wait, or does something else to it altogether,
so a turn names a program and may say more that the world goes by
(`Turns`).

The prefixes of a schedule are the moments of its run. Nothing moves
between two of them but the program whose turn it is
(`interleave_of_idle`), one that is over stays so, and whatever has come
about along the way came about at some turn (`exists_turn`).
-/
import Mathlib.Logic.Function.Basic
import Tenancy.Program

namespace Tenancy.Program

variable {I : Interface} {ι κ α σ : Type}

/-- Turns: whose each is, and what a call is answered at it; nothing, if the
caller has to wait. -/
structure Turns (I : Interface) (ι κ σ : Type) where
  who : κ → ι
  answer : κ → (c : I.Call) → σ → Option (I.Answer c) × σ

/-- Everyone is answered, and at once. -/
def World.turns (world : World I σ) : Turns I ι ι σ where
  who := id
  answer _ call s := (some (world call s).1, (world call s).2)

/-- What a turn makes of the program whose it is, and of the world. -/
def Turns.step (turns : Turns I ι κ σ) (turn : κ) :
    Program I α × σ → Program I α × σ
  | (.done a, s) => (.done a, s)
  | (.ask call next, s) =>
    let (answer, s) := turns.answer turn call s
    (answer.elim (.ask call next) next, s)

-- ============================================================== turns

variable [DecidableEq ι]

/-- What a turn makes of all of them. -/
def advance (turns : Turns I ι κ σ) (st : (ι → Program I α) × σ) (turn : κ) :
    (ι → Program I α) × σ :=
  let (program, s) := turns.step turn (st.1 (turns.who turn), st.2)
  (Function.update st.1 (turns.who turn) program, s)

/-- What a schedule makes of them. -/
def interleave (turns : Turns I ι κ σ) (st : (ι → Program I α) × σ)
    (schedule : List κ) : (ι → Program I α) × σ :=
  schedule.foldl (advance turns) st

variable {turns : Turns I ι κ σ} {st : (ι → Program I α) × σ} {turn : κ}
  {schedule first later : List κ} {i : ι}

theorem advance_of_done {a : α} (h : st.1 (turns.who turn) = .done a) :
    advance turns st turn = st := by
  unfold advance
  rw [h]
  show (Function.update st.1 (turns.who turn) (.done a), st.2) = st
  rw [← h, Function.update_eq_self]

theorem advance_of_ask {call : I.Call} {next : I.Answer call → Program I α}
    (h : st.1 (turns.who turn) = .ask call next) :
    advance turns st turn
      = (Function.update st.1 (turns.who turn)
          ((turns.answer turn call st.2).1.elim (.ask call next) next),
        (turns.answer turn call st.2).2) := by
  unfold advance
  rw [h]
  rfl

theorem advance_at_once {world : World I σ} {call : I.Call}
    {next : I.Answer call → Program I α} (h : st.1 i = .ask call next) :
    advance (World.turns world) st i
      = (Function.update st.1 i (next (world call st.2).1),
        (world call st.2).2) :=
  advance_of_ask h

/-- No program moves but the one whose turn it is. -/
theorem advance_of_ne (h : turns.who turn ≠ i) :
    (advance turns st turn).1 i = st.1 i :=
  Function.update_of_ne h.symm _ _

-- ========================================================== schedules

theorem interleave_append :
    interleave turns st (first ++ later)
      = interleave turns (interleave turns st first) later :=
  List.foldl_append

theorem interleave_snoc :
    interleave turns st (schedule ++ [turn])
      = advance turns (interleave turns st schedule) turn :=
  interleave_append

/-- What every turn keeps, a schedule keeps. -/
theorem interleave_keeps (Inv : (ι → Program I α) × σ → Prop) (hst : Inv st)
    (hturn : ∀ st turn, Inv st → Inv (advance turns st turn)) :
    Inv (interleave turns st schedule) := by
  induction schedule generalizing st with
  | nil => exact hst
  | cons turn rest ih => exact ih (hturn st turn hst)

/-- A program that has no turn does not move. -/
theorem interleave_of_idle (h : ∀ turn ∈ schedule, turns.who turn ≠ i) :
    (interleave turns st schedule).1 i = st.1 i := by
  induction schedule generalizing st with
  | nil => rfl
  | cons turn rest ih =>
    refine (ih fun later hlater => h later (by simp [hlater])).trans ?_
    exact advance_of_ne (h turn (by simp))

/-- A program that is over stays so. -/
theorem interleave_of_done {a : α} (h : st.1 i = .done a) :
    (interleave turns st schedule).1 i = .done a := by
  refine interleave_keeps (fun st => st.1 i = .done a) h fun st turn hst => ?_
  by_cases hwho : turns.who turn = i
  · rw [advance_of_done (hwho ▸ hst)]
    exact hst
  · rw [advance_of_ne hwho]
    exact hst

/-- What did not hold at first and does at the end came about at some turn. -/
theorem exists_turn (P : (ι → Program I α) × σ → Prop) (hstart : ¬P st)
    (hend : P (interleave turns st schedule)) :
    ∃ first turn later, schedule = first ++ turn :: later
      ∧ ¬P (interleave turns st first)
      ∧ P (interleave turns st (first ++ [turn])) := by
  induction schedule generalizing st with
  | nil => exact absurd hend hstart
  | cons turn rest ih =>
    by_cases hturn : P (advance turns st turn)
    · exact ⟨[], turn, rest, rfl, hstart, hturn⟩
    · obtain ⟨first, turn', later, rfl, hbefore, hafter⟩ := ih hturn hend
      exact ⟨turn :: first, turn', later, rfl, hbefore, hafter⟩

end Tenancy.Program
