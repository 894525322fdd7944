/-
A rehearsal of a backfill: a store in memory that keeps a log of its
calls and fails when told to. A scheduled failure names a method, and
perhaps what the call is about; it answers the next such calls, so many
times, before they reach the store.
-/
import Tenancy.Backfill.Memory

namespace Tenancy.Backfill

/-- A failure that is due. -/
structure ScheduledFailure where
  method : String
  /-- What the call must be about, any call of the method otherwise. -/
  subject : Option String
  times : Nat
deriving DecidableEq

namespace ScheduledFailure

/-- Does the failure answer a call? -/
def fits (f : ScheduledFailure) (call : StoreCall) : Bool :=
  f.times > 0 && f.method == call.method && f.subject.all (· == call.subject)

/-- Use the first failure that answers a call; what is left, if one does. -/
def use? (call : StoreCall) :
    List ScheduledFailure → Option (List ScheduledFailure)
  | [] => none
  | f :: rest =>
    if f.fits call then some ({ f with times := f.times - 1 } :: rest)
    else (use? call rest).map (f :: ·)

end ScheduledFailure

/-- A call that was made, with the store's answer unless a scheduled
failure came first. -/
structure LoggedCall where
  call : StoreCall
  answer : Option call.Answer

/-- A store in memory with its scheduled failures and the log of its calls. -/
structure Rehearsal where
  store : MemoryStore
  failures : List ScheduledFailure
  log : List LoggedCall

def Rehearsal.answer : Program.World storeInterface Rehearsal := fun call r =>
  match ScheduledFailure.use? call r.failures with
  | some failures =>
    (.error (.sql .poolClosed),
      { r with failures := failures, log := r.log ++ [⟨call, none⟩] })
  | none =>
    let (answer, store) := MemoryStore.answer call r.store
    (answer, { r with store := store, log := r.log ++ [⟨call, some answer⟩] })

end Tenancy.Backfill
