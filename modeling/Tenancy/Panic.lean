/-
Panics. A computation that is asked for what it cannot represent, and has
no error to report that by, panics: all that it is part of is given up.
Nothing is returned then, and no caller gets to see a reason, so a panic
is an outcome of its own kind, apart from results and from errors.
-/
namespace Tenancy

/-- What comes of a computation that may panic. -/
inductive MayPanic (α : Type) where
  | returns (a : α)
  | panics
deriving DecidableEq

namespace MayPanic

variable {α β : Type}

/-- Go on with what is returned; a panic is the end of what follows, too. -/
def bind : MayPanic α → (α → MayPanic β) → MayPanic β
  | .returns a, f => f a
  | .panics, _ => .panics

instance : Monad MayPanic where
  pure := .returns
  bind := bind

end MayPanic

end Tenancy
