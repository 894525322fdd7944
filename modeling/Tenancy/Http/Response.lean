/-
Responses.
-/
import Tenancy.Http.Headers
import Tenancy.Json.Basic

namespace Tenancy.Http

inductive Body where
  | empty
  | json (v : Json)
  | text (s : String)
deriving DecidableEq

structure Response where
  status : Nat
  headers : Headers
  body : Body
deriving DecidableEq

namespace Response

def empty (status : Nat) : Response := ⟨status, [], .empty⟩

def json (status : Nat) (v : Json) : Response := ⟨status, [], .json v⟩

def text (status : Nat) (s : String) : Response := ⟨status, [], .text s⟩

/-- The response without its body. -/
def headOnly (r : Response) : Response := { r with body := .empty }

def addHeaders (r : Response) (headers : Headers) : Response :=
  { r with headers := r.headers ++ headers }

end Response

end Tenancy.Http
