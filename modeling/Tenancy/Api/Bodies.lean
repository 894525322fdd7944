/-
The bodies that operations read.
-/
import Tenancy.Filter.Data
import Tenancy.Json.Shape
import Tenancy.Role
import Tenancy.Tier

namespace Tenancy.Body

open Json

/-- An address and a password. -/
structure Login where
  email : String
  password : String
deriving DecidableEq

def login : Shape (Option String × Option String) Login where
  start := (none, none)
  fields := [
    .of "email" readStr fun s d => (some s, d.2),
    .of "password" readStr fun s d => (d.1, some s)]
  finish := fun d => do return ⟨← d.1, ← d.2⟩

/-- A role to give to a member. -/
def role : Shape (Option OrgRole) OrgRole where
  start := none
  fields := [.of "role" (readCase OrgRole.ofName?) fun r _ => some r]
  finish := id

/-- A tier to give to an organization. -/
def tier : Shape (Option Tier) Tier where
  start := none
  fields := [.of "tier" (readCase Tier.ofName?) fun t _ => some t]
  finish := id

/-- A whole number of 32 signed bits. -/
def readInt32 : Reader Int := readIntWithin (-0x80000000) 0x80000000

/-- A client's filter, whose condition and order nest at most so deep. -/
def filter (depth : Nat) : Shape FilterData FilterData where
  start := .empty
  fields := [
    .of "select" (readNullable (readList readStr)) fun v d =>
      { d with select := v },
    .of "where" (readNullable (readValueWithin depth)) fun v d =>
      { d with condition := v },
    .of "order" (readNullable (readValueWithin depth)) fun v d =>
      { d with order := v },
    .of "limit" (readNullable readInt32) fun v d => { d with limit := v },
    .of "offset" (readNullable readInt32) fun v d => { d with offset := v }]
  finish := some

/-- An entity and a filter over it. -/
structure Preview where
  entity : String
  filter : FilterData
deriving DecidableEq

def preview : Shape (Option String × FilterData) Preview where
  start := (none, .empty)
  fields := [
    .of "entity" readStr fun s d => (some s, d.2),
    { Field.of "filter" (filter (maxDepth - 2)).read
      fun v (d : Option String × FilterData) => (d.1, v)
      with isTrailing := true }]
  finish := fun d => do return ⟨← d.1, d.2⟩

end Tenancy.Body
