/-
Predicates on the rows of tenants' tables. A predicate has two readings:
as a SQL condition, whose identifiers become numbered parameters, and as
a test of a row in memory against a list of grants. Both read the same
tree, so that they cannot drift apart.
-/
import Tenancy.Json.Scalars
import Tenancy.Scope.Entity

namespace Tenancy

/-- A condition on rows of tenants' tables. -/
inductive Predicate where
  | always
  | organizationIs (organizationId : Uuid)
  | ownerIs (userId : Uuid)
  /-- A grant to the user, itself given inside the organization. -/
  | peerGrant (userId organizationId : Uuid)
  | and (parts : List Predicate)
  | or (parts : List Predicate)

/-- What a row says of whose it is. -/
structure ScopedRow where
  id : Uuid
  organizationId : Uuid
  ownerId : Option Uuid
deriving DecidableEq

/-- One grant, in the table of grants that holds it. -/
structure PeerGrant where
  table : String
  entityId : Uuid
  userId : Uuid
  organizationId : Uuid
deriving DecidableEq

namespace Predicate

open Sql

instance : Inhabited Predicate := ⟨.always⟩

-- ============================================================ as SQL

mutual

/-- The condition over an entity's table, its identifiers numbered on
from a start, and those identifiers in the order of their numbers. -/
def condition (e : Entity) : (start : Nat) → Predicate → Condition × List Uuid
  | _, .always => (.truth true, [])
  | start, .organizationIs id =>
    (.identified e.organizationOf (start + 1), [id])
  | start, .ownerIs id => (.identified e.ownerOf (start + 1), [id])
  | start, .peerGrant user organization =>
    match e.peers with
    | none => (.truth false, [])
    | some grants =>
      (.granted grants e.idOf (start + 1) (start + 2), [user, organization])
  | start, .and parts =>
    let (cs, ids) := conditions e start parts
    (.all cs, ids)
  | start, .or parts =>
    let (cs, ids) := conditions e start parts
    (.any cs, ids)

/-- The conditions of several predicates, each in parentheses. -/
def conditions (e : Entity) :
    (start : Nat) → List Predicate → List Condition × List Uuid
  | _, [] => ([], [])
  | start, p :: rest =>
    let (c, ids) := condition e start p
    let (cs, more) := conditions e (start + ids.length) rest
    (.group c :: cs, ids ++ more)

end

/-- The text of the condition behind parameters already there, and all
parameters. -/
def toSql (p : Predicate) (e : Entity) (params : List Json) :
    String × List Json :=
  let (c, ids) := p.condition e params.length
  (c.text, params ++ ids.map fun id => Json.uuid id)

-- ========================================================= in memory

mutual

/-- Does the predicate admit a row, given all grants? -/
def admits (e : Entity) (row : ScopedRow) (grants : List PeerGrant) :
    Predicate → Bool
  | .always => true
  | .organizationIs id => row.organizationId == id
  | .ownerIs id => row.ownerId == some id
  | .peerGrant user organization =>
    match e.peers with
    | none => false
    | some peers => grants.any fun g =>
      g.table == peers.table && g.entityId == row.id && g.userId == user
        && g.organizationId == organization
  | .and parts => admitsAll e row grants parts
  | .or parts => admitsAny e row grants parts

def admitsAll (e : Entity) (row : ScopedRow) (grants : List PeerGrant) :
    List Predicate → Bool
  | [] => true
  | p :: rest => admits e row grants p && admitsAll e row grants rest

def admitsAny (e : Entity) (row : ScopedRow) (grants : List PeerGrant) :
    List Predicate → Bool
  | [] => false
  | p :: rest => admits e row grants p || admitsAny e row grants rest

end

end Predicate

end Tenancy
