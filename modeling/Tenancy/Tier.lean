/-
Subscription tiers: a total order from free to enterprise, and the
ceilings that each tier sets on an organization.
-/
namespace Tenancy

/-- An organization's subscription. -/
inductive Tier where
  | free
  | basic
  | professional
  | enterprise
deriving DecidableEq

/-- The ceilings of a tier; none means unlimited. -/
structure TierLimits where
  maxMembers : Option Nat
  maxProjects : Option Nat
  storageMb : Option Nat
deriving DecidableEq

namespace Tier

def name : Tier → String
  | .free => "free"
  | .basic => "basic"
  | .professional => "professional"
  | .enterprise => "enterprise"

/-- Every tier, the lowest first. -/
def all : List Tier := [.free, .basic, .professional, .enterprise]

def ofName? (text : String) : Option Tier :=
  all.find? fun tier => tier.name == text

/-- The place of a tier among all tiers. -/
def rank : Tier → Nat
  | .free => 0
  | .basic => 1
  | .professional => 2
  | .enterprise => 3

/-- Is the tier at least the one required? -/
def satisfies (tier required : Tier) : Bool :=
  required.rank ≤ tier.rank

/-- The ceilings that a tier sets. -/
def limits : Tier → TierLimits
  | .free => ⟨some 3, some 3, some 500⟩
  | .basic => ⟨some 10, some 20, some 5000⟩
  | .professional => ⟨some 50, none, some 50000⟩
  | .enterprise => ⟨none, none, none⟩

theorem ofName?_name (tier : Tier) : ofName? tier.name = some tier := by
  cases tier <;> decide

end Tier

end Tenancy
