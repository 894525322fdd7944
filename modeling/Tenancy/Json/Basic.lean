/-
JSON values. An object is the list of its members; read from text, it
holds each name once, in the order of the names' code points, which is
also the order of their UTF-8 bytes. Whole numbers and floating-point
numbers are different values: 1 and 1.0 are written differently and are
told apart everywhere.
-/
import Tenancy.Binary64

namespace Tenancy

/-- A JSON value. -/
inductive Json where
  | null
  | bool (b : Bool)
  /-- A number written without fraction and exponent. -/
  | int (n : Int)
  /-- Any other number. -/
  | float (x : Binary64)
  | str (s : String)
  | arr (items : List Json)
  | obj (members : List (String × Json))

namespace Json

instance : Inhabited Json := ⟨.null⟩

-- ========================================================== equality

mutual

/-- Equality of values, one constructor at a time. -/
def decEq : (a b : Json) → Decidable (a = b)
  | .null, .null => isTrue rfl
  | .bool a, .bool b => decidable_of_iff (a = b) (by simp)
  | .int a, .int b => decidable_of_iff (a = b) (by simp)
  | .float a, .float b => decidable_of_iff (a = b) (by simp)
  | .str a, .str b => decidable_of_iff (a = b) (by simp)
  | .arr a, .arr b => @decidable_of_iff _ (a = b) (by simp) (decEqItems a b)
  | .obj a, .obj b => @decidable_of_iff _ (a = b) (by simp) (decEqMembers a b)
  | .null, .bool _ | .null, .int _ | .null, .float _ | .null, .str _
  | .null, .arr _ | .null, .obj _
  | .bool _, .null | .bool _, .int _ | .bool _, .float _ | .bool _, .str _
  | .bool _, .arr _ | .bool _, .obj _
  | .int _, .null | .int _, .bool _ | .int _, .float _ | .int _, .str _
  | .int _, .arr _ | .int _, .obj _
  | .float _, .null | .float _, .bool _ | .float _, .int _ | .float _, .str _
  | .float _, .arr _ | .float _, .obj _
  | .str _, .null | .str _, .bool _ | .str _, .int _ | .str _, .float _
  | .str _, .arr _ | .str _, .obj _
  | .arr _, .null | .arr _, .bool _ | .arr _, .int _ | .arr _, .float _
  | .arr _, .str _ | .arr _, .obj _
  | .obj _, .null | .obj _, .bool _ | .obj _, .int _ | .obj _, .float _
  | .obj _, .str _ | .obj _, .arr _ =>
    isFalse (by simp)

/-- Equality of lists of values. -/
def decEqItems : (a b : List Json) → Decidable (a = b)
  | [], [] => isTrue rfl
  | [], _ :: _ | _ :: _, [] => isFalse (by simp)
  | a :: as, b :: bs =>
    @decidable_of_iff _ (a = b ∧ as = bs) (by simp)
      (@instDecidableAnd _ _ (decEq a b) (decEqItems as bs))

/-- Equality of members, names included. -/
def decEqMembers : (a b : List (String × Json)) → Decidable (a = b)
  | [], [] => isTrue rfl
  | [], _ :: _ | _ :: _, [] => isFalse (by simp)
  | (k, a) :: as, (l, b) :: bs =>
    @decidable_of_iff _ (k = l ∧ a = b ∧ as = bs) (by simp; grind)
      (@instDecidableAnd _ _ _
        (@instDecidableAnd _ _ (decEq a b) (decEqMembers as bs)))

end

instance : DecidableEq Json := decEq

-- =========================================================== members

/-- The members of an object, by name. -/
abbrev Members := List (String × Json)

namespace Members

/-- Set a member: replaced where it stands, else added in the order of
names. -/
def insert (name : String) (value : Json) : Members → Members
  | [] => [(name, value)]
  | (k, v) :: rest =>
    if name = k then (name, value) :: rest
    else if name < k then (name, value) :: (k, v) :: rest
    else (k, v) :: insert name value rest

/-- The members without the one of a name. -/
def erase (name : String) (members : Members) : Members :=
  members.filter fun m => m.1 ≠ name

/-- The value of the member of a name. -/
def find? (name : String) : Members → Option Json
  | [] => none
  | (k, v) :: rest => if k = name then some v else find? name rest

/-- The members in the order of their names; of two of one name the last
counts. -/
def ofList (pairs : List (String × Json)) : Members :=
  pairs.foldl (fun members m => insert m.1 m.2 members) []

end Members

/-- An object of the given members, in the order of their names. -/
def object (pairs : List (String × Json)) : Json :=
  .obj (Members.ofList pairs)

-- ============================================================= views

/-- A member of an object; null where there is none. -/
def get (v : Json) (name : String) : Json :=
  match v with
  | .obj members => (Members.find? name members).getD .null
  | _ => .null

/-- Is it null? -/
def isNull : Json → Bool
  | .null => true
  | _ => false

/-- The text, if it is one. -/
def str? : Json → Option String
  | .str s => some s
  | _ => none

/-- The truth value, if it is one. -/
def bool? : Json → Option Bool
  | .bool b => some b
  | _ => none

/-- The whole number, if it is one. -/
def int? : Json → Option Int
  | .int n => some n
  | _ => none

/-- The items, if it is an array. -/
def arr? : Json → Option (List Json)
  | .arr items => some items
  | _ => none

/-- The members, if it is an object. -/
def obj? : Json → Option Members
  | .obj members => some members
  | _ => none

/-- A scalar is anything but an array or an object. -/
def isScalar : Json → Bool
  | .arr _ | .obj _ => false
  | _ => true

/-- A value, or null in its absence. -/
def ofOption {α : Type} (write : α → Json) : Option α → Json
  | none => .null
  | some a => write a

/-- A number without a sign. -/
def ofNat (n : Nat) : Json := .int n

/-- An array of texts. -/
def strs (texts : List String) : Json := .arr (texts.map .str)

end Json

end Tenancy
