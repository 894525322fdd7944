/-
Reading JSON of a known shape. A record is an object with its fields in
any order, or an array with exactly its fields in their order; members of
an object that are no fields are passed over.

The document is read once, from the left, and the first fault met is the one
reported. A field named twice is a mismatch at its second name; a field
that is missing is one at the end of the record, before the bracket that
should close it; what stands behind the last field of an array is
malformed.
-/
import Tenancy.Json.Reader

namespace Tenancy.Json

open Text

-- =========================================================== scalars

/-- What stands here is no value of the kind asked for: a mismatch, once
the value itself is seen to be well formed; arrays and objects are not
looked into. -/
def refuse {α : Type} : Reader α := fun cs =>
  match skipGaps cs with
  | 'n' :: rest => do
    let _ ← readWord "ull" () rest
    .error .mismatched
  | 't' :: rest => do
    let _ ← readWord "rue" () rest
    .error .mismatched
  | 'f' :: rest => do
    let _ ← readWord "alse" () rest
    .error .mismatched
  | '"' :: rest => do
    let _ ← readString rest
    .error .mismatched
  | '[' :: _ | '\x7b' :: _ => .error .mismatched
  | c :: rest =>
    if c = '-' ∨ (digitValue? c).isSome then do
      let _ ← readNumber (c :: rest)
      .error .mismatched
    else .error .malformed
  | [] => .error .malformed

def readStr : Reader String := fun cs =>
  match skipGaps cs with
  | '"' :: rest => readString rest
  | rest => refuse rest

/-- A text that spells a value. -/
def readSpelled {α : Type} (ofText? : String → Option α) : Reader α :=
  fun cs => do
  let (s, rest) ← readStr cs
  match ofText? s with
  | some a => return (a, rest)
  | none => .error .mismatched

/-- A whole number of at least `low` and below `high`. -/
def readIntWithin (low high : Int) : Reader Int := fun cs =>
  match skipGaps cs with
  | c :: rest =>
    if c = '-' ∨ (digitValue? c).isSome then do
      match ← readNumber (c :: rest) with
      | (.int n, rest) =>
        if low ≤ n ∧ n < high then .ok (n, rest) else .error .mismatched
      | _ => .error .mismatched
    else refuse (c :: rest)
  | [] => refuse []

/-- A value or null. -/
def readNullable {α : Type} (read : Reader α) : Reader (Option α) := fun cs =>
  match skipGaps cs with
  | 'n' :: rest => readWord "ull" none rest
  | rest => do
    let (a, rest) ← read rest
    return (some a, rest)

/-- The name of one case of an enumeration, as a text or as the name of the
only member of an object, which is then null. -/
def readCase {α : Type} (ofName? : String → Option α) : Reader α := fun cs =>
  match skipGaps cs with
  | '"' :: rest => readSpelled ofName? ('"' :: rest)
  | '\x7b' :: rest =>
    match skipGaps rest with
    | '"' :: rest => do
      let (a, rest) ← readSpelled ofName? ('"' :: rest)
      let ((), rest) ← readColon rest
      match skipGaps rest with
      | 'n' :: rest =>
        let ((), rest) ← readWord "ull" () rest
        let ((), rest) ← readObjectEnd rest
        return (a, rest)
      | rest => refuse rest
    | _ => .error .malformed
  | _ => .error .malformed

-- ============================================================= lists

/-- The items of an array, from the next one on; the fuel bounds their
number. -/
def readListFor {α : Type} (read : Reader α) :
    (fuel : Nat) → (isFirst : Bool) → Reader (List α)
  | 0, _, _ => .error .malformed
  | fuel + 1, isFirst, cs => do
    let (more, rest) ← readNextItem isFirst cs
    if more then
      let (a, rest) ← read rest
      let (items, rest) ← readListFor read fuel false rest
      return (a :: items, rest)
    else return ([], rest)

def readList {α : Type} (read : Reader α) : Reader (List α) := fun cs =>
  match skipGaps cs with
  | '[' :: rest => do
    let (items, rest) ← readListFor read (rest.length + 1) true rest
    let ((), rest) ← readArrayEnd rest
    return (items, rest)
  | rest => refuse rest

-- =========================================================== records

/-- A field of a record whose values are collected in a draft. -/
structure Field (σ : Type) where
  name : String
  /-- Reads the field's value and puts it into the draft. -/
  read : Reader (σ → σ)
  /-- May an array end before the field? -/
  isTrailing : Bool

/-- A field with the place of its value in the draft. -/
def Field.of {σ α : Type} (name : String) (read : Reader α) (set : α → σ → σ) :
    Field σ where
  name := name
  read := fun cs => do
    let (a, rest) ← read cs
    return (set a, rest)
  isTrailing := false

/-- A record: the draft to start from, its fields, and what a full draft
makes. -/
structure Shape (σ α : Type) where
  start : σ
  fields : List (Field σ)
  /-- None if a field that must be there is missing. -/
  finish : σ → Option α

namespace Shape

variable {σ α : Type}

/-- The fields of a record written as an array. -/
def readItems (isFirst : Bool) (draft : σ) : List (Field σ) → Reader σ
  | [], cs => .ok (draft, cs)
  | field :: fields, cs => do
    let (more, rest) ← readNextItem isFirst cs
    if more then
      let (set, rest) ← field.read rest
      readItems false (set draft) fields rest
    else if field.isTrailing then readItems isFirst draft fields rest
    else .error .mismatched

/-- The fields of a record written as an object; the fuel bounds the number
of members. -/
def readMembers (fields : List (Field σ)) :
    (fuel : Nat) → (isFirst : Bool) → (seen : List String) → (draft : σ) →
      Reader σ
  | 0, _, _, _, _ => .error .malformed
  | fuel + 1, isFirst, seen, draft, cs => do
    let (more, rest) ← readNextName isFirst cs
    if more then
      let (name, rest) ← readString rest
      match fields.find? fun f => f.name == name with
      | none =>
        let ((), rest) ← readColon rest
        let ((), rest) ← skipValue rest
        readMembers fields fuel false seen draft rest
      | some field =>
        if seen.contains name then .error .mismatched
        else
          let ((), rest) ← readColon rest
          let (set, rest) ← field.read rest
          readMembers fields fuel false (name :: seen) (set draft) rest
    else return (draft, rest)

/-- The value that a draft makes. -/
def finished (shape : Shape σ α) (draft : σ) : Except Fault α :=
  match shape.finish draft with
  | some a => .ok a
  | none => .error .mismatched

def read (shape : Shape σ α) : Reader α := fun cs =>
  match skipGaps cs with
  | '[' :: rest => do
    let (draft, rest) ← readItems true shape.start shape.fields rest
    let a ← shape.finished draft
    let ((), rest) ← readArrayEnd rest
    return (a, rest)
  | '\x7b' :: rest => do
    let (draft, rest) ←
      readMembers shape.fields (rest.length + 1) true [] shape.start rest
    let a ← shape.finished draft
    let ((), rest) ← readObjectEnd rest
    return (a, rest)
  | rest => refuse rest

end Shape

/-- What a whole document holds, with nothing but gaps behind it. -/
def readWhole? {α : Type} (read : Reader α) (cs : List Char) : Option α :=
  match read cs with
  | .ok (a, rest) => if (skipGaps rest).isEmpty then some a else none
  | .error _ => none

end Tenancy.Json
