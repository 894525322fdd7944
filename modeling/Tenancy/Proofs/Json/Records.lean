/-
Records read back. An object in its form without blanks is read as a
record member by member: a member that is a field puts its value into the
draft, and any other one is passed over and leaves the draft alone.
`Collects` says what draft the members come to in this way, one rule for
each of the two; the readers of single values enter there, with the one
demand that a value is read whichever way the object goes on behind it.
From this follows what a whole document of such an object holds
(`readWhole?_object`).
-/
import Tenancy.Proofs.Json.Numbers
import Tenancy.Proofs.Json.Texts

namespace Tenancy.Json

open Text

-- ============================================================ objects

/-- A member as it is written: its name, and its value's text. -/
abbrev MemberText := String × List Char

/-- The members of an object, divided by commas. -/
def membersText (isFirst : Bool) : List MemberText → List Char
  | [] => []
  | (name, value) :: members =>
    (if isFirst then [] else [',']) ++ (quote name).toList ++ ':'
      :: (value ++ membersText false members)

/-- An object without blanks. -/
def objectText (members : List MemberText) : List Char :=
  '\x7b' :: (membersText true members ++ ['\x7d'])

variable {σ α : Type} {fields : List (Field σ)} {members : List MemberText}
  {rest : List Char} {isFirst : Bool}

theorem length_le_membersText (isFirst : Bool) (members : List MemberText) :
    members.length ≤ (membersText isFirst members).length := by
  induction members generalizing isFirst with
  | nil => exact Nat.le_refl _
  | cons member members ih =>
    have := ih false
    simp only [membersText, List.length_append, List.length_cons]
    omega

/-- What comes behind a value is the next member or the end of the object. -/
theorem ends_membersText (members : List MemberText) (rest : List Char) :
    Ends (membersText false members ++ '\x7d' :: rest) := by
  cases members with
  | nil => exact ends_cons (by decide)
  | cons member members => exact ends_cons (by decide)

-- ========================================================= collecting

/-- The members of an object, read from a draft on, come to another draft. -/
inductive Collects (fields : List (Field σ)) :
    List MemberText → σ → σ → Prop where
  | nil {draft : σ} : Collects fields [] draft draft
  /-- A field's value is put into the draft. -/
  | field {name : String} {value : List Char} {field : Field σ} {set : σ → σ}
      {members : List MemberText}
      {draft final : σ} (plain : Plain name.toList)
      (found : fields.find? (fun f => f.name == name) = some field)
      (read : ∀ rest, Ends rest → field.read (value ++ rest) = .ok (set, rest))
      (others : Collects fields members (set draft) final) :
      Collects fields ((name, value) :: members) draft final
  /-- What is no field is passed over. -/
  | other {name : String} {value : List Char} {members : List MemberText}
      {draft final : σ}
      (plain : Plain name.toList)
      (found : fields.find? (fun f => f.name == name) = none)
      (skip : ∀ rest, Ends rest → skipValue (value ++ rest) = .ok ((), rest))
      (others : Collects fields members draft final) :
      Collects fields ((name, value) :: members) draft final

theorem Field.read_of {name : String} {read : Reader α} {set : α → σ → σ}
    {cs : List Char} {a : α}
    (h : read cs = .ok (a, rest)) :
    (Field.of name read set).read cs = .ok (set a, rest) := by
  simp only [Field.of, h, bind, Except.bind]
  rfl

theorem readNextName_member (isFirst : Bool) {name : String}
    (h : Plain name.toList) :
    readNextName isFirst
      ((if isFirst then [] else [',']) ++ (quote name).toList ++ rest)
      = .ok (true, name.toList ++ '"' :: rest) := by
  rw [toList_quote h]
  cases isFirst <;> simp [readNextName, required, nextName, skipGaps, isGap]

theorem readString_plain {name : String} (h : Plain name.toList) :
    readString (name.toList ++ '"' :: rest) = .ok (name, rest) := by
  rw [readString, required, scanString_plain h]

theorem readColon_colon : readColon (':' :: rest) = .ok ((), rest) := by
  simp [readColon, required, scanColon, skipGaps, isGap]

/-- The members are read up to the end of the object. -/
theorem readMembers_of_collects {draft final : σ}
    (h : Collects fields members draft final)
    {seen : List String} (hunseen : ∀ member ∈ members, member.1 ∉ seen)
    (hnames : (members.map Prod.fst).Nodup) {fuel : Nat}
    (hfuel : members.length < fuel) :
    Shape.readMembers fields fuel isFirst seen draft
      (membersText isFirst members ++ '\x7d' :: rest)
      = .ok (final, '\x7d' :: rest) := by
  induction h generalizing isFirst seen fuel with
  | nil =>
    obtain ⟨fuel, rfl⟩ :=
      Nat.exists_eq_succ_of_ne_zero (Nat.ne_zero_of_lt hfuel)
    have hend : readNextName isFirst ('\x7d' :: rest)
        = .ok (false, '\x7d' :: rest) := by
      simp [readNextName, required, nextName, skipGaps, isGap]
    simp [membersText, Shape.readMembers, hend, bind, Except.bind, pure,
      Except.pure]
  | @field name value field set members draft final plain found read
    others ih =>
    obtain ⟨fuel, rfl⟩ :=
      Nat.exists_eq_succ_of_ne_zero (Nat.ne_zero_of_lt hfuel)
    obtain ⟨hunseen, hothers⟩ := List.forall_mem_cons.1 hunseen
    obtain ⟨hname, hnames⟩ := List.nodup_cons.1 hnames
    -- a name is seen once its field was read, and none comes twice
    have hothers : ∀ member ∈ members, member.1 ∉ name :: seen := by
      intro member hmember hseen
      obtain heq | hseen := List.mem_cons.1 hseen
      · exact hname (List.mem_map.2 ⟨member, hmember, heq⟩)
      · exact hothers member hmember hseen
    have hnew : seen.contains name = false := by
      simpa using hunseen
    simp only [membersText, List.append_assoc, List.cons_append]
    rw [← List.append_assoc, Shape.readMembers,
      readNextName_member isFirst plain]
    simp only [bind, Except.bind, if_true, readString_plain plain, found, hnew,
      Bool.false_eq_true, if_false, readColon_colon,
      read _ (ends_membersText members rest)]
    exact ih hothers hnames (Nat.lt_of_succ_lt_succ hfuel)
  | @other name value members draft final plain found skip others ih =>
    obtain ⟨fuel, rfl⟩ :=
      Nat.exists_eq_succ_of_ne_zero (Nat.ne_zero_of_lt hfuel)
    obtain ⟨-, hothers⟩ := List.forall_mem_cons.1 hunseen
    obtain ⟨-, hnames⟩ := List.nodup_cons.1 hnames
    simp only [membersText, List.append_assoc, List.cons_append]
    rw [← List.append_assoc, Shape.readMembers,
      readNextName_member isFirst plain]
    simp only [bind, Except.bind, if_true, readString_plain plain, found,
      readColon_colon, skip _ (ends_membersText members rest)]
    exact ih hothers hnames (Nat.lt_of_succ_lt_succ hfuel)

-- ========================================================== documents

/-- A document of one object holds what the draft makes that its members come
to. -/
theorem readWhole?_object {shape : Shape σ α} {draft : σ}
    (h : Collects shape.fields members shape.start draft)
    (hnames : (members.map Prod.fst).Nodup) :
    readWhole? shape.read (objectText members) = shape.finish draft := by
  have hfuel :
      members.length < (membersText true members ++ ['\x7d']).length + 1 := by
    have := length_le_membersText true members
    simp only [List.length_append, List.length_cons]
    omega
  have hmembers : Shape.readMembers shape.fields
      ((membersText true members ++ ['\x7d']).length + 1)
      true [] shape.start (membersText true members ++ ['\x7d'])
        = .ok (draft, ['\x7d']) :=
    readMembers_of_collects h (by simp) hnames hfuel
  have hgaps : skipGaps (objectText members) = objectText members := by
    simp [objectText, skipGaps, isGap]
  have hend : readObjectEnd ['\x7d'] = .ok ((), []) := by
    simp [readObjectEnd, required, closeObject, skipGaps, isGap]
  have hread : shape.read (objectText members)
      = (shape.finished draft).map fun a => (a, []) := by
    rw [Shape.read, hgaps]
    simp only [objectText, hmembers, bind, Except.bind]
    unfold Shape.finished
    cases shape.finish draft with
    | none => rfl
    | some a => simp only [hend, Except.map, pure, Except.pure]
  rw [readWhole?, hread]
  unfold Shape.finished
  cases shape.finish draft with
  | none => rfl
  | some a => rfl

end Tenancy.Json
