/-
Members of an object by their names. What can be seen of an object is the
value under each name (`find?`), and each operation on members is one
equation about that: a member set is found under its name and nowhere
else, a member erased is found no more, and an object merged into another
puts its own values over the other's (`Sorted.find?_merge`).

Setting and erasing also commute as lists, because members stand in the
order of their names and each name once (`Sorted`), which both keep.
-/
import Tenancy.Json.Basic

namespace Tenancy.Json.Members

variable {name other k : String} {value v : Json} {members rest : Members}

-- ====================================================== first members

theorem ne_of_lt {a b : String} (h : a < b) : a ≠ b := by
  rintro rfl
  exact String.lt_irrefl a h

/-- Names are equal or in one order or the other. -/
theorem eq_or_lt_or_lt (a b : String) : a = b ∨ a < b ∨ b < a := by
  by_cases heq : a = b
  · exact .inl heq
  · by_cases hlt : a < b
    · exact .inr (.inl hlt)
    · exact .inr
        (.inr (Std.lt_of_le_of_ne (String.not_lt.1 hlt) (Ne.symm heq)))

theorem insert_cons_self :
    insert name value ((name, v) :: rest) = (name, value) :: rest :=
  if_pos rfl

theorem insert_cons_of_lt (h : name < k) :
    insert name value ((k, v) :: rest) = (name, value) :: (k, v) :: rest := by
  rw [insert, if_neg (ne_of_lt h), if_pos h]

theorem insert_cons_of_gt (h : k < name) :
    insert name value ((k, v) :: rest) = (k, v) :: insert name value rest := by
  rw [insert, if_neg (ne_of_lt h).symm, if_neg (String.lt_asymm h)]

theorem find?_cons_self : find? name ((name, v) :: rest) = some v :=
  if_pos rfl

theorem find?_cons_of_ne (h : k ≠ name) :
    find? name ((k, v) :: rest) = find? name rest :=
  if_neg h

theorem erase_cons_self : erase name ((name, v) :: rest) = erase name rest :=
  List.filter_cons_of_neg (by simp)

theorem erase_cons_of_ne (h : k ≠ name) :
    erase name ((k, v) :: rest) = (k, v) :: erase name rest :=
  List.filter_cons_of_pos (by simpa using h)

-- ============================================================= order

/-- The members stand in the order of their names, no name twice. -/
def Sorted (members : Members) : Prop := members.Pairwise fun a b => a.1 < b.1

/-- A member of what is made by setting one is that one or was there before. -/
theorem mem_insert {m : String × Json} (h : m ∈ insert name value members) :
    m = (name, value) ∨ m ∈ members := by
  induction members with
  | nil => exact .inl (List.mem_singleton.1 h)
  | cons first rest ih =>
    obtain ⟨k, v⟩ := first
    rcases eq_or_lt_or_lt name k with rfl | hlt | hgt
    · rw [insert_cons_self] at h
      exact (List.mem_cons.1 h).imp_right (List.mem_cons_of_mem _)
    · rw [insert_cons_of_lt hlt] at h
      exact List.mem_cons.1 h
    · rw [insert_cons_of_gt hgt] at h
      rcases List.mem_cons.1 h with rfl | h
      · exact .inr (List.mem_cons_self ..)
      · exact (ih h).imp_right (List.mem_cons_of_mem _)

/-- A member is inserted in its place. -/
theorem Sorted.insert (h : Sorted members) :
    Sorted (insert name value members) := by
  induction members with
  | nil => exact List.pairwise_singleton ..
  | cons first rest ih =>
    obtain ⟨k, v⟩ := first
    obtain ⟨hfirst, hrest⟩ := List.pairwise_cons.1 h
    rcases eq_or_lt_or_lt name k with rfl | hlt | hgt
    · rw [insert_cons_self]
      exact List.pairwise_cons.2 ⟨hfirst, hrest⟩
    · rw [insert_cons_of_lt hlt]
      refine List.pairwise_cons.2 ⟨List.forall_mem_cons.2 ⟨hlt, ?_⟩, h⟩
      exact fun m hm => String.lt_trans hlt (hfirst m hm)
    · rw [insert_cons_of_gt hgt]
      refine List.pairwise_cons.2 ⟨fun m hm => ?_, ih hrest⟩
      rcases mem_insert hm with rfl | hm
      · exact hgt
      · exact hfirst m hm

/-- What is left of sorted members is sorted. -/
theorem Sorted.erase (h : Sorted members) : Sorted (erase name members) :=
  h.sublist List.filter_sublist

/-- An object is made of pairs by setting them one after the other. -/
theorem sorted_ofList (pairs : List (String × Json)) :
    Sorted (ofList pairs) := by
  have hfold : ∀ members : Members, Sorted members →
      Sorted
        (pairs.foldl (fun members m => Members.insert m.1 m.2 members)
          members) := by
    induction pairs with
    | nil => exact fun _ h => h
    | cons m pairs ih => exact fun _ h => ih _ h.insert
  exact hfold [] List.Pairwise.nil

-- ============================================================= views

/-- A member that was inserted is found. -/
theorem find?_insert_self (name : String) (value : Json) (members : Members) :
    find? name (insert name value members) = some value := by
  induction members with
  | nil => exact find?_cons_self
  | cons first rest ih =>
    obtain ⟨k, v⟩ := first
    rcases eq_or_lt_or_lt name k with rfl | hlt | hgt
    · rw [insert_cons_self, find?_cons_self]
    · rw [insert_cons_of_lt hlt, find?_cons_self]
    · rw [insert_cons_of_gt hgt, find?_cons_of_ne (ne_of_lt hgt), ih]

/-- And no other is found otherwise than before. -/
theorem find?_insert_of_ne (h : other ≠ name) (value : Json)
    (members : Members) :
    find? other (insert name value members) = find? other members := by
  induction members with
  | nil => exact find?_cons_of_ne h.symm
  | cons first rest ih =>
    obtain ⟨k, v⟩ := first
    rcases eq_or_lt_or_lt name k with rfl | hlt | hgt
    · rw [insert_cons_self, find?_cons_of_ne h.symm, find?_cons_of_ne h.symm]
    · rw [insert_cons_of_lt hlt, find?_cons_of_ne h.symm]
    · rw [insert_cons_of_gt hgt, find?, ih, find?]

/-- A member that was erased is not found. -/
theorem find?_erase_self (name : String) (members : Members) :
    find? name (erase name members) = none := by
  induction members with
  | nil => rfl
  | cons first rest ih =>
    obtain ⟨k, v⟩ := first
    by_cases heq : k = name
    · subst heq
      rw [erase_cons_self, ih]
    · rw [erase_cons_of_ne heq, find?_cons_of_ne heq, ih]

/-- And every other is found as before. -/
theorem find?_erase_of_ne (h : other ≠ name) (members : Members) :
    find? other (erase name members) = find? other members := by
  induction members with
  | nil => rfl
  | cons first rest ih =>
    obtain ⟨k, v⟩ := first
    by_cases heq : k = name
    · subst heq
      rw [erase_cons_self, find?_cons_of_ne h.symm, ih]
    · rw [erase_cons_of_ne heq, find?, ih, find?]

/-- A name that comes before all names of the members is none of them. -/
theorem find?_of_forall_lt (h : ∀ m ∈ members, name < m.1) :
    find? name members = none := by
  induction members with
  | nil => rfl
  | cons first rest ih =>
    obtain ⟨hfirst, hrest⟩ := List.forall_mem_cons.1 h
    rw [find?_cons_of_ne (ne_of_lt hfirst).symm, ih hrest]

-- ================================================ setting and erasing

/-- A name before all others comes first. -/
theorem insert_of_forall_lt (h : ∀ m ∈ members, name < m.1) :
    insert name value members = (name, value) :: members := by
  cases members with
  | nil => rfl
  | cons first rest =>
    exact insert_cons_of_lt (h first (List.mem_cons_self ..))

/-- There is nothing to erase of a name before all others. -/
theorem erase_of_forall_lt (h : ∀ m ∈ members, name < m.1) :
    erase name members = members := by
  rw [erase, List.filter_eq_self]
  intro m hm
  exact decide_eq_true (ne_of_lt (h m hm)).symm

/-- Of two values set under one name the second stays. -/
theorem insert_insert (name : String) (value v : Json) (members : Members) :
    insert name v (insert name value members) = insert name v members := by
  induction members with
  | nil => exact insert_cons_self
  | cons first rest ih =>
    obtain ⟨k, w⟩ := first
    rcases eq_or_lt_or_lt name k with rfl | hlt | hgt
    · rw [insert_cons_self, insert_cons_self, insert_cons_self]
    · rw [insert_cons_of_lt hlt, insert_cons_self, insert_cons_of_lt hlt]
    · rw [insert_cons_of_gt hgt, insert_cons_of_gt hgt, insert_cons_of_gt hgt,
        ih]

/-- Erasing a member undoes what was set under its name. -/
theorem erase_insert (name : String) (value : Json) (members : Members) :
    erase name (insert name value members) = erase name members := by
  induction members with
  | nil => exact erase_cons_self
  | cons first rest ih =>
    obtain ⟨k, w⟩ := first
    rcases eq_or_lt_or_lt name k with rfl | hlt | hgt
    · rw [insert_cons_self, erase_cons_self, erase_cons_self]
    · rw [insert_cons_of_lt hlt, erase_cons_self]
    · rw [insert_cons_of_gt hgt, erase_cons_of_ne (ne_of_lt hgt),
        erase_cons_of_ne (ne_of_lt hgt), ih]

/-- A member set behind its erasure comes to stand where it stood. -/
theorem Sorted.insert_erase (h : Sorted members) (name : String)
    (value : Json) :
    Members.insert name value (Members.erase name members)
      = Members.insert name value members := by
  induction members with
  | nil => rfl
  | cons first rest ih =>
    obtain ⟨k, w⟩ := first
    obtain ⟨hfirst, hrest⟩ := List.pairwise_cons.1 h
    rcases eq_or_lt_or_lt name k with rfl | hlt | hgt
    · rw [erase_cons_self, erase_of_forall_lt hfirst,
        insert_of_forall_lt hfirst, insert_cons_self]
    · have hbehind : ∀ m ∈ rest, name < m.1 :=
        fun m hm => String.lt_trans hlt (hfirst m hm)
      rw [erase_cons_of_ne (ne_of_lt hlt).symm, erase_of_forall_lt hbehind]
    · rw [erase_cons_of_ne (ne_of_lt hgt), insert_cons_of_gt hgt,
        insert_cons_of_gt hgt, ih hrest]

-- =========================================================== merging

/-- An object with another one merged into it: each member of that is set. -/
def merge (row payload : Members) : Members :=
  payload.foldl (fun row m => insert m.1 m.2 row) row

/-- Members that are merged into sorted ones stay sorted. -/
theorem Sorted.merge {row : Members} (h : Sorted row) (payload : Members) :
    Sorted (merge row payload) := by
  induction payload generalizing row with
  | nil => exact h
  | cons m payload ih => exact ih h.insert

/-- A name has the value of what was merged in, if it is named there. -/
theorem Sorted.find?_merge {payload : Members} (h : Sorted payload)
    (name : String) (row : Members) :
    Members.find? name (Members.merge row payload)
      = (Members.find? name payload).or (Members.find? name row) := by
  induction payload generalizing row with
  | nil => rfl
  | cons first rest ih =>
    obtain ⟨k, v⟩ := first
    obtain ⟨hfirst, hrest⟩ := List.pairwise_cons.1 h
    show Members.find? name (Members.merge (Members.insert k v row) rest) = _
    rw [ih hrest]
    by_cases heq : k = name
    · -- the names behind it come later, so none of them sets it again
      subst heq
      rw [find?_cons_self, find?_of_forall_lt hfirst, find?_insert_self]
      rfl
    · rw [find?_cons_of_ne heq, find?_insert_of_ne (Ne.symm heq)]

end Tenancy.Json.Members
