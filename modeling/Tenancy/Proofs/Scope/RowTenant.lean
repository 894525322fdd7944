/-
The tenant of a row, from its insertion on. A row is made from a stamped
payload and changed by payloads that are stripped and merged into it, one
after the other (`rowAfter`). Whatever clients put into these payloads,
under any key and of any type, the row says the organization that it was
made for, and of each other key what the last payload that named it said
(`Holds`).

The stamp itself obeys the laws of members: it takes the place of any
other value of its key, so that stamping forgets what stood there, and
stripping forgets the stamp (`Laws`).
-/
import Tenancy.Proofs.Json.Members
import Tenancy.Proofs.Uuid
import Tenancy.Scope.Stamp

namespace Tenancy

-- ======================================================== hyphenation

namespace Uuid

open Text

/-- A hexadecimal digit that is no capital letter. -/
def isSmallHexDigit (c : Char) : Bool :=
  ('0' ≤ c && c ≤ '9') || ('a' ≤ c && c ≤ 'f')

/-- A text is an identifier in hyphenated small letters: five groups of
digits that are the identifier's number, with hyphens between them. -/
def Hyphenated (id : Uuid) (text : String) : Prop :=
  ∃ groups : List (List Char), text.toList = ['-'].intercalate groups
    ∧ groups.map List.length = [8, 4, 4, 4, 12]
    ∧ (∀ digit ∈ groups.flatten, isSmallHexDigit digit = true)
    ∧ hexFrom 0 groups.flatten = some id.value.val

theorem isSmallHexDigit_of_mem {width n : Nat} {c : Char}
    (h : c ∈ hexDigits width n) : isSmallHexDigit c = true := by
  have hdigit : ∀ m < 16, isSmallHexDigit (hexDigit m) = true := by decide
  induction width generalizing n with
  | zero => cases h
  | succ width ih =>
    rcases List.mem_append.1 h with h | h
    · exact ih h
    · rw [List.mem_singleton.1 h]
      exact hdigit _ (Nat.mod_lt _ (by decide))

/-- The groups of the written form. -/
def groups (id : Uuid) : List (List Char) :=
  let digits := hexDigits 32 id.value.val
  [digits.take 8, (digits.drop 8).take 4, (digits.drop 12).take 4,
    (digits.drop 16).take 4, digits.drop 20]

theorem flatten_groups (id : Uuid) :
    id.groups.flatten = hexDigits 32 id.value.val := by
  simp only [groups, List.flatten_cons, List.flatten_nil, List.append_nil]
  rw [take_drop_append_drop _ 16 4, take_drop_append_drop _ 12 4,
    take_drop_append_drop _ 8 4, List.take_append_drop]

theorem hyphenated_toString (id : Uuid) : id.Hyphenated id.toString := by
  have hlength : (hexDigits 32 id.value.val).length = 32 :=
    length_hexDigits 32 id.value.val
  have hjoin : ∀ a b c d e : List Char, ['-'].intercalate [a, b, c, d, e]
      = a ++ '-' :: b ++ '-' :: c ++ '-' :: d ++ '-' :: e := by
    intro a b c d e
    simp [List.intercalate_cons_cons]
  refine ⟨id.groups, ?_, ?_, ?_, ?_⟩
  · rw [Uuid.toString, String.toList_ofList, groups, hjoin, toChars]
  · simp [groups, hlength]
  · rw [flatten_groups]
    exact fun digit h => isSmallHexDigit_of_mem h
  · rw [flatten_groups]
    exact hexFrom_hexDigits id.value.isLt

end Uuid

namespace Stamp

open Json

variable {organization : OrganizationContext} {payload created row : Members}
  {updates : List Members}

-- ========================================================== vocabulary

/-- The row that a payload makes, behind payloads that change it. -/
def rowAfter (organization : OrganizationContext) (created : Members)
    (updates : List Members) : Members :=
  updates.foldl (fun row payload => Members.merge row (strip payload))
    (insert created organization)

/-- The value of a key in the last payload that names it. -/
def lastValue (name : String) (payloads : List Members) : Option Json :=
  payloads.reverse.findSome? (Members.find? name)

/-- What a row holds: each key once, the organization's text under its key,
and under each other key what the last payload that names it says. -/
structure Holds (organization : OrganizationContext) (payloads : List Members)
    (row : Members) : Prop where
  sorted : Members.Sorted row
  tenant : ∃ text, Members.find? organizationColumn row = some (.str text)
    ∧ organization.organizationId.Hyphenated text
  others :
    ∀ name, name ≠ organizationColumn →
    Members.find? name row = lastValue name payloads

/-- What a stamp on a payload makes of other stamps, of what a client says
in its place, and of stripping. -/
structure Laws (organization : OrganizationContext) (payload : Members) :
    Prop where
  idempotent :
    insert (insert payload organization) organization
    = insert payload organization
  over_stamp :
    ∀ earlier,
    insert (insert payload earlier) organization = insert payload organization
  over_value : ∀ value,
    insert (Members.insert organizationColumn value payload) organization
      = insert payload organization
  stamp_strip :
    insert (strip payload) organization = insert payload organization
  strip_stamp : strip (insert payload organization) = strip payload

-- ============================================================ history

theorem laws_of_sorted (h : Members.Sorted payload) :
    Laws organization payload where
  idempotent := Members.insert_insert ..
  over_stamp _ := Members.insert_insert ..
  over_value _ := Members.insert_insert ..
  stamp_strip := h.insert_erase ..
  strip_stamp := Members.erase_insert ..

theorem lastValue_concat (name : String) (payloads : List Members)
    (payload : Members) :
    lastValue name (payloads ++ [payload])
      = (Members.find? name payload).or (lastValue name payloads) := by
  rw [lastValue, List.reverse_append, List.reverse_singleton,
    List.singleton_append, List.findSome?_cons]
  cases Members.find? name payload <;> rfl

/-- A stamped payload holds what it says of all keys but the stamp's. -/
theorem holds_insert (h : Members.Sorted created) :
    Holds organization [created] (insert created organization) where
  sorted := h.insert
  tenant := ⟨_, Members.find?_insert_self .., Uuid.hyphenated_toString _⟩
  others name hne := by
    rw [insert, Members.find?_insert_of_ne hne, ← List.nil_append [created],
      lastValue_concat]
    exact (Option.or_none).symm

/-- One change keeps the tenant, and is the last to name what it names. -/
theorem Holds.update {payloads : List Members}
    (h : Holds organization payloads row) (hpayload : Members.Sorted payload) :
    Holds organization (payloads ++ [payload])
      (Members.merge row (strip payload)) := by
  have hstripped : Members.Sorted (strip payload) := hpayload.erase
  refine ⟨h.sorted.merge _, ?_, ?_⟩
  · obtain ⟨text, hfound, htext⟩ := h.tenant
    refine ⟨text, ?_, htext⟩
    rw [hstripped.find?_merge, strip, Members.find?_erase_self]
    exact hfound
  · intro name hne
    rw [hstripped.find?_merge, strip, Members.find?_erase_of_ne hne,
      h.others name hne, lastValue_concat]

theorem Holds.history {payloads : List Members}
    (h : Holds organization payloads row)
    (hupdates : ∀ payload ∈ updates, Members.Sorted payload) :
    Holds organization (payloads ++ updates)
      (updates.foldl (fun row payload => Members.merge row (strip payload))
        row) := by
  induction updates generalizing payloads row with
  | nil => rwa [List.append_nil]
  | cons payload updates ih =>
    obtain ⟨hpayload, hrest⟩ := List.forall_mem_cons.1 hupdates
    rw [List.append_cons]
    exact ih (h.update hpayload) hrest

/-- A row's tenant is fixed when the row is made: behind any changes it is the
organization that the row was stamped with, while all other keys follow the
payloads, and the stamp obeys its laws on every payload. -/
theorem tenant_is_fixed_at_insertion (organization : OrganizationContext)
    (created : Members)
    (updates : List Members) (hcreated : Members.Sorted created)
    (hupdates : ∀ payload ∈ updates, Members.Sorted payload) :
    Holds organization (created :: updates)
      (rowAfter organization created updates)
      ∧ Laws organization created := by
  constructor
  · exact (holds_insert hcreated).history hupdates
  · exact laws_of_sorted hcreated

/-- A client names other tenants on making a row and on changing it, in a text
and in what is no text. -/
def contestedPayloads : Members × List Members :=
  (Members.ofList [("title", .str "x"), ("organization_id", .int 7)],
    [Members.ofList [("organization_id", .str "other"), ("title", .null)],
      Members.ofList [("organization_id", .null), ("done", .bool true)]])

theorem contestedPayloads_sorted : Members.Sorted contestedPayloads.1
    ∧ ∀ payload ∈ contestedPayloads.2, Members.Sorted payload :=
  ⟨Members.sorted_ofList _, List.forall_mem_cons.2 ⟨Members.sorted_ofList _,
    List.forall_mem_cons.2 ⟨Members.sorted_ofList _, nofun⟩⟩⟩

theorem contestedPayloads_keep_tenant :
    (Holds ⟨.ofNat 0xa1, none, .free⟩
      (contestedPayloads.1 :: contestedPayloads.2)
        (rowAfter ⟨.ofNat 0xa1, none, .free⟩ contestedPayloads.1
          contestedPayloads.2)
      ∧ Laws ⟨.ofNat 0xa1, none, .free⟩ contestedPayloads.1)
      ∧ rowAfter ⟨.ofNat 0xa1, none, .free⟩ contestedPayloads.1
        contestedPayloads.2
        = [("done", .bool true),
          ("organization_id", .str "00000000-0000-0000-0000-0000000000a1"),
          ("title", .null)] :=
  ⟨tenant_is_fixed_at_insertion _ _ _ contestedPayloads_sorted.1
    contestedPayloads_sorted.2,
    by decide +kernel⟩

end Stamp

end Tenancy
