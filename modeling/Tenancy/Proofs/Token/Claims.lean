/-
Claims, written and read back. The text of claims is the form without
blanks of an object with three members (`text_eq_compact`), and it is plain
ASCII. Both readings of it come to an end: the first gives the claims
themselves as long as their instants fit 64 signed bits (`read_text`), and
the second tells the expiry, unless it is negative, and finds no audience
(`read_conditions_text`); the second has no field for the time of issue and
passes it over.
-/
import Tenancy.Proofs.Json.Records
import Tenancy.Proofs.Uuid
import Tenancy.Token.Claims

namespace Tenancy

open Json Text

/-- A number of 64 signed bits. -/
def IsInt64 (n : Int) : Prop :=
  -0x8000000000000000 ≤ n ∧ n < 0x8000000000000000

instance (n : Int) : Decidable (IsInt64 n) :=
  inferInstanceAs (Decidable (_ ∧ _))

namespace Claims

variable {c : Claims}

/-- The claims as a value. -/
def json (c : Claims) : Json :=
  .obj [("sub", .uuid c.subject), ("iat", .int c.issuedAt),
    ("exp", .int c.expires)]

/-- The claims as members of an object. -/
def members (c : Claims) : List MemberText := [
  ("sub", (quote c.subject.toString).toList),
  ("iat", (toString c.issuedAt).toList),
  ("exp", (toString c.expires).toList)]

theorem nodup_members (c : Claims) : (c.members.map Prod.fst).Nodup := by
  show ["sub", "iat", "exp"].Nodup
  decide

theorem text_eq_compact (c : Claims) : c.text = compact c.json := by
  have hcommas (a b c : String) :
      ",".intercalate [a, b, c] = a ++ "," ++ b ++ "," ++ c := rfl
  apply String.toList_injective
  simp (disch := decide)
    [text, json, compact, compactMembers, hcommas, toList_quote]

theorem toList_text (c : Claims) : c.text.toList = objectText c.members := by
  simp (disch := decide)
    [text, objectText, membersText, members, compact, Json.uuid, toList_quote]

theorem ascii_text (c : Claims) : Ascii c.text.toList := by
  have hsubject := ascii_quote (plain_uuid c.subject)
  simp only [text, String.toList_append, compact, Json.uuid]
  refine .append (.append (.append (.append (.append (.append ?_ hsubject) ?_)
    (ascii_toString_int _)) ?_) (ascii_toString_int _)) ?_ <;> decide

-- =========================================================== reading

/-- What the claims leave in a draft. -/
def draft (c : Claims) : Draft :=
  ⟨some c.subject, some c.issuedAt, some c.expires⟩

theorem readInt64_toString {z : Int} (hz : IsInt64 z) {rest : List Char}
    (h : Ends rest) :
    readInt64 ((toString z).toList ++ rest) = .ok (z, rest) :=
  readIntWithin_int hz.1 hz.2 (by decide) (by decide) h

theorem collects_shape (hissued : IsInt64 c.issuedAt)
    (hexpires : IsInt64 c.expires) :
    Collects shape.fields c.members shape.start c.draft := by
  have hsubject rest :
      readSpelled Uuid.ofString? ((quote c.subject.toString).toList ++ rest)
      = .ok (c.subject, rest) :=
    readSpelled_quote (plain_uuid c.subject)
      (Uuid.ofString?_toString c.subject)
  refine .field (by decide) rfl
    (fun rest _ => Field.read_of (hsubject rest)) ?_
  refine .field (by decide) rfl
    (fun _ h => Field.read_of (readInt64_toString hissued h)) ?_
  exact .field (by decide) rfl
    (fun _ h => Field.read_of (readInt64_toString hexpires h)) .nil

/-- The first reading gives the claims. -/
theorem read_text (hissued : IsInt64 c.issuedAt)
    (hexpires : IsInt64 c.expires) :
    readWhole? shape.read c.text.toList = some c := by
  rw [toList_text,
    readWhole?_object (collects_shape hissued hexpires) (nodup_members c)]
  rfl

-- ======================================================== conditions

/-- An expiry that is not negative is an instant. -/
theorem scanInstant_toString {z : Int} (hz : IsInt64 z) {rest : List Char}
    (h : Ends rest) :
    scanInstant ((toString z).toList ++ rest)
      = (if 0 ≤ z then some z else none, rest) := by
  have hscan :=
    scanValue_int 0 hz.1 (Int.le_trans (Int.le_of_lt hz.2) (by decide)) h
  obtain ⟨c, cs, htext, hc⟩ := startsNumber_toString z
  rw [htext, List.cons_append] at hscan ⊢
  unfold scanInstant
  rw [skipGaps_of_starts hc]
  split
  case h_3 =>
    rw [hscan]
  all_goals
    next heq => exact absurd (List.cons.inj heq).1 (hc.ne (by decide))

/-- The conditions of claims that are written like this. -/
def stated (c : Claims) : Conditions :=
  ⟨if 0 ≤ c.expires then some c.expires else none, false⟩

theorem collects_conditions (hexpires : IsInt64 c.expires) :
    Collects conditions.fields c.members conditions.start c.stated := by
  have hsubject rest :
      forgiven (scanValue 0) ((quote c.subject.toString).toList ++ rest)
      = .ok (some (.str c.subject.toString), rest) :=
    congrArg Except.ok (scanValue_quote 0 (plain_uuid c.subject))
  have hinstant rest (h : Ends rest) :
      forgiven scanInstant ((toString c.expires).toList ++ rest)
      = .ok (if 0 ≤ c.expires then some c.expires else none, rest) :=
    congrArg Except.ok (scanInstant_toString hexpires h)
  refine .field (by decide) rfl
    (fun rest _ => Field.read_of (hsubject rest)) ?_
  refine .other (by decide) rfl (fun _ h => skipValue_int c.issuedAt h) ?_
  exact .field (by decide) rfl
    (fun rest h => Field.read_of (hinstant rest h)) .nil

/-- The second reading gives the expiry, if it is an instant, and no
audience. -/
theorem read_conditions_text (hexpires : IsInt64 c.expires) :
    readWhole? conditions.read c.text.toList = some c.stated := by
  rw [toList_text,
    readWhole?_object (collects_conditions hexpires) (nodup_members c)]
  rfl

end Claims

end Tenancy
