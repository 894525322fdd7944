/-
Identifiers written and read back. The written form of an identifier is
read as that identifier (`ofString?_toString`), so nothing is lost where
one is bound to a placeholder or put into an answer as its text, and two
identifiers with the same text are the same.
-/
import Tenancy.Json.Scalars

namespace Tenancy

namespace Uuid

open Text

def ofNat (n : Nat) : Uuid :=
  ⟨⟨n % 0x100000000000000000000000000000000, Nat.mod_lt _ (by decide)⟩⟩

/-- Hyphens between groups of the right lengths are found again. -/
theorem ungroup?_groups {a b c d e : List Char} (ha : a.length = 8)
    (hb : b.length = 4)
    (hc : c.length = 4) (hd : d.length = 4) (he : e.length = 12) :
    ungroup? (a ++ '-' :: (b ++ '-' :: (c ++ '-' :: (d ++ '-' :: e))))
      = some (a ++ b ++ c ++ d ++ e) := by
  unfold ungroup?
  rw [if_pos]
  · simp (disch := omega)
      [List.drop_append, List.drop_of_length_le, ha, hb, hc, hd]
  · simp [ha, hb, hc, hd, he]

/-- A part of a list and what follows it make up the list from there on. -/
theorem take_drop_append_drop (cs : List Char) (n m : Nat) :
    (cs.drop n).take m ++ cs.drop (n + m) = cs.drop n := by
  rw [← List.drop_drop, List.take_append_drop]

/-- The groups of a written identifier are its digits. -/
theorem ungroup?_toChars (id : Uuid) :
    ungroup? id.toChars = some (hexDigits 32 id.value.val) := by
  have hlength := length_hexDigits 32 id.value.val
  unfold toChars
  simp only [List.append_assoc, List.cons_append]
  rw [ungroup?_groups (by simp [hlength]) (by simp [hlength])
    (by simp [hlength])
    (by simp [hlength]) (by simp [hlength])]
  simp only [List.append_assoc]
  rw [take_drop_append_drop _ 16 4, take_drop_append_drop _ 12 4,
    take_drop_append_drop _ 8 4, List.take_append_drop]

theorem ofString?_toString (id : Uuid) : ofString? id.toString = some id := by
  have hdigits : ofDigits? (hexDigits 32 id.value.val) = some id := by
    have hvalue : hexFrom 0 (hexDigits 32 id.value.val) = some id.value.val :=
      hexFrom_hexDigits id.value.isLt
    unfold ofDigits?
    simp [length_hexDigits, hvalue]
  unfold ofString? Uuid.toString ofChars?
  rw [String.toList_ofList]
  simp only [length_toChars]
  simp [ofGrouped?, ungroup?_toChars, hdigits]

end Uuid

theorem Json.uuid?_uuid (id : Uuid) : (Json.uuid id).uuid? = some id :=
  Uuid.ofString?_toString id

end Tenancy
