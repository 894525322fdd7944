/-
Text of ASCII characters only, which is its own UTF-8: each character is
one byte, and the characters that stand for the bytes are the text
itself (`octets_of_ascii`). The bytes are read as the text again
(`readUtf8?_of_ascii`), and two such texts of the same bytes are the same
(`utf8_inj_of_ascii`). The bytes of all other characters are apart from
these (`le_of_mem_utf8OfChar`).
-/
import Tenancy.Text.Utf8

namespace Tenancy.Text

/-- Every character is one of the first 128. -/
def Ascii (cs : List Char) : Prop := ∀ c ∈ cs, c.toNat < 0x80

instance (cs : List Char) : Decidable (Ascii cs) :=
  List.decidableBAll (fun c : Char => c.toNat < 0x80) cs

variable {cs ds : List Char} {c : Char} {a b : String}

theorem Ascii.append (h : Ascii cs) (h' : Ascii ds) : Ascii (cs ++ ds) :=
  List.forall_mem_append.2 ⟨h, h'⟩

theorem Ascii.cons (hc : c.toNat < 0x80) (h : Ascii cs) : Ascii (c :: cs) :=
  List.forall_mem_cons.2 ⟨hc, h⟩

theorem utf8OfChar_of_ascii (h : c.toNat < 0x80) :
    utf8OfChar c = [c.toNat.toUInt8] :=
  if_pos h

theorem toNat_toUInt8_of_ascii (h : c.toNat < 0x80) :
    c.toNat.toUInt8.toNat = c.toNat := by
  rw [UInt8.toNat_ofNat']
  exact Nat.mod_eq_of_lt (by omega)

/-- No byte of another character is one of the first 128 either. -/
theorem le_of_mem_utf8OfChar {b : UInt8} (hc : 0x80 ≤ c.toNat)
    (hb : b ∈ utf8OfChar c) : 0x80 ≤ b.toNat := by
  have hscalar : c.toNat < 0x110000 := by
    rcases c.valid with hlow | ⟨-, hhigh⟩
    · exact Nat.lt_trans hlow (by decide)
    · exact hhigh
  have hbyte : ∀ n, 0x80 ≤ n → n < 0x100 → 0x80 ≤ n.toUInt8.toNat := by
    intro n hlow hhigh
    rw [UInt8.toNat_ofNat', Nat.mod_eq_of_lt hhigh]
    exact hlow
  unfold utf8OfChar at hb
  dsimp only at hb
  rw [if_neg (by omega)] at hb
  split at hb
  · simp only [List.mem_cons, List.not_mem_nil, or_false] at hb
    rcases hb with rfl | rfl <;> exact hbyte _ (by omega) (by omega)
  · split at hb
    · simp only [List.mem_cons, List.not_mem_nil, or_false] at hb
      rcases hb with rfl | rfl | rfl <;> exact hbyte _ (by omega) (by omega)
    · simp only [List.mem_cons, List.not_mem_nil, or_false] at hb
      rcases hb with rfl | rfl | rfl | rfl
        <;> exact hbyte _ (by omega) (by omega)

theorem charOfByte_toUInt8 (h : c.toNat < 0x80) :
    charOfByte c.toNat.toUInt8 = c := by
  unfold charOfByte
  rw [toNat_toUInt8_of_ascii h, Char.ofNat_toNat]

theorem map_charOfByte_of_ascii (h : Ascii cs) :
    (cs.flatMap utf8OfChar).map charOfByte = cs := by
  induction cs with
  | nil => rfl
  | cons c rest ih =>
    obtain ⟨hc, hrest⟩ := List.forall_mem_cons.1 h
    rw [List.flatMap_cons, utf8OfChar_of_ascii hc, List.map_append, ih hrest]
    exact congrArg (· :: rest) (charOfByte_toUInt8 hc)

theorem octets_of_ascii (h : Ascii a.toList) : octets a = a.toList :=
  map_charOfByte_of_ascii h

/-- The bytes of such a text are read as that text. -/
theorem readUtf8?_of_ascii (h : Ascii cs) :
    readUtf8? (cs.flatMap utf8OfChar) = some cs := by
  have hread : ∀ fuel, (cs.flatMap utf8OfChar).length ≤ fuel →
      readUtf8For fuel (cs.flatMap utf8OfChar) = some cs := by
    induction cs with
    | nil =>
      intro fuel _
      cases fuel <;> rfl
    | cons c rest ih =>
      obtain ⟨hc, hrest⟩ := List.forall_mem_cons.1 h
      have hpiece : ∀ bytes, pieceAt c.toNat.toUInt8 bytes = .char c 1 := by
        intro bytes
        rw [pieceAt, toNat_toUInt8_of_ascii hc, if_pos hc, Char.ofNat_toNat]
      rw [List.flatMap_cons, utf8OfChar_of_ascii hc, List.singleton_append]
      intro fuel hfuel
      cases fuel with
      | zero => exact absurd hfuel (by simp)
      | succ fuel =>
        rw [readUtf8For, hpiece]
        simp only [Nat.sub_self, List.drop_zero]
        rw [ih hrest fuel (Nat.le_of_succ_le_succ hfuel)]
        rfl
  exact hread _ (Nat.le_refl _)

theorem utf8_inj_of_ascii (ha : Ascii a.toList) (hb : Ascii b.toList) :
    utf8 a = utf8 b ↔ a = b := by
  constructor
  · intro h
    apply String.toList_injective
    rw [← octets_of_ascii ha, ← octets_of_ascii hb]
    exact congrArg (List.map charOfByte) h
  · rintro rfl
    rfl

end Tenancy.Text
