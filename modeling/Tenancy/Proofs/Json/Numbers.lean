/-
Whole numbers read back. A number has no end of its own: it ends where
something follows that cannot belong to it (`Ends`), as the comma or the
bracket behind a member. In front of such an end, the written form of a
number of 64 bits, signed or unsigned, is scanned as that number
(`scanNumber_int`), and the written form of any whole number is passed over
as a whole (`skipValue_int`).
-/
import Tenancy.Json.Shape
import Tenancy.Proofs.Text.Ascii
import Tenancy.Proofs.Text.Decimal

namespace Tenancy.Json

open Text

variable {c d : Char} {cs rest : List Char} {n v : Nat} {z : Int}

/-- Nothing that a number could go on with comes first. -/
def Ends (cs : List Char) : Prop :=
  ∀ c ∈ cs.head?, digitValue? c = none ∧ c ≠ '.' ∧ c ≠ 'e' ∧ c ≠ 'E'

/-- A number ends before a character that cannot go on with it. -/
theorem ends_cons (h : digitValue? c = none ∧ c ≠ '.' ∧ c ≠ 'e' ∧ c ≠ 'E') :
    Ends (c :: cs) := by
  intro d hd
  obtain rfl : c = d := by simpa using hd
  exact h

-- =========================================================== scanning

/-- Where a number ends, it is whole. -/
theorem scanTail_of_ends (negative : Bool) (h : Ends rest) :
    scanTail negative n rest = (some (wholeNumber negative n), rest) := by
  cases rest with
  | nil => rfl
  | cons c rest =>
    obtain ⟨-, hpoint, he, hE⟩ := h c rfl
    unfold scanTail
    split
    · next heq => exact absurd (List.cons.inj heq).1 hpoint
    · next heq => exact absurd (List.cons.inj heq).1 he
    · next heq => exact absurd (List.cons.inj heq).1 hE
    · rfl

/-- Digits are read to the number that they spell, as long as it fits a
word. -/
theorem scanWhole_digits (negative : Bool) (hread : digitsFrom v cs = some n)
    (hfits : n ≤ maxWord)
    (h : Ends rest) :
    scanWhole negative v (cs ++ rest)
      = (some (wholeNumber negative n), rest) := by
  induction cs generalizing v with
  | nil =>
    obtain rfl : v = n := Option.some.inj hread
    cases rest with
    | nil => rfl
    | cons c rest =>
      rw [List.nil_append, scanWhole, (h c rfl).1]
      exact scanTail_of_ends negative h
  | cons c cs ih =>
    obtain ⟨d, hd, hrest⟩ := digitsFrom_cons hread
    -- no value on the way is above the number itself, so none is too great
    have hsmall : ¬v * 10 + d > maxWord := by
      have := le_of_digitsFrom hrest
      omega
    simp only [List.cons_append, scanWhole, hd, hsmall, if_false]
    exact ih hrest

/-- A number is read back from its own digits. -/
theorem scanDigits_toDigits (negative : Bool) (hfits : n ≤ maxWord)
    (h : Ends rest) :
    scanDigits negative (Nat.toDigits 10 n ++ rest)
      = (some (wholeNumber negative n), rest) := by
  rcases Nat.eq_zero_or_pos n with rfl | hpos
  · have hdigit : digitValue? '0' = some 0 := by decide
    have hbehind : (rest.head?.bind digitValue?).isSome = false := by
      cases rest with
      | nil => rfl
      | cons c rest =>
        rw [List.head?_cons, Option.bind_some, (h c rfl).1]
        rfl
    rw [Nat.toDigits_zero, List.singleton_append, scanDigits, hdigit]
    simp only [hbehind, Bool.false_eq_true, if_false]
    exact scanTail_of_ends negative h
  · obtain ⟨c, cs, d, hdigits, hd, hne, hread⟩ := leading_toDigits hpos
    rw [hdigits, List.cons_append, scanDigits, hd]
    split
    · next heq => exact absurd heq (by simp)
    · next heq => exact absurd (Option.some.inj heq) hne
    · next first _ heq =>
      obtain rfl : d = first := Option.some.inj heq
      exact scanWhole_digits negative hread hfits h

-- ========================================================= whole numbers

/-- Can a number start like this? -/
def StartsNumber (c : Char) : Prop := c = '-' ∨ (digitValue? c).isSome = true

instance (c : Char) : Decidable (StartsNumber c) :=
  inferInstanceAs (Decidable (_ ∨ _))

/-- A character that starts a number is none that does not. -/
theorem StartsNumber.ne (h : StartsNumber c) (hd : ¬StartsNumber d) :
    c ≠ d := by
  rintro rfl
  exact hd h

/-- A digit is no sign. -/
theorem ne_minus_of_digit (h : (digitValue? c).isSome = true) : c ≠ '-' := by
  rintro rfl
  exact absurd h (by decide)

/-- A number without a sign is written in its digits. -/
theorem toList_toString_natCast (n : Nat) :
    (toString (n : Int)).toList = Nat.toDigits 10 n :=
  Nat.toList_repr

/-- A negative one has the sign before them. -/
theorem toList_toString_neg (n : Nat) :
    (toString (Int.negSucc n)).toList = '-' :: Nat.toDigits 10 (n + 1) := by
  show ("-" ++ (n + 1).repr).toList = _
  rw [String.toList_append, Nat.toList_repr]
  rfl

/-- The digits of a number start with a digit. -/
theorem startsNumber_toDigits (n : Nat) :
    ∃ c cs, Nat.toDigits 10 n = c :: cs ∧ (digitValue? c).isSome = true := by
  obtain ⟨c, cs, hdigits⟩ :=
    List.exists_cons_of_ne_nil (Nat.toDigits_ne_nil (n := n) (b := 10))
  refine ⟨c, cs, hdigits,
    isSome_digitValue?_of_digitsFrom (digitsFrom_toDigits n) c ?_⟩
  rw [hdigits]
  exact List.mem_cons_self

/-- A written number starts with a sign or a digit. -/
theorem startsNumber_toString (z : Int) :
    ∃ c cs, (toString z).toList = c :: cs ∧ StartsNumber c := by
  cases z with
  | ofNat n =>
    obtain ⟨c, cs, hdigits, hc⟩ := startsNumber_toDigits n
    exact ⟨c, cs, (toList_toString_natCast n).trans hdigits, .inr hc⟩
  | negSucc n => exact ⟨_, _, toList_toString_neg n, .inl rfl⟩

theorem ascii_toDigits (n : Nat) : Ascii (Nat.toDigits 10 n) := by
  intro c hc
  have hdigit := isSome_digitValue?_of_digitsFrom (digitsFrom_toDigits n) c hc
  have hnine : c ≤ '9' := by
    unfold digitValue? at hdigit
    split at hdigit
    · next h => exact h.2
    · exact absurd hdigit (by decide)
  have hbound : c.toNat ≤ 57 := by
    rw [Char.le_def, UInt32.le_iff_toNat_le] at hnine
    exact hnine
  omega

theorem ascii_toString_int (z : Int) : Ascii (toString z).toList := by
  cases z with
  | ofNat n =>
    rw [Int.ofNat_eq_natCast, toList_toString_natCast]
    exact ascii_toDigits n
  | negSucc n =>
    rw [toList_toString_neg]
    exact .cons (by decide) (ascii_toDigits (n + 1))

/-- A number of 64 bits, signed or unsigned, is scanned as itself. -/
theorem scanNumber_int (hlow : -0x8000000000000000 ≤ z) (hhigh : z ≤ maxWord)
    (h : Ends rest) :
    scanNumber ((toString z).toList ++ rest) = (some (.int z), rest) := by
  cases z with
  | ofNat n =>
    obtain ⟨c, cs, hdigits, hc⟩ := startsNumber_toDigits n
    have hfits : n ≤ maxWord := by
      simpa using hhigh
    have hscan := scanDigits_toDigits false hfits h
    rw [Int.ofNat_eq_natCast, toList_toString_natCast]
    rw [hdigits, List.cons_append] at hscan ⊢
    simp only [scanNumber, ne_minus_of_digit hc, if_false, hc, if_true]
    exact hscan
  | negSucc n =>
    have hfits : n + 1 ≤ 0x8000000000000000 := by omega
    have hscan :=
      scanDigits_toDigits true (n := n + 1) (by unfold maxWord; omega) h
    have hwhole : wholeNumber true (n + 1) = .int (Int.negSucc n) := by
      unfold wholeNumber
      rw [if_neg (by decide), if_neg (by omega)]
      rfl
    rw [hwhole] at hscan
    rw [toList_toString_neg]
    exact hscan

-- ============================================================ readers

/-- No number starts with a blank. -/
theorem isGap_eq_false (h : StartsNumber c) : isGap c = false := by
  have hblank := h.ne (d := ' ') (by decide)
  have hline := h.ne (d := '\n') (by decide)
  have htab := h.ne (d := '\t') (by decide)
  have hreturn := h.ne (d := '\r') (by decide)
  simp [isGap, hblank, hline, htab, hreturn]

/-- So there are no blanks to skip before it. -/
theorem skipGaps_of_starts (h : StartsNumber c) :
    skipGaps (c :: cs) = c :: cs := by
  simp [skipGaps, isGap_eq_false h]

/-- A number in the range asked for is read. -/
theorem readIntWithin_int {low high : Int} (hlow : low ≤ z) (hhigh : z < high)
    (hleast : -0x8000000000000000 ≤ low) (hgreatest : high ≤ maxWord + 1)
    (h : Ends rest) :
    readIntWithin low high ((toString z).toList ++ rest) = .ok (z, rest) := by
  have hscan := scanNumber_int (z := z) (by omega) (by omega) h
  obtain ⟨c, cs, htext, hc⟩ := startsNumber_toString z
  rw [htext, List.cons_append] at hscan ⊢
  have hstart : c = '-' ∨ (digitValue? c).isSome = true := hc
  simp only [readIntWithin, skipGaps_of_starts hc, hstart, if_true, readNumber,
    required, hscan]
  exact if_pos ⟨hlow, hhigh⟩

/-- A number is scanned as a value, however deep values may nest. -/
theorem scanValue_int (depth : Nat) (hlow : -0x8000000000000000 ≤ z)
    (hhigh : z ≤ maxWord) (h : Ends rest) :
    scanValue depth ((toString z).toList ++ rest) = (some (.int z), rest) := by
  have hscan := scanNumber_int hlow hhigh h
  obtain ⟨c, cs, htext, hc⟩ := startsNumber_toString z
  rw [htext, List.cons_append] at hscan ⊢
  have htree :
      scanTree depth (c :: (cs ++ rest)) = scanNumber (c :: (cs ++ rest)) := by
    unfold scanTree scanTreeFor
    rw [skipGaps_of_starts hc]
    split
    case h_7 => rfl
    all_goals
      next heq => exact absurd (List.cons.inj heq).1 (hc.ne (by decide))
  rw [scanValue, htree, hscan]
  rfl

-- ======================================================= passing over

/-- Digits are skipped up to where they end. -/
theorem skipDigits_append (hcs : ∀ c ∈ cs, (digitValue? c).isSome = true)
    (h : Ends rest) : skipDigits (cs ++ rest) = rest := by
  induction cs with
  | nil =>
    cases rest with
    | nil => rfl
    | cons c rest => simp [skipDigits, (h c rfl).1]
  | cons c cs ih =>
    obtain ⟨hc, hcs⟩ := List.forall_mem_cons.1 hcs
    rw [List.cons_append, skipDigits, List.dropWhile_cons, if_pos hc]
    exact ih hcs

/-- Where a number ends, it has no exponent. -/
theorem skipExponent?_of_ends (h : Ends rest) :
    skipExponent? rest = some rest := by
  cases rest with
  | nil => rfl
  | cons c rest =>
    obtain ⟨-, -, he, hE⟩ := h c rfl
    unfold skipExponent?
    split
    · next heq => exact absurd (List.cons.inj heq).1 he
    · next heq => exact absurd (List.cons.inj heq).1 hE
    · rfl

/-- A sign is skipped. -/
theorem skipNumber?_minus (hc : c ≠ '-') :
    skipNumber? ('-' :: c :: cs) = skipNumber? (c :: cs) := by
  simp [skipNumber?, hc]

/-- A number is skipped as a whole. -/
theorem skipNumber?_toDigits (n : Nat) (h : Ends rest) :
    skipNumber? (Nat.toDigits 10 n ++ rest) = some rest := by
  have hexponent := skipExponent?_of_ends h
  rcases Nat.eq_zero_or_pos n with rfl | hpos
  · rw [Nat.toDigits_zero, List.singleton_append]
    cases rest with
    | nil => rfl
    | cons d rest =>
      obtain ⟨hd, hpoint, -⟩ := h d rfl
      simp [skipNumber?, hd, hpoint, hexponent]
  · obtain ⟨c, cs, d, hdigits, hd, hne, hread⟩ := leading_toDigits hpos
    have hminus : c ≠ '-' := ne_minus_of_digit (by rw [hd]; rfl)
    have hzero : c ≠ '0' := by
      rintro rfl
      exact hne (Option.some.inj hd).symm
    have hskip := skipDigits_append (isSome_digitValue?_of_digitsFrom hread) h
    rw [hdigits, List.cons_append]
    cases rest with
    | nil =>
      rw [List.append_nil] at hskip ⊢
      simp [skipNumber?, skipSomeDigits?, hminus, hzero, hd, hskip, hexponent]
    | cons e rest =>
      obtain ⟨-, hpoint, -⟩ := h e rfl
      simp [skipNumber?, skipSomeDigits?, hminus, hzero, hd, hskip, hpoint,
        hexponent]

/-- So is one with a sign. -/
theorem skipNumber?_int (z : Int) (h : Ends rest) :
    skipNumber? ((toString z).toList ++ rest) = some rest := by
  cases z with
  | ofNat n =>
    rw [Int.ofNat_eq_natCast, toList_toString_natCast]
    exact skipNumber?_toDigits n h
  | negSucc n =>
    have hskip := skipNumber?_toDigits (n + 1) h
    obtain ⟨c, cs, hdigits, hc⟩ := startsNumber_toDigits (n + 1)
    rw [toList_toString_neg]
    rw [hdigits, List.cons_append] at hskip ⊢
    rw [List.cons_append, skipNumber?_minus (ne_minus_of_digit hc)]
    exact hskip

/-- A number of any size is passed over. -/
theorem skipValue_int (z : Int) (h : Ends rest) :
    skipValue ((toString z).toList ++ rest) = .ok ((), rest) := by
  have hskip := skipNumber?_int z h
  obtain ⟨c, cs, htext, hc⟩ := startsNumber_toString z
  rw [htext, List.cons_append] at hskip ⊢
  have hvalue :
      skipFor (2 * (c :: (cs ++ rest)).length + 2) [] true (c :: (cs ++ rest))
      = .ok rest := by
    unfold skipFor
    rw [skipGaps_of_starts hc]
    split
    case h_7 =>
      rw [hskip]
      rfl
    all_goals
      next heq => exact absurd (List.cons.inj heq).1 (hc.ne (by decide))
  rw [skipValue, hvalue]
  rfl

end Tenancy.Json
