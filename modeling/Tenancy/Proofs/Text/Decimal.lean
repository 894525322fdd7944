/-
The decimal digits of a number, read back. Digits are read one behind the
other, each raising the value by a place, so the value read never falls
(`le_of_digitsFrom`): a bound on the number bounds all values on the
way. The digits of a positive number start with one that is not zero
(`leading_toDigits`).
-/
import Tenancy.Text.Decimal

namespace Tenancy.Text

variable {c : Char} {cs : List Char} {v n d : Nat}

theorem digitValue?_of_isDigit (h : c.isDigit = true) :
    digitValue? c = some (c.toNat - 48) := by
  have hbounds : '0' ≤ c ∧ c ≤ '9' := by
    simpa [Char.isDigit, Char.le_def] using h
  exact if_pos hbounds

theorem digitsFrom_eq_ofDigitChars (h : ∀ c ∈ cs, c.isDigit = true) :
    digitsFrom v cs = some (Nat.ofDigitChars 10 cs v) := by
  induction cs generalizing v with
  | nil => rfl
  | cons c rest ih =>
    obtain ⟨hc, hrest⟩ := List.forall_mem_cons.1 h
    rw [digitsFrom, digitValue?_of_isDigit hc, Nat.ofDigitChars_cons,
      Nat.mul_comm 10 v]
    exact ih hrest

theorem digitsFrom_toDigits (n : Nat) :
    digitsFrom 0 (Nat.toDigits 10 n) = some n := by
  rw [digitsFrom_eq_ofDigitChars, Nat.ofDigitChars_ten_toDigits]
  exact fun c hc => Nat.isDigit_of_mem_toDigits (by decide) (by decide) hc

theorem digitsFrom_cons (h : digitsFrom v (c :: cs) = some n) :
    ∃ d, digitValue? c = some d ∧ digitsFrom (v * 10 + d) cs = some n :=
  Option.bind_eq_some_iff.1 h

theorem le_of_digitsFrom (h : digitsFrom v cs = some n) : v ≤ n := by
  induction cs generalizing v with
  | nil => exact Nat.le_of_eq (Option.some.inj h)
  | cons c rest ih =>
    obtain ⟨d, -, hrest⟩ := digitsFrom_cons h
    have := ih hrest
    omega

theorem isSome_digitValue?_of_digitsFrom (h : digitsFrom v cs = some n) :
    ∀ c ∈ cs, (digitValue? c).isSome = true := by
  induction cs generalizing v with
  | nil => exact fun c hc => absurd hc List.not_mem_nil
  | cons c rest ih =>
    obtain ⟨d, hd, hrest⟩ := digitsFrom_cons h
    exact List.forall_mem_cons.2 ⟨by rw [hd]; rfl, ih hrest⟩

theorem digitValue?_digitChar (h : d < 10) :
    digitValue? d.digitChar = some d := by
  have : ∀ m : Fin 10, digitValue? m.val.digitChar = some m.val := by decide
  exact this ⟨d, h⟩

/-- The first digit of a positive number is not zero, and the others are read
on from it. -/
theorem leading_toDigits (hn : 0 < n) :
    ∃ c rest d, Nat.toDigits 10 n = c :: rest ∧ digitValue? c = some d ∧ d ≠ 0
      ∧ digitsFrom d rest = some n := by
  have hleading :
      ∃ c rest d,
        Nat.toDigits 10 n = c :: rest ∧ digitValue? c = some d ∧ d ≠ 0 := by
    induction n using Nat.strongRecOn with
    | ind n ih =>
      by_cases hsmall : n < 10
      · exact ⟨_, _, n, Nat.toDigits_of_lt_base hsmall,
          digitValue?_digitChar hsmall, by omega⟩
      · obtain ⟨c, rest, d, hdigits, hd⟩ := ih (n / 10) (by omega) (by omega)
        refine ⟨c, rest ++ [(n % 10).digitChar], d, ?_, hd⟩
        rw [Nat.toDigits_of_base_le (by decide) (by omega), hdigits,
          List.cons_append]
  obtain ⟨c, rest, d, hdigits, hd, hpos⟩ := hleading
  have hread := digitsFrom_toDigits n
  rw [hdigits] at hread
  obtain ⟨d', hd', hrest⟩ := digitsFrom_cons hread
  obtain rfl : d = d' := Option.some.inj (hd.symm.trans hd')
  rw [Nat.zero_mul, Nat.zero_add] at hrest
  exact ⟨c, rest, d, hdigits, hd, hpos, hrest⟩

end Tenancy.Text
