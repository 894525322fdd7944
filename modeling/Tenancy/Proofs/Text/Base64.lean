/-
Base 64 undone. An alphabet is legible when each of its characters is
read as the value it was written for; both alphabets are. In a legible
one, what was written is read back whole, whatever the number of bytes
(`decode?_encode`): full groups of three bytes one by one, and then an end
of none, one or two bytes, whose last character has only zeros in the
bits left over. So no two runs of bytes are written alike.
-/
import Tenancy.Text.Base64

namespace Tenancy.Text.Base64

variable {alphabet : Base64} {bytes : List UInt8}

/-- Every value below 64 is read back from its character. -/
def Legible (alphabet : Base64) : Prop :=
  ∀ n < 64, alphabet.value? (alphabet.char n) = some n

instance (alphabet : Base64) : Decidable alphabet.Legible :=
  inferInstanceAs
    (Decidable (∀ n < 64, alphabet.value? (alphabet.char n) = some n))

theorem legible_url : url.Legible := by decide

example : standard.Legible := by decide

-- ============================================================ groups

theorem toUInt8_eq {n : Nat} {b : UInt8} (h : n = b.toNat) :
    n.toUInt8 = b := by
  rw [h]
  exact UInt8.ofNat_toNat

/-- The upper, the middle and the lower byte of 24 bits. -/
theorem bytes_of_sum (a b c : UInt8) {n : Nat}
    (hn : n = a.toNat * 65536 + b.toNat * 256 + c.toNat) :
    (n / 65536).toUInt8 = a ∧ (n / 256 % 256).toUInt8 = b
      ∧ (n % 256).toUInt8 = c := by
  have ha := a.toNat_lt
  have hb := b.toNat_lt
  have hc := c.toNat_lt
  exact ⟨toUInt8_eq (by omega), toUInt8_eq (by omega), toUInt8_eq (by omega)⟩

/-- The four groups of six bits make up 24 bits again. -/
theorem sum_of_sextets (n : Nat) :
    n / 262144 * 262144 + n / 4096 % 64 * 4096 + n / 64 % 64 * 64 + n % 64
      = n := by omega

/-- Four characters are the three bytes they were written for. -/
theorem decode?_group (h : alphabet.Legible) (a b c : UInt8)
    (rest : List UInt8) :
    alphabet.decode? (alphabet.encode (a :: b :: c :: rest))
      = (alphabet.decode? (alphabet.encode rest)).map fun bytes =>
        a :: b :: c :: bytes := by
  have ha := a.toNat_lt
  have hb := b.toNat_lt
  have hc := c.toNat_lt
  generalize hn : a.toNat * 65536 + b.toNat * 256 + c.toNat = n
  obtain ⟨hupper, hmiddle, hlower⟩ := bytes_of_sum a b c hn.symm
  simp only [encode, hn, decode?, h (n / 262144) (by omega),
    h (n / 4096 % 64) (by omega),
    h (n / 64 % 64) (by omega), h (n % 64) (by omega), Option.bind_eq_bind,
    Option.bind_some, sum_of_sextets, hupper, hmiddle, hlower]
  cases alphabet.decode? (alphabet.encode rest) <;> rfl

/-- Three characters are the two bytes they were written for. -/
theorem decode?_two (h : alphabet.Legible) (a b : UInt8) :
    alphabet.decode? (alphabet.encode [a, b]) = some [a, b] := by
  have ha := a.toNat_lt
  have hb := b.toNat_lt
  generalize hn : (a.toNat * 256 + b.toNat) * 4 = n
  have hsum : n / 4096 * 4096 + n / 64 % 64 * 64 + n % 64 = n := by omega
  have hupper : (n / 1024).toUInt8 = a := toUInt8_eq (by omega)
  have hlower : (n / 4 % 256).toUInt8 = b := toUInt8_eq (by omega)
  have hspare : n % 4 = 0 := by omega
  simp only [encode, hn, decode?, h (n / 4096) (by omega),
    h (n / 64 % 64) (by omega),
    h (n % 64) (by omega), Option.bind_eq_bind, Option.bind_some, hsum, hspare,
    if_true, hupper, hlower]

/-- Two characters are the byte they were written for. -/
theorem decode?_one (h : alphabet.Legible) (a : UInt8) :
    alphabet.decode? (alphabet.encode [a]) = some [a] := by
  have ha := a.toNat_lt
  generalize hn : a.toNat * 16 = n
  have hsum : n / 64 * 64 + n % 64 = n := by omega
  have hbyte : (n / 16).toUInt8 = a := toUInt8_eq (by omega)
  have hspare : n % 16 = 0 := by omega
  simp only [encode, hn, decode?, h (n / 64) (by omega), h (n % 64) (by omega),
    Option.bind_eq_bind, Option.bind_some, hsum, hspare, if_true, hbyte]

-- ======================================================== whole texts

/-- What was written is read back. -/
theorem decode?_encode (h : alphabet.Legible) (bytes : List UInt8) :
    alphabet.decode? (alphabet.encode bytes) = some bytes := by
  induction bytes using encode.induct with
  | case1 a b c rest ih => rw [decode?_group h, ih, Option.map_some]
  | case2 a b => exact decode?_two h a b
  | case3 a => exact decode?_one h a
  | case4 => rfl

theorem encode_injective (h : alphabet.Legible) :
    Function.Injective alphabet.encode := by
  intro bytes others heq
  apply Option.some.inj
  rw [← decode?_encode h bytes, heq, decode?_encode h others]

/-- Only characters of the alphabet are written. -/
theorem mem_encode {c : Char} (hc : c ∈ alphabet.encode bytes) :
    ∃ n < 64, c = alphabet.char n := by
  induction bytes using encode.induct with
  | case1 a b c' rest ih =>
    have ha := a.toNat_lt
    have hb := b.toNat_lt
    have hc' := c'.toNat_lt
    simp only [encode, List.mem_cons] at hc
    obtain rfl | rfl | rfl | rfl | hc := hc
    · exact ⟨_, by omega, rfl⟩
    · exact ⟨_, by omega, rfl⟩
    · exact ⟨_, by omega, rfl⟩
    · exact ⟨_, by omega, rfl⟩
    · exact ih hc
  | case2 a b =>
    have ha := a.toNat_lt
    have hb := b.toNat_lt
    simp only [encode, List.mem_cons, List.not_mem_nil, or_false] at hc
    obtain rfl | rfl | rfl := hc
    · exact ⟨_, by omega, rfl⟩
    · exact ⟨_, by omega, rfl⟩
    · exact ⟨_, by omega, rfl⟩
  | case3 a =>
    have ha := a.toNat_lt
    simp only [encode, List.mem_cons, List.not_mem_nil, or_false] at hc
    obtain rfl | rfl := hc
    · exact ⟨_, by omega, rfl⟩
    · exact ⟨_, by omega, rfl⟩
  | case4 => exact absurd hc List.not_mem_nil

/-- The alphabet for URLs has no point, so points can divide what is written in
it. -/
theorem point_notMem_encode (bytes : List UInt8) : '.' ∉ url.encode bytes := by
  intro hc
  obtain ⟨n, hn, heq⟩ := mem_encode hc
  have hne : ∀ n < 64, '.' ≠ url.char n := by decide
  exact hne n hn heq

end Tenancy.Text.Base64
