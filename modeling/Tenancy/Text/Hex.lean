/-
Hexadecimal digits. They are written in lower case and read in either.
-/
namespace Tenancy.Text

/-- The lower-case digit of a value below sixteen. -/
def hexDigit (n : Nat) : Char :=
  if n < 10 then Char.ofNat (48 + n) else Char.ofNat (87 + n)

/-- The value of a hexadecimal digit of either case. -/
def hexValue? (c : Char) : Option Nat :=
  if '0' ≤ c ∧ c ≤ '9' then some (c.toNat - 48)
  else if 'a' ≤ c ∧ c ≤ 'f' then some (c.toNat - 87)
  else if 'A' ≤ c ∧ c ≤ 'F' then some (c.toNat - 55)
  else none

/-- The digits read on behind a value already read. -/
def hexFrom (value : Nat) : List Char → Option Nat
  | [] => some value
  | c :: rest => do hexFrom (value * 16 + (← hexValue? c)) rest

/-- The lowest digits of a number, as many as asked for, the highest first. -/
def hexDigits : (width : Nat) → Nat → List Char
  | 0, _ => []
  | width + 1, n => hexDigits width (n / 16) ++ [hexDigit (n % 16)]

/-- The bytes as two digits each. -/
def hexOfBytes (bytes : List UInt8) : String :=
  String.ofList (bytes.flatMap fun b => hexDigits 2 b.toNat)

theorem length_hexDigits (width n : Nat) :
    (hexDigits width n).length = width := by
  induction width generalizing n with
  | zero => rfl
  | succ width ih => simp [hexDigits, ih]

theorem hexValue?_hexDigit {n : Nat} (h : n < 16) :
    hexValue? (hexDigit n) = some n := by
  have : ∀ m : Fin 16, hexValue? (hexDigit m.val) = some m.val := by decide
  exact this ⟨n, h⟩

theorem hexFrom_append (value : Nat) (a b : List Char) :
    hexFrom value (a ++ b) = (hexFrom value a).bind (hexFrom · b) := by
  induction a generalizing value with
  | nil => rfl
  | cons c rest ih =>
    cases h : hexValue? c with
    | none => simp [hexFrom, h]
    | some d => simp [hexFrom, h, ih]

/-- Reading the digits of a number that fits their width gives it back. -/
theorem hexFrom_hexDigits {width n : Nat} (h : n < Nat.pow 16 width) :
    hexFrom 0 (hexDigits width n) = some n := by
  induction width generalizing n with
  | zero =>
    have : n = 0 := by simpa using h
    subst this
    rfl
  | succ width ih =>
    have hq : n / 16 < Nat.pow 16 width := by
      rw [Nat.div_lt_iff_lt_mul (by decide)]
      exact h
    have hr : hexValue? (hexDigit (n % 16)) = some (n % 16) :=
      hexValue?_hexDigit (Nat.mod_lt _ (by decide))
    simp only [hexDigits, hexFrom_append, ih hq, Option.bind_some, hexFrom, hr]
    have : n / 16 * 16 + n % 16 = n := by omega
    simp [this]

end Tenancy.Text
