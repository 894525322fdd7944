/-
SQL identifiers in double quotes. Any text can be quoted, a quote inside
it written twice; names that come from a client must be valid, and a
valid name holds nothing that would have to be written twice, so it may
be enclosed as it stands (quote_eq_enclose).
-/
namespace Tenancy.Sql.Identifier

/-- A small ASCII letter or an underscore. -/
def isStart (c : Char) : Bool :=
  ('a' ≤ c && c ≤ 'z') || c == '_'

/-- What may follow the first character: a start character or a digit. -/
def isRest (c : Char) : Bool :=
  isStart c || ('0' ≤ c && c ≤ '9')

/-- The names the server keeps whole have at most this many bytes. -/
def maxBytes : Nat := 63

/-- A valid name: a start character, then letters, digits and
underscores, at most 63 in all. -/
def isValidChars : List Char → Bool
  | [] => false
  | c :: rest => isStart c && rest.all isRest && rest.length < maxBytes

def isValid (name : String) : Bool := isValidChars name.toList

/-- A name's characters with each quote written twice. -/
def doubleQuotes : List Char → List Char
  | [] => []
  | c :: rest =>
    if c = '"' then '"' :: '"' :: doubleQuotes rest else c :: doubleQuotes rest

/-- A name between quotes, as it stands. -/
def enclose (name : String) : String :=
  "\"" ++ name ++ "\""

/-- A name between quotes, its own quotes written twice. -/
def quote (name : String) : String :=
  enclose (String.ofList (doubleQuotes name.toList))

theorem doubleQuotes_quote (cs : List Char) :
    doubleQuotes ('"' :: cs) = '"' :: '"' :: doubleQuotes cs := if_pos rfl

theorem doubleQuotes_cons_of_ne {c : Char} (hc : c ≠ '"') (cs : List Char) :
    doubleQuotes (c :: cs) = c :: doubleQuotes cs := if_neg hc

theorem doubleQuotes_eq_self {cs : List Char} (h : '"' ∉ cs) :
    doubleQuotes cs = cs := by
  induction cs with
  | nil => rfl
  | cons c rest ih =>
    simp only [List.mem_cons, not_or] at h
    rw [doubleQuotes_cons_of_ne (Ne.symm h.1), ih h.2]

/-- A valid name holds small letters, digits and underscores only. -/
theorem isRest_of_mem {cs : List Char} (h : isValidChars cs = true) {c : Char}
    (hc : c ∈ cs) : isRest c = true := by
  cases cs with
  | nil => cases hc
  | cons first rest =>
    simp only [isValidChars, Bool.and_eq_true, List.all_eq_true] at h
    rcases List.mem_cons.1 hc with rfl | hc
    · simp [isRest, h.1.1]
    · exact h.1.2 c hc

/-- The characters of a valid name lie between the digits and the end of
ASCII. -/
theorem toNat_of_isRest {c : Char} (h : isRest c = true) :
    0x30 ≤ c.toNat ∧ c.toNat < 0x80 := by
  have htoNat : ∀ a b : Char, a ≤ b ↔ a.toNat ≤ b.toNat := fun _ _ => Iff.rfl
  simp only [isRest, isStart, Bool.or_eq_true, Bool.and_eq_true,
    decide_eq_true_eq, beq_iff_eq, htoNat] at h
  rcases h with (⟨hlow, hhigh⟩ | rfl) | ⟨hlow, hhigh⟩
  · exact ⟨Nat.le_trans (by decide) hlow, Nat.lt_of_le_of_lt hhigh (by decide)⟩
  · decide
  · exact ⟨hlow, Nat.lt_of_le_of_lt hhigh (by decide)⟩

theorem utf8Size_of_isRest {c : Char} (h : isRest c = true) :
    c.utf8Size = 1 := by
  have hval : c.val ≤ 127 := Nat.le_of_lt_succ (toNat_of_isRest h).2
  exact Char.utf8Size_eq_one_iff.2 hval

theorem not_mem_of_isValidChars {cs : List Char} (h : isValidChars cs = true) :
    '"' ∉ cs := by
  intro hc
  exact absurd (isRest_of_mem h hc) (by decide)

/-- A valid name needs no doubling: it is quoted by enclosing it. -/
theorem quote_eq_enclose {name : String} (h : isValid name = true) :
    quote name = enclose name := by
  simp [quote, doubleQuotes_eq_self (not_mem_of_isValidChars h)]

end Tenancy.Sql.Identifier
