/-
Cutting text into pieces: at a separator, at runs of blanks, and at its
two ends. All of it works on lists of characters, so that each cut is
one recursion on the list and its laws are inductions.

A blank is a character of Unicode's White_Space property, not of the
ASCII class: order clauses, configured lists and selectors are typed by
people, and a no-break space between two words is still a gap.
-/
namespace Tenancy.Text

-- ============================================================ blanks

/-- The characters of Unicode's White_Space property. -/
def isBlank (c : Char) : Bool :=
  let n := c.toNat
  (9 ≤ n && n ≤ 13) || n == 0x20 || n == 0x85 || n == 0xA0 || n == 0x1680
    || (0x2000 ≤ n && n ≤ 0x200A) || n == 0x2028 || n == 0x2029
    || n == 0x202F || n == 0x205F || n == 0x3000

/-- The text without the blanks before it and behind it. -/
def trimChars (cs : List Char) : List Char :=
  ((cs.dropWhile isBlank).reverse.dropWhile isBlank).reverse

def trim (s : String) : String :=
  String.ofList (trimChars s.toList)

/-- A text of blanks only, the empty one included. -/
def isBlankText (s : String) : Bool :=
  s.toList.all isBlank

-- ============================================================ pieces

/-- The pieces between the characters that satisfy the test — always one
more piece than there are such characters. -/
def pieces (cut : Char → Bool) : List Char → List (List Char)
  | [] => [[]]
  | c :: rest =>
    if cut c then [] :: pieces cut rest
    else match pieces cut rest with
      | [] => [[c]]
      | piece :: others => (c :: piece) :: others

theorem pieces_ne_nil (cut : Char → Bool) (cs : List Char) :
    pieces cut cs ≠ [] := by
  cases cs with
  | nil => simp [pieces]
  | cons c rest =>
    simp only [pieces]
    split
    · simp
    · split <;> simp

/-- Without a cut there is one piece, the whole. -/
theorem pieces_of_forall_not {cut : Char → Bool} {cs : List Char}
    (h : ∀ c ∈ cs, cut c = false) : pieces cut cs = [cs] := by
  induction cs with
  | nil => rfl
  | cons c rest ih =>
    have hc : cut c = false := h c (by simp)
    have hrest : pieces cut rest = [rest] := ih fun d hd => h d (by simp [hd])
    simp [pieces, hc, hrest]

/-- Up to the first cut it is one piece, and behind it the others follow. -/
theorem pieces_append_cons {cut : Char → Bool} {cs rest : List Char}
    {separator : Char}
    (h : ∀ c ∈ cs, cut c = false) (hs : cut separator = true) :
    pieces cut (cs ++ separator :: rest) = cs :: pieces cut rest := by
  induction cs with
  | nil => simp [pieces, hs]
  | cons c cs ih =>
    have hc : cut c = false := h c (by simp)
    have hrest := ih fun d hd => h d (by simp [hd])
    simp [pieces, hc, hrest]

/-- The pieces between the occurrences of a separator. -/
def splitOn (separator : Char) (s : String) : List String :=
  (pieces (· == separator) s.toList).map String.ofList

/-- The maximal runs of characters that are no blanks. -/
def words (cs : List Char) : List (List Char) :=
  (pieces isBlank cs).filter (· ≠ [])

-- ====================================================== fixed starts

/-- The rest of a text behind a fixed start, if it starts so. -/
def after? : (start text : List Char) → Option (List Char)
  | [], text => some text
  | _ :: _, [] => none
  | a :: start, c :: text => if a = c then after? start text else none

/-- Does a text occur somewhere in another? -/
def occursIn (part : List Char) : List Char → Bool
  | [] => part.isEmpty
  | c :: rest => (after? part (c :: rest)).isSome || occursIn part rest

-- ============================================================== case

/-- An ASCII capital as its small letter, anything else as it is. -/
def lowerAscii (c : Char) : Char :=
  if 'A' ≤ c ∧ c ≤ 'Z' then Char.ofNat (c.toNat + 32) else c

def lowercase (s : String) : String :=
  String.ofList (s.toList.map lowerAscii)

/-- Equality of two texts up to the case of ASCII letters. -/
def sameIgnoringCase (a b : String) : Bool :=
  lowercase a == lowercase b

end Tenancy.Text
