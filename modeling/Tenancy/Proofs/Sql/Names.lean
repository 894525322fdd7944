/-
Names between quotes. Whoever meets a quote in SQL text reads on to the
first quote that is not doubled, and takes each doubled one for one
(`quotedName?`). This reads a name and leaves a rest if and only if the
text is that name, quoted, and then that rest, and the rest does not
begin with a quote (`quotedName?_eq_some_iff`). So no name reaches into
the text behind it, whatever quotes are in it and wherever they stand,
and no two names are quoted alike (`quote_injective`). The lexer of
statements cuts there too, and goes on as if nothing had been before
(`tokens?_quote`).

The condition on the rest cannot be left out: a quote at its start would
double the one that ends the name.

The valid names are the words of a pattern that are short enough
(`isValid_iff`). The pattern admits characters of one byte only, so it
makes no difference whether the characters of a name are counted or its
bytes.
-/
import Mathlib.Computability.Language
import Tenancy.Proofs.Sql.Lexing

namespace Tenancy.Sql

open Computability

namespace Identifier

-- ========================================================== vocabulary

/-- What stands before the end of a quoted name, and what is left behind it.
The name ends at the first quote that is not doubled; doubled ones stand for
one. -/
def readQuoted : List Char → Option (List Char × List Char)
  | [] => none
  | '"' :: '"' :: rest => (readQuoted rest).map fun x => ('"' :: x.1, x.2)
  | '"' :: rest => some ([], rest)
  | c :: rest => (readQuoted rest).map fun x => (c :: x.1, x.2)

/-- The quoted name that a text begins with, and the text that is left behind
it. -/
def quotedName? (text : String) : Option (String × String) :=
  match text.toList with
  | '"' :: cs =>
    (readQuoted cs).map fun x => (String.ofList x.1, String.ofList x.2)
  | _ => none

/-- One character of some ranges, as between square brackets. -/
def oneOf (ranges : List (Char × Char)) : Language Char :=
  {cs | ∃ c, cs = [c] ∧ ∃ range ∈ ranges, range.1 ≤ c ∧ c ≤ range.2}

/-- The pattern of valid names, `[a-z_][a-z0-9_]*`. -/
def snakeCase : Language Char :=
  oneOf [('a', 'z'), ('_', '_')]
    * (oneOf [('a', 'z'), ('0', '9'), ('_', '_')])∗

variable {cs content rest : List Char} {c : Char}

-- ============================================================= reading

/-- A quotation mark that is not doubled ends a name. -/
theorem readQuoted_end (h : rest.head? ≠ some '"') :
    readQuoted ('"' :: rest) = some ([], rest) := by
  cases rest with
  | nil => rfl
  | cons c rest =>
    rw [readQuoted]
    intro _ heq
    exact h (congrArg List.head? heq)

/-- Any other character is part of it. -/
theorem readQuoted_cons (hc : c ≠ '"') :
    readQuoted (c :: rest)
      = (readQuoted rest).map fun x => (c :: x.1, x.2) := by
  rw [readQuoted]
  · simp [hc]
  · simp [hc]

/-- A name's characters with doubled quotes are read up to the quote behind
them, whatever follows that is no quote. -/
theorem readQuoted_doubleQuotes (h : rest.head? ≠ some '"') :
    readQuoted (doubleQuotes content ++ '"' :: rest)
      = some (content, rest) := by
  induction content with
  | nil => exact readQuoted_end h
  | cons c content ih =>
    by_cases hc : c = '"'
    · subst hc
      rw [doubleQuotes_quote, List.cons_append, List.cons_append, readQuoted,
        ih]
      rfl
    · rw [doubleQuotes_cons_of_ne hc, List.cons_append, readQuoted_cons hc, ih]
      rfl

/-- Nothing else is read as that name with that rest. -/
theorem of_readQuoted (h : readQuoted cs = some (content, rest)) :
    cs = doubleQuotes content ++ '"' :: rest ∧ rest.head? ≠ some '"' := by
  fun_induction readQuoted cs generalizing content with
  | case1 => cases h
  | case2 cs ih =>
    -- a doubled quote
    obtain ⟨⟨content, rest⟩, hread, heq⟩ := Option.map_eq_some_iff.1 h
    cases heq
    obtain ⟨rfl, hrest⟩ := ih hread
    rw [doubleQuotes_quote]
    exact ⟨rfl, hrest⟩
  | case3 cs hundoubled =>
    -- the quote that ends the name
    cases h
    refine ⟨rfl, fun hhead => ?_⟩
    obtain ⟨rest, rfl⟩ := List.head?_eq_some_iff.1 hhead
    exact hundoubled rest rfl
  | case4 c cs _ hc ih =>
    obtain ⟨⟨content, rest⟩, hread, heq⟩ := Option.map_eq_some_iff.1 h
    cases heq
    obtain ⟨rfl, hrest⟩ := ih hread
    rw [doubleQuotes_cons_of_ne hc]
    exact ⟨rfl, hrest⟩

/-- A quoted name stands between two marks, with its own marks doubled. -/
theorem toList_quote_append (name rest : String) :
    (quote name ++ rest).toList
      = '"' :: (doubleQuotes name.toList ++ '"' :: rest.toList) := by
  simp [quote, enclose]

/-- A text begins with a quoted name and goes on with a rest if and only if it
is that name, quoted, and a rest that does not begin with a quote. -/
theorem quotedName?_eq_some_iff {text name rest : String} :
    quotedName? text = some (name, rest)
      ↔ text = quote name ++ rest ∧ rest.toList.head? ≠ some '"' := by
  constructor
  · intro h
    unfold quotedName? at h
    split at h
    · rename_i cs hcs
      obtain ⟨⟨content, left⟩, hread, heq⟩ := Option.map_eq_some_iff.1 h
      cases heq
      obtain ⟨rfl, hleft⟩ := of_readQuoted hread
      refine ⟨String.toList_injective ?_, by rwa [String.toList_ofList]⟩
      rw [hcs, toList_quote_append, String.toList_ofList, String.toList_ofList]
    · cases h
  · rintro ⟨rfl, hrest⟩
    unfold quotedName?
    rw [toList_quote_append]
    simp only [readQuoted_doubleQuotes hrest, Option.map_some,
      String.ofList_toList]

/-- No two names are quoted alike. -/
theorem quote_injective : Function.Injective quote := by
  intro a b h
  have hnothing : "".toList.head? ≠ some '"' := nofun
  have ha : quotedName? (quote b ++ "") = some (a, "") :=
    quotedName?_eq_some_iff.2 ⟨by rw [h], hnothing⟩
  have hb : quotedName? (quote b ++ "") = some (b, "") :=
    quotedName?_eq_some_iff.2 ⟨rfl, hnothing⟩
  rw [ha] at hb
  exact congrArg Prod.fst (Option.some.inj hb)

-- ============================================================= pattern

theorem singleton_mem_oneOf {ranges : List (Char × Char)} :
    [c] ∈ oneOf ranges ↔ ∃ range ∈ ranges, range.1 ≤ c ∧ c ≤ range.2 := by
  constructor
  · rintro ⟨d, heq, hd⟩
    cases heq
    exact hd
  · intro hc
    exact ⟨c, rfl, hc⟩

theorem mem_kstar_oneOf {ranges : List (Char × Char)} :
    cs ∈ (oneOf ranges)∗ ↔ ∀ c ∈ cs, [c] ∈ oneOf ranges := by
  constructor
  · intro h c hc
    obtain ⟨words, rfl, hwords⟩ := Language.mem_kstar.1 h
    obtain ⟨word, hword, hc⟩ := List.mem_flatten.1 hc
    obtain ⟨d, rfl, hd⟩ := hwords word hword
    rw [List.mem_singleton.1 hc]
    exact ⟨d, rfl, hd⟩
  · intro h
    refine Language.mem_kstar.2
      ⟨cs.map fun c => [c], (List.flatMap_singleton' cs).symm, ?_⟩
    intro word hword
    obtain ⟨c, hc, rfl⟩ := List.mem_map.1 hword
    exact h c hc

/-- A range of one character. -/
theorem between_self_iff {d : Char} : d ≤ c ∧ c ≤ d ↔ c = d := by
  constructor
  · intro h
    exact Char.le_antisymm h.2 h.1
  · rintro rfl
    exact ⟨Char.le_refl c, Char.le_refl c⟩

/-- A name starts with a small letter or an underscore. -/
theorem isStart_iff :
    isStart c = true ↔ [c] ∈ oneOf [('a', 'z'), ('_', '_')] := by
  simp [singleton_mem_oneOf, isStart, between_self_iff]

/-- And goes on with these and with digits. -/
theorem isRest_iff :
    isRest c = true ↔ [c] ∈ oneOf [('a', 'z'), ('0', '9'), ('_', '_')] := by
  simp [singleton_mem_oneOf, isRest, isStart, between_self_iff, or_assoc,
    or_comm]

/-- So a name in snake case is one character of the first kind and any of the
second. -/
theorem mem_snakeCase_iff :
    cs ∈ snakeCase
      ↔ ∃ c rest, cs = c :: rest ∧ isStart c = true ∧ ∀ d ∈ rest,
        isRest d = true := by
  simp only [isStart_iff, isRest_iff, ← mem_kstar_oneOf]
  constructor
  · rintro ⟨_, ⟨c, rfl, hc⟩, rest, hrest, rfl⟩
    exact ⟨c, rest, rfl, ⟨c, rfl, hc⟩, hrest⟩
  · rintro ⟨c, rest, rfl, hc, hrest⟩
    exact ⟨[c], hc, rest, hrest, rfl⟩

/-- A valid name is such a name that is short enough. -/
theorem isValidChars_iff :
    isValidChars cs = true ↔ cs ∈ snakeCase ∧ cs.length ≤ maxBytes := by
  rw [mem_snakeCase_iff]
  cases cs with
  | nil =>
    exact iff_of_false Bool.false_ne_true fun ⟨⟨_, _, heq, _⟩, _⟩ =>
      nomatch heq
  | cons c rest =>
    simp only [isValidChars, Bool.and_eq_true, List.all_eq_true,
      decide_eq_true_eq]
    constructor
    · rintro ⟨⟨hc, hrest⟩, hlength⟩
      exact ⟨⟨c, rest, rfl, hc, hrest⟩, hlength⟩
    · rintro ⟨⟨_, _, heq, hc, hrest⟩, hlength⟩
      cases heq
      exact ⟨⟨hc, hrest⟩, hlength⟩

/-- One-byte characters make as many bytes. -/
theorem utf8ByteSize_ofList (h : ∀ c ∈ cs, c.utf8Size = 1) :
    (String.ofList cs).utf8ByteSize = cs.length := by
  induction cs with
  | nil => rfl
  | cons c cs ih =>
    obtain ⟨hc, hcs⟩ := List.forall_mem_cons.1 h
    rw [String.ofList_cons, String.utf8ByteSize_append,
      String.utf8ByteSize_singleton, hc, ih hcs, List.length_cons,
      Nat.add_comm]

/-- A word of the pattern has as many bytes as characters. -/
theorem utf8ByteSize_of_mem_snakeCase {name : String}
    (h : name.toList ∈ snakeCase) :
    name.utf8ByteSize = name.toList.length := by
  obtain ⟨c, rest, hcs, hc, hrest⟩ := mem_snakeCase_iff.1 h
  have hchars : ∀ d ∈ name.toList, isRest d = true := by
    rw [hcs]
    exact List.forall_mem_cons.2 ⟨by simp [isRest, hc], hrest⟩
  have hbytes :=
    utf8ByteSize_ofList fun d hd => utf8Size_of_isRest (hchars d hd)
  rwa [String.ofList_toList] at hbytes

/-- The valid names are the words of the pattern of at most 63 bytes. -/
theorem isValid_iff {name : String} :
    isValid name = true
      ↔ name.toList ∈ snakeCase ∧ name.utf8ByteSize ≤ 63 := by
  unfold isValid
  rw [isValidChars_iff]
  constructor
  · rintro ⟨hword, hlength⟩
    exact ⟨hword, (utf8ByteSize_of_mem_snakeCase hword).trans_le hlength⟩
  · rintro ⟨hword, hbytes⟩
    exact ⟨hword, (utf8ByteSize_of_mem_snakeCase hword).symm.trans_le hbytes⟩

end Identifier

-- =============================================================== lexer

/-- Behind the end of a quoted name a text reads as it does alone. -/
theorem tokensFrom_closing {read rest : List Char}
    (h : rest.head? ≠ some '"') :
    tokensFrom (.closing read) rest
      = (tokensFrom .gap rest).map
        (.quoted (String.ofList read.reverse) :: ·) := by
  cases rest with
  | nil => rfl
  | cons c rest =>
    have hc : c ≠ '"' := fun hc => h (congrArg some hc)
    have hstep : (Mode.closing read).step c
        = (Mode.start c).map fun x =>
          ([.quoted (String.ofList read.reverse)] ++ x.1, x.2) := by
      simp only [Mode.step, if_neg hc, Mode.restart, Mode.finish]
      cases Mode.start c <;> rfl
    exact tokensFrom_of_step hstep

/-- The lexer reads a quoted name as that one token, and what is behind it as
it does alone. -/
theorem tokens?_quote (name : String) {rest : String}
    (h : rest.toList.head? ≠ some '"') :
    tokens? (Identifier.quote name ++ rest)
      = (tokens? rest).map (.quoted name :: ·) := by
  rw [tokens?_append, Mode.run_quote, Option.bind_some, tokensFrom_closing h,
    List.reverse_reverse, String.ofList_toList, Option.map_map]
  rfl

end Tenancy.Sql
