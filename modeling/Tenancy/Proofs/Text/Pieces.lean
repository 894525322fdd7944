/-
Cutting and joining. A text joined of parts by a separator is cut into
the pieces of the parts (`pieces_intercalate`); so parts that hold no
separator are found again, and the pieces of any text are the only such
parts that it can be joined of.

Words are found between blanks of any number (`words_blanks_append`,
`words_append_blank`), and a text trimmed is what remains of it between
the blanks at its ends (`trims_iff`).
-/
import Tenancy.Text.Split

namespace Tenancy.Text

variable {cut : Char → Bool} {separator c : Char} {cs word rest : List Char}
  {parts : List (List Char)}

-- ============================================================ pieces

/-- Every cut of a text is in what stands before a separator, at it, or behind
it. -/
theorem pieces_append_separator (hs : cut separator = true)
    (before behind : List Char) :
    pieces cut (before ++ separator :: behind)
      = pieces cut before ++ pieces cut behind := by
  induction before with
  | nil =>
    have hnone : ∀ c ∈ ([] : List Char), cut c = false := nofun
    exact pieces_append_cons hnone hs
  | cons c before ih =>
    rw [List.cons_append, pieces, pieces, ih]
    by_cases hc : cut c = true
    · rw [if_pos hc, if_pos hc]
      rfl
    · rw [if_neg hc, if_neg hc]
      cases hpieces : pieces cut before with
      | nil => exact absurd hpieces (pieces_ne_nil cut before)
      | cons piece others => rfl

/-- Texts that were joined by a separator fall apart there. -/
theorem pieces_intercalate (cut : Char → Bool) (hs : cut separator = true)
    (hne : parts ≠ []) :
    pieces cut ([separator].intercalate parts)
      = parts.flatMap (pieces cut) := by
  induction parts with
  | nil => exact absurd rfl hne
  | cons part parts ih =>
    cases parts with
    | nil => rw [List.intercalate_singleton, List.flatMap_singleton]
    | cons next parts =>
      rw [List.intercalate_cons_cons, List.append_assoc, List.singleton_append,
        pieces_append_separator hs, ih (List.cons_ne_nil _ _)]
      rfl

/-- Parts without a separator are the pieces of what they are joined to. -/
theorem pieces_intercalate_of_forall_not (cut : Char → Bool)
    (hs : cut separator = true)
    (hne : parts ≠ []) (h : ∀ part ∈ parts, ∀ c ∈ part, cut c = false) :
    pieces cut ([separator].intercalate parts) = parts := by
  rw [pieces_intercalate cut hs hne]
  clear hne
  induction parts with
  | nil => rfl
  | cons part parts ih =>
    obtain ⟨hpart, hrest⟩ := List.forall_mem_cons.1 h
    rw [List.flatMap_cons, pieces_of_forall_not hpart, ih hrest]
    rfl

/-- A piece holds no character that is cut at. -/
theorem eq_false_of_mem_pieces {piece : List Char}
    (h : piece ∈ pieces cut cs) : ∀ c ∈ piece, cut c = false := by
  induction cs generalizing piece with
  | nil =>
    rw [List.mem_singleton.1 h]
    nofun
  | cons c rest ih =>
    rw [pieces] at h
    by_cases hc : cut c = true
    · rw [if_pos hc] at h
      rcases List.mem_cons.1 h with rfl | h
      · nofun
      · exact ih h
    · rw [if_neg hc] at h
      cases hpieces : pieces cut rest with
      | nil => exact absurd hpieces (pieces_ne_nil cut rest)
      | cons first others =>
        rw [hpieces] at h ih
        rcases List.mem_cons.1 h with rfl | h
        · have hfirst := ih (List.mem_cons_self ..)
          exact List.forall_mem_cons.2 ⟨Bool.eq_false_iff.2 hc, hfirst⟩
        · exact ih (List.mem_cons_of_mem _ h)

/-- The pieces between separators, joined by the separator again. -/
theorem intercalate_pieces (separator : Char) (cs : List Char) :
    [separator].intercalate (pieces (· == separator) cs) = cs := by
  induction cs with
  | nil => rfl
  | cons c rest ih =>
    unfold pieces
    cases hpieces : pieces (· == separator) rest with
    | nil => exact absurd hpieces (pieces_ne_nil _ rest)
    | cons piece others =>
      rw [hpieces] at ih
      by_cases hc : c = separator
      · subst hc
        simp only [beq_self_eq_true, if_true, List.intercalate_cons_cons,
          List.nil_append, ih]
        rfl
      · rw [if_neg (by simpa using hc)]
        cases others with
        | nil =>
          simp only [List.intercalate_singleton] at ih ⊢
          rw [ih]
        | cons next others =>
          simp only [List.intercalate_cons_cons, List.cons_append] at ih ⊢
          rw [ih]

/-- And what a text falls apart into is joined to the text. -/
theorem toList_of_splitOn {s : String} {parts : List String}
    (h : splitOn separator s = parts) :
    s.toList = [separator].intercalate (parts.map String.toList) := by
  rw [← h, splitOn, List.map_map]
  have hchars : String.toList ∘ String.ofList = id := by
    funext cs
    simp
  rw [hchars, List.map_id, intercalate_pieces]

-- ============================================================= words

/-- Any number of blanks. -/
def Blanks (cs : List Char) : Prop := ∀ c ∈ cs, isBlank c = true

instance (cs : List Char) : Decidable (Blanks cs) :=
  List.decidableBAll (fun c : Char => isBlank c = true) cs

/-- Characters that are no blanks, at least one. -/
def IsWord (cs : List Char) : Prop := cs ≠ [] ∧ ∀ c ∈ cs, isBlank c = false

theorem words_cons_blank (hc : isBlank c = true) (cs : List Char) :
    words (c :: cs) = words cs := by
  rw [words, pieces, if_pos hc]
  exact List.filter_cons_of_neg (by simp)

/-- Blanks before the words count for nothing. -/
theorem words_blanks_append (h : Blanks cs) (rest : List Char) :
    words (cs ++ rest) = words rest := by
  induction cs with
  | nil => rfl
  | cons c cs ih =>
    obtain ⟨hc, hcs⟩ := List.forall_mem_cons.1 h
    rw [List.cons_append, words_cons_blank hc, ih hcs]

/-- Blanks alone have no word. -/
theorem words_of_blanks (h : Blanks cs) : words cs = [] := by
  rw [← List.append_nil cs, words_blanks_append h]
  rfl

/-- The first word ends at a blank. -/
theorem words_append_blank (h : IsWord word) (hc : isBlank c = true)
    (rest : List Char) : words (word ++ c :: rest) = word :: words rest := by
  rw [words, pieces_append_cons h.2 hc]
  exact List.filter_cons_of_pos (by simpa using h.1)

/-- Nor do blanks behind a word. -/
theorem words_append_blanks (h : IsWord word) (hcs : Blanks cs) :
    words (word ++ cs) = [word] := by
  cases cs with
  | nil =>
    rw [List.append_nil, words, pieces_of_forall_not h.2]
    exact List.filter_cons_of_pos (by simpa using h.1)
  | cons c cs =>
    obtain ⟨hc, hcs⟩ := List.forall_mem_cons.1 hcs
    rw [words_append_blank h hc, words_of_blanks hcs]

-- ========================================================== trimming

/-- A text is what another one holds between the blanks at its ends. -/
structure Trims (raw core : List Char) : Prop where
  between :
    ∃ before behind,
    raw = before ++ core ++ behind ∧ Blanks before ∧ Blanks behind
  first : ∀ c, core.head? = some c → isBlank c = false
  last : ∀ c, core.getLast? = some c → isBlank c = false

theorem dropWhile_blanks_append (h : Blanks cs) (rest : List Char) :
    (cs ++ rest).dropWhile isBlank = rest.dropWhile isBlank :=
  List.dropWhile_append_of_pos h

/-- Without a blank in front nothing is dropped. -/
theorem dropWhile_of_head (h : ∀ c, cs.head? = some c → isBlank c = false) :
    cs.dropWhile isBlank = cs := by
  cases cs with
  | nil => rfl
  | cons c cs => exact List.dropWhile_cons_of_neg (by simp [h c rfl])

/-- What is left does not start with a blank. -/
theorem head_of_dropWhile (cs : List Char) :
    ∀ c, (cs.dropWhile isBlank).head? = some c → isBlank c = false := by
  intro c hc
  have hhead := List.head?_dropWhile_not isBlank cs
  rwa [hc] at hhead

/-- What is dropped is blank. -/
theorem blanks_takeWhile (cs : List Char) : Blanks (cs.takeWhile isBlank) :=
  fun _ hc => List.all_eq_true.1 List.all_takeWhile _ hc

/-- Blanks are blanks from either end. -/
theorem Blanks.reverse (h : Blanks cs) : Blanks cs.reverse :=
  fun c hc => h c (List.mem_reverse.1 hc)

/-- Trimming drops the blanks on both sides. -/
theorem trims_trimChars (cs : List Char) : Trims cs (trimChars cs) := by
  have hrest :
      trimChars cs
      ++ ((cs.dropWhile isBlank).reverse.takeWhile isBlank).reverse
      = cs.dropWhile isBlank := by
    rw [trimChars, ← List.reverse_append, List.takeWhile_append_dropWhile,
      List.reverse_reverse]
  refine ⟨⟨cs.takeWhile isBlank,
    ((cs.dropWhile isBlank).reverse.takeWhile isBlank).reverse, ?_,
    blanks_takeWhile cs, (blanks_takeWhile _).reverse⟩, ?_, ?_⟩
  · rw [List.append_assoc, hrest, List.takeWhile_append_dropWhile]
  · intro c hc
    refine head_of_dropWhile cs c ?_
    rw [← hrest, List.head?_append, hc]
    rfl
  · intro c hc
    rw [trimChars, List.getLast?_reverse] at hc
    exact head_of_dropWhile _ c hc

/-- Nothing else is what remains between the blanks. -/
theorem Trims.eq_trimChars {raw core : List Char} (h : Trims raw core) :
    core = trimChars raw := by
  obtain ⟨⟨before, behind, rfl, hbefore, hbehind⟩, hfirst, hlast⟩ := h
  have hcore : core.reverse.dropWhile isBlank = core.reverse := by
    apply dropWhile_of_head
    intro c hc
    rw [List.head?_reverse] at hc
    exact hlast c hc
  rw [trimChars, List.append_assoc, dropWhile_blanks_append hbefore]
  cases core with
  | nil =>
    rw [List.nil_append, ← List.append_nil behind,
      dropWhile_blanks_append hbehind]
    rfl
  | cons c core =>
    have hstart :
        (c :: core ++ behind).dropWhile isBlank = c :: core ++ behind := by
      apply dropWhile_of_head
      intro d hd
      exact hfirst d hd
    rw [hstart, List.reverse_append, dropWhile_blanks_append hbehind.reverse,
      hcore, List.reverse_reverse]

/-- And nothing else can be meant by it. -/
theorem trims_iff {raw core : List Char} :
    Trims raw core ↔ core = trimChars raw := by
  constructor
  · exact Trims.eq_trimChars
  · rintro rfl
    exact trims_trimChars raw

end Tenancy.Text
