/-
Sort orders, spelled and read. A list of sort keys can be spelled in many
ways (`Spelled`): entries between commas, each a column and perhaps a
direction in letters of any case, with blanks of any number and kind
around the words, and with entries in between that are nothing but
blanks. Every spelling is read as the keys that it spells, in their order,
and the clause of these keys says them to the server again
(`spelled_order_is_read_back`).

An order may also come as a list of texts. Reading goes through the same
entries in the same order, however they are distributed, so a list is
read as its texts joined by commas would be, up to the error: the first
bad direction decides, and without one the first bad column
(`parse_list`).
-/
import Tenancy.Proofs.Filter.Clauses
import Tenancy.Proofs.Text.Pieces

namespace Tenancy.Filter

open Sql Text

-- ========================================================== spellings

/-- The word of a direction. -/
def Direction.word : Direction → String
  | .ascending => "asc"
  | .descending => "desc"

namespace Order

/-- A word, each of its small letters written as such or as the capital. -/
def InAnyCase (word : String) (cs : List Char) : Prop :=
  List.Forall₂ (fun c letter => c = letter ∨ c = letter.toUpper) cs word.toList

/-- What may stand behind a column: a direction behind a gap, or nothing for
an ascending one. -/
inductive DirectionSpelled : Direction → List Char → Prop where
  | omitted : DirectionSpelled .ascending []
  | written {direction : Direction} {gap word : List Char} (wide : gap ≠ [])
      (blanks : Blanks gap)
      (letters : InAnyCase direction.word word) :
      DirectionSpelled direction (gap ++ word)

/-- An entry for a sort key. -/
def EntrySpelled (key : SortKey) (entry : List Char) : Prop :=
  ∃ before direction behind,
    Blanks before ∧ Blanks behind ∧ DirectionSpelled key.direction direction
    ∧ entry = before ++ key.column.toList ++ direction ++ behind

/-- Entries for sort keys, one for each in their order, and blank ones. -/
inductive EntriesSpelled : List SortKey → List (List Char) → Prop where
  | nil : EntriesSpelled [] []
  | blank {keys : List SortKey} {entry : List Char} {others : List (List Char)}
      (blanks : Blanks entry) (rest : EntriesSpelled keys others) :
      EntriesSpelled keys (entry :: others)
  | key {key : SortKey} {keys : List SortKey} {entry : List Char}
      {others : List (List Char)}
      (spelled : EntrySpelled key entry) (rest : EntriesSpelled keys others) :
      EntriesSpelled (key :: keys) (entry :: others)

/-- A text spells sort keys. -/
def Spelled (keys : List SortKey) (s : String) : Prop :=
  ∃ entries, EntriesSpelled keys entries ∧ s.toList = [','].intercalate entries

/-- A sort key as a clause says it: the column in quotes and a direction. -/
inductive Item : SortKey → String → Prop where
  | ascending (column : String) :
      Item ⟨column, .ascending⟩ ("\"" ++ column ++ "\" ASC")
  | descending (column : String) :
      Item ⟨column, .descending⟩ ("\"" ++ column ++ "\" DESC")

/-- The clause of sort keys: nothing for none, else their items between
commas. -/
inductive ClauseOf : List SortKey → String → Prop where
  | nothing : ClauseOf [] ""
  | orderBy {keys : List SortKey} {items : List String} (some : keys ≠ [])
      (each : List.Forall₂ Item keys items) :
      ClauseOf keys ("ORDER BY " ++ ", ".intercalate items)

/-- The tokens of the clause of sort keys. -/
def clauseTokens (keys : List SortKey) : List Token :=
  if keys.isEmpty then []
  else [.word "order", .word "by"]
    ++ [.symbol ","].intercalate (keys.map SortKey.tokens)

variable {keys more : List SortKey} {cs : List Char} {direction : Direction}

-- ============================================================= words

/-- Blanks have their own numbers, away from all letters, digits and marks. -/
theorem toNat_of_isBlank {c : Char} (h : isBlank c = true) :
    c.toNat ≤ 0x20 ∨ 0x85 ≤ c.toNat := by
  simp only [isBlank, Bool.or_eq_true, Bool.and_eq_true, decide_eq_true_eq,
    beq_iff_eq] at h
  omega

/-- No blank is a comma. -/
theorem ne_comma_of_isBlank {c : Char} (h : isBlank c = true) : c ≠ ',' := by
  rintro rfl
  exact absurd h (by decide)

/-- Characters that are no blanks and no commas, at least one. -/
def IsItem (cs : List Char) : Prop := IsWord cs ∧ ',' ∉ cs

/-- A valid name is one word. -/
theorem isItem_column {name : String} (h : Identifier.isValid name = true) :
    IsItem name.toList := by
  have hchars : ∀ c ∈ name.toList, 0x30 ≤ c.toNat ∧ c.toNat < 0x80 :=
    fun c hc =>
    Identifier.toNat_of_isRest (Identifier.isRest_of_mem h hc)
  refine ⟨⟨?_, ?_⟩, ?_⟩
  · intro hnil
    rw [Identifier.isValid, hnil] at h
    cases h
  · intro c hc
    have := hchars c hc
    rw [← Bool.not_eq_true]
    intro hblank
    have := toNat_of_isBlank hblank
    omega
  · intro hcomma
    exact absurd (hchars ',' hcomma).1 (by decide)

/-- What is said of both cases of a word's letters holds of the word in any
case. -/
theorem InAnyCase.forall_mem {word : String} {p : Char → Prop}
    (h : InAnyCase word cs)
    (hp : ∀ letter ∈ word.toList, p letter ∧ p letter.toUpper) :
    ∀ c ∈ cs, p c := by
  unfold InAnyCase at h
  generalize word.toList = letters at h hp
  induction h with
  | nil => nofun
  | cons hc _ ih =>
    obtain ⟨hletter, hrest⟩ := List.forall_mem_cons.1 hp
    refine List.forall_mem_cons.2 ⟨?_, ih hrest⟩
    rcases hc with rfl | rfl
    · exact hletter.1
    · exact hletter.2

/-- A word in any case is the word in small letters. -/
theorem InAnyCase.lowercase {word : String} (h : InAnyCase word cs)
    (hsmall : ∀ letter ∈ word.toList,
      lowerAscii letter = letter ∧ lowerAscii letter.toUpper = letter) :
    cs.map lowerAscii = word.toList := by
  unfold InAnyCase at h
  generalize word.toList = letters at h hsmall
  induction h with
  | nil => rfl
  | cons hc _ ih =>
    obtain ⟨hletter, hrest⟩ := List.forall_mem_cons.1 hsmall
    rw [List.map_cons, ih hrest]
    rcases hc with rfl | rfl
    · rw [hletter.1]
    · rw [hletter.2]

/-- A direction is an item of an entry. -/
theorem isItem_word (h : InAnyCase direction.word cs) : IsItem cs := by
  have hletters : direction.word.toList.all (fun letter =>
      (isBlank letter = false ∧ letter ≠ ',')
        ∧ (isBlank letter.toUpper = false ∧ letter.toUpper ≠ ',')) = true := by
    cases direction <;> decide
  have hchars : ∀ c ∈ cs, isBlank c = false ∧ c ≠ ',' :=
    h.forall_mem fun letter hletter =>
    of_decide_eq_true (List.all_eq_true.1 hletters letter hletter)
  refine ⟨⟨?_, fun c hc => (hchars c hc).1⟩,
    fun hcomma => (hchars ',' hcomma).2 rfl⟩
  rintro rfl
  cases direction <;> cases h

/-- A direction is read in any case of its letters. -/
theorem direction_word (h : InAnyCase direction.word cs) :
    Order.direction (String.ofList cs) = .ok direction := by
  have hletters : direction.word.toList.all (fun letter =>
      lowerAscii letter = letter ∧ lowerAscii letter.toUpper = letter)
        = true := by
    cases direction <;> decide
  have hsmall : Text.lowercase (String.ofList cs) = direction.word := by
    apply String.toList_injective
    rw [Text.lowercase, String.toList_ofList, String.toList_ofList]
    apply h.lowercase
    intro letter hletter
    exact of_decide_eq_true (List.all_eq_true.1 hletters letter hletter)
  unfold Order.direction sameIgnoringCase
  rw [hsmall]
  cases direction <;> rfl

-- =========================================================== entries

/-- A blank entry names no key. -/
theorem entry_blank (h : Blanks cs) : entry cs = .ok [] := by
  unfold entry
  rw [words_of_blanks h]

/-- An entry is read as the key that it spells. -/
theorem entry_spelled {key : SortKey}
    (hcolumn : Identifier.isValid key.column = true)
    (h : EntrySpelled key cs) : entry cs = .ok [key] := by
  obtain ⟨before, said, behind, hbefore, hbehind, hsaid, rfl⟩ := h
  obtain ⟨column, direction⟩ := key
  have hword := (isItem_column hcolumn).1
  unfold entry
  rw [List.append_assoc, List.append_assoc, words_blanks_append hbefore]
  cases hsaid with
  | omitted =>
    rw [List.nil_append, words_append_blanks hword hbehind]
    simp only [String.ofList_toList]
  | @written _ gap word hwide hblanks hletters =>
    cases gap with
    | nil => exact absurd rfl hwide
    | cons c gap =>
      obtain ⟨hc, hgap⟩ := List.forall_mem_cons.1 hblanks
      rw [List.append_assoc, List.cons_append, words_append_blank hword hc,
        words_blanks_append hgap,
        words_append_blanks (isItem_word hletters).1 hbehind]
      simp only [direction_word hletters, String.ofList_toList]
      rfl

/-- Entries are read as the keys that they spell. -/
theorem entries_spelled {entries : List (List Char)}
    (h : EntriesSpelled keys entries)
    (hkeys : ∀ key ∈ keys, Identifier.isValid key.column = true) :
    Order.entries entries = .ok keys := by
  induction h with
  | nil => rfl
  | blank hblanks _ ih =>
    rw [Order.entries, entry_blank hblanks, ih hkeys]
    rfl
  | key hspelled _ ih =>
    obtain ⟨hkey, hrest⟩ := List.forall_mem_cons.1 hkeys
    rw [Order.entries, entry_spelled hkey hspelled, ih hrest]
    rfl

/-- No entry that spells anything holds a comma. -/
theorem comma_notMem_entry {key : SortKey}
    (hcolumn : Identifier.isValid key.column = true)
    (h : EntrySpelled key cs) : ∀ c ∈ cs, c ≠ ',' := by
  obtain ⟨before, said, behind, hbefore, hbehind, hsaid, rfl⟩ := h
  obtain ⟨column, direction⟩ := key
  have hblanks :
      ∀ {blanks : List Char}, Blanks blanks → ∀ c ∈ blanks, c ≠ ',' :=
    fun h c hc => ne_comma_of_isBlank (h c hc)
  have hitem : ∀ {item : List Char}, IsItem item → ∀ c ∈ item, c ≠ ',' := by
    rintro item h _ hc rfl
    exact h.2 hc
  have hdirection : ∀ c ∈ said, c ≠ ',' := by
    cases hsaid with
    | omitted => nofun
    | written _ hgap hletters =>
      exact List.forall_mem_append.2
        ⟨hblanks hgap, hitem (isItem_word hletters)⟩
  refine List.forall_mem_append.2
    ⟨List.forall_mem_append.2 ⟨?_, hdirection⟩, hblanks hbehind⟩
  exact List.forall_mem_append.2
    ⟨hblanks hbefore, hitem (isItem_column hcolumn)⟩

/-- No entry has a comma, so a joined text is cut where it was joined. -/
theorem comma_notMem_entries {entries : List (List Char)}
    (h : EntriesSpelled keys entries)
    (hkeys : ∀ key ∈ keys, Identifier.isValid key.column = true) :
    ∀ entry ∈ entries, ∀ c ∈ entry, (c == ',') = false := by
  induction h with
  | nil => nofun
  | blank hblanks _ ih =>
    refine List.forall_mem_cons.2 ⟨fun c hc => ?_, ih hkeys⟩
    exact beq_eq_false_iff_ne.2 (ne_comma_of_isBlank (hblanks c hc))
  | key hspelled _ ih =>
    obtain ⟨hkey, hrest⟩ := List.forall_mem_cons.1 hkeys
    refine List.forall_mem_cons.2 ⟨fun c hc => ?_, ih hrest⟩
    exact beq_eq_false_iff_ne.2 (comma_notMem_entry hkey hspelled c hc)

-- ============================================================= texts

/-- A text is read as the keys that it spells. -/
theorem keysOfText_spelled {s : String} (h : Spelled keys s)
    (hkeys : ∀ key ∈ keys, Identifier.isValid key.column = true) :
    keysOfText s = .ok keys := by
  obtain ⟨entries, hentries, hs⟩ := h
  unfold keysOfText
  rw [hs]
  by_cases hne : entries = []
  · -- no entries make the text of one blank entry
    subst hne
    cases hentries
    rfl
  · rw [pieces_intercalate_of_forall_not (· == ',') (beq_self_eq_true ',') hne
      (comma_notMem_entries hentries hkeys)]
    exact entries_spelled hentries hkeys

/-- Keys with valid columns are accepted. -/
theorem checkColumns_of_valid
    (h : ∀ key ∈ keys, Identifier.isValid key.column = true) :
    checkColumns keys = .ok () := by
  induction keys with
  | nil => rfl
  | cons key keys ih =>
    obtain ⟨hkey, hrest⟩ := List.forall_mem_cons.1 h
    rw [checkColumns, checkColumn, if_pos hkey]
    exact ih hrest

/-- A text is read as the keys that it spells. -/
theorem parse_spelled {s : String} (h : Spelled keys s)
    (hkeys : ∀ key ∈ keys, Identifier.isValid key.column = true) :
    parse (.str s) = .ok keys := by
  have hread : Order.keys (.str s) = .ok keys := keysOfText_spelled h hkeys
  unfold parse
  rw [hread]
  show (checkColumns keys >>= fun _ => .ok keys) = .ok keys
  rw [checkColumns_of_valid hkeys]
  rfl

-- ============================================================= lists

/-- Entries one after the other are read as one list of them. -/
theorem entries_append (entries others : List (List Char)) :
    Order.entries (entries ++ others)
      = Order.entries entries >>= fun keys => Order.entries others
        >>= fun more => .ok (keys ++ more) := by
  induction entries with
  | nil =>
    show Order.entries others = Order.entries others >>= fun more => .ok more
    cases Order.entries others <;> rfl
  | cons e entries ih =>
    rw [List.cons_append, Order.entries, Order.entries, ih]
    cases entry e with
    | error e => rfl
    | ok keys =>
      cases Order.entries entries with
      | error e => rfl
      | ok more =>
        cases Order.entries others with
        | error e => rfl
        | ok others =>
          exact congrArg Except.ok (List.append_assoc keys more others).symm

/-- A list of texts is read entry by entry. -/
theorem keysOfItems_texts (texts : List String) :
    keysOfItems (texts.map .str)
      = Order.entries
        ((texts.map String.toList).flatMap (pieces (· == ','))) := by
  induction texts with
  | nil => rfl
  | cons s texts ih =>
    rw [List.map_cons, keysOfItems, ih, List.map_cons, List.flatMap_cons,
      entries_append]
    rfl

/-- A list of texts and these texts joined by commas are one order. -/
theorem keys_list (texts : List String) :
    Order.keys (.arr (texts.map .str))
      = Order.keys (.str (",".intercalate texts)) := by
  show keysOfItems (texts.map .str) = keysOfText (",".intercalate texts)
  rw [keysOfItems_texts, keysOfText, String.toList_intercalate]
  by_cases hne : texts = []
  · subst hne
    rfl
  · have hcomma : ",".toList = [','] := rfl
    rw [hcomma,
      pieces_intercalate (· == ',') (beq_self_eq_true ',')
      (mt List.map_eq_nil_iff.1 hne)]

/-- A list is read as its texts joined by commas are. -/
theorem parse_list (texts : List String) :
    parse (.arr (texts.map .str)) = parse (.str (",".intercalate texts)) := by
  unfold parse
  rw [keys_list]

-- =========================================================== clauses

/-- A key's own text is an item for it. -/
theorem item_text (key : SortKey) : Item key (SortKey.text key) := by
  have hjoin : ∀ column word : String, Identifier.enclose column ++ " " ++ word
      = "\"" ++ column ++ ("\" " ++ word) := by
    intro column word
    apply String.toList_injective
    simp [Identifier.enclose]
  obtain ⟨column, direction⟩ := key
  cases direction with
  | ascending =>
    rw [SortKey.text, hjoin]
    exact .ascending column
  | descending =>
    rw [SortKey.text, hjoin]
    exact .descending column

/-- The clause names the keys in their order. -/
theorem clauseOf_clause (keys : List SortKey) :
    ClauseOf keys (clause keys) := by
  unfold clause
  by_cases hnone : keys = []
  · subst hnone
    exact .nothing
  · rw [if_neg (by simpa using hnone)]
    refine .orderBy hnone ?_
    rw [List.forall₂_map_right_iff, List.forall₂_same]
    exact fun key _ => item_text key

/-- There is no clause if and only if there is no key. -/
theorem ClauseOf.eq_empty_iff {s : String} (h : ClauseOf keys s) :
    s = "" ↔ keys = [] := by
  cases h with
  | nothing => exact iff_of_true rfl rfl
  | orderBy hsome _ => exact iff_of_false (by simp) hsome

/-- The clause is lexed key by key. -/
theorem spells_clause
    (h : ∀ key ∈ keys, Identifier.isValid key.column = true) :
    Spells (clause keys) (clauseTokens keys) := by
  have hchecked : ({ empty with order := keys } : Filter).Checked :=
    ⟨by simp [empty], h⟩
  have hspells := spells_orderClause hchecked
  exact hspells

/-- A list of texts is the order that these texts are between commas. Every
text that spells keys with valid columns is read as these keys in their order,
and their clause says to the server these columns with these directions,
nothing if there are none. -/
theorem spelled_order_is_read_back :
    (∀ texts : List String,
      parse (.arr (texts.map .str)) = parse (.str (",".intercalate texts)))
      ∧ ∀ (keys : List SortKey) (s : String),
        (∀ key ∈ keys, Identifier.isValid key.column = true) → Spelled keys s →
          parse (.str s) = .ok keys ∧ ClauseOf keys (clause keys)
            ∧ (clause keys = "" ↔ keys = [])
            ∧ Spells (clause keys) (clauseTokens keys) := by
  refine ⟨parse_list, fun keys s hkeys hs => ?_⟩
  have hclause := clauseOf_clause keys
  exact ⟨parse_spelled hs hkeys, hclause, hclause.eq_empty_iff,
    spells_clause hkeys⟩

/-- A spelling with blank entries before a key and behind it, blanks that are
no spaces, and capitals among the letters of a direction. -/
def wideSpelling : String := " ,created_at\u00a0\tDeSc ,\u3000,name "

/-- A text with blanks of many kinds, letters of both cases and blank entries
spells two keys. -/
theorem spelled_wideSpelling :
    Spelled [⟨"created_at", .descending⟩, ⟨"name", .ascending⟩]
      wideSpelling := by
  have hblanks :
      Blanks [' '] ∧ Blanks ['\u00a0', '\t'] ∧ Blanks ['\u3000'] := by decide
  have hletters : InAnyCase "desc" ['D', 'e', 'S', 'c'] := by
    unfold InAnyCase
    decide
  have hnone : Blanks [] := by decide
  have hdirection : DirectionSpelled .descending
      (['\u00a0', '\t'] ++ ['D', 'e', 'S', 'c']) :=
    .written (List.cons_ne_nil _ _) hblanks.2.1 hletters
  have hfirst : EntrySpelled ⟨"created_at", .descending⟩
      ([] ++ "created_at".toList ++ (['\u00a0', '\t'] ++ ['D', 'e', 'S', 'c'])
        ++ [' ']) :=
    ⟨_, _, _, hnone, hblanks.1, hdirection, rfl⟩
  have hsecond :
      EntrySpelled ⟨"name", .ascending⟩ ([] ++ "name".toList ++ [] ++ [' ']) :=
    ⟨_, _, _, hnone, hblanks.1, .omitted, rfl⟩
  exact ⟨_,
    .blank hblanks.1 (.key hfirst (.blank hblanks.2.2 (.key hsecond .nil))), by
      decide⟩

/-- And it is read as those two. -/
theorem wideSpelling_read_back :
    (parse (.str wideSpelling)
      = .ok [⟨"created_at", .descending⟩, ⟨"name", .ascending⟩])
      ∧ clause [⟨"created_at", .descending⟩, ⟨"name", .ascending⟩]
        = "ORDER BY \"created_at\" DESC, \"name\" ASC" := by
  have hvalid : ∀ key
      ∈ ([⟨"created_at", .descending⟩, ⟨"name", .ascending⟩] : List SortKey),
      Identifier.isValid key.column = true := by decide
  exact ⟨(spelled_order_is_read_back.2 _ _ hvalid spelled_wideSpelling).1,
    by decide⟩

end Order

end Tenancy.Filter
