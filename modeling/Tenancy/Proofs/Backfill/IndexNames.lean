/-
The indexes behind the foreign keys. Each is named for its table, and the
server keeps of a long name only the first 63 bytes; a statement that
makes an index unless there is one of its name then does nothing if
another index has the name that is kept. Names of tables may have 63
bytes themselves, and there is something to be put before and behind
them.

Of a table's name and what stands behind it, 59 characters are kept.
Whether two tables meet there is a matter of the two texts alone
(`take_eq_iff_shadows`): the longer name has to reach the end of what is
kept, or, at one length, to end where the shorter one goes on in the
same way. So every table of a plan gets an index of its own if and only
if none is shadowed by another (`each_indexed_iff`).
-/
import Tenancy.Backfill.Database
import Tenancy.Proofs.Backfill.Acyclicity
import Tenancy.Proofs.Outcome
import Tenancy.Proofs.Sql.Lexing

namespace Tenancy

open Program

-- ========================================================== kept names

namespace Sql.Identifier

/-- The characters from the start that fit into so many bytes. -/
def clip : (bytes : Nat) → List Char → List Char
  | _, [] => []
  | bytes, c :: cs =>
    if c.utf8Size ≤ bytes then c :: clip (bytes - c.utf8Size) cs else []

/-- What the server keeps of a name. -/
def kept (name : String) : String := String.ofList (clip maxBytes name.toList)

/-- Of one-byte characters so many are kept as there are bytes. -/
theorem clip_eq_take {cs : List Char} (h : ∀ c ∈ cs, c.utf8Size = 1)
    (bytes : Nat) : clip bytes cs = cs.take bytes := by
  induction cs generalizing bytes with
  | nil => exact List.take_nil.symm
  | cons c cs ih =>
    obtain ⟨hc, hcs⟩ := List.forall_mem_cons.1 h
    rw [clip, hc]
    cases bytes with
    | zero => rfl
    | succ bytes =>
      rw [if_pos (Nat.le_add_left 1 bytes), Nat.add_sub_cancel, ih hcs]
      rfl

end Sql.Identifier

namespace Backfill

open Sql DatabaseStore
open Identifier (isValid kept)

-- =============================================================== texts

/-- What stands behind a table's name in the name of its index. -/
def ending : List Char := "_organization_id".toList

/-- How many characters of the two are kept. -/
def room : Nat := 59

/-- The index of the longer of two tables has, as far as it is kept, the name
of the shorter's: what is kept of it is all the longer name's own and the
shorter one's with its ending, or both names end within, a certain
distance apart. -/
def Shadows (short long : String) : Prop :=
  short.toList.length ≤ long.toList.length
    ∧ (room ≤ long.toList.length
      ∧ long.toList.take room = (short.toList ++ ending).take room
      ∨ short.toList.length = 45
        ∧ long.toList = short.toList ++ "_organization".toList)

instance (short long : String) : Decidable (Shadows short long) :=
  inferInstanceAs (Decidable (_ ∧ (_ ∨ _)))

/-- An ending goes on like one that starts later, for at least one character,
only at one distance and up to one place. -/
theorem ending_repeats : ∀ i < 16, ∀ k < 17,
    0 < i ∧ i < k ∧ ending.take k = (ending.take i ++ ending).take k →
      i = 13 ∧ k = 14 := by
  decide

/-- Two names agree in what is kept of them with their endings, and the longer
one ends within it: then it is the shorter one with most of the ending. -/
theorem eq_append_of_take_eq {short rest : List Char} (hrest : rest ≠ [])
    (hshort : (short ++ rest).length < room)
    (h : (short ++ ending).take room = (short ++ rest ++ ending).take room) :
    short.length = 45 ∧ rest = "_organization".toList := by
  have hpos : 0 < rest.length := List.length_pos_iff.2 hrest
  rw [List.length_append] at hshort
  -- behind the shorter name, the ending meets the rest of the longer name and
  -- its ending
  obtain ⟨k, hk⟩ : ∃ k, room = short.length + k :=
    ⟨room - short.length, by omega⟩
  rw [hk, List.append_assoc, List.take_length_add_append,
    List.take_length_add_append, List.append_cancel_left_eq] at h
  have hending : ending.length = 16 := by decide
  have hlength := congrArg List.length h
  rw [List.length_take, List.length_take, List.length_append, hending]
    at hlength
  have hstart : rest = ending.take rest.length := by
    have hprefix := congrArg (List.take rest.length) h
    have hwithin : rest.length ≤ k := by omega
    rw [List.take_take, List.take_take, Nat.min_eq_left hwithin,
      List.take_left] at hprefix
    exact hprefix.symm
  rw [hstart] at h
  obtain ⟨hlen, rfl⟩ :=
    ending_repeats rest.length (by omega) k (by omega) ⟨hpos, by omega, h⟩
  refine ⟨by unfold room at hk; omega, ?_⟩
  rw [hstart, hlen]
  rfl

/-- What is kept of a shadow is what is kept of the name that casts it. -/
theorem take_eq_of_shadows {short long : String} (h : Shadows short long) :
    (short.toList ++ ending).take room
      = (long.toList ++ ending).take room := by
  rcases h.2 with ⟨hlong, htake⟩ | ⟨hshort, hlong⟩
  · rw [List.take_append_of_le_length hlong, htake]
  · have hroom : room = short.toList.length + 14 := by
      rw [hshort]
      rfl
    rw [hlong, List.append_assoc, hroom, List.take_length_add_append,
      List.take_length_add_append]
    rfl

/-- The names of two tables agree in what is kept of them with their endings
if and only if the longer one is shadowed. -/
theorem take_eq_iff_shadows {short long : String} (hne : short ≠ long)
    (hle : short.toList.length ≤ long.toList.length) :
    (short.toList ++ ending).take room = (long.toList ++ ending).take room
      ↔ Shadows short long := by
  refine ⟨fun h => ⟨hle, ?_⟩, take_eq_of_shadows⟩
  by_cases hlong : room ≤ long.toList.length
  · rw [List.take_append_of_le_length hlong] at h
    exact .inl ⟨hlong, h.symm⟩
  · refine .inr ?_
    have hprefix : short.toList <+: long.toList := by
      have hshort : short.toList <+: (long.toList ++ ending).take room := by
        rw [← h, List.prefix_take_iff]
        exact ⟨List.prefix_append _ _, by omega⟩
      have hwhole : short.toList <+: long.toList ++ ending :=
        hshort.trans (List.take_prefix _ _)
      exact List.prefix_of_prefix_length_le hwhole (List.prefix_append _ _) hle
    obtain ⟨rest, hrest⟩ := hprefix
    have hnonempty : rest ≠ [] := by
      rintro rfl
      rw [List.append_nil] at hrest
      exact hne (String.toList_injective hrest)
    rw [← hrest] at h hlong
    obtain ⟨hlength, rfl⟩ :=
      eq_append_of_take_eq hnonempty (Nat.not_le.1 hlong) h
    exact ⟨hlength, hrest.symm⟩

/-- Names this short are never shadowed. -/
theorem not_shadows_of_length_le {short long : String}
    (h : long.toList.length ≤ 57) : ¬Shadows short long := by
  rintro ⟨-, ⟨hlong, -⟩ | ⟨hshort, hlong⟩⟩
  · exact absurd (Nat.le_trans hlong h) (by decide)
  · rw [hlong, List.length_append, hshort] at h
    exact absurd h (by decide)

/-- What is kept of the name of an index. -/
theorem kept_indexName {table : String} (h : isValid table = true) :
    kept (indexName table)
      = String.ofList
        ("idx_".toList ++ (table.toList ++ ending).take room) := by
  have htext : (indexName table).toList
      = "idx_".toList ++ (table.toList ++ ending) := by
    unfold indexName
    rw [String.toList_append, String.toList_append, String.toList_append,
      List.append_assoc, List.append_assoc]
    rfl
  have hfront : "idx_".toList.all Identifier.isRest = true := by decide
  have hback : ending.all Identifier.isRest = true := by decide
  have hrest : ∀ c ∈ (indexName table).toList, Identifier.isRest c = true := by
    rw [htext]
    refine List.forall_mem_append.2
      ⟨List.all_eq_true.1 hfront, List.forall_mem_append.2 ⟨?_, ?_⟩⟩
    · exact fun c hc => Identifier.isRest_of_mem h hc
    · exact List.all_eq_true.1 hback
  have hmax : Identifier.maxBytes = "idx_".toList.length + room := by decide
  unfold kept
  rw [Identifier.clip_eq_take fun c hc =>
    Identifier.utf8Size_of_isRest (hrest c hc), htext, hmax,
    List.take_length_add_append]

/-- Two indexes have one name, as far as it is kept, if and only if one of
their tables is shadowed by the other. -/
theorem kept_indexName_eq_iff {a b : String} (ha : isValid a = true)
    (hb : isValid b = true)
    (hne : a ≠ b) :
    kept (indexName a) = kept (indexName b) ↔ Shadows a b ∨ Shadows b a := by
  rw [kept_indexName ha, kept_indexName hb, String.ofList_inj,
    List.append_cancel_left_eq]
  constructor
  · intro h
    rcases Nat.le_total a.toList.length b.toList.length with hle | hle
    · exact .inl ((take_eq_iff_shadows hne hle).1 h)
    · exact .inr ((take_eq_iff_shadows hne.symm hle).1 h.symm)
  · rintro (h | h)
    · exact take_eq_of_shadows h
    · exact (take_eq_of_shadows h).symm

-- ============================================================= indexes

/-- The indexes of a schema: what is kept of their names, and the tables they
are on. -/
abbrev Indexes := List (String × String)

/-- The name and the table of the index that a statement makes unless there
is one. -/
def indexAsked? : List Token → Option (String × String)
  | .word a :: .word b :: .word c :: .word d :: .word e :: .quoted name
    :: .word f :: .quoted table :: _ =>
    if [a, b, c, d, e, f]
      = ["create", "index", "if", "not", "exists", "on"] then
      some (name, table)
    else none
  | _ => none

namespace Indexes

variable {s : Indexes} {name table : String} {entries : List Entry}

/-- No index has the name that is kept of this one. -/
def Free (s : Indexes) (name : String) : Prop := ∀ i ∈ s, i.1 ≠ kept name

instance (s : Indexes) (name : String) : Decidable (s.Free name) :=
  inferInstanceAs (Decidable (∀ i ∈ s, i.1 ≠ kept name))

/-- Make an index, unless there is one of its name. -/
def create (s : Indexes) (name table : String) : Indexes :=
  if s.Free name then (kept name, table) :: s else s

/-- A server, as far as indexes go: it accepts every statement. -/
def answer : World serverInterface Indexes := fun statement s =>
  (.ok ⟨[], 0⟩, match (tokens? statement.text).bind indexAsked? with
    | some (name, table) => s.create name table
    | none => s)

/-- A statement has run, whatever it has made. -/
theorem succeeds_execute (statement : Statement) (s : Indexes) :
    Succeeds answer (execute statement) s () (answer statement s).2 := rfl

/-- An index whose name is free is made on its table. -/
theorem mem_create_of_free (h : s.Free name) :
    (kept name, table) ∈ s.create name table := by
  rw [create, if_pos h]
  exact List.mem_cons_self

/-- No index is lost. -/
theorem subset_create : s ⊆ s.create name table := by
  unfold create
  split
  · exact List.subset_cons_self _ _
  · exact List.Subset.refl _

/-- A name stays free of an index with another one. -/
theorem Free.create {other : String} (h : s.Free other)
    (hne : kept name ≠ kept other) : (s.create name table).Free other := by
  unfold Indexes.create
  split
  · exact List.forall_mem_cons.2 ⟨hne, h⟩
  · exact h

/-- There is one index of a name at most. -/
theorem nodup_create (h : (s.map Prod.fst).Nodup) :
    ((s.create name table).map Prod.fst).Nodup := by
  unfold create
  split
  · rename_i hfree
    refine List.nodup_cons.2 ⟨fun hmem => ?_, h⟩
    obtain ⟨i, hi, hname⟩ := List.mem_map.1 hmem
    exact hfree i hi hname
  · exact h

/-- The indexes of tables, made one after the other. -/
def createAll (s : Indexes) (entries : List Entry) : Indexes :=
  entries.foldl (fun s entry => s.create (indexName entry.table) entry.table) s

/-- No index is lost to many. -/
theorem subset_createAll : s ⊆ s.createAll entries := by
  induction entries generalizing s with
  | nil => exact List.Subset.refl _
  | cons entry rest ih => exact List.Subset.trans subset_create ih

/-- And no name is given twice. -/
theorem nodup_createAll (h : (s.map Prod.fst).Nodup) :
    ((s.createAll entries).map Prod.fst).Nodup := by
  induction entries generalizing s with
  | nil => exact h
  | cons entry rest ih => exact ih (nodup_create h)

/-- Tables whose names are all different, and free at the start, get an index
each. -/
theorem mem_createAll
    (hnodup : (entries.map fun entry => kept (indexName entry.table)).Nodup)
    (hfree : ∀ entry ∈ entries, s.Free (indexName entry.table)) :
    ∀ entry ∈ entries,
      (kept (indexName entry.table), entry.table) ∈ s.createAll entries := by
  induction entries generalizing s with
  | nil => exact fun _ => nofun
  | cons entry rest ih =>
    obtain ⟨hnew, hrest⟩ := List.nodup_cons.1 hnodup
    obtain ⟨hentry, hothers⟩ := List.forall_mem_cons.1 hfree
    have hlater :
        s.create (indexName entry.table) entry.table
        ⊆ s.createAll (entry :: rest) :=
      subset_createAll
    refine List.forall_mem_cons.2
      ⟨hlater (mem_create_of_free hentry), ih hrest ?_⟩
    intro other hother
    refine (hothers other hother).create fun hsame => hnew ?_
    exact List.mem_map.2 ⟨other, hother, hsame.symm⟩

end Indexes

-- ========================================================== statements

/-- The statement that makes an index is read as what it asks for. -/
theorem spells_createIndex (table : String) :
    ∃ rest,
      Spells (createIndex table).text
        ([.word "create", .word "index", .word "if", .word "not",
          .word "exists", .quoted (indexName table), .word "on",
          .quoted table] ++ rest) := by
  have hopen : Closes "CREATE INDEX IF NOT EXISTS "
      [.word "create", .word "index", .word "if", .word "not",
        .word "exists"] := by decide
  have hon : Separates " ON " [.word "on"] := by decide
  have hbracket : Separates " (" [.symbol "("] := by decide
  have hclose : Spells ")" [.symbol ")"] := by decide
  have htable :=
    (hopen.append (spells_quote (indexName table))).between hon
      (spells_quote table)
  have hcolumn :=
    htable.between hbracket (spells_quote Stamp.organizationColumn)
  exact ⟨_, hcolumn.append (by decide) hclose⟩

/-- The statement that adds the constraint makes no index. -/
theorem spells_addConstraint (table : String) :
    ∃ rest, Spells (addConstraint table).text
      ([.word "alter", .word "table", .quoted table] ++ rest) := by
  have hopen : Closes "ALTER TABLE " [.word "alter", .word "table"] := by
    decide
  have hadd :
      Separates " ADD CONSTRAINT " [.word "add", .word "constraint"] := by
    decide
  have hkey :
      Separates " FOREIGN KEY ("
      [.word "foreign", .word "key", .symbol "("] := by decide
  have hclose :
      ∃ rest, Spells ") REFERENCES organizations(id) ON DELETE CASCADE" rest :=
    ⟨_, rfl⟩
  obtain ⟨rest, hrest⟩ := hclose
  have hname :=
    (hopen.append (spells_quote table)).between hadd
      (spells_quote (constraintName table))
  have hcolumn := hname.between hkey (spells_quote Stamp.organizationColumn)
  exact ⟨_, hcolumn.append (by decide) hrest⟩

/-- Give tables their foreign keys, one after the other. -/
def addForeignKeys : List Entry → Query Unit
  | [] => pure ()
  | entry :: rest => do
    addForeignKey entry.table
    addForeignKeys rest

/-- A foreign key makes its table's index. -/
theorem Indexes.succeeds_addForeignKey (s : Indexes) (table : String) :
    Succeeds Indexes.answer (addForeignKey table) s ()
      (s.create (indexName table) table) := by
  obtain ⟨_, hindex⟩ := spells_createIndex table
  obtain ⟨_, hconstraint⟩ := spells_addConstraint table
  have hcreated : (Indexes.answer (createIndex table) s).2
      = s.create (indexName table) table := by
    unfold Indexes.answer
    rw [hindex]
    rfl
  have hleft (s : Indexes) :
      (Indexes.answer (addConstraint table) s).2 = s := by
    unfold Indexes.answer
    rw [hconstraint]
    rfl
  refine succeeds_bind.2 ⟨(), _, Indexes.succeeds_execute _ _, ?_⟩
  rw [hcreated]
  have hadded :=
    Indexes.succeeds_execute (addConstraint table)
      (s.create (indexName table) table)
  rwa [hleft] at hadded

/-- And the foreign keys of a plan make those of its tables. -/
theorem Indexes.succeeds_addForeignKeys (s : Indexes) (entries : List Entry) :
    Succeeds Indexes.answer (addForeignKeys entries) s ()
      (s.createAll entries) := by
  induction entries generalizing s with
  | nil => exact rfl
  | cons entry rest ih =>
    exact succeeds_bind.2
      ⟨(), _, Indexes.succeeds_addForeignKey s entry.table, ih _⟩

-- =============================================================== plans

namespace Plan

/-- The indexes of different tables have different names, as far as they are
kept. -/
def NamesApart (plan : Plan) : Prop :=
  ∀ a ∈ plan.tables, ∀ b ∈ plan.tables, a.table ≠ b.table →
    kept (indexName a.table) ≠ kept (indexName b.table)

/-- Where no index has the name of one that is to be made, every table gets
an index of its own with its foreign key. -/
def EachIndexed (plan : Plan) : Prop :=
  ∀ s : Indexes, (∀ entry ∈ plan.tables, s.Free (indexName entry.table)) →
    ∃ s', Succeeds Indexes.answer (addForeignKeys plan.tables) s () s'
      ∧ ∀ entry ∈ plan.tables, (kept (indexName entry.table), entry.table) ∈ s'

/-- No table is shadowed by another. -/
def Unshadowed (plan : Plan) : Prop :=
  ∀ a ∈ plan.tables, ∀ b ∈ plan.tables, a.table ≠ b.table →
    ¬Shadows a.table b.table

instance (plan : Plan) : Decidable plan.Unshadowed :=
  inferInstanceAs (Decidable (∀ a ∈ plan.tables, ∀ b ∈ plan.tables, _ → ¬_))

variable {entries : List Entry} {plan : Plan}

/-- No table of a plan with short names is shadowed. -/
theorem unshadowed_of_short
    (h : ∀ entry ∈ plan.tables, entry.table.toList.length ≤ 57) :
    plan.Unshadowed := fun _ _ b hb _ => not_shadows_of_length_le (h b hb)

/-- Tables that each have an index have names that are told apart. -/
theorem EachIndexed.namesApart (h : plan.EachIndexed) : plan.NamesApart := by
  intro a ha b hb hne hsame
  obtain ⟨s', hrun, heach⟩ := h [] fun _ _ => nofun
  have hs' : s' = Indexes.createAll [] plan.tables :=
    congrArg Prod.snd
      (hrun.symm.trans (Indexes.succeeds_addForeignKeys [] plan.tables))
  have hnodup : (s'.map Prod.fst).Nodup := by
    rw [hs']
    exact Indexes.nodup_createAll List.nodup_nil
  have hpair := List.inj_on_of_nodup_map hnodup (heach a ha) (heach b hb) hsame
  exact hne (congrArg Prod.snd hpair)

/-- And names that are told apart give each table its own. -/
theorem NamesApart.eachIndexed (h : plan.NamesApart)
    (hnodup : (plan.tables.map Entry.table).Nodup) : plan.EachIndexed := by
  intro s hfree
  refine ⟨_, Indexes.succeeds_addForeignKeys s plan.tables,
    Indexes.mem_createAll ?_ hfree⟩
  refine List.Nodup.map_on (fun a ha b hb hsame => ?_) hnodup.of_map
  have htable : a.table = b.table := by
    by_contra hne
    exact h a ha b hb hne hsame
  exact List.inj_on_of_nodup_map hnodup ha hb htable

/-- Every two tables of a plan have indexes of different names, and every
table gets an index of its own, if and only if no table is shadowed. -/
theorem each_indexed_iff (hplan : Plan.ofEntries entries = .ok plan) :
    (plan.NamesApart ↔ plan.Unshadowed)
      ∧ (plan.EachIndexed ↔ plan.Unshadowed) := by
  obtain ⟨hperm, hnodup, -⟩ := ofEntries_ok hplan
  have hvalid : ∀ entry ∈ plan.tables, isValid entry.table = true :=
    fun entry hentry =>
    (wellFormed_of_ofEntries hplan).names entry (hperm.mem_iff.1 hentry) _
      List.mem_cons_self
  have hnames : plan.NamesApart ↔ plan.Unshadowed := by
    constructor
    · intro h a ha b hb hne hshadows
      refine h a ha b hb hne ?_
      exact (kept_indexName_eq_iff (hvalid a ha) (hvalid b hb) hne).2
        (.inl hshadows)
    · intro h a ha b hb hne hsame
      rcases (kept_indexName_eq_iff (hvalid a ha) (hvalid b hb) hne).1 hsame
        with hshadows | hshadows
      · exact h a ha b hb hne hshadows
      · exact h b hb a ha hne.symm hshadows
  refine ⟨hnames, ?_⟩
  rw [← hnames]
  exact ⟨EachIndexed.namesApart, fun h => h.eachIndexed hnodup⟩

/-- Two tables whose names begin with so many equal characters and differ in
the next. -/
def twins (same : Nat) : List Entry :=
  ['b', 'c'].map fun last =>
    ⟨String.ofList (List.replicate same 'a' ++ [last]), .defaultOnly⟩

/-- Names that are short enough are told apart by their last character. -/
theorem twins_each_indexed :
    ofEntries (twins 58) = .ok ⟨twins 58⟩ ∧ NamesApart ⟨twins 58⟩
      ∧ EachIndexed ⟨twins 58⟩ := by
  have hplan : ofEntries (twins 58) = .ok ⟨twins 58⟩ := rfl
  have hclear : Unshadowed ⟨twins 58⟩ := by decide +kernel
  obtain ⟨hnames, heach⟩ := each_indexed_iff hplan
  exact ⟨hplan, hnames.2 hclear, heach.2 hclear⟩

/-- The names of two tables are one character longer, and the index of the
second is taken for that of the first. -/
theorem longer_twins_share_an_index :
    ofEntries (twins 59) = .ok ⟨twins 59⟩ ∧ ¬NamesApart ⟨twins 59⟩
      ∧ ¬EachIndexed ⟨twins 59⟩ := by
  have hclash : ¬NamesApart ⟨twins 59⟩ := by
    intro h
    refine h _ List.mem_cons_self _
      (List.mem_cons_of_mem _ List.mem_cons_self) ?_ ?_
    · decide +kernel
    · decide +kernel
  exact ⟨rfl, hclash, fun h => hclash h.namesApart⟩

end Plan

end Backfill

end Tenancy
