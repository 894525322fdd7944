/-
What a fingerprint tells of its plan: the tables with their derivations
in their order, all of it, if the digest of no other plan's text is the
same. The text is a line for each table, and the names of an accepted
plan hold neither a line's end nor the bar behind the table nor a blank,
so that a line can be taken apart in one way (`identity_injective`). The
digest is written out byte by byte and nothing is lost there either.

That digests are told apart is asked of the texts of the plans at hand.
Of all texts it would be false, as there are more texts than digests.
-/
import Tenancy.Proofs.Backfill.Acyclicity
import Tenancy.Proofs.Text.Ascii

namespace Tenancy.Backfill

open Text

-- ============================================================== text

/-- A separator that neither start holds is found again. -/
theorem append_separator_inj {α : Type} {separator : α} {a b x y : List α}
    (ha : separator ∉ a)
    (hb : separator ∉ b) (h : a ++ separator :: x = b ++ separator :: y) :
    a = b ∧ x = y := by
  induction a generalizing b with
  | nil =>
    cases b with
    | nil => exact ⟨rfl, (List.cons.inj h).2⟩
    | cons first b =>
      obtain ⟨rfl, -⟩ := List.cons.inj h
      exact absurd (List.mem_cons_self ..) hb
  | cons first a ih =>
    cases b with
    | nil =>
      obtain ⟨rfl, -⟩ := List.cons.inj h
      exact absurd (List.mem_cons_self ..) ha
    | cons first' b =>
      obtain ⟨rfl, hrest⟩ := List.cons.inj h
      obtain ⟨rfl, rfl⟩ :=
        ih (fun hmem => ha (List.mem_cons_of_mem _ hmem))
          (fun hmem => hb (List.mem_cons_of_mem _ hmem)) hrest
      exact ⟨rfl, rfl⟩

/-- A byte is told by its two digits. -/
theorem hexDigits_byte_inj {a b : UInt8}
    (h : hexDigits 2 a.toNat = hexDigits 2 b.toNat) : a = b := by
  have hread (c : UInt8) : hexFrom 0 (hexDigits 2 c.toNat) = some c.toNat :=
    hexFrom_hexDigits c.toNat_lt
  have hvalue : some a.toNat = some b.toNat := by rw [← hread a, ← hread b, h]
  exact UInt8.toNat_inj.1 (Option.some.inj hvalue)

/-- Bytes written in digits can be read back. -/
theorem hexOfBytes_injective : Function.Injective hexOfBytes := by
  intro a b h
  have hchars : (a.flatMap fun byte => hexDigits 2 byte.toNat)
      = b.flatMap fun byte => hexDigits 2 byte.toNat := by
    simpa [hexOfBytes] using congrArg String.toList h
  clear h
  induction a generalizing b with
  | nil =>
    cases b with
    | nil => rfl
    | cons byte b => simp [hexDigits] at hchars
  | cons byte a ih =>
    cases b with
    | nil => simp [hexDigits] at hchars
    | cons byte' b =>
      rw [List.flatMap_cons, List.flatMap_cons] at hchars
      obtain ⟨hbyte, hrest⟩ :=
        List.append_inj hchars (by simp only [length_hexDigits])
      rw [hexDigits_byte_inj hbyte, ih hrest]

-- ============================================================= names

variable {name : String} {entry entry' : Entry} {plan plan' : Plan}

/-- Every name in an entry is valid. -/
def Entry.Valid (entry : Entry) : Prop :=
  ∀ n ∈ entry.names, Sql.Identifier.isValid n = true

/-- A valid name has no characters of more than one byte. -/
theorem ascii_of_isValid (h : Sql.Identifier.isValid name = true) :
    Ascii name.toList :=
  fun _ hc =>
    (Sql.Identifier.toNat_of_isRest (Sql.Identifier.isRest_of_mem h hc)).2

/-- And none that could end it where it stands in a line. -/
theorem not_mem_of_isValid (h : Sql.Identifier.isValid name = true) {c : Char}
    (hc : Sql.Identifier.isRest c = false) : c ∉ name.toList := by
  intro hmem
  rw [Sql.Identifier.isRest_of_mem h hmem] at hc
  cases hc

/-- A valid entry has a valid table. -/
theorem Entry.Valid.table (h : entry.Valid) :
    Sql.Identifier.isValid entry.table = true :=
  h _ (List.mem_cons_self ..)

/-- The entries of a plan that was accepted are valid. -/
theorem valid_of_ofEntries {entries : List Entry}
    (h : Plan.ofEntries entries = .ok plan) :
    ∀ entry ∈ plan.tables, entry.Valid :=
  fun entry hentry =>
    (Plan.wellFormed_of_ofEntries h).names entry
      ((Plan.ofEntries_ok h).1.mem_iff.1 hentry)

-- ============================================================= lines

/-- The text of a derivation by its owner. -/
theorem toList_text_owner (column : String) :
    (Derivation.ownerMembership column).text.toList
      = "owner membership via ".toList ++ column.toList :=
  String.toList_append

/-- The text of a derivation by its parent. -/
theorem toList_text_parent (table key : String) :
    (Derivation.parent table key).text.toList
      = "parent ".toList
        ++ (table.toList ++ ' ' :: ("via ".toList ++ key.toList)) := by
  have hvia : " via ".toList = ' ' :: "via ".toList := by decide
  show ("parent " ++ table ++ " via " ++ key).toList = _
  rw [String.toList_append, String.toList_append, String.toList_append, hvia,
    List.append_assoc, List.append_assoc, List.cons_append]

/-- The text of what is left to the default. -/
theorem toList_text_default :
    Derivation.defaultOnly.text.toList = "default organization only".toList :=
  rfl

/-- A derivation with valid names is described by one text only. -/
theorem text_injective (h : entry.Valid) (h' : entry'.Valid)
    (htext : entry.derivation.text = entry'.derivation.text) :
    entry.derivation = entry'.derivation := by
  obtain ⟨table, derivation⟩ := entry
  obtain ⟨table', derivation'⟩ := entry'
  have hchars : derivation.text.toList = derivation'.text.toList :=
    congrArg String.toList htext
  show derivation = derivation'
  cases derivation with
  | ownerMembership column =>
    rw [toList_text_owner] at hchars
    cases derivation' with
    | ownerMembership column' =>
      rw [toList_text_owner] at hchars
      rw [String.toList_injective (List.append_cancel_left hchars)]
    | parent table key =>
      rw [toList_text_parent] at hchars
      exact absurd (congrArg List.head? hchars) (by simp)
    | defaultOnly =>
      rw [toList_text_default] at hchars
      exact absurd (congrArg List.head? hchars) (by simp)
  | parent parent key =>
    rw [toList_text_parent] at hchars
    cases derivation' with
    | parent parent' key' =>
      rw [toList_text_parent] at hchars
      have hparent :=
        not_mem_of_isValid (h parent (by simp [Entry.names])) (c := ' ') rfl
      have hparent' :=
        not_mem_of_isValid (h' parent' (by simp [Entry.names])) (c := ' ') rfl
      obtain ⟨htable, hkey⟩ :=
        append_separator_inj hparent hparent' (List.append_cancel_left hchars)
      rw [String.toList_injective htable,
        String.toList_injective (List.append_cancel_left hkey)]
    | ownerMembership column =>
      rw [toList_text_owner] at hchars
      exact absurd (congrArg List.head? hchars) (by simp)
    | defaultOnly =>
      rw [toList_text_default] at hchars
      exact absurd (congrArg List.head? hchars) (by simp)
  | defaultOnly =>
    rw [toList_text_default] at hchars
    cases derivation' with
    | defaultOnly => rfl
    | ownerMembership column =>
      rw [toList_text_owner] at hchars
      exact absurd (congrArg List.head? hchars) (by simp)
    | parent table key =>
      rw [toList_text_parent] at hchars
      exact absurd (congrArg List.head? hchars) (by simp)

/-- It is ASCII and on one line. -/
theorem text_of_valid (h : entry.Valid) :
    Ascii entry.derivation.text.toList
      ∧ '\n' ∉ entry.derivation.text.toList := by
  have hname : ∀ n ∈ entry.names, Ascii n.toList ∧ '\n' ∉ n.toList :=
    fun n hn => ⟨ascii_of_isValid (h n hn), not_mem_of_isValid (h n hn) rfl⟩
  obtain ⟨table, derivation⟩ := entry
  cases derivation with
  | ownerMembership column =>
    obtain ⟨hascii, hline⟩ := hname column (by simp [Entry.names])
    rw [toList_text_owner]
    exact ⟨.append (by decide) hascii, List.not_mem_append (by decide) hline⟩
  | parent parent key =>
    obtain ⟨hascii, hline⟩ := hname parent (by simp [Entry.names])
    obtain ⟨hascii', hline'⟩ := hname key (by simp [Entry.names])
    rw [toList_text_parent]
    refine ⟨.append (by decide)
      (.append hascii (.cons (by decide) (.append (by decide) hascii'))),
      List.not_mem_append (by decide) (List.not_mem_append hline ?_)⟩
    exact List.not_mem_cons_of_ne_of_not_mem (by decide)
      (List.not_mem_append (by decide) hline')
  | defaultOnly =>
    rw [toList_text_default]
    exact ⟨by decide, by decide⟩

/-- The line of an entry inside the text that is digested. -/
def Entry.line (entry : Entry) : List Char :=
  entry.table.toList ++ '|' :: (entry.derivation.text.toList ++ ['\n'])

/-- The identity of a plan is its lines. -/
theorem toList_identity (plan : Plan) :
    plan.identity.toList = plan.tables.flatMap Entry.line := by
  unfold Plan.identity
  rw [String.toList_join, List.flatMap_map]
  refine List.flatMap_congr fun entry _ => ?_
  simp only [String.toList_append, List.append_assoc]
  rfl

/-- Valid entries are told by their lines. -/
theorem lines_injective {entries entries' : List Entry}
    (h : ∀ entry ∈ entries, entry.Valid) (h' : ∀ entry ∈ entries', entry.Valid)
    (hlines : entries.flatMap Entry.line = entries'.flatMap Entry.line) :
    entries = entries' := by
  induction entries generalizing entries' with
  | nil =>
    cases entries' with
    | nil => rfl
    | cons entry' rest' => simp [Entry.line] at hlines
  | cons entry rest ih =>
    cases entries' with
    | nil => simp [Entry.line] at hlines
    | cons entry' rest' =>
      obtain ⟨hentry, hrest⟩ := List.forall_mem_cons.1 h
      obtain ⟨hentry', hrest'⟩ := List.forall_mem_cons.1 h'
      simp only [List.flatMap_cons, Entry.line, List.append_assoc,
        List.cons_append, List.nil_append] at hlines
      obtain ⟨htable, hlines⟩ :=
        append_separator_inj (not_mem_of_isValid hentry.table rfl)
          (not_mem_of_isValid hentry'.table rfl) hlines
      obtain ⟨htext, hlines⟩ :=
        append_separator_inj (text_of_valid hentry).2
          (text_of_valid hentry').2 hlines
      have hderivation :=
        text_injective hentry hentry' (String.toList_injective htext)
      have hsame : entry = entry' := by
        obtain ⟨table, derivation⟩ := entry
        cases String.toList_injective htable
        cases hderivation
        rfl
      rw [hsame, ih hrest hrest' hlines]

-- ============================================================= plans

/-- So the identity has one byte for each character. -/
theorem ascii_identity (h : ∀ entry ∈ plan.tables, entry.Valid) :
    Ascii plan.identity.toList := by
  rw [toList_identity]
  intro c hc
  obtain ⟨entry, hentry, hc⟩ := List.mem_flatMap.1 hc
  have hvalid := h entry hentry
  have hline : Ascii entry.line :=
    .append (ascii_of_isValid hvalid.table)
      (.cons (by decide) (.append (text_of_valid hvalid).1 (by decide)))
  exact hline c hc

/-- The bytes that are digested determine the plan. -/
theorem identity_injective (h : ∀ entry ∈ plan.tables, entry.Valid)
    (h' : ∀ entry ∈ plan'.tables, entry.Valid)
    (hbytes : utf8 plan.identity = utf8 plan'.identity) :
    plan.tables = plan'.tables := by
  have hidentity :=
    (utf8_inj_of_ascii (ascii_identity h) (ascii_identity h')).1 hbytes
  have hlines := congrArg String.toList hidentity
  rw [toList_identity, toList_identity] at hlines
  exact lines_injective h h' hlines

/-- Plans whose digests are not the same by accident. -/
def ToldApart (Plans : Plan → Prop) : Prop :=
  ∀ p q, Plans p → Plans q →
    Crypto.Sha256.digest (utf8 p.identity)
      = Crypto.Sha256.digest (utf8 q.identity) →
    utf8 p.identity = utf8 q.identity

/-- And so do their fingerprints, where digests are told apart. -/
theorem fingerprint_injective {Plans : Plan → Prop} (hapart : ToldApart Plans)
    (hplan : Plans plan) (hplan' : Plans plan')
    (h : ∀ entry ∈ plan.tables, entry.Valid)
    (h' : ∀ entry ∈ plan'.tables, entry.Valid)
    (hfingerprint : plan.fingerprint = plan'.fingerprint) :
    plan.tables = plan'.tables :=
  identity_injective h h'
    (hapart _ _ hplan hplan' (hexOfBytes_injective hfingerprint))

end Tenancy.Backfill
