/-
Texts in quotes, read back. A plain text, of printable ASCII characters
without quotes and backslashes, stands between its quotes as it is
(`toList_quote`), and whatever comes behind the closing quote, the text is
scanned and read as itself. All names of members are plain, and so are
identifiers.
-/
import Tenancy.Json.Printer
import Tenancy.Json.Shape
import Tenancy.Proofs.Text.Ascii
import Tenancy.Uuid

namespace Tenancy.Json

open Text

variable {cs rest : List Char} {s : String}

/-- Nothing has to be escaped and everything is ASCII. -/
def Plain (cs : List Char) : Prop :=
  ∀ c ∈ cs, c ≠ '"' ∧ c ≠ '\\' ∧ 0x20 ≤ c.toNat ∧ c.toNat < 0x80

instance (cs : List Char) : Decidable (Plain cs) :=
  List.decidableBAll
    (fun c : Char => c ≠ '"' ∧ c ≠ '\\' ∧ 0x20 ≤ c.toNat ∧ c.toNat < 0x80) cs

theorem Plain.ascii (h : Plain cs) : Ascii cs := fun c hc => (h c hc).2.2.2

theorem plain_hexDigits {width n : Nat} : Plain (hexDigits width n) := by
  have hdigit : ∀ m < 16, Plain [hexDigit m] := by decide
  induction width generalizing n with
  | zero => exact fun c hc => absurd hc List.not_mem_nil
  | succ width ih =>
    exact List.forall_mem_append.2 ⟨ih, hdigit _ (Nat.mod_lt _ (by decide))⟩

theorem plain_uuid (id : Uuid) : Plain id.toString.toList := by
  have hgroup {cs : List Char} (h : cs ⊆ hexDigits 32 id.value.val) :
      Plain cs := fun c hc =>
    plain_hexDigits c (h hc)
  have hhyphen {cs ds : List Char} (h : Plain cs) (h' : Plain ds) :
      Plain (cs ++ '-' :: ds) :=
    List.forall_mem_append.2 ⟨h, List.forall_mem_cons.2 ⟨by decide, h'⟩⟩
  have hmiddle (n : Nat) :
      Plain (((hexDigits 32 id.value.val).drop n).take 4) :=
    hgroup fun c hc => List.mem_of_mem_drop (List.mem_of_mem_take hc)
  rw [Uuid.toString, String.toList_ofList, Uuid.toChars]
  refine hhyphen
    (hhyphen (hhyphen (hhyphen ?_ (hmiddle 8)) (hmiddle 12)) (hmiddle 16)) ?_
  · exact hgroup fun c hc => List.mem_of_mem_take hc
  · exact hgroup fun c hc => List.mem_of_mem_drop hc

theorem flatMap_escape (h : Plain cs) : cs.flatMap escape = cs := by
  induction cs with
  | nil => rfl
  | cons c cs ih =>
    obtain ⟨⟨hquote, hbackslash, hprintable, -⟩, hcs⟩ :=
      List.forall_mem_cons.1 h
    have hescape : escape c = [c] := by
      simp [escape, hquote, hbackslash, hprintable]
    rw [List.flatMap_cons, hescape, ih hcs]
    rfl

/-- A plain text in quotes is the text and the quotes. -/
theorem toList_quote (h : Plain s.toList) :
    (quote s).toList = '"' :: (s.toList ++ ['"']) := by
  rw [quote, String.toList_ofList, flatMap_escape h]
  rfl

theorem toList_quote_append (h : Plain s.toList) (rest : List Char) :
    (quote s).toList ++ rest = '"' :: (s.toList ++ '"' :: rest) := by
  rw [toList_quote h, List.cons_append, List.append_assoc,
    List.singleton_append]

theorem ascii_quote (h : Plain s.toList) : Ascii (quote s).toList := by
  rw [toList_quote h]
  exact .cons (by decide) (h.ascii.append (by decide))

-- =========================================================== scanning

theorem scanBytes_plain (h : Plain cs) :
    scanBytes (cs ++ '"' :: rest) = (some (cs.flatMap utf8OfChar), rest) := by
  induction cs with
  | nil => simp [scanBytes]
  | cons c cs ih =>
    obtain ⟨⟨hquote, hbackslash, hprintable, hascii⟩, hcs⟩ :=
      List.forall_mem_cons.1 h
    have hcontrol : ¬(c = '\\' ∨ c.toNat < 0x20) := by
      rintro (hc | hc)
      · exact hbackslash hc
      · omega
    have hstep : scanBytes (c :: (cs ++ '"' :: rest))
        = prepend [c.toNat.toUInt8] (scanBytes (cs ++ '"' :: rest)) := by
      rw [scanBytes, if_neg hcontrol]
      -- every earlier pattern starts with a quote or a backslash
      all_goals simp_all
    rw [List.cons_append, hstep, ih hcs, List.flatMap_cons,
      utf8OfChar_of_ascii hascii]
    rfl

/-- Behind its opening quote, a plain text is scanned up to its closing one. -/
theorem scanString_plain (h : Plain s.toList) :
    scanString (s.toList ++ '"' :: rest) = (some s, rest) := by
  rw [scanString, scanBytes_plain h]
  simp [readUtf8?_of_ascii h.ascii]

/-- A text in quotes is scanned as a value, however deep values may nest. -/
theorem scanValue_quote (depth : Nat) (h : Plain s.toList) :
    scanValue depth ((quote s).toList ++ rest) = (some (.str s), rest) := by
  have htree : scanTree depth ('"' :: (s.toList ++ '"' :: rest))
      = (some (.str s), rest) := by
    simp [scanTree, scanTreeFor, skipGaps, isGap, scanString_plain h]
  rw [toList_quote_append h, scanValue, htree]
  rfl

-- ============================================================ readers

theorem readStr_quote (h : Plain s.toList) :
    readStr ((quote s).toList ++ rest) = .ok (s, rest) := by
  rw [toList_quote_append h]
  simp [readStr, skipGaps, isGap, readString, required, scanString_plain h]

/-- What a text spells is read from the text in quotes. -/
theorem readSpelled_quote {α : Type} {ofText? : String → Option α} {a : α}
    (h : Plain s.toList) (hspelled : ofText? s = some a) :
    readSpelled ofText? ((quote s).toList ++ rest) = .ok (a, rest) := by
  rw [readSpelled, readStr_quote h]
  simp only [bind, Except.bind, hspelled]
  rfl

theorem readNullable_quote {α : Type} {read : Reader α} {a : α}
    (h : Plain s.toList)
    (hread : read ((quote s).toList ++ rest) = .ok (a, rest)) :
    readNullable read ((quote s).toList ++ rest) = .ok (some a, rest) := by
  rw [toList_quote_append h] at hread ⊢
  simp [readNullable, skipGaps, isGap, hread, bind, Except.bind, pure,
    Except.pure]

theorem readCase_quote {α : Type} {ofName? : String → Option α} {a : α}
    (h : Plain s.toList)
    (hname : ofName? s = some a) :
    readCase ofName? ((quote s).toList ++ rest) = .ok (a, rest) := by
  have hread :
      readSpelled ofName? ((quote s).toList ++ rest) = .ok (a, rest) :=
    readSpelled_quote h hname
  rw [toList_quote_append h] at hread ⊢
  simpa [readCase, skipGaps, isGap] using hread

end Tenancy.Json
