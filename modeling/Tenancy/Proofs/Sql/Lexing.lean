/-
SQL text as the server cuts it into tokens, and how the cuts of a text
follow from the cuts of its parts.

The lexer reads one character at a time and keeps, as its mode, the
token that is still open: a run of word characters, a run of operator
characters, or a quoted identifier. A quote inside a quoted identifier
ends it unless another quote follows, so behind one the lexer waits for
the next character (`Mode.closing`). Words are folded to small letters,
as SQL does with names and keywords that stand without quotes.

`Spells s ts` says that a text is exactly the tokens `ts`. Texts are
joined in the library with blanks and punctuation between them, which
no open token can swallow: `Spells.append` and its relatives say so
once, and every fact about a rendered text is assembled from them.
-/
import Tenancy.Sql.Condition
import Tenancy.Text.Split

namespace Tenancy.Sql

-- ============================================================ tokens

/-- A token of SQL text. -/
inductive Token where
  /-- A keyword or a name without quotes, in small letters. -/
  | word (s : String)
  /-- A quoted identifier, by its content. -/
  | quoted (name : String)
  | placeholder (n : Nat)
  | number (n : Nat)
  /-- A bracket, a comma, a point, or an operator. -/
  | symbol (s : String)
deriving DecidableEq

/-- The characters of words, numbers and placeholders. -/
def isWordChar (c : Char) : Bool := c.isAlphanum || c == '_' || c == '$'

/-- The characters of operators, which are read in runs. -/
def isOperatorChar (c : Char) : Bool := c ∈ ['=', '<', '>', ':', '*', '-']

/-- The characters that are tokens each for itself. -/
def isPunctuation (c : Char) : Bool := c ∈ ['(', ')', ',', '.']

/-- The operators; a longer run, such as that of a comment's start, is none. -/
def operators : List String :=
  ["=", "<>", "<", "<=", ">", ">=", "::", "*", "-"]

/-- The token of a run of word characters: `$` and digits are a
placeholder, digits alone a number. -/
def Token.ofWord : List Char → Option Token
  | '$' :: digits =>
    if digits ≠ [] ∧ digits.all Char.isDigit then
      some (.placeholder (Nat.ofDigitChars 10 digits 0))
    else none
  | cs =>
    if cs.all Char.isDigit then some (.number (Nat.ofDigitChars 10 cs 0))
    else if cs.head?.any Char.isDigit then none
    else some (.word (Text.lowercase (String.ofList cs)))

/-- The token of a run of operator characters. -/
def Token.ofOperator (cs : List Char) : Option Token :=
  if String.ofList cs ∈ operators then some (.symbol (String.ofList cs))
  else none

-- ============================================================= lexer

/-- The token that is open, with what was read of it, the last character
first. -/
inductive Mode where
  | gap
  | word (read : List Char)
  | operator (read : List Char)
  | quoted (read : List Char)
  /-- Behind a quote that ends the identifier, unless another follows. -/
  | closing (read : List Char)
deriving DecidableEq

namespace Mode

/-- The open token, if it may end here. -/
def finish : Mode → Option (List Token)
  | .gap => some []
  | .word read => (Token.ofWord read.reverse).map fun t => [t]
  | .operator read => (Token.ofOperator read.reverse).map fun t => [t]
  | .quoted _ => none
  | .closing read => some [.quoted (String.ofList read.reverse)]

/-- Begin with a character where no token is open. -/
def start (c : Char) : Option (List Token × Mode) :=
  if c = ' ' then some ([], .gap)
  else if isPunctuation c then some ([.symbol c.toString], .gap)
  else if c = '"' then some ([], .quoted [])
  else if isWordChar c then some ([], .word [c])
  else if isOperatorChar c then some ([], .operator [c])
  else none

/-- End the open token and begin with a character. -/
def restart (mode : Mode) (c : Char) : Option (List Token × Mode) := do
  let ended ← mode.finish
  let (begun, mode) ← start c
  return (ended ++ begun, mode)

/-- Read a character. -/
def step (mode : Mode) (c : Char) : Option (List Token × Mode) :=
  match mode with
  | .quoted read =>
    if c = '"' then some ([], .closing read)
    else some ([], .quoted (c :: read))
  | .closing read =>
    if c = '"' then some ([], .quoted ('"' :: read))
    else (Mode.closing read).restart c
  | .word read =>
    if isWordChar c then some ([], .word (c :: read))
    else (Mode.word read).restart c
  | .operator read =>
    if isOperatorChar c then some ([], .operator (c :: read))
    else (Mode.operator read).restart c
  | .gap => start c

/-- Read characters: the tokens that ended, and the mode behind them. -/
def run : Mode → List Char → Option (List Token × Mode)
  | mode, [] => some ([], mode)
  | mode, c :: cs => do
    let (ended, mode) ← mode.step c
    let (more, mode) ← run mode cs
    return (ended ++ more, mode)

end Mode

/-- The tokens of a text, from a mode on. -/
def tokensFrom (mode : Mode) (cs : List Char) : Option (List Token) := do
  let (ended, mode) ← mode.run cs
  return ended ++ (← mode.finish)

def tokens? (s : String) : Option (List Token) := tokensFrom .gap s.toList

/-- A text that is exactly some tokens. -/
def Spells (s : String) (ts : List Token) : Prop := tokens? s = some ts

/-- A text that is exactly some tokens and leaves none open. -/
def Closes (s : String) (ts : List Token) : Prop :=
  Mode.gap.run s.toList = some (ts, .gap)

/-- A character that ends any open token. -/
def isBreak (c : Char) : Bool := c == ' ' || isPunctuation c

/-- A text whose first character ends any open token. -/
def Parts (s : String) : Prop := s.toList.head?.any isBreak = true

/-- A text that ends any open token, is some tokens, and leaves none open. -/
def Separates (s : String) (ts : List Token) : Prop := Parts s ∧ Closes s ts

instance (s : String) (ts : List Token) : Decidable (Spells s ts) :=
  inferInstanceAs (Decidable (_ = _))

instance (s : String) (ts : List Token) : Decidable (Closes s ts) :=
  inferInstanceAs (Decidable (_ = _))

instance (s : String) : Decidable (Parts s) :=
  inferInstanceAs (Decidable (_ = _))

instance (s : String) (ts : List Token) : Decidable (Separates s ts) :=
  inferInstanceAs (Decidable (_ ∧ _))

theorem Parts.exists_cons {s : String} (h : Parts s) :
    ∃ c rest, s.toList = c :: rest ∧ isBreak c = true := by
  unfold Parts at h
  cases hs : s.toList with
  | nil => simp [hs] at h
  | cons c rest => exact ⟨c, rest, rfl, by simpa [hs] using h⟩

theorem Parts.append {a : String} (h : Parts a) (b : String) :
    Parts (a ++ b) := by
  obtain ⟨c, rest, hcs, hc⟩ := h.exists_cons
  unfold Parts
  simp [hcs, hc]

-- ============================================================== runs

theorem Mode.run_append (mode : Mode) (a b : List Char) :
    mode.run (a ++ b)
      = (mode.run a).bind fun x => (x.2.run b).map fun y =>
        (x.1 ++ y.1, y.2) := by
  induction a generalizing mode with
  | nil => simp [run]
  | cons c a ih =>
    simp only [List.cons_append, run, ih]
    cases mode.step c with
    | none => rfl
    | some x =>
      obtain ⟨ended, mode'⟩ := x
      cases ha : mode'.run a with
      | none => simp [ha]
      | some y =>
        obtain ⟨more, mode''⟩ := y
        cases hb : mode''.run b with
        | none => simp [ha, hb]
        | some z => simp [ha, hb]

/-- A blank or a punctuation mark ends whatever token may end. -/
theorem Mode.step_of_isBreak {mode : Mode} {c : Char} {ended : List Token}
    (hc : isBreak c = true) (hm : mode.finish = some ended) :
    mode.step c = (start c).map fun x => (ended ++ x.1, x.2) := by
  have hothers :
      isWordChar c = false ∧ isOperatorChar c = false ∧ c ≠ '"' := by
    simp only [isBreak, isPunctuation, Bool.or_eq_true, beq_iff_eq,
      decide_eq_true_eq, List.mem_cons, List.not_mem_nil, or_false] at hc
    rcases hc with rfl | rfl | rfl | rfl | rfl <;> decide
  obtain ⟨hword, hoperator, hquote⟩ := hothers
  have hrestart :
      mode.restart c = (start c).map fun x => (ended ++ x.1, x.2) := by
    unfold restart
    rw [hm]
    cases start c <;> rfl
  cases mode with
  | gap =>
    cases hm
    simp [step]
  | word read =>
    simp only [step, hword, Bool.false_eq_true, if_false, hrestart]
  | operator read =>
    simp only [step, hoperator, Bool.false_eq_true, if_false, hrestart]
  | quoted read => cases hm
  | closing read => simp only [step, hquote, if_false, hrestart]

/-- Behind a token that the next character ends, a text reads as it does
alone. -/
theorem tokensFrom_of_step {mode : Mode} {ended : List Token} {c : Char}
    {rest : List Char}
    (h : mode.step c = (Mode.start c).map fun x => (ended ++ x.1, x.2)) :
    tokensFrom mode (c :: rest)
      = (tokensFrom .gap (c :: rest)).map (ended ++ ·) := by
  have hgap : Mode.gap.step c = Mode.start c := rfl
  unfold tokensFrom
  simp only [Mode.run, h, hgap]
  cases Mode.start c with
  | none => rfl
  | some x =>
    obtain ⟨begun, mode'⟩ := x
    cases hr : mode'.run rest with
    | none => simp [hr]
    | some y =>
      obtain ⟨more, mode''⟩ := y
      cases hf : mode''.finish <;> simp [hr, hf]

/-- Behind a token that may end, a text whose start ends it reads as it
does alone. -/
theorem tokensFrom_of_parts {mode : Mode} {ended : List Token} {s : String}
    (hs : Parts s) (hm : mode.finish = some ended) :
    tokensFrom mode s.toList = (tokens? s).map (ended ++ ·) := by
  obtain ⟨c, rest, hcs, hc⟩ := hs.exists_cons
  unfold tokens?
  rw [hcs]
  exact tokensFrom_of_step (Mode.step_of_isBreak hc hm)

-- ====================================================== joined texts

theorem tokens?_append (a b : String) :
    tokens? (a ++ b)
      = (Mode.gap.run a.toList).bind fun x =>
        (tokensFrom x.2 b.toList).map (x.1 ++ ·) := by
  unfold tokens? tokensFrom
  rw [String.toList_append, Mode.run_append]
  cases Mode.gap.run a.toList with
  | none => rfl
  | some x =>
    obtain ⟨ended, mode⟩ := x
    cases hb : mode.run b.toList with
    | none => simp [hb]
    | some y =>
      obtain ⟨more, mode'⟩ := y
      cases hf : mode'.finish <;> simp [hb, hf]

/-- A text goes on behind one that leaves no token open. -/
theorem Closes.append {a b : String} {s t : List Token} (ha : Closes a s)
    (hb : Spells b t) : Spells (a ++ b) (s ++ t) := by
  unfold Spells at *
  rw [tokens?_append, ha]
  have h : tokensFrom .gap b.toList = some t := hb
  simp [h]

/-- A text goes on with one whose start ends the open token. -/
theorem Spells.append {a b : String} {s t : List Token} (ha : Spells a s)
    (hp : Parts b) (hb : Spells b t) : Spells (a ++ b) (s ++ t) := by
  unfold Spells at *
  rw [tokens?_append]
  cases hr : Mode.gap.run a.toList with
  | none => simp [tokens?, tokensFrom, hr] at ha
  | some x =>
    obtain ⟨ended, mode⟩ := x
    cases hf : mode.finish with
    | none => simp [tokens?, tokensFrom, hr, hf] at ha
    | some last =>
      have hs : ended ++ last = s := by
        simpa [tokens?, tokensFrom, hr, hf] using ha
      rw [Option.bind_some, tokensFrom_of_parts hp hf, hb, ← hs]
      simp

/-- Two texts with a separator between them. -/
theorem Spells.between {a separator b : String} {s u t : List Token}
    (ha : Spells a s) (hu : Separates separator u) (hb : Spells b t) :
    Spells (a ++ separator ++ b) (s ++ u ++ t) := by
  rw [String.append_assoc, List.append_assoc]
  exact ha.append (hu.1.append b) (hu.2.append hb)

/-- A text between two brackets or other marks. -/
theorem Spells.enclosed {opening a closing : String} {s u v : List Token}
    (ho : Closes opening u)
    (ha : Spells a s) (hp : Parts closing) (hc : Spells closing v) :
    Spells (opening ++ a ++ closing) (u ++ s ++ v) := by
  rw [String.append_assoc, List.append_assoc]
  exact ho.append (ha.append hp hc)

-- ====================================================== single tokens

/-- The end of a quoted name: its doubled quotes are read as single ones. -/
theorem Mode.run_doubleQuotes (read cs : List Char) :
    (Mode.quoted read).run (Identifier.doubleQuotes cs ++ ['"'])
      = some ([], .closing (cs.reverse ++ read)) := by
  induction cs generalizing read with
  | nil => simp [Identifier.doubleQuotes, run, step]
  | cons c cs ih =>
    by_cases hc : c = '"'
    · subst hc
      simp [Identifier.doubleQuotes, run, step, ih]
    · simp [Identifier.doubleQuotes, run, step, hc, ih]

theorem Mode.run_quote (name : String) :
    Mode.gap.run (Identifier.quote name).toList
      = some ([], .closing name.toList.reverse) := by
  have hstart : Mode.gap.step '"' = some ([], .quoted []) := by decide
  simp [Identifier.quote, Identifier.enclose, Mode.run, hstart,
    Mode.run_doubleQuotes]

/-- Any name, once quoted, is read as that name. -/
theorem spells_quote (name : String) :
    Spells (Identifier.quote name) [.quoted name] := by
  unfold Spells tokens? tokensFrom
  simp [Mode.run_quote, Mode.finish]

/-- A valid name is read as itself also where it is only enclosed. -/
theorem spells_enclose {name : String} (h : Identifier.isValid name = true) :
    Spells (Identifier.enclose name) [.quoted name] := by
  rw [← Identifier.quote_eq_enclose h]
  exact spells_quote name

theorem Mode.run_word {read cs : List Char}
    (h : ∀ c ∈ cs, isWordChar c = true) :
    (Mode.word read).run cs = some ([], .word (cs.reverse ++ read)) := by
  induction cs generalizing read with
  | nil => rfl
  | cons c cs ih =>
    have hc : isWordChar c = true := h c (by simp)
    have hcs : ∀ d ∈ cs, isWordChar d = true := fun d hd => h d (by simp [hd])
    simp [run, step, hc, ih hcs]

/-- The digits of a number are word characters. -/
theorem isWordChar_of_mem_toDigits {n : Nat} {c : Char}
    (hc : c ∈ Nat.toDigits 10 n) : c.isDigit = true ∧ isWordChar c = true := by
  have hdigit : c.isDigit = true :=
    Nat.isDigit_of_mem_toDigits (by decide) (by decide) hc
  exact ⟨hdigit, by simp [isWordChar, Char.isAlphanum, hdigit]⟩

/-- A digit begins a word, and ends an operator in doing so. -/
theorem Mode.start_of_isDigit {c : Char} (hc : c.isDigit = true) :
    start c = some ([], .word [c]) ∧ isOperatorChar c = false := by
  have hne : ∀ d : Char, d.isDigit = false → c ≠ d := by
    rintro d hd rfl
    rw [hc] at hd
    cases hd
  have hpunctuation : isPunctuation c = false := by
    simp [isPunctuation, hne '(' rfl, hne ')' rfl, hne ',' rfl, hne '.' rfl]
  have hword : isWordChar c = true := by simp [isWordChar, Char.isAlphanum, hc]
  constructor
  · unfold start
    rw [if_neg (hne ' ' rfl), if_neg (by simp [hpunctuation]),
      if_neg (hne '"' rfl), if_pos hword]
  · simp [isOperatorChar, hne '=' rfl, hne '<' rfl, hne '>' rfl, hne ':' rfl,
      hne '*' rfl, hne '-' rfl]

/-- The digits of a number, read behind an open operator or behind none. -/
theorem tokensFrom_digits {mode : Mode} {ended : List Token} (n : Nat)
    (hm : mode = .gap ∧ ended = [] ∨ ∃ read,
      mode = .operator read ∧ mode.finish = some ended) :
    tokensFrom mode (toString n).toList = some (ended ++ [.number n]) := by
  have hdigits : ∀ c ∈ Nat.toDigits 10 n, c.isDigit = true := fun c hc =>
    (isWordChar_of_mem_toDigits hc).1
  have htext : (toString n).toList = Nat.toDigits 10 n := by
    simp
  obtain ⟨c, cs, hcs⟩ :=
    List.exists_cons_of_ne_nil (Nat.toDigits_ne_nil (n := n) (b := 10))
  have hc : c.isDigit = true := hdigits c (by simp [hcs])
  obtain ⟨hstart, hoperator⟩ := Mode.start_of_isDigit hc
  have hstep : mode.step c = some (ended, .word [c]) := by
    rcases hm with ⟨rfl, rfl⟩ | ⟨read, rfl, hfinish⟩
    · exact hstart
    · simp [Mode.step, hoperator, Mode.restart, hfinish, hstart]
  have hrest : ∀ d ∈ cs, isWordChar d = true := fun d hd =>
    (isWordChar_of_mem_toDigits (n := n) (by simp [hcs, hd])).2
  have hfinish :
      (Mode.word (cs.reverse ++ [c])).finish = some [.number n] := by
    have hdollar : c ≠ '$' := by
      rintro rfl
      cases hc
    have hall : (c :: cs).all Char.isDigit = true := by
      rw [← hcs]
      exact List.all_eq_true.2 hdigits
    have hword : Token.ofWord (c :: cs) = some (.number n) := by
      unfold Token.ofWord
      split
      · rename_i heq
        cases heq
        exact absurd rfl hdollar
      · rw [if_pos hall, ← hcs, Nat.ofDigitChars_ten_toDigits]
    simp [Mode.finish, hword]
  unfold tokensFrom
  rw [htext, hcs, Mode.run, hstep]
  simp [Mode.run_word hrest, hfinish]

theorem spells_number (n : Nat) : Spells (toString n) [.number n] :=
  tokensFrom_digits n (.inl ⟨rfl, rfl⟩)

/-- A whole number, as tokens. -/
def intTokens : Int → List Token
  | .ofNat n => [.number n]
  | .negSucc n => [.symbol "-", .number (n + 1)]

theorem spells_int (z : Int) : Spells (toString z) (intTokens z) := by
  cases z with
  | ofNat n => exact spells_number n
  | negSucc n =>
    have hminus : Mode.gap.run "-".toList = some ([], .operator ['-']) := by
      decide
    have hfinish : (Mode.operator ['-']).finish = some [.symbol "-"] := by
      decide
    have hdigits := tokensFrom_digits (n + 1) (.inr ⟨['-'], rfl, hfinish⟩)
    show tokens? ("-" ++ toString (n + 1)) = _
    rw [tokens?_append, hminus, Option.bind_some, hdigits]
    rfl

/-- A placeholder leaves a word open, which is that placeholder. -/
theorem run_placeholderText (n : Nat) :
    ∃ read, Mode.gap.run (placeholderText n).toList = some ([], .word read)
      ∧ (Mode.word read).finish = some [.placeholder n] := by
  have hdigit : ∀ c ∈ Nat.toDigits 10 n, c.isDigit = true := fun c hc =>
    (isWordChar_of_mem_toDigits hc).1
  have hword : ∀ c ∈ Nat.toDigits 10 n, isWordChar c = true := fun c hc =>
    (isWordChar_of_mem_toDigits hc).2
  have hall : (Nat.toDigits 10 n).all Char.isDigit = true :=
    List.all_eq_true.2 hdigit
  have hstart : Mode.gap.step '$' = some ([], .word ['$']) := by decide
  refine ⟨('$' :: Nat.toDigits 10 n).reverse, ?_, ?_⟩
  · simp [placeholderText, Mode.run, hstart, Mode.run_word hword]
  · simp only [Mode.finish, List.reverse_reverse, Token.ofWord, ne_eq,
      Nat.toDigits_ne_nil, not_false_eq_true, hall, and_self, if_true,
      Nat.ofDigitChars_ten_toDigits, Option.map_some]

theorem spells_placeholderText (n : Nat) :
    Spells (placeholderText n) [.placeholder n] := by
  obtain ⟨read, hrun, hfinish⟩ := run_placeholderText n
  unfold Spells tokens? tokensFrom
  simp [hrun, hfinish]

/-- The cast of a placeholder: its colons end the placeholder's digits. -/
theorem spells_uuidText (n : Nat) :
    Spells (uuidText n) [.placeholder n, .symbol "::", .word "uuid"] := by
  obtain ⟨read, hrun, hfinish⟩ := run_placeholderText n
  have hcolon : (Mode.word read).step ':'
      = some ([.placeholder n], .operator [':']) := by
    have hword : isWordChar ':' = false := by decide
    have hstart : Mode.start ':' = some ([], .operator [':']) := by decide
    simp [Mode.step, hword, Mode.restart, hfinish, hstart]
  have hrest : (Mode.operator [':']).run [':', 'u', 'u', 'i', 'd']
      = some ([.symbol "::"], .word ['d', 'i', 'u', 'u']) := by decide
  have huuid :
      (Mode.word ['d', 'i', 'u', 'u']).finish = some [.word "uuid"] := by
    decide
  have hcast : tokensFrom (.word read) "::uuid".toList
      = some [.placeholder n, .symbol "::", .word "uuid"] := by
    have hlist : "::uuid".toList = [':', ':', 'u', 'u', 'i', 'd'] := by decide
    unfold tokensFrom
    rw [hlist, Mode.run, hcolon]
    simp [hrest, huuid]
  unfold Spells uuidText
  rw [tokens?_append, hrun, Option.bind_some, hcast]
  rfl

end Tenancy.Sql
