/-
Conditions read back. A condition of the library is written by its own
recursion, with brackets only where the tree says so; it is read by SQL's
precedence. This file shows that the two agree: the text of a legible
condition, whatever stands behind it, is read as the tree that the
condition means (`disjunction?_tokens`), and alone it is read as exactly
that (`searchCondition?_text`).

A condition is legible if its column names are valid, no list of
placeholders is empty, and the parts of a conjunction or disjunction are
none themselves (`Condition.isFactor`) — a group, a negation or a test
may stand on either side of AND and OR, but a bare OR beside an AND would
be read as something else.

The descent of the reader is bounded by its depth, so each level of the
grammar has its own bound in the number of tokens: four for a factor's
token, and one more for each of NOT, AND and OR.
-/
import Mathlib.Data.List.Forall2
import Tenancy.Proofs.Sql.Parsing

namespace Tenancy.Sql

-- =========================================================== legible

/-- May the condition stand beside AND and OR as it is? -/
def Condition.isFactor : Condition → Bool
  | .all _ | .any _ => false
  | _ => true

mutual

/-- The text of the condition can be read back. -/
def Condition.Legible : Condition → Prop
  | .truth _ | .identified _ _ | .granted _ _ _ _ => True
  | .compare column _ _ | .nullness column _ | .between column _ _ =>
    Identifier.isValid column = true
  | .membership column _ ns => Identifier.isValid column = true ∧ ns ≠ []
  | .not c | .group c => c.Legible
  | .all cs | .any cs => Condition.LegibleParts cs

/-- The parts of a conjunction or disjunction are legible factors. -/
def Condition.LegibleParts : List Condition → Prop
  | [] => True
  | c :: cs => c.isFactor = true ∧ c.Legible ∧ Condition.LegibleParts cs

end

/-- The parts of a list are legible factors, every one of them. -/
theorem Condition.legibleParts_iff {cs : List Condition} :
    Condition.LegibleParts cs ↔ ∀ c ∈ cs, c.isFactor = true ∧ c.Legible := by
  induction cs with
  | nil => simp [LegibleParts]
  | cons c cs ih => simp [LegibleParts, ih, and_assoc]

-- ============================================================ tokens

/-- A column as it is lexed. -/
def Column.tokens (c : Column) : List Token :=
  [.quoted c.table, .symbol ".", .quoted c.name]

/-- A cast placeholder, as tokens. -/
def uuidTokens (n : Nat) : List Token :=
  [.placeholder n, .symbol "::", .word "uuid"]

/-- A column of the alias peer that equals something, behind what leads to
it. -/
def peerTokens (before : List Token) (name : String) (value : List Token) :
    List Token :=
  before ++ [.quoted name] ++ [.symbol "="] ++ value

/-- The start of the lookup of a grant, as tokens. -/
def grantedStart (table : String) : List Token :=
  [.word "exists", .symbol "(", .word "select", .number 1, .word "from"]
    ++ [.quoted table]
    ++ [.word "peer", .word "where", .word "peer", .symbol "."]

/-- AND and the alias peer, as tokens. -/
def andPeer : List Token := [.word "and", .word "peer", .symbol "."]

/-- The lookup of a grant, as tokens. -/
def grantedTokens (grants : GrantTable) (row : Column)
    (user organization : Nat) : List Token :=
  let entity :=
    peerTokens (grantedStart grants.table) grants.entityColumn row.tokens
  let user :=
    peerTokens (entity ++ andPeer) grants.userColumn (uuidTokens user)
  peerTokens (user ++ andPeer) grants.organizationColumn
    (uuidTokens organization) ++ [.symbol ")"]

/-- A truth value as it is lexed. -/
def truthTokens (value : Bool) : List Token :=
  [.word (if value then "true" else "false")]

mutual

/-- A condition as it is lexed. -/
def Condition.tokens : Condition → List Token
  | .truth value => truthTokens value
  | .compare column op n => [.quoted column, op.token, .placeholder n]
  | .nullness column true => [.quoted column, .word "is", .word "null"]
  | .nullness column false =>
    [.quoted column, .word "is", .word "not", .word "null"]
  | .membership column isIn ns =>
    [.quoted column]
      ++ (if isIn then [.word "in"] else [.word "not", .word "in"])
      ++ [.symbol "("]
      ++ [.symbol ","].intercalate (ns.map fun n => [.placeholder n])
      ++ [.symbol ")"]
  | .between column low high =>
    [.quoted column, .word "between", .placeholder low, .word "and",
      .placeholder high]
  | .identified column n => column.tokens ++ [.symbol "="] ++ uuidTokens n
  | .granted grants row user organization =>
    grantedTokens grants row user organization
  | .not c => [.word "not", .symbol "("] ++ c.tokens ++ [.symbol ")"]
  | .group c => [.symbol "("] ++ c.tokens ++ [.symbol ")"]
  | .all [] => truthTokens true
  | .all (c :: cs) =>
    [.word "and"].intercalate (c.tokens :: Condition.tokensOf cs)
  | .any [] => truthTokens false
  | .any (c :: cs) =>
    [.word "or"].intercalate (c.tokens :: Condition.tokensOf cs)

/-- The parts of a condition, each as it is lexed. -/
def Condition.tokensOf : List Condition → List (List Token)
  | [] => []
  | c :: cs => c.tokens :: Condition.tokensOf cs

end

-- =========================================================== meaning

/-- A column as an operand. -/
def Column.operand (c : Column) : Operand := .column (some c.table) c.name

/-- A column of the alias peer, as an operand. -/
def peerOperand (name : String) : Operand := .column (some "peer") name

/-- What the lookup of a grant means. -/
def grantedMeaning (grants : GrantTable) (row : Column)
    (user organization : Nat) : SearchCondition :=
  .someRow grants.table "peer" (.conjoin [
    .compare (peerOperand grants.entityColumn) .eq row.operand,
    .compare (peerOperand grants.userColumn) .eq (.uuid user),
    .compare (peerOperand grants.organizationColumn) .eq (.uuid organization)])

mutual

/-- The tree that a condition means. -/
def Condition.meaning : Condition → SearchCondition
  | .truth value => .truth value
  | .compare column op n => .compare (.column none column) op (.placeholder n)
  | .nullness column true => .isNull (.column none column)
  | .nullness column false => .not (.isNull (.column none column))
  | .membership column true ns => .isIn (.column none column) ns
  | .membership column false ns => .not (.isIn (.column none column) ns)
  | .between column low high =>
    .between (.column none column) (.placeholder low) (.placeholder high)
  | .identified column n => .compare column.operand .eq (.uuid n)
  | .granted grants row user organization =>
    grantedMeaning grants row user organization
  | .not c => .not c.meaning
  | .group c => c.meaning
  | .all cs => .conjoin (Condition.meanings cs)
  | .any cs => .disjoin (Condition.meanings cs)

/-- What the parts of a condition mean. -/
def Condition.meanings : List Condition → List SearchCondition
  | [] => []
  | c :: cs => c.meaning :: Condition.meanings cs

end

-- ========================================================== spelling

/-- Texts with a separator between them are their tokens with its tokens
between. -/
theorem spells_intercalate {separator : String} {u : List Token}
    (hu : Separates separator u)
    {texts : List String} {tss : List (List Token)}
    (h : List.Forall₂ Spells texts tss)
    (hne : texts ≠ []) :
    Spells (separator.intercalate texts) (u.intercalate tss) := by
  induction h with
  | nil => exact absurd rfl hne
  | @cons text ts texts tss htext hrest ih =>
    cases hrest with
    | nil => simpa using htext
    | cons hnext hmore =>
      rw [String.intercalate_cons_cons, List.intercalate_cons_cons]
      exact htext.between hu (ih (by simp))

/-- A column's text is two quoted names and a point. -/
theorem spells_columnText (c : Column) : Spells c.text c.tokens := by
  have hpoint : Separates "." [.symbol "."] := by decide
  exact (spells_quote c.table).between hpoint (spells_quote c.name)

/-- A truth value is spelled by its keyword. -/
theorem spells_truthText (value : Bool) :
    Spells (truthText value) (truthTokens value) := by
  cases value <;> decide

/-- Every comparison is a symbol or a keyword of its own. -/
theorem spells_comparison (op : Comparison) : Spells op.text [op.token] := by
  cases op <;> decide

/-- The placeholders of a list, in their texts. -/
theorem spells_placeholderTexts (ns : List Nat) :
    List.Forall₂ Spells (ns.map placeholderText)
      (ns.map fun n => [Token.placeholder n]) := by
  induction ns with
  | nil => exact .nil
  | cons n ns ih => exact .cons (spells_placeholderText n) ih

theorem separates_equals : Separates " = " [.symbol "="] := by decide

theorem spells_closing : Parts ")" ∧ Spells ")" [.symbol ")"] := by decide

/-- The text of a grant is a subquery, parentheses included. -/
theorem spells_grantedText (grants : GrantTable) (row : Column)
    (user organization : Nat) :
    Spells (grantedText grants row user organization)
      (grantedTokens grants row user organization) := by
  have hopen : Closes "EXISTS (SELECT 1 FROM "
      [.word "exists", .symbol "(", .word "select", .number 1,
        .word "from"] := by decide +kernel
  have hwhere : Separates " peer WHERE peer."
      [.word "peer", .word "where", .word "peer", .symbol "."] := by
        decide +kernel
  have hand : Separates " AND peer." andPeer := by decide +kernel
  have hentity := (hopen.append (spells_quote grants.table)).between hwhere
    (spells_quote grants.entityColumn)
  have hrow := hentity.between separates_equals (spells_columnText row)
  have huser :=
    (hrow.between hand (spells_quote grants.userColumn)).between
      separates_equals
      (spells_uuidText user)
  have horganization :=
    (huser.between hand (spells_quote grants.organizationColumn)).between
      separates_equals (spells_uuidText organization)
  exact horganization.append spells_closing.1 spells_closing.2

/-- A test of a column: its name, then the rest. -/
theorem spells_columnTest {column rest : String} {ts : List Token}
    (hcolumn : Identifier.isValid column = true) (hp : Parts rest)
    (hrest : Spells rest ts) :
    Spells (Identifier.enclose column ++ rest) (.quoted column :: ts) :=
  (spells_enclose hcolumn).append hp hrest

/-- A column's membership in a list that is not empty. -/
theorem spells_membership {column opening : String} {u : List Token}
    {ns : List Nat}
    (hcolumn : Identifier.isValid column = true) (hu : Separates opening u)
    (hns : ns ≠ []) : Spells
        (Identifier.enclose column ++ opening
          ++ ", ".intercalate (ns.map placeholderText) ++ ")")
      ([.quoted column] ++ u
        ++ [.symbol ","].intercalate (ns.map fun n => [.placeholder n])
        ++ [.symbol ")"]) := by
  have hcomma : Separates ", " [.symbol ","] := by decide
  have hlist :=
    spells_intercalate hcomma (spells_placeholderTexts ns) (by simpa using hns)
  exact ((spells_enclose hcolumn).between hu hlist).append spells_closing.1
    spells_closing.2

mutual

/-- The text of a legible condition is its tokens. -/
theorem spells_text : (c : Condition) → c.Legible → Spells c.text c.tokens
  | .truth value, _ => spells_truthText value
  | .compare column op n, h => by
    have hgap : Separates " " [] := by decide
    exact ((spells_enclose h).between hgap (spells_comparison op)).between hgap
      (spells_placeholderText n)
  | .nullness column true, h => spells_columnTest h (by decide) (by decide)
  | .nullness column false, h => spells_columnTest h (by decide) (by decide)
  | .membership column true ns, h => by
    have hin : Separates " IN (" [.word "in", .symbol "("] := by decide
    simpa [Condition.text, Condition.tokens] using spells_membership h.1
      hin h.2
  | .membership column false ns, h => by
    have hnotIn :
        Separates " NOT IN (" [.word "not", .word "in", .symbol "("] := by
      decide +kernel
    simpa [Condition.text, Condition.tokens] using spells_membership h.1
      hnotIn h.2
  | .between column low high, h => by
    have hfrom : Separates " BETWEEN " [.word "between"] := by decide
    have hto : Separates " AND " [.word "and"] := by decide
    exact ((spells_enclose h).between hfrom
      (spells_placeholderText low)).between hto
      (spells_placeholderText high)
  | .identified column n, _ =>
    (spells_columnText column).between separates_equals (spells_uuidText n)
  | .granted grants row user organization, _ =>
    spells_grantedText grants row user organization
  | .not c, h => by
    have hopen : Closes "NOT (" [.word "not", .symbol "("] := by decide
    exact (spells_text c h).enclosed hopen spells_closing.1 spells_closing.2
  | .group c, h => by
    have hopen : Closes "(" [.symbol "("] := by decide
    exact (spells_text c h).enclosed hopen spells_closing.1 spells_closing.2
  | .all [], _ => spells_truthText true
  | .all (c :: cs), h => by
    have hand : Separates " AND " [.word "and"] := by decide
    exact spells_intercalate hand
      (.cons (spells_text c h.2.1) (spells_texts cs h.2.2)) (by simp)
  | .any [], _ => spells_truthText false
  | .any (c :: cs), h => by
    have hor : Separates " OR " [.word "or"] := by decide
    exact spells_intercalate hor
      (.cons (spells_text c h.2.1) (spells_texts cs h.2.2)) (by simp)

/-- Legible parts are lexed one by one. -/
theorem spells_texts : (cs : List Condition) → Condition.LegibleParts cs →
    List.Forall₂ Spells (Condition.texts cs) (Condition.tokensOf cs)
  | [], _ => .nil
  | c :: cs, h => .cons (spells_text c h.2.1) (spells_texts cs h.2.2)

end

-- =========================================================== reading

/-- What may stand behind a condition without going on with its last
operand. -/
def Ends (rest : List Token) : Prop := rest.head? ≠ some (.symbol "::")

/-- The tokens of a test, a bracket, a constant or a subquery, whatever
follows. -/
def ReadsPrimary (ts : List Token) (a : SearchCondition) : Prop :=
  ∀ depth rest, 4 * ts.length ≤ depth → Ends rest →
    primary? depth (ts ++ rest) = some (a, rest)

/-- The tokens of a factor, whatever follows. -/
def ReadsFactor (ts : List Token) (a : SearchCondition) : Prop :=
  ∀ depth rest, 4 * ts.length + 1 ≤ depth → Ends rest →
    negation? depth (ts ++ rest) = some (a, rest)

/-- The tokens of a conjunction, where no AND follows. -/
def ReadsConjunction (ts : List Token) (a : SearchCondition) : Prop :=
  ∀ depth rest, 4 * ts.length + 2 ≤ depth → Ends rest →
    rest.head? ≠ some (.word "and") →
    conjunction? depth (ts ++ rest) = some (a, rest)

/-- The tokens of a disjunction, where neither AND nor OR follows. -/
def ReadsDisjunction (ts : List Token) (a : SearchCondition) : Prop :=
  ∀ depth rest, 4 * ts.length + 3 ≤ depth → Ends rest →
    rest.head? ≠ some (.word "and") →
    rest.head? ≠ some (.word "or") →
      disjunction? depth (ts ++ rest) = some (a, rest)

/-- A name alone is a column without a table. -/
theorem operand?_name {name : String} {t : Token} {rest : List Token}
    (ht : t ≠ .symbol ".") :
    operand? (.quoted name :: t :: rest)
      = some (.column none name, t :: rest) := by
  unfold operand?
  split <;> simp_all

/-- A placeholder is an operand by itself. -/
theorem operand?_placeholder (n : Nat) {rest : List Token} (h : Ends rest) :
    operand? (.placeholder n :: rest) = some (.placeholder n, rest) := by
  unfold Ends at h
  unfold operand?
  split <;> simp_all

/-- A test starts with a quoted name. -/
theorem primary?_quoted (depth : Nat) (name : String) (ts : List Token) :
    primary? (depth + 1) (.quoted name :: ts)
      = (operand? (.quoted name :: ts)).bind fun x => test? x.1 x.2 := by
  simp only [primary?]
  cases operand? (.quoted name :: ts) <;> rfl

/-- A test of a column without its table. -/
theorem readsPrimary_test {column : String} {t : Token} {ts : List Token}
    {a : SearchCondition} (ht : t ≠ .symbol ".")
    (h : ∀ rest, Ends rest →
      test? (.column none column) (t :: ts ++ rest) = some (a, rest)) :
    ReadsPrimary (.quoted column :: t :: ts) a := by
  intro depth rest hdepth hrest
  cases depth with
  | zero => simp at hdepth
  | succ depth =>
    rw [List.cons_append, primary?_quoted, List.cons_append, operand?_name ht,
      Option.bind_some]
    exact h rest hrest

/-- Every comparison is read back from its token. -/
theorem comparison?_token (op : Comparison) :
    comparison? op.token = some op := by
  cases op <;> decide

/-- A comparison and its second operand make a test. -/
theorem test?_comparison (x : Operand) (op : Comparison) {y : Operand}
    {ts rest : List Token} (hy : operand? ts = some (y, rest)) :
    test? x (op.token :: ts) = some (.compare x op y, rest) := by
  have hop := comparison?_token op
  cases op <;> simp_all [test?, Comparison.token]

/-- Placeholders between commas are read back to the parenthesis. -/
theorem placeholders?_list {ns : List Nat} (hns : ns ≠ [])
    (rest : List Token) :
    placeholders?
      ([Token.symbol ","].intercalate (ns.map fun n => [.placeholder n])
      ++ .symbol ")" :: rest) = some (ns, rest) := by
  induction ns with
  | nil => exact absurd rfl hns
  | cons n ns ih =>
    cases ns with
    | nil => simp [placeholders?]
    | cons m ms =>
      have htail := ih (by simp)
      rw [List.map_cons] at htail
      rw [List.map_cons, List.map_cons, List.intercalate_cons_cons]
      simp only [List.cons_append, List.nil_append, placeholders?]
      rw [htail]
      rfl

/-- A comparison with a placeholder is read back. -/
theorem readsPrimary_compare (column : String) (op : Comparison) (n : Nat) :
    ReadsPrimary [.quoted column, op.token, .placeholder n]
      (.compare (.column none column) op (.placeholder n)) := by
  have hop : op.token ≠ .symbol "." := by cases op <;> decide
  refine readsPrimary_test hop fun rest hrest => ?_
  exact test?_comparison (.column none column) op
    (operand?_placeholder n hrest)

/-- Both tests for null are read back. -/
theorem readsPrimary_nullness (column : String) (isNull : Bool) :
    ReadsPrimary (Condition.nullness column isNull).tokens
      (Condition.nullness column isNull).meaning := by
  cases isNull with
  | true =>
    rw [Condition.tokens, Condition.meaning]
    refine readsPrimary_test (by decide) fun rest _ => ?_
    simp [test?]
  | false =>
    rw [Condition.tokens, Condition.meaning]
    refine readsPrimary_test (by decide) fun rest _ => ?_
    simp [test?]

/-- Both tests for membership are read back, if there is a list. -/
theorem readsPrimary_membership (column : String) (isIn : Bool) {ns : List Nat}
    (hns : ns ≠ []) : ReadsPrimary (Condition.membership column isIn ns).tokens
      (Condition.membership column isIn ns).meaning := by
  cases isIn with
  | true =>
    have htokens : (Condition.membership column true ns).tokens
        = .quoted column :: .word "in"
        :: .symbol "("
        :: ([Token.symbol ","].intercalate (ns.map fun n => [.placeholder n])
          ++ [.symbol ")"]) := by simp [Condition.tokens]
    rw [htokens]
    refine readsPrimary_test (by decide) fun rest _ => ?_
    have hlist := placeholders?_list hns rest
    simp [test?, Condition.meaning, hlist]
  | false =>
    have htokens : (Condition.membership column false ns).tokens
        = .quoted column :: .word "not"
        :: .word "in" :: .symbol "(" :: ([Token.symbol ","].intercalate
          (ns.map fun n => [.placeholder n]) ++ [.symbol ")"]) := by
            simp [Condition.tokens]
    rw [htokens]
    refine readsPrimary_test (by decide) fun rest _ => ?_
    have hlist := placeholders?_list hns rest
    simp [test?, Condition.meaning, hlist]

/-- The bounds of a range are not taken for a conjunction. -/
theorem readsPrimary_between (column : String) (low high : Nat) :
    ReadsPrimary (Condition.between column low high).tokens
      (Condition.between column low high).meaning := by
  rw [Condition.tokens, Condition.meaning]
  refine readsPrimary_test (by decide) fun rest hrest => ?_
  have hand : Ends (.word "and" :: .placeholder high :: rest) := by simp [Ends]
  have hlow := operand?_placeholder low hand
  have hhigh := operand?_placeholder high hrest
  simp [test?, hlow, hhigh]

theorem operand?_column (c : Column) (rest : List Token) :
    operand? (c.tokens ++ rest) = some (c.operand, rest) := rfl

theorem operand?_uuid (n : Nat) (rest : List Token) :
    operand? (uuidTokens n ++ rest) = some (.uuid n, rest) := rfl

/-- A comparison with an identifier is read back with its cast. -/
theorem readsPrimary_identified (c : Column) (n : Nat) :
    ReadsPrimary (Condition.identified c n).tokens
      (Condition.identified c n).meaning := by
  intro depth rest hdepth _
  cases depth with
  | zero => simp [Condition.tokens, Column.tokens] at hdepth
  | succ depth =>
    have hvalue := test?_comparison c.operand .eq (operand?_uuid n rest)
    simp only [Condition.tokens, List.append_assoc]
    rw [show c.tokens ++ ([Token.symbol "="] ++ (uuidTokens n ++ rest))
        = .quoted c.table
          :: (.symbol "." :: .quoted c.name :: .symbol "="
            :: (uuidTokens n ++ rest))
      from rfl, primary?_quoted]
    exact hvalue

-- ======================================================== precedence

/-- A factor is what is read as one and does not start with NOT. -/
theorem ReadsPrimary.factor {ts : List Token} {a : SearchCondition}
    (h : ReadsPrimary ts a)
    (hne : ts ≠ []) (hnot : ts.head? ≠ some (.word "not")) :
    ReadsFactor ts a := by
  intro depth rest hdepth hrest
  obtain ⟨t, ts, rfl⟩ := List.exists_cons_of_ne_nil hne
  cases depth with
  | zero => simp at hdepth
  | succ depth =>
    have hread := h depth rest (by omega) hrest
    have hskip : negation? (depth + 1) (t :: ts ++ rest)
        = primary? depth (t :: ts ++ rest) := by
      rw [List.cons_append, negation?]
      intro rest' heq
      simp_all
    rw [hskip, hread]

/-- A factor where no AND follows. -/
theorem ReadsFactor.conjunction {ts : List Token} {a : SearchCondition}
    (h : ReadsFactor ts a) : ReadsConjunction ts a := by
  intro depth rest hdepth hrest hand
  cases depth with
  | zero => simp at hdepth
  | succ depth =>
    have hread := h depth rest (by omega) hrest
    unfold conjunction?
    rw [hread]
    split <;> simp_all

/-- A conjunction where neither AND nor OR follows. -/
theorem ReadsConjunction.disjunction {ts : List Token} {a : SearchCondition}
    (h : ReadsConjunction ts a) : ReadsDisjunction ts a := by
  intro depth rest hdepth hrest hand hor
  cases depth with
  | zero => simp at hdepth
  | succ depth =>
    have hread := h depth rest (by omega) hrest hand
    unfold disjunction?
    rw [hread]
    split <;> simp_all

/-- A factor is a disjunction of one. -/
theorem ReadsFactor.disjunction {ts : List Token} {a : SearchCondition}
    (h : ReadsFactor ts a) : ReadsDisjunction ts a :=
  h.conjunction.disjunction

/-- What is read as a disjunction is, in brackets, read as one factor. -/
theorem ReadsDisjunction.bracketed {ts : List Token} {a : SearchCondition}
    (h : ReadsDisjunction ts a) :
    ReadsPrimary ([.symbol "("] ++ ts ++ [.symbol ")"]) a := by
  intro depth rest hdepth _
  cases depth with
  | zero => simp at hdepth
  | succ depth =>
    have hlength : 4 * ts.length + 3 ≤ depth := by
      simp only [List.length_append, List.length_cons, List.length_nil]
        at hdepth
      omega
    have hread :=
      h depth (.symbol ")" :: rest) hlength (by simp [Ends]) (by simp)
        (by simp)
    simp only [List.append_assoc, List.cons_append, List.nil_append, primary?]
    rw [hread]
    rfl

/-- NOT before a factor. -/
theorem ReadsFactor.not {ts : List Token} {a : SearchCondition}
    (h : ReadsFactor ts a) : ReadsFactor ([.word "not"] ++ ts) (.not a) := by
  intro depth rest hdepth hrest
  cases depth with
  | zero => simp at hdepth
  | succ depth =>
    have hlength : 4 * ts.length + 1 ≤ depth := by
      simp only [List.length_append, List.length_cons, List.length_nil]
        at hdepth
      omega
    have hread := h depth rest hlength hrest
    simp only [List.cons_append, List.nil_append, negation?]
    rw [hread]
    rfl

/-- Factors with AND between them. -/
theorem readsConjunction_chain {tss : List (List Token)}
    {as : List SearchCondition}
    (h : List.Forall₂ ReadsFactor tss as) (hne : tss ≠ []) :
    ReadsConjunction ([.word "and"].intercalate tss) (.conjoin as) := by
  induction h with
  | nil => exact absurd rfl hne
  | @cons ts a tss as hfirst hothers ih =>
    cases hothers with
    | nil => simpa [SearchCondition.conjoin] using hfirst.conjunction
    | @cons us b tss as hnext hmore =>
      intro depth rest hdepth hrest hand
      rw [List.intercalate_cons_cons] at hdepth ⊢
      simp only [List.length_append, List.length_cons, List.length_nil]
        at hdepth
      cases depth with
      | zero => omega
      | succ depth =>
        have htail := ih (by simp) depth rest (by omega) hrest hand
        have hread :=
          hfirst depth
            (.word "and" :: ([.word "and"].intercalate (us :: tss) ++ rest))
            (by omega) (by simp [Ends])
        simp only [List.append_assoc, List.cons_append, List.nil_append]
        rw [conjunction?, hread]
        simp only [htail]
        rfl

/-- Factors with OR between them. -/
theorem readsDisjunction_chain {tss : List (List Token)}
    {as : List SearchCondition}
    (h : List.Forall₂ ReadsFactor tss as) (hne : tss ≠ []) :
    ReadsDisjunction ([.word "or"].intercalate tss) (.disjoin as) := by
  induction h with
  | nil => exact absurd rfl hne
  | @cons ts a tss as hfirst hothers ih =>
    cases hothers with
    | nil => simpa [SearchCondition.disjoin] using hfirst.disjunction
    | @cons us b tss as hnext hmore =>
      intro depth rest hdepth hrest hand hor
      rw [List.intercalate_cons_cons] at hdepth ⊢
      simp only [List.length_append, List.length_cons, List.length_nil]
        at hdepth
      cases depth with
      | zero => omega
      | succ depth =>
        have htail := ih (by simp) depth rest (by omega) hrest hand hor
        have hread := hfirst.conjunction depth
          (.word "or" :: ([.word "or"].intercalate (us :: tss) ++ rest))
          (by omega) (by simp [Ends]) (by simp)
        simp only [List.append_assoc, List.cons_append, List.nil_append]
        rw [disjunction?, hread]
        simp only [htail]
        rfl

-- ======================================================= whole trees

/-- The tokens of one factor of the lookup of a grant. -/
def peerFactor (name : String) (value : List Token) : List Token :=
  .word "peer" :: .symbol "." :: .quoted name :: .symbol "=" :: value

/-- The lookup of a grant by its factors. -/
def grantedFactors (grants : GrantTable) (row : Column)
    (user organization : Nat) : List (List Token) :=
  [peerFactor grants.entityColumn row.tokens,
    peerFactor grants.userColumn (uuidTokens user),
    peerFactor grants.organizationColumn (uuidTokens organization)]

/-- A column of the alias peer compared with a value. -/
theorem readsFactor_peer (name : String) {value : List Token} {y : Operand}
    (hvalue : ∀ rest, operand? (value ++ rest) = some (y, rest)) :
    ReadsFactor (peerFactor name value)
      (.compare (peerOperand name) .eq y) := by
  refine ReadsPrimary.factor ?_ (by simp [peerFactor]) (by simp [peerFactor])
  intro depth rest hdepth _
  cases depth with
  | zero => simp [peerFactor] at hdepth
  | succ depth =>
    have hread := test?_comparison (peerOperand name) .eq (hvalue rest)
    have hpeer :
        operand? (.word "peer" :: .symbol "." :: .quoted name :: .symbol "=" ::
        (value ++ rest))
          = some (peerOperand name, .symbol "=" :: (value ++ rest)) := rfl
    simp only [peerFactor, List.cons_append]
    rw [primary?, hpeer]
    · exact hread
    all_goals simp

/-- The subquery starts with EXISTS, so its condition is read in brackets. -/
theorem readsPrimary_granted (grants : GrantTable) (row : Column)
    (user organization : Nat) :
    ReadsPrimary (grantedTokens grants row user organization)
      (grantedMeaning grants row user organization) := by
  have hfactors :
      List.Forall₂ ReadsFactor (grantedFactors grants row user organization)
      [.compare (peerOperand grants.entityColumn) .eq row.operand,
        .compare (peerOperand grants.userColumn) .eq (.uuid user),
        .compare (peerOperand grants.organizationColumn) .eq
          (.uuid organization)] :=
    .cons (readsFactor_peer _ (operand?_column row)) <|
      .cons (readsFactor_peer _ (operand?_uuid user)) <|
        .cons (readsFactor_peer _ (operand?_uuid organization)) .nil
  have hbody :=
    (readsConjunction_chain hfactors (by simp [grantedFactors])).disjunction
  intro depth rest hdepth _
  have hsplit : grantedTokens grants row user organization ++ rest
      = .word "exists" :: .symbol "(" :: .word "select" :: .number 1
        :: .word "from" ::
        .quoted grants.table :: .word "peer" :: .word "where" ::
        ([Token.word "and"].intercalate
          (grantedFactors grants row user organization)
          ++ .symbol ")" :: rest) := by
    simp [grantedTokens, peerTokens, grantedStart, andPeer, grantedFactors,
      peerFactor]
  have hlength : (grantedTokens grants row user organization).length
      = ([Token.word "and"].intercalate
        (grantedFactors grants row user organization)).length
        + 9 := by
    have h := congrArg List.length hsplit
    simp only [List.length_append, List.length_cons] at h
    omega
  cases depth with
  | zero => omega
  | succ depth =>
    have hread :=
      hbody depth (.symbol ")" :: rest) (by omega) (by simp [Ends]) (by simp)
        (by simp)
    rw [hsplit, primary?, hread]
    rfl

/-- What is a factor is a disjunction too. -/
theorem ReadsFactor.both {ts : List Token} {a : SearchCondition} {p : Prop}
    (h : ReadsFactor ts a) : (p → ReadsFactor ts a) ∧ ReadsDisjunction ts a :=
  ⟨fun _ => h, h.disjunction⟩

/-- A truth value is a factor. -/
theorem readsFactor_truth (value : Bool) :
    ReadsFactor (truthTokens value) (.truth value) := by
  refine ReadsPrimary.factor ?_ (by simp [truthTokens])
    (by cases value <;> decide)
  intro depth rest hdepth _
  cases depth with
  | zero => simp [truthTokens] at hdepth
  | succ depth => cases value <;> simp [truthTokens, primary?]

/-- A test of a column starts with the column's name. -/
theorem ReadsPrimary.factor_of_name {column : String} {ts : List Token}
    {a : SearchCondition}
    (h : ReadsPrimary (.quoted column :: ts) a) :
    ReadsFactor (.quoted column :: ts) a :=
  h.factor (by simp) (by simp)

mutual

/-- The tokens of a legible condition are read as what it means, and those of
a factor as a factor. -/
theorem reads_tokens : (c : Condition) → c.Legible →
    (c.isFactor = true → ReadsFactor c.tokens c.meaning)
      ∧ ReadsDisjunction c.tokens c.meaning
  | .truth value, _ => (readsFactor_truth value).both
  | .compare column op n, _ =>
    (readsPrimary_compare column op n).factor_of_name.both
  | .nullness column true, _ =>
    (readsPrimary_nullness column true).factor_of_name.both
  | .nullness column false, _ =>
    (readsPrimary_nullness column false).factor_of_name.both
  | .membership column isIn _, h =>
    (readsPrimary_membership column isIn h.2).factor_of_name.both
  | .between column low high, _ =>
    (readsPrimary_between column low high).factor_of_name.both
  | .identified column n, _ =>
    (readsPrimary_identified column n).factor_of_name.both
  | .granted grants row user organization, _ =>
    ((readsPrimary_granted grants row user organization).factor
      (by simp [grantedTokens, peerTokens])
      (by simp [grantedTokens, peerTokens, grantedStart])).both
  | .not c, h =>
    ((reads_tokens c h).2.bracketed.factor (by simp) (by simp)).not.both
  | .group c, h =>
    ((reads_tokens c h).2.bracketed.factor (by simp) (by simp)).both
  | .all [], _ => (readsFactor_truth true).both
  | .all (c :: cs), h =>
    ⟨nofun, (readsConjunction_chain (reads_tokensOf (c :: cs) h)
      (by simp [Condition.tokensOf])).disjunction⟩
  | .any [], _ => (readsFactor_truth false).both
  | .any (c :: cs), h =>
    ⟨nofun, readsDisjunction_chain (reads_tokensOf (c :: cs) h) (by simp)⟩

/-- The parts of a legible condition are read each as a factor. -/
theorem reads_tokensOf : (cs : List Condition) → Condition.LegibleParts cs →
    List.Forall₂ ReadsFactor (Condition.tokensOf cs) (Condition.meanings cs)
  | [], _ => .nil
  | c :: cs, h =>
    .cons ((reads_tokens c h.2.1).1 h.1) (reads_tokensOf cs h.2.2)

end

/-- A legible condition is read back as what it means, whatever stands
behind it that does not go on with it. -/
theorem disjunction?_tokens {c : Condition} (hc : c.Legible)
    {rest : List Token} (hrest : Ends rest)
    (hand : rest.head? ≠ some (.word "and"))
    (hor : rest.head? ≠ some (.word "or")) :
    disjunction? (depthFor (c.tokens ++ rest)) (c.tokens ++ rest)
      = some (c.meaning, rest) := by
  have hdepth : 4 * c.tokens.length + 3 ≤ depthFor (c.tokens ++ rest) := by
    simp only [depthFor, List.length_append]
    omega
  exact (reads_tokens c hc).2 _ rest hdepth hrest hand hor

/-- The text of a legible condition is read back as exactly what it means. -/
theorem searchCondition?_text {c : Condition} (hc : c.Legible) :
    searchCondition? c.text = some c.meaning := by
  have htokens : tokens? c.text = some c.tokens := spells_text c hc
  have hends : Ends [] := by simp [Ends]
  have hread := disjunction?_tokens hc hends (by simp) (by simp)
  rw [List.append_nil] at hread
  unfold searchCondition?
  rw [htokens]
  simp [hread]

-- ======================================================== statements

/-- A statement is read back as its projection, its table, what its condition
means, and its tail. -/
theorem selection?_text {text table : String} {projection tail : List Token}
    {c : Condition} (htext : Spells text (.word "select" :: (projection
      ++ .word "from" :: .quoted table :: .word "where"
        :: (c.tokens ++ tail))))
    (hprojection : ∀ t ∈ projection, t ≠ .word "from") (hc : c.Legible)
    (htail : isTail tail = true) :
    selection? text = some ⟨projection, table, c.meaning, tail⟩ := by
  have hheads :
      Ends tail ∧ tail.head? ≠ some (.word "and")
      ∧ tail.head? ≠ some (.word "or") := by
    unfold isTail at htail
    unfold Ends
    cases htail' : tail.head? with
    | none => simp
    | some t =>
      rw [htail'] at htail
      simp only [Option.all_some, List.mem_cons, List.not_mem_nil, or_false,
        decide_eq_true_eq] at htail
      rcases htail with rfl | rfl | rfl <;> simp
  have hread := disjunction?_tokens hc hheads.1 hheads.2.1 hheads.2.2
  have htokens : tokens? text = _ := htext
  have htake : (projection ++ .word "from" :: .quoted table :: .word "where"
        :: (c.tokens ++ tail)).takeWhile (· ≠ .word "from")
      = projection := by
    rw [List.takeWhile_append_of_pos (by simpa using hprojection)]
    simp
  have hdrop : (projection ++ .word "from" :: .quoted table :: .word "where"
        :: (c.tokens ++ tail)).dropWhile (· ≠ .word "from")
      = .word "from" :: .quoted table :: .word "where"
        :: (c.tokens ++ tail) := by
    rw [List.dropWhile_append_of_pos (by simpa using hprojection)]
    simp
  unfold selection?
  rw [htokens]
  simp only [Option.bind_eq_bind, Option.bind_some]
  rw [htake, hdrop]
  simp [hread, htail]

end Tenancy.Sql
