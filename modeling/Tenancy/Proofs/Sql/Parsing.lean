/-
SQL conditions as the server reads them: from tokens to a tree, by SQL's
precedence. OR binds loosest, then AND, then NOT; brackets come before
all of them; and the AND behind BETWEEN and its lower bound belongs to
BETWEEN. A statement is its projection, its table, the condition behind
WHERE as far as it can be read, and what stands behind that.

The readers go by recursive descent and return what they leave. Their
first argument bounds the depth of the descent; four steps for each
token are always enough, and `statement?` grants as many.
-/
import Tenancy.Proofs.Sql.Lexing

namespace Tenancy.Sql

-- ============================================================== trees

/-- What a comparison compares. -/
inductive Operand where
  /-- A column, perhaps of a table or alias that is named. -/
  | column (table : Option String) (name : String)
  | placeholder (n : Nat)
  /-- A placeholder cast to an identifier. -/
  | uuid (n : Nat)
deriving DecidableEq

/-- A condition as SQL means it. -/
inductive SearchCondition where
  | truth (value : Bool)
  | compare (left : Operand) (op : Comparison) (right : Operand)
  | isNull (x : Operand)
  | isIn (x : Operand) (placeholders : List Nat)
  | between (x low high : Operand)
  /-- Some row of a table, under a label, meets the condition. -/
  | someRow (table label : String) (c : SearchCondition)
  | not (c : SearchCondition)
  | and (a b : SearchCondition)
  | or (a b : SearchCondition)
deriving DecidableEq

def SearchCondition.conjoin : List SearchCondition → SearchCondition
  | [] => .truth true
  | [a] => a
  | a :: as => .and a (conjoin as)

def SearchCondition.disjoin : List SearchCondition → SearchCondition
  | [] => .truth false
  | [a] => a
  | a :: as => .or a (disjoin as)

/-- A statement that selects rows of one table. -/
structure Selection where
  projection : List Token
  table : String
  condition : SearchCondition
  /-- What stands behind the condition. -/
  tail : List Token
deriving DecidableEq

-- =============================================================== tests

def Comparison.token : Comparison → Token
  | .eq => .symbol "="
  | .ne => .symbol "<>"
  | .gt => .symbol ">"
  | .gte => .symbol ">="
  | .lt => .symbol "<"
  | .lte => .symbol "<="
  | .like => .word "like"
  | .ilike => .word "ilike"

def comparison? (t : Token) : Option Comparison :=
  [.eq, .ne, .gt, .gte, .lt, .lte, .like, .ilike].find? fun op => op.token = t

/-- A column or a placeholder. -/
def operand? : List Token → Option (Operand × List Token)
  | .quoted table :: .symbol "." :: .quoted name :: rest =>
    some (.column (some table) name, rest)
  | .word table :: .symbol "." :: .quoted name :: rest =>
    some (.column (some table) name, rest)
  | .quoted name :: rest => some (.column none name, rest)
  | .placeholder n :: .symbol "::" :: .word "uuid" :: rest =>
    some (.uuid n, rest)
  | .placeholder n :: rest => some (.placeholder n, rest)
  | _ => none

/-- The placeholders of a list, up to its closing bracket. -/
def placeholders? : List Token → Option (List Nat × List Token)
  | .placeholder n :: .symbol "," :: rest =>
    (placeholders? rest).map fun x => (n :: x.1, x.2)
  | .placeholder n :: .symbol ")" :: rest => some ([n], rest)
  | _ => none

/-- What is asked of an operand. -/
def test? (x : Operand) : List Token → Option (SearchCondition × List Token)
  | .word "is" :: .word "null" :: rest => some (.isNull x, rest)
  | .word "is" :: .word "not" :: .word "null" :: rest =>
    some (.not (.isNull x), rest)
  | .word "in" :: .symbol "(" :: rest =>
    (placeholders? rest).map fun y => (.isIn x y.1, y.2)
  | .word "not" :: .word "in" :: .symbol "(" :: rest =>
    (placeholders? rest).map fun y => (.not (.isIn x y.1), y.2)
  | .word "between" :: rest =>
    match operand? rest with
    | some (low, .word "and" :: rest) =>
      (operand? rest).map fun y => (.between x low y.1, y.2)
    | _ => none
  | t :: rest => do
    let op ← comparison? t
    let (y, rest) ← operand? rest
    return (.compare x op y, rest)
  | [] => none

-- ========================================================== precedence

/-- What was read, if a closing bracket follows. -/
def closed? :
    Option (SearchCondition × List Token) →
      Option (SearchCondition × List Token)
  | some (a, .symbol ")" :: rest) => some (a, rest)
  | _ => none

mutual

/-- Conditions with OR between them. -/
def disjunction? :
    (depth : Nat) → List Token → Option (SearchCondition × List Token)
  | 0, _ => none
  | depth + 1, ts =>
    match conjunction? depth ts with
    | some (a, .word "or" :: rest) =>
      (disjunction? depth rest).map fun b => (.or a b.1, b.2)
    | read => read

/-- Conditions with AND between them. -/
def conjunction? :
    (depth : Nat) → List Token → Option (SearchCondition × List Token)
  | 0, _ => none
  | depth + 1, ts =>
    match negation? depth ts with
    | some (a, .word "and" :: rest) =>
      (conjunction? depth rest).map fun b => (.and a b.1, b.2)
    | read => read

/-- A condition with any number of NOTs before it. -/
def negation? :
    (depth : Nat) → List Token → Option (SearchCondition × List Token)
  | 0, _ => none
  | depth + 1, .word "not" :: rest =>
    (negation? depth rest).map fun a => (.not a.1, a.2)
  | depth + 1, ts => primary? depth ts

/-- A condition in brackets, a constant, a subquery, or a test of an
operand. -/
def primary? :
    (depth : Nat) → List Token → Option (SearchCondition × List Token)
  | 0, _ => none
  | depth + 1, .symbol "(" :: rest => closed? (disjunction? depth rest)
  | _ + 1, .word "true" :: rest => some (.truth true, rest)
  | _ + 1, .word "false" :: rest => some (.truth false, rest)
  | depth + 1,
      .word "exists" :: .symbol "(" :: .word "select" :: .number 1
        :: .word "from"
      :: .quoted table :: .word label :: .word "where" :: rest =>
    (closed? (disjunction? depth rest)).map fun a =>
      (.someRow table label a.1, a.2)
  | _ + 1, ts => do
    let (x, rest) ← operand? ts
    test? x rest

end

/-- The depth that is enough for some tokens. -/
def depthFor (ts : List Token) : Nat := 4 * ts.length + 3

/-- The condition that a text is, all of it. -/
def searchCondition? (s : String) : Option SearchCondition := do
  let ts ← tokens? s
  match disjunction? (depthFor ts) ts with
  | some (a, []) => some a
  | _ => none

/-- May these tokens stand behind the condition of a statement? -/
def isTail (ts : List Token) : Bool :=
  ts.head?.all fun t => t ∈ [.word "order", .word "limit", .word "offset"]

/-- The statement that a text is. -/
def selection? (s : String) : Option Selection := do
  match ← tokens? s with
  | .word "select" :: ts =>
    let projection := ts.takeWhile (· ≠ .word "from")
    match ts.dropWhile (· ≠ .word "from") with
    | .word "from" :: .quoted table :: .word "where" :: rest =>
      let (condition, tail) ← disjunction? (depthFor rest) rest
      if isTail tail then some ⟨projection, table, condition, tail⟩ else none
    | _ => none
  | _ => none

end Tenancy.Sql
