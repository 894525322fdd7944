/-
Statements as commands: what is asked for by the texts that are written
out whole, without a condition of a client's in them. A text is cut into
tokens, and into the texts that stand between apostrophes in it
(`lexemes?`). What is then read begins or ends a transaction, shows rows
of one table, perhaps locking them, or gives one column of its rows a new
value (`Command`). Rows are chosen by what their columns are equal to: a
value that is written out, or the one bound to a placeholder.

What a command does is not said here. It is for whoever relies on a
database to say what it makes of the commands that it is given, and that
is then said of the text that was sent, and of nothing that merely
resembles it.
-/
import Tenancy.Proofs.Sql.Lexing
import Tenancy.Sql.Statement

namespace Tenancy.Sql

-- =========================================================== lexemes

/-- A token, or the text between two apostrophes. -/
inductive Lexeme where
  | token (t : Token)
  | literal (s : String)
deriving DecidableEq

/-- A keyword or a name, in small letters. -/
@[match_pattern]
abbrev Lexeme.word (s : String) : Lexeme := .token (.word s)

/-- A bracket, a comma, or an operator. -/
@[match_pattern]
abbrev Lexeme.symbol (s : String) : Lexeme := .token (.symbol s)

/-- The lexemes of the pieces of a text that was cut at its apostrophes: every
other piece stands between two of them. -/
def lexemesOf : (pieces : List (List Char)) → Option (List Lexeme)
  | [] => none
  | [outside] => (tokensFrom .gap outside).map (List.map .token)
  | outside :: inside :: rest => do
    let before ← tokensFrom .gap outside
    let behind ← lexemesOf rest
    return before.map .token ++ .literal (String.ofList inside) :: behind

def lexemes? (s : String) : Option (List Lexeme) :=
  lexemesOf (Text.pieces (· == Char.ofNat 39) s.toList)

-- ========================================================== commands

/-- Where a value comes from: a parameter, or the text itself. -/
inductive Source where
  | placeholder (n : Nat)
  | literal (s : String)
deriving DecidableEq

/-- What the columns of a row have to be equal to. -/
abbrev Equalities := List (String × Source)

/-- What a text asks for. -/
inductive Command where
  | begin
  | commit
  | rollback
  /-- What is shown of the rows of a table that meet a condition, which may be
  locked until the transaction ends. -/
  | select (shown : List Lexeme) (table : String) (condition : Equalities)
      (locks : Bool)
  /-- A new value in one column of the rows that meet a condition. -/
  | update (table column : String) (value : Source) (condition : Equalities)
deriving DecidableEq

def Lexeme.source? : Lexeme → Option Source
  | .token (.placeholder n) => some (.placeholder n)
  | .literal s => some (.literal s)
  | .token _ => none

/-- Equalities with AND between them, and what stands behind the last one. -/
def equalities? : List Lexeme → Option (Equalities × List Lexeme)
  | .word column :: .symbol "=" :: x :: .word "and" :: rest => do
    let source ← x.source?
    let (more, behind) ← equalities? rest
    return ((column, source) :: more, behind)
  | .word column :: .symbol "=" :: x :: rest =>
    x.source?.map fun source => ([(column, source)], rest)
  | _ => none

/-- A table and its condition, behind what is shown of the rows. -/
def shownRows? (shown : List Lexeme) : List Lexeme → Option Command
  | .word "from" :: .word table :: .word "where" :: rest =>
    match equalities? rest with
    | some (condition, []) => some (.select shown table condition false)
    | some (condition, [.word "for", .word "update"]) =>
      some (.select shown table condition true)
    | _ => none
  | _ => none

/-- The command that lexemes are, all of them. -/
def Command.ofLexemes? : List Lexeme → Option Command
  | [.word "begin"] => some .begin
  | [.word "commit"] => some .commit
  | [.word "rollback"] => some .rollback
  | .word "select" :: rest =>
    shownRows? (rest.takeWhile (· ≠ .word "from"))
      (rest.dropWhile (· ≠ .word "from"))
  | .word "update" :: .word table :: .word "set" :: .word column
      :: .symbol "=" :: x :: .word "where" :: rest =>
    match x.source?, equalities? rest with
    | some source, some (condition, []) =>
      some (.update table column source condition)
    | _, _ => none
  | _ => none

/-- The command that a text is. -/
def command? (s : String) : Option Command :=
  (lexemes? s).bind Command.ofLexemes?

-- ============================================================ values

/-- The value from a source, the first parameter for `$1`. -/
def Source.value? (params : List Param) : Source → Option Param
  | .placeholder 0 => none
  | .placeholder (n + 1) => params[n]?
  | .literal s => some (.text (some s))

/-- A condition with the values that its columns have to be equal to. -/
def Equalities.values? (condition : Equalities) (params : List Param) :
    Option (List (String × Param)) :=
  condition.mapM fun (column, source) =>
    (source.value? params).map fun value => (column, value)

end Tenancy.Sql
