/-
A server that answers by script. Each rule says which statements it
answers — those whose text holds a given part and whose first parameter
has a given value — with what, and how often; the first rule that fits
answers. A statement that no rule fits is refused, and the statements
that bound a transaction are always accepted. Every statement is logged.
-/
import Tenancy.Sql.Server
import Tenancy.Text.Split

namespace Tenancy.Sql

/-- The value of a parameter. -/
def Param.value : Param → Json
  | .uuid id => .str id.toString
  | .text s => Json.ofOption .str s
  | .bool b => .bool b
  | .int8 n => .int n
  | .float8 x => .float x

/-- What a script answers to some statements. -/
structure ScriptRule where
  /-- A part of the statement's text. -/
  part : String
  /-- The value of the first parameter, where it matters. -/
  param : Option Json
  answer : Except Failure Reply
  /-- How often the rule may still be used; without end if none. -/
  times : Option Nat

/-- A script, with the statements it has answered. -/
structure Script where
  rules : List ScriptRule
  log : List Statement

namespace Script

/-- The statement's text with single spaces between its words. -/
def spaced (text : String) : String :=
  " ".intercalate ((Text.words text.toList).map String.ofList)

def isBound (text : String) : Bool :=
  ["BEGIN", "COMMIT", "ROLLBACK"].contains text

/-- Does a rule answer a statement? -/
def fits (rule : ScriptRule) (statement : Statement) : Bool :=
  rule.times.all (· > 0)
    && Text.occursIn rule.part.toList (spaced statement.text).toList
    && rule.param.all fun v =>
      (statement.params.head?.map Param.value) == some v

/-- The answer of the first rule that fits, and the rules left behind it. -/
def use? (statement : Statement) :
    List ScriptRule → Option (Except Failure Reply × List ScriptRule)
  | [] => none
  | rule :: rest =>
    if fits rule statement then
      some (rule.answer, { rule with times := rule.times.map (· - 1) } :: rest)
    else (use? statement rest).map fun (answer, rest) => (answer, rule :: rest)

def answer : Program.World serverInterface Script := fun statement s =>
  let s :=
    { s with
      log := s.log ++ [{ statement with text := spaced statement.text }] }
  if isBound statement.text then (.ok ⟨[], 0⟩, s)
  else match use? statement s.rules with
    | some (answer, rules) => (answer, { s with rules := rules })
    | none => (.error (.server "XX000" "no rule"), s)

end Script

end Tenancy.Sql
