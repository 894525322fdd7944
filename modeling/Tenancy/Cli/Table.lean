/-
Tables of text: a line of headings, a rule, and a line for each row,
where every cell is filled up to the width of its column.
-/
namespace Tenancy.Cli

/-- A cell filled up to a width; a longer one is left as it is. -/
def cell (text : String) (width : Nat) : String :=
  text ++ String.ofList (List.replicate (width - text.length) ' ')

/-- A text without the blanks behind it. -/
def withoutTail (s : String) : String :=
  String.ofList (s.toList.reverse.dropWhile (· = ' ')).reverse

def tableLine (cells : List String) (widths : List Nat) : String :=
  withoutTail (" ".intercalate (cells.zipWith cell widths))

def table (columns : List (String × Nat)) (rows : List (List String)) :
    List String :=
  let widths := columns.map Prod.snd
  let rule :=
    String.ofList
      (List.replicate (widths.foldl (· + ·) (widths.length - 1)) '-')
  tableLine (columns.map Prod.fst) widths
    :: rule :: rows.map fun row => tableLine row widths

/-- A value, or a dash in its absence. -/
def orDash (value : Option String) : String := value.getD "-"

end Tenancy.Cli
