/-
The names in a client's filter stand in its clauses between quotes as
they are, nothing in them doubled. They may, because all of them are
valid: the columns of the projection and of the sort order were checked
when they were set (`Reached.checked`), those of the condition are
checked while it is written, and what is written is legible
(`whereFragment_ok`). So each clause is, character by character, the one
that would come of quoting its names as any text can be quoted
(`QuotesNames`), and whatever is quoted so is read back by the server as
that name and nothing more (`quoting_is_lossless`).

A condition encloses the columns that it tests wherever they stand in
its tree. To quote a column instead is to enclose it escaped
(`Identifier.enclose_escape`), and to quote all of them is to rename the
columns of the tree in that way before it is written
(`Condition.renamed`).
-/
import Tenancy.Proofs.Filter.Pagination
import Tenancy.Proofs.Filter.Rendering
import Tenancy.Proofs.Sql.Names

namespace Tenancy

-- ============================================================= renaming

namespace Sql

/-- A name with each quote in it written twice. -/
def Identifier.escape (name : String) : String :=
  String.ofList (Identifier.doubleQuotes name.toList)

/-- To quote a name is to enclose it escaped. -/
theorem Identifier.enclose_escape (name : String) :
    Identifier.enclose (Identifier.escape name) = Identifier.quote name := rfl

theorem Identifier.enclose_injective :
    Function.Injective Identifier.enclose := by
  intro a b h
  apply String.toList_injective
  simpa [enclose] using congrArg String.toList h

/-- There is nothing to escape in a valid name. -/
theorem Identifier.escape_of_isValid {name : String}
    (h : Identifier.isValid name = true) : Identifier.escape name = name := by
  apply enclose_injective
  rw [enclose_escape, quote_eq_enclose h]

mutual

/-- The condition with other names for the columns that it encloses as they
are. -/
def Condition.renamed (f : String → String) : Condition → Condition
  | .truth value => .truth value
  | .compare column op n => .compare (f column) op n
  | .nullness column isNull => .nullness (f column) isNull
  | .membership column isIn ns => .membership (f column) isIn ns
  | .between column low high => .between (f column) low high
  | .identified column n => .identified column n
  | .granted grants row user organization =>
    .granted grants row user organization
  | .not c => .not (c.renamed f)
  | .group c => .group (c.renamed f)
  | .all cs => .all (Condition.renamedParts f cs)
  | .any cs => .any (Condition.renamedParts f cs)

def Condition.renamedParts (f : String → String) :
    List Condition → List Condition
  | [] => []
  | c :: cs => c.renamed f :: Condition.renamedParts f cs

end

mutual

/-- Whatever leaves valid names alone leaves a legible condition alone. -/
theorem Condition.renamed_of_legible {f : String → String}
    (hf : ∀ name, Identifier.isValid name = true → f name = name) :
    (c : Condition) → c.Legible → c.renamed f = c
  | .truth _, _ | .identified _ _, _ | .granted _ _ _ _, _ => rfl
  | .compare column _ _, h | .nullness column _, h
  | .between column _ _, h => by
    rw [renamed, hf column h]
  | .membership column _ _, h => by rw [renamed, hf column h.1]
  | .not c, h | .group c, h => by
    rw [renamed, Condition.renamed_of_legible hf c h]
  | .all cs, h | .any cs, h => by
    rw [renamed, Condition.renamedParts_of_legible hf cs h]

theorem Condition.renamedParts_of_legible {f : String → String}
    (hf : ∀ name, Identifier.isValid name = true → f name = name) :
    (cs : List Condition) → Condition.LegibleParts cs →
      Condition.renamedParts f cs = cs
  | [], _ => rfl
  | c :: cs, h => by
    rw [renamedParts, Condition.renamed_of_legible hf c h.2.1,
      Condition.renamedParts_of_legible hf cs h.2.2]

end

end Sql

namespace Filter

open Sql

variable {cap : Option Int} {filter : Filter}

-- ============================================================== clauses

/-- Each clause of a filter is the one that comes of quoting its names. -/
structure QuotesNames (filter : Filter) : Prop where
  select : filter.selectClause
    = if filter.columns = [] ∨ "*" ∈ filter.columns then "*"
      else ", ".intercalate (filter.columns.map Identifier.quote)
  condition {start : Nat} {fragment : Where.Fragment}
    (h : filter.whereFragment start = .ok fragment) :
    fragment.1.text = (fragment.1.renamed Identifier.escape).text
  order : filter.orderClause
    = if filter.order = [] then ""
      else "ORDER BY " ++ ", ".intercalate
        (filter.order.map fun key => Identifier.quote key.column ++ " "
          ++ key.direction.text)

/-- All names that come into a filter were checked. -/
theorem Reached.checked (h : Reached cap filter) : filter.Checked := by
  induction h with
  | empty => exact checked_empty
  | setAll _ _ ih => exact ih.setAll

theorem Checked.quotesNames (hf : filter.Checked) : filter.QuotesNames where
  select := by
    unfold selectClause
    simp only [Bool.or_eq_true, List.isEmpty_iff, List.contains_iff_mem]
    split
    · rfl
    · rename_i hnamed
      refine congrArg ", ".intercalate (List.map_congr_left fun c hc => ?_)
      refine (Identifier.quote_eq_enclose
        ((hf.columns c hc).resolve_left ?_)).symm
      rintro rfl
      exact hnamed (.inr hc)
  condition h := by
    rw [Condition.renamed_of_legible (fun _ => Identifier.escape_of_isValid) _
      (whereFragment_ok h).legible]
  order := by
    unfold orderClause Order.clause
    simp only [List.isEmpty_iff]
    split
    · rfl
    · refine congrArg (fun items => "ORDER BY " ++ ", ".intercalate items)
        (List.map_congr_left fun key hkey => ?_)
      rw [Order.SortKey.text, Identifier.quote_eq_enclose (hf.order key hkey)]

/-- Any name, quoted, is read back as that name where no quote follows it, and
what follows is left as it was: by whoever reads a single name, who reads
nothing else so, and by the lexer of statements. So no two names are quoted
alike. The valid names are the words of the pattern of at most 63 bytes. Such a
name is quoted by being enclosed as it is, and the clauses of a filter, which
enclose all their columns so, are those that quote them. -/
theorem quoting_is_lossless :
    (∀ text name rest : String, Identifier.quotedName? text = some (name, rest)
        ↔ text = Identifier.quote name ++ rest ∧ rest.toList.head? ≠ some '"')
      ∧ (∀ name rest : String, rest.toList.head? ≠ some '"' →
          tokens? (Identifier.quote name ++ rest)
            = (tokens? rest).map (.quoted name :: ·))
      ∧ Function.Injective Identifier.quote
      ∧ (∀ name : String, Identifier.isValid name = true
          ↔ name.toList ∈ Identifier.snakeCase ∧ name.utf8ByteSize ≤ 63)
      ∧ (∀ name : String, Identifier.isValid name = true →
          Identifier.quote name = "\"" ++ name ++ "\"")
      ∧ ∀ (cap : Option Int) (filter : Filter), Reached cap filter →
        filter.QuotesNames := by
  refine ⟨?_, ?_, Identifier.quote_injective, ?_, ?_, ?_⟩
  · intro text name rest
    exact Identifier.quotedName?_eq_some_iff
  · intro name rest hrest
    exact tokens?_quote name hrest
  · intro name
    exact Identifier.isValid_iff
  · intro name hname
    exact Identifier.quote_eq_enclose hname
  · intro cap filter hfilter
    exact hfilter.checked.quotesNames

/-- Quotes at the start, two in the middle, and one at the end. -/
def oddName : String := "\"a\"\"b\""

/-- A filter on two columns, a condition with a negation, and an order. -/
def titledFilter : Filter :=
  (Filter.setAll none .empty [.select ["id", "title"],
    .condition (.obj [("$not", .obj [("status", .str "open")])]),
    .order (.str "title desc")]).1

theorem oddName_and_titledFilter_read_back :
    Identifier.quote oddName = "\"\"\"a\"\"\"\"b\"\"\""
      ∧ Identifier.quotedName? (Identifier.quote oddName ++ " = \"c\"")
        = some (oddName, " = \"c\"")
      ∧ tokens? (Identifier.quote oddName ++ " = \"c\"")
        = some [.quoted oddName, .symbol "=", .quoted "c"]
      ∧ Identifier.quote "tasks_2" = "\"tasks_2\""
      ∧ titledFilter.selectClause = "\"id\", \"title\""
      ∧ titledFilter.orderClause = "ORDER BY \"title\" DESC"
      ∧ ∃ fragment, titledFilter.whereFragment 0 = .ok fragment
        ∧ fragment.1.text = "NOT (\"status\" = $1)"
        ∧ fragment.1.text = (fragment.1.renamed Identifier.escape).text := by
  obtain ⟨hread, htokens, -, -, hplain, hfilter⟩ := quoting_is_lossless
  have hrest : " = \"c\"".toList.head? ≠ some '"' := by decide
  have hbehind : tokens? " = \"c\"" = some [.symbol "=", .quoted "c"] := by
    decide
  have hreached : Reached none titledFilter := Reached.empty.setAll _
  have hnames : titledFilter.QuotesNames := hfilter none titledFilter hreached
  have hcondition : titledFilter.whereFragment 0 = .ok _ := rfl
  refine ⟨by decide, (hread _ _ _).2 ⟨rfl, hrest⟩, ?_,
    hplain "tasks_2" (by decide), ?_, ?_, _,
    hcondition, by decide, hnames.condition hcondition⟩
  · rw [htokens oddName _ hrest, hbehind]
    rfl
  · rw [hnames.select]
    decide
  · rw [hnames.order]
    decide

end Filter

end Tenancy
