/-
The placeholders of a text, from left to right, as a server numbers its
parameters by them: what stands in a quoted identifier is none, whatever
the identifier is. Parts of a text have their placeholders one behind the
other, and neither brackets nor words between them add any.
-/
import Tenancy.Proofs.Sql.Legible

namespace Tenancy.Sql

-- ============================================================= texts

/-- The number of a placeholder. -/
def Token.placeholder? : Token → Option Nat
  | .placeholder n => some n
  | _ => none

/-- The numbers of the placeholders among tokens. -/
def placeholdersIn (ts : List Token) : List Nat :=
  ts.filterMap Token.placeholder?

/-- The numbers of the placeholders of a text. -/
def placeholdersOf? (s : String) : Option (List Nat) :=
  (tokens? s).map placeholdersIn

/-- The placeholders of a text are those that it is lexed into. -/
theorem placeholdersOf?_of_spells {s : String} {ts : List Token}
    (h : Spells s ts) : placeholdersOf? s = some (placeholdersIn ts) := by
  unfold placeholdersOf?
  rw [h, Option.map_some]

@[simp] theorem placeholdersIn_nil : placeholdersIn [] = [] := rfl

@[simp] theorem placeholdersIn_placeholder (n : Nat) (ts : List Token) :
    placeholdersIn (.placeholder n :: ts) = n :: placeholdersIn ts := rfl

@[simp] theorem placeholdersIn_word (s : String) (ts : List Token) :
    placeholdersIn (.word s :: ts) = placeholdersIn ts := rfl

@[simp] theorem placeholdersIn_quoted (name : String) (ts : List Token) :
    placeholdersIn (.quoted name :: ts) = placeholdersIn ts := rfl

@[simp] theorem placeholdersIn_number (n : Nat) (ts : List Token) :
    placeholdersIn (.number n :: ts) = placeholdersIn ts := rfl

@[simp] theorem placeholdersIn_symbol (s : String) (ts : List Token) :
    placeholdersIn (.symbol s :: ts) = placeholdersIn ts := rfl

/-- Placeholders keep to the order of the tokens. -/
@[simp] theorem placeholdersIn_append (ts us : List Token) :
    placeholdersIn (ts ++ us) = placeholdersIn ts ++ placeholdersIn us :=
  List.filterMap_append

/-- What stands between parts without placeholders adds none. -/
theorem placeholdersIn_intercalate {u : List Token}
    (hu : placeholdersIn u = []) (tss : List (List Token)) :
    placeholdersIn (u.intercalate tss) = tss.flatMap placeholdersIn := by
  induction tss with
  | nil => rfl
  | cons ts tss ih =>
    cases tss with
    | nil => simp
    | cons us tss =>
      rw [List.intercalate_cons_cons, placeholdersIn_append,
        placeholdersIn_append, ih, hu]
      simp

/-- Counting on from a start, and from there on again. -/
theorem count_append (start m n : Nat) :
    List.range' (start + 1) m ++ List.range' (start + m + 1) n
      = List.range' (start + 1) (m + n) := by
  rw [Nat.add_right_comm, List.range'_append_1]

-- ======================================================== conditions

namespace Condition

/-- The numbers of a condition's placeholders. -/
def placeholders (c : Condition) : List Nat := placeholdersIn c.tokens

/-- A legible condition has the placeholders of its tokens. -/
theorem placeholdersOf?_text {c : Condition} (h : c.Legible) :
    placeholdersOf? c.text = some c.placeholders :=
  placeholdersOf?_of_spells (spells_text c h)

/-- The parts are lexed one by one. -/
theorem tokensOf_eq_map (cs : List Condition) :
    tokensOf cs = cs.map tokens := by
  induction cs with
  | nil => rfl
  | cons c cs ih => rw [tokensOf, ih, List.map_cons]

@[simp] theorem placeholders_truth (value : Bool) :
    (truth value).placeholders = [] := rfl

/-- A comparison has one placeholder. -/
@[simp] theorem placeholders_compare (column : String) (op : Comparison)
    (n : Nat) : (compare column op n).placeholders = [n] := by
  cases op <;> rfl

@[simp] theorem placeholders_nullness (column : String) (isNull : Bool) :
    (nullness column isNull).placeholders = [] := by
  cases isNull <;> rfl

/-- A list has one for each of its members. -/
@[simp] theorem placeholders_membership (column : String) (isIn : Bool)
    (ns : List Nat) : (membership column isIn ns).placeholders = ns := by
  have hlist : placeholdersIn
      ([.symbol ","].intercalate (ns.map fun n => [.placeholder n])) = ns := by
    rw [placeholdersIn_intercalate rfl, List.flatMap_map]
    exact List.flatMap_singleton' ns
  unfold placeholders
  simp only [tokens, placeholdersIn_append, hlist]
  cases isIn <;> simp

/-- A range has one for each of its bounds, the lower one first. -/
@[simp] theorem placeholders_between (column : String) (low high : Nat) :
    (between column low high).placeholders = [low, high] := rfl

@[simp] theorem placeholders_identified (column : Column) (n : Nat) :
    (identified column n).placeholders = [n] := by
  simp [placeholders, tokens, Column.tokens, uuidTokens]

/-- A grant has one for the user and one for the organization. -/
@[simp] theorem placeholders_granted (grants : GrantTable) (row : Column)
    (user organization : Nat) :
    (granted grants row user organization).placeholders
      = [user, organization] := by
  simp [placeholders, tokens, grantedTokens, peerTokens, grantedStart, andPeer,
    Column.tokens, uuidTokens]

@[simp] theorem placeholders_not (c : Condition) :
    (not c).placeholders = c.placeholders := by
  simp [placeholders, tokens]

@[simp] theorem placeholders_group (c : Condition) :
    (group c).placeholders = c.placeholders := by
  simp [placeholders, tokens]

/-- Parts written with words between them have their placeholders behind each
other. -/
theorem placeholdersIn_parts {u : List Token} (hu : placeholdersIn u = [])
    (cs : List Condition) :
    placeholdersIn (u.intercalate (tokensOf cs))
      = cs.flatMap placeholders := by
  rw [placeholdersIn_intercalate hu, tokensOf_eq_map, List.flatMap_map]
  rfl

/-- A conjunction has those of its parts, one part after another. -/
@[simp] theorem placeholders_all (cs : List Condition) :
    (all cs).placeholders = cs.flatMap placeholders := by
  cases cs with
  | nil => rfl
  | cons c cs => exact placeholdersIn_parts rfl (c :: cs)

/-- So has a disjunction. -/
@[simp] theorem placeholders_any (cs : List Condition) :
    (any cs).placeholders = cs.flatMap placeholders := by
  cases cs with
  | nil => rfl
  | cons c cs => exact placeholdersIn_parts rfl (c :: cs)

end Condition

end Tenancy.Sql
