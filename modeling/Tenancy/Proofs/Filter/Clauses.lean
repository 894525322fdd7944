/-
The other clauses of a filter, as tokens. A filter that was built from a
client's parts holds only columns that are valid names or a star, and
only sort keys with valid names (`Checked`): each part that is set keeps
that, and so does every sequence of parts. So the projection, the sort
order and the pagination are read back as what they are — nothing in
them is taken for the start of the condition or for more of it.
-/
import Tenancy.Filter.Basic
import Tenancy.Proofs.Outcome
import Tenancy.Proofs.Sql.Legible

namespace Tenancy.Filter

open Sql

-- ============================================================ checked

/-- The names in a filter's projection and sort order are valid. -/
structure Checked (filter : Filter) : Prop where
  columns : ∀ c ∈ filter.columns, c = "*" ∨ Identifier.isValid c = true
  order : ∀ key ∈ filter.order, Identifier.isValid key.column = true

/-- A column that is accepted has a valid name. -/
theorem checkColumn_ok {isValid : String → Bool} {name : String}
    (h : checkColumn isValid name = .ok ()) : isValid name = true := by
  unfold checkColumn at h
  split at h
  · assumption
  · cases h

/-- Columns that are accepted are stars or valid names. -/
theorem checkSelect_ok {columns : List String}
    (h : checkSelect columns = .ok ()) :
    ∀ c ∈ columns, c = "*" ∨ Identifier.isValid c = true := by
  induction columns with
  | nil => simp
  | cons column rest ih =>
    unfold checkSelect at h
    intro c hc
    by_cases hstar : column = "*"
    · rw [if_neg (not_not_intro hstar)] at h
      rcases List.mem_cons.1 hc with rfl | hc
      · exact .inl hstar
      · exact ih h c hc
    · rw [if_pos hstar] at h
      obtain ⟨_, hcolumn, h⟩ := bind_eq_ok.1 h
      rcases List.mem_cons.1 hc with rfl | hc
      · exact .inr (checkColumn_ok hcolumn)
      · exact ih h c hc

/-- Keys that are accepted have valid columns. -/
theorem Order.checkColumns_ok {keys : List SortKey}
    (h : Order.checkColumns keys = .ok ()) :
    ∀ key ∈ keys, Identifier.isValid key.column = true := by
  induction keys with
  | nil => simp
  | cons key rest ih =>
    obtain ⟨_, hkey, h⟩ := bind_eq_ok.1 h
    intro k hk
    rcases List.mem_cons.1 hk with rfl | hk
    · exact checkColumn_ok hkey
    · exact ih h k hk

/-- The empty filter stores nothing unchecked. -/
theorem checked_empty : empty.Checked := ⟨nofun, nofun⟩

/-- A part that is set leaves the names valid. -/
theorem Checked.set {cap : Option Int} {filter filter' : Filter} {part : Part}
    (hf : filter.Checked) (h : filter.set cap part = .ok filter') :
    filter'.Checked := by
  cases part with
  | select columns =>
    obtain ⟨_, hcolumns, h⟩ := bind_eq_ok.1 h
    cases h
    exact ⟨checkSelect_ok hcolumns, hf.order⟩
  | condition value =>
    obtain ⟨_, _, h⟩ := bind_eq_ok.1 h
    cases h
    exact ⟨hf.columns, hf.order⟩
  | order value =>
    obtain ⟨keys, hkeys, h⟩ := bind_eq_ok.1 h
    cases h
    obtain ⟨parsed, _, hkeys⟩ := bind_eq_ok.1 hkeys
    obtain ⟨_, hcolumns, hkeys⟩ := bind_eq_ok.1 hkeys
    cases hkeys
    exact ⟨hf.columns, Order.checkColumns_ok hcolumns⟩
  | limit n =>
    unfold Filter.set at h
    by_cases hn : n < 0
    · simp [hn] at h
    · simp only [hn, if_false] at h
      cases h
      exact ⟨hf.columns, hf.order⟩
  | offset n =>
    unfold Filter.set at h
    by_cases hn : n < 0
    · simp [hn] at h
    · simp only [hn, if_false] at h
      cases h
      exact ⟨hf.columns, hf.order⟩

/-- So does every sequence of parts, as far as it is set. -/
theorem Checked.setAll {cap : Option Int} {filter : Filter} {parts : List Part}
    (hf : filter.Checked) : (Filter.setAll cap filter parts).1.Checked := by
  induction parts generalizing filter with
  | nil => exact hf
  | cons part rest ih =>
    unfold Filter.setAll
    cases h : filter.set cap part with
    | error e => exact hf
    | ok filter' => exact ih (hf.set h)

/-- And neither does one that is made of data. -/
theorem checked_ofData {cap : Option Int} {data : FilterData} {filter : Filter}
    (h : ofData cap data = .ok filter) : filter.Checked := by
  have hall : (assign cap empty data).1.Checked := checked_empty.setAll
  unfold ofData at h
  split at h
  · rename_i hassign
    cases h
    rwa [hassign] at hall
  · cases h

-- ========================================================== condition

/-- The condition behind some parts: the last that is set, else the one
before. -/
def lastCondition (before : Option Json) : List Part → Option Json
  | [] => before
  | .condition value :: rest => lastCondition (some value) rest
  | _ :: rest => lastCondition before rest

/-- The last condition of some parts is that of the filter that has taken the
first of them, and of the rest. -/
theorem condition_set {cap : Option Int} {filter filter' : Filter}
    {part : Part} (rest : List Part) (h : filter.set cap part = .ok filter') :
    lastCondition filter'.condition rest
      = lastCondition filter.condition (part :: rest) := by
  cases part with
  | select columns =>
    obtain ⟨_, _, h⟩ := bind_eq_ok.1 h
    cases h
    rfl
  | condition value =>
    obtain ⟨_, _, h⟩ := bind_eq_ok.1 h
    cases h
    rfl
  | order value =>
    obtain ⟨_, _, h⟩ := bind_eq_ok.1 h
    cases h
    rfl
  | limit n =>
    unfold Filter.set at h
    by_cases hn : n < 0
    · simp [hn] at h
    · simp only [hn, if_false] at h
      cases h
      rfl
  | offset n =>
    unfold Filter.set at h
    by_cases hn : n < 0
    · simp [hn] at h
    · simp only [hn, if_false] at h
      cases h
      rfl

/-- What is stored is the last condition that was set. -/
theorem condition_setAll {cap : Option Int} {filter filter' : Filter}
    {parts : List Part}
    (h : Filter.setAll cap filter parts = (filter', .ok ())) :
    filter'.condition = lastCondition filter.condition parts := by
  induction parts generalizing filter with
  | nil =>
    cases h
    rfl
  | cons part rest ih =>
    unfold Filter.setAll at h
    cases hset : filter.set cap part with
    | error e =>
      rw [hset] at h
      cases h
    | ok next =>
      rw [hset] at h
      rw [ih h, condition_set rest hset]

/-- The condition of a filter is the one that the client gave. -/
theorem condition_ofData {cap : Option Int} {data : FilterData}
    {filter : Filter}
    (h : ofData cap data = .ok filter) :
    filter.condition = data.condition := by
  have hparts : lastCondition none (parts data) = data.condition := by
    obtain ⟨select, condition, order, limit, offset⟩ := data
    cases select <;> cases condition <;> cases order <;> cases limit
      <;> cases offset <;> rfl
  unfold ofData at h
  split at h
  · rename_i hassign
    cases h
    rw [condition_setAll hassign]
    exact hparts
  · cases h

-- =========================================================== clauses

/-- The projection, as tokens. -/
def projectionTokens (filter : Filter) : List Token :=
  if filter.columns.isEmpty || filter.columns.contains "*" then [.symbol "*"]
  else [.symbol ","].intercalate (filter.columns.map fun c => [.quoted c])

/-- A sort key as it is lexed. -/
def SortKey.tokens (key : SortKey) : List Token :=
  [.quoted key.column, .word (match key.direction with
    | .ascending => "asc"
    | .descending => "desc")]

/-- The ORDER BY clause as it is lexed. -/
def orderTokens (filter : Filter) : List Token :=
  if filter.order.isEmpty then []
  else [.word "order", .word "by"]
    ++ [.symbol ","].intercalate (filter.order.map SortKey.tokens)

/-- The LIMIT and OFFSET clauses as they are lexed. -/
def limitTokens (filter : Filter) : List Token :=
  match filter.limit, filter.offset with
  | some l, some o =>
    [.word "limit"] ++ intTokens l ++ [.word "offset"] ++ intTokens o
  | some l, none => [.word "limit"] ++ intTokens l
  | none, some o => [.word "offset"] ++ intTokens o
  | none, none => []

/-- The projection is lexed column by column. -/
theorem spells_selectClause {filter : Filter} (hf : filter.Checked) :
    Spells filter.selectClause filter.projectionTokens := by
  unfold selectClause projectionTokens
  split
  · decide
  · rename_i hstar
    simp only [Bool.or_eq_true, List.isEmpty_iff, List.contains_iff_mem,
      not_or] at hstar
    have hcomma : Separates ", " [.symbol ","] := by decide
    refine spells_intercalate hcomma ?_ (by simpa using hstar.1)
    rw [List.forall₂_map_left_iff, List.forall₂_map_right_iff,
      List.forall₂_same]
    intro c hc
    refine spells_enclose ((hf.columns c hc).resolve_left ?_)
    rintro rfl
    exact hstar.2 hc

/-- A key is its column and its direction. -/
theorem spells_sortKey {key : SortKey}
    (h : Identifier.isValid key.column = true) :
    Spells (Order.SortKey.text key) key.tokens := by
  have hgap : Separates " " [] := by decide
  cases hd : key.direction with
  | ascending =>
    have hasc : Spells "ASC" [.word "asc"] := by decide
    simpa [Order.SortKey.text, SortKey.tokens, hd, Direction.text] using
      (spells_enclose h).between hgap hasc
  | descending =>
    have hdesc : Spells "DESC" [.word "desc"] := by decide
    simpa [Order.SortKey.text, SortKey.tokens, hd, Direction.text] using
      (spells_enclose h).between hgap hdesc

/-- The order is lexed key by key. -/
theorem spells_orderClause {filter : Filter} (hf : filter.Checked) :
    Spells filter.orderClause filter.orderTokens := by
  unfold orderClause Order.clause orderTokens
  split
  · decide
  · rename_i hne
    rw [List.isEmpty_iff] at hne
    have hopen : Closes "ORDER BY " [.word "order", .word "by"] := by decide
    have hcomma : Separates ", " [.symbol ","] := by decide
    refine hopen.append (spells_intercalate hcomma ?_ (by simpa using hne))
    rw [List.forall₂_map_left_iff, List.forall₂_map_right_iff,
      List.forall₂_same]
    exact fun key hkey => spells_sortKey (hf.order key hkey)

/-- Numbers are lexed with their signs. -/
theorem spells_limitClause (filter : Filter) :
    Spells filter.limitClause filter.limitTokens := by
  have hlimit : Closes "LIMIT " [.word "limit"] := by decide
  have hoffset : Closes "OFFSET " [.word "offset"] := by decide
  have hthen : Separates " OFFSET " [.word "offset"] := by decide
  unfold limitClause limitTokens
  cases filter.limit with
  | none =>
    cases filter.offset with
    | none => decide
    | some o => exact hoffset.append (spells_int o)
  | some l =>
    cases filter.offset with
    | none => exact hlimit.append (spells_int l)
    | some o =>
      exact (hlimit.append (spells_int l)).between hthen (spells_int o)

/-- What holds of lists and of what separates them holds of all together. -/
theorem forall_mem_intercalate {p : Token → Prop} {u : List Token}
    {tss : List (List Token)}
    (hu : ∀ t ∈ u, p t) (h : ∀ ts ∈ tss, ∀ t ∈ ts, p t) :
    ∀ t ∈ u.intercalate tss, p t := by
  induction tss with
  | nil => simp
  | cons ts tss ih =>
    have htail := ih fun us hus => h us (by simp [hus])
    cases tss with
    | nil => simpa using h
    | cons us tss =>
      intro t ht
      rw [List.intercalate_cons_cons, List.mem_append, List.mem_append] at ht
      rcases ht with (ht | ht) | ht
      · exact h ts (by simp) t ht
      · exact hu t ht
      · exact htail t ht

/-- The projection names no clause. -/
theorem ne_from_of_mem_projectionTokens (filter : Filter) :
    ∀ t ∈ filter.projectionTokens, t ≠ .word "from" := by
  unfold projectionTokens
  split
  · simp
  · refine forall_mem_intercalate (by simp) fun ts hts => ?_
    obtain ⟨c, -, rfl⟩ := List.mem_map.1 hts
    simp

/-- What stands behind the condition of a statement is its order and
pagination. -/
theorem isTail_clauses (filter : Filter) :
    isTail (filter.orderTokens ++ filter.limitTokens) = true := by
  unfold orderTokens limitTokens isTail
  cases filter.order.isEmpty <;> cases filter.limit <;> cases filter.offset
    <;> rfl

end Tenancy.Filter
