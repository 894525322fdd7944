/-
Pagination under a cap. A filter is set part by part, and some parts may
be refused; whatever was set before, the numbers in it went through the
same two tests (`Reached`). So an offset is never negative, and a limit
is what was asked for or the cap, whichever is less.

The two tests stand at different points: a limit is compared with zero
before it is cut down to the cap, and the cap itself with nothing. It is
read from the environment, where a negative number reads as well as any
other, and then every limit becomes that number. So what a paginated
filter promises (`Paginates`) is kept in an environment if and only if the
cap that is set there is not negative (`paginates_iff`).
-/
import Tenancy.Config
import Tenancy.Proofs.Filter.Clauses

namespace Tenancy.Filter

open Sql

variable {cap : Option Int} {filter filter' : Filter} {l n o : Int}

-- ========================================================== vocabulary

/-- The filters that come about: from the empty one by parts that are set
one after the other, as far as none is refused, again and again. -/
inductive Reached (cap : Option Int) : Filter → Prop
  | empty : Reached cap .empty
  | setAll {filter : Filter} (h : Reached cap filter) (parts : List Part) :
    Reached cap (filter.setAll cap parts).1

/-- The number that stands for a limit: the limit itself, unless it is above
the cap, and then the cap. -/
def Stands (cap : Option Int) (l n : Int) : Prop :=
  ((∀ c, cap = some c → l ≤ c) → n = l) ∧ ∀ c, cap = some c → c < l → n = c

/-- What stands in the clause behind the limit. -/
def offsetText : Option Int → String
  | some o => " OFFSET " ++ toString o
  | none => ""

/-- What a filter promises of its pagination under a cap. -/
structure Paginates (cap : Option Int) : Prop where
  /-- A negative limit is refused and changes nothing. -/
  negative_limit (filter : Filter) {l : Int} (h : l < 0) :
    filter.setAll cap [.limit l]
      = (filter, .error (.negativePagination "limit" l))
  /-- Any other is taken, and what the clause says is between zero and it. -/
  limit (filter : Filter) {l : Int} (h : 0 ≤ l) :
    ∃ filter' n, filter.setAll cap [.limit l] = (filter', .ok ())
      ∧ filter'.limitClause
        = "LIMIT " ++ toString n ++ offsetText filter.offset
      ∧ Stands cap l n ∧ 0 ≤ n ∧ n ≤ l
  /-- A negative offset is refused and changes nothing. -/
  negative_offset (filter : Filter) {o : Int} (h : o < 0) :
    filter.setAll cap [.offset o]
      = (filter, .error (.negativePagination "offset" o))
  /-- No clause has a negative number in it: the server finds no minus sign. -/
  unsigned {filter : Filter} (h : Reached cap filter) :
    ∃ ts, Spells filter.limitClause ts ∧ .symbol "-" ∉ ts

-- ============================================================== limits

/-- The limit under a cap. -/
def capped (cap : Option Int) (l : Int) : Int :=
  match cap with
  | some c => if l > c then c else l
  | none => l

/-- A limit stands for itself or for the cap, whichever is less. -/
theorem stands_capped (cap : Option Int) (l : Int) :
    Stands cap l (capped cap l) := by
  cases cap with
  | none => exact ⟨fun _ => rfl, nofun⟩
  | some c =>
    constructor
    · intro hwithin
      exact if_neg (Int.not_lt.2 (hwithin c rfl))
    · intro c' hc' habove
      cases hc'
      exact if_pos habove

/-- No cap raises a limit. -/
theorem capped_le (cap : Option Int) (l : Int) : capped cap l ≤ l := by
  cases cap with
  | none => exact Int.le_refl l
  | some c =>
    show (if l > c then c else l) ≤ l
    split
    · omega
    · exact Int.le_refl l

/-- A cap that is not negative makes no limit negative. -/
theorem capped_nonneg (hcap : ∀ c, cap = some c → 0 ≤ c) (hl : 0 ≤ l) :
    0 ≤ capped cap l := by
  cases cap with
  | none => exact hl
  | some c =>
    show 0 ≤ if l > c then c else l
    split
    · exact hcap c rfl
    · exact hl

/-- A negative limit is refused. -/
theorem set_limit_of_neg (h : l < 0) :
    filter.set cap (.limit l) = .error (.negativePagination "limit" l) :=
  if_pos h

/-- Any other is cut to the cap. -/
theorem set_limit (h : 0 ≤ l) :
    filter.set cap (.limit l)
      = .ok { filter with limit := some (capped cap l) } := by
  have hnot : ¬l < 0 := Int.not_lt.2 h
  show (if l < 0 then _ else _) = _
  rw [if_neg hnot]
  cases cap <;> rfl

/-- A negative offset is refused. -/
theorem set_offset_of_neg (h : o < 0) :
    filter.set cap (.offset o) = .error (.negativePagination "offset" o) :=
  if_pos h

/-- Any other is taken as it is. -/
theorem set_offset (h : 0 ≤ o) :
    filter.set cap (.offset o) = .ok { filter with offset := some o } :=
  if_neg (Int.not_lt.2 h)

/-- A single part that is refused is assigned as it is set. -/
theorem setAll_of_error {part : Part} {e : FilterError}
    (h : filter.set cap part = .error e) :
    filter.setAll cap [part] = (filter, .error e) := by
  rw [setAll, h]

/-- And so is one that is accepted. -/
theorem setAll_of_ok {part : Part} (h : filter.set cap part = .ok filter') :
    filter.setAll cap [part] = (filter', .ok ()) := by
  rw [setAll, h]
  rfl

/-- With a limit there is a clause for it, and for the offset behind it. -/
theorem limitClause_of_limit (h : filter.limit = some n) :
    filter.limitClause
      = "LIMIT " ++ toString n ++ offsetText filter.offset := by
  unfold limitClause
  rw [h]
  cases filter.offset with
  | none => exact String.append_empty.symm
  | some o => exact String.append_assoc

-- ============================================================ invariant

/-- No number of the pagination is negative. -/
structure NonNegative (filter : Filter) : Prop where
  limit : ∀ l, filter.limit = some l → 0 ≤ l
  offset : ∀ o, filter.offset = some o → 0 ≤ o

/-- A part that is set keeps it, if the cap is not negative either. -/
theorem NonNegative.set {part : Part} (hcap : ∀ c, cap = some c → 0 ≤ c)
    (hf : filter.NonNegative)
    (h : filter.set cap part = .ok filter') : filter'.NonNegative := by
  cases part with
  | select columns =>
    obtain ⟨_, _, h⟩ := bind_eq_ok.1 h
    cases h
    exact ⟨hf.limit, hf.offset⟩
  | condition value =>
    obtain ⟨_, _, h⟩ := bind_eq_ok.1 h
    cases h
    exact ⟨hf.limit, hf.offset⟩
  | order value =>
    obtain ⟨_, _, h⟩ := bind_eq_ok.1 h
    cases h
    exact ⟨hf.limit, hf.offset⟩
  | limit l =>
    by_cases hl : l < 0
    · rw [set_limit_of_neg hl] at h
      cases h
    · rw [set_limit (Int.not_lt.1 hl)] at h
      cases h
      refine ⟨fun n hn => ?_, hf.offset⟩
      cases hn
      exact capped_nonneg hcap (Int.not_lt.1 hl)
  | offset o =>
    by_cases ho : o < 0
    · rw [set_offset_of_neg ho] at h
      cases h
    · rw [set_offset (Int.not_lt.1 ho)] at h
      cases h
      refine ⟨hf.limit, fun n hn => ?_⟩
      cases hn
      exact Int.not_lt.1 ho

/-- Assigning parts leaves no negative number, if the cap is none. -/
theorem NonNegative.setAll {parts : List Part}
    (hcap : ∀ c, cap = some c → 0 ≤ c)
    (hf : filter.NonNegative) : (filter.setAll cap parts).1.NonNegative := by
  induction parts generalizing filter with
  | nil => exact hf
  | cons part rest ih =>
    unfold Filter.setAll
    cases h : filter.set cap part with
    | error e => exact hf
    | ok filter' => exact ih (hf.set hcap h)

/-- So no filter that can be reached has one. -/
theorem Reached.nonNegative (hcap : ∀ c, cap = some c → 0 ≤ c)
    (h : Reached cap filter) : filter.NonNegative := by
  induction h with
  | empty => exact ⟨nofun, nofun⟩
  | setAll _ _ ih => exact ih.setAll hcap

/-- A number that is not negative is written without a sign. -/
theorem minus_notMem_intTokens (h : 0 ≤ n) : .symbol "-" ∉ intTokens n := by
  cases n with
  | ofNat n => simp [intTokens]
  | negSucc n => exact absurd h (by omega)

/-- So its clause has none, either. -/
theorem NonNegative.minus_notMem (hf : filter.NonNegative) :
    .symbol "-" ∉ filter.limitTokens := by
  unfold limitTokens
  cases hl : filter.limit with
  | none =>
    cases ho : filter.offset with
    | none => simp
    | some o => simpa using minus_notMem_intTokens (hf.offset o ho)
  | some l =>
    have hlimit := minus_notMem_intTokens (hf.limit l hl)
    cases ho : filter.offset with
    | none => simpa using hlimit
    | some o => simpa using ⟨hlimit, minus_notMem_intTokens (hf.offset o ho)⟩

-- ========================================================= environment

/-- The cap is what the variable says, if it is set, and positive if it is
not. -/
theorem nonneg_maxLimit_iff (env : Environment) :
    (∀ c, (Config.ofEnvironment env).filter.maxLimit = some c → 0 ≤ c)
      ↔ ∀ c,
        (env "FILTER_MAX_LIMIT").bind (Text.readInt? 0x80000000) = some c →
          0 ≤ c := by
  have hdefault :
      ∀ stage c, (Config.defaults stage).filter.maxLimit = some c → 0 ≤ c := by
    intro stage c hc
    cases stage <;> cases hc <;> decide
  show (∀ c, (Config.overrideFilter env _).maxLimit = some c → 0 ≤ c) ↔ _
  unfold Config.overrideFilter
  cases env "FILTER_MAX_LIMIT" with
  | none => exact ⟨fun _ => nofun, fun _ => hdefault _⟩
  | some text => exact .rfl

/-- With such a cap pagination is as promised. -/
theorem paginates_of_nonneg (hcap : ∀ c, cap = some c → 0 ≤ c) :
    Paginates cap where
  negative_limit _ _ h := setAll_of_error (set_limit_of_neg h)
  limit _ l h :=
    ⟨_, capped cap l, setAll_of_ok (set_limit h), limitClause_of_limit rfl,
    stands_capped cap l, capped_nonneg hcap h, capped_le cap l⟩
  negative_offset _ _ h := setAll_of_error (set_offset_of_neg h)
  unsigned h := ⟨_, spells_limitClause _, (h.nonNegative hcap).minus_notMem⟩

/-- A limit of zero shows a negative cap. -/
theorem Paginates.nonneg (h : Paginates cap) {c : Int} (hc : cap = some c) :
    0 ≤ c := by
  obtain ⟨_, n, -, -, hstands, hn, -⟩ := h.limit .empty (Int.le_refl 0)
  by_cases hnegative : c < 0
  · rw [hstands.2 c hc hnegative] at hn
    exact hn
  · exact Int.not_lt.1 hnegative

/-- Negative limits and offsets are refused, every other limit stands in the
clause as it is or as the cap, and all numbers that ever stand there are at
least zero: this is so in an environment if and only if the cap that is
set in it, if one is, does not read as a negative number. -/
theorem paginates_iff (env : Environment) :
    Paginates (Config.ofEnvironment env).filter.maxLimit
      ↔ ∀ c,
        (env "FILTER_MAX_LIMIT").bind (Text.readInt? 0x80000000) = some c →
          0 ≤ c := by
  rw [← nonneg_maxLimit_iff]
  constructor
  · intro h c hc
    exact h.nonneg hc
  · intro h
    exact paginates_of_nonneg h

/-- An environment in which the cap is a negative number. -/
def negativeCap : Environment := .ofList [("FILTER_MAX_LIMIT", "-5")]

/-- There, a limit of zero is taken and a negative number rendered for it. -/
theorem negative_cap_is_rendered :
    ¬Paginates (Config.ofEnvironment negativeCap).filter.maxLimit
      ∧ (Filter.setAll
        (Config.ofEnvironment negativeCap).filter.maxLimit .empty
          [.limit 0]).1.limitClause = "LIMIT -5" := by
  have hcap :
      (Config.ofEnvironment negativeCap).filter.maxLimit = some (-5) := by
    decide
  rw [hcap]
  refine ⟨fun h => ?_, by decide⟩
  exact absurd (h.nonneg rfl) (by decide)

end Tenancy.Filter
