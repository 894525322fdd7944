/-
Whether a table's column has a foreign key, as a backfill asks it. The
question joins the constraints of the catalog with the columns of keys,
by the constraints' names. But a name belongs to a constraint only within
one table; another table may have a key of the same name. So the answer
is yes if a foreign key of the table has its name from a key, of any
table, on the column (`foreignKeyAnswer_iff`).

It is wrong, then, for the tables that are misled: without a foreign key
on the column, but with one that bears the name of another table's key on
it. These are all for which it is wrong, and a backfill that enforces
such a table leaves it as it is, without the foreign key
(`asks_rightly_iff`).
-/
import Tenancy.Backfill.Database
import Tenancy.Proofs.Backfill.Footprint

namespace Tenancy.Backfill

open Program Sql
open Stamp (organizationColumn)

-- ========================================================= constraints

/-- The kinds of constraints. -/
inductive ConstraintKind where
  | check
  | unique
  | primaryKey
  | foreignKey
deriving DecidableEq

/-- The kind of a constraint as the catalog spells it. -/
def ConstraintKind.text : ConstraintKind → String
  | .check => "CHECK"
  | .unique => "UNIQUE"
  | .primaryKey => "PRIMARY KEY"
  | .foreignKey => "FOREIGN KEY"

/-- Only one kind is spelled so. -/
theorem ConstraintKind.text_eq_foreignKey {kind : ConstraintKind} :
    kind.text = "FOREIGN KEY" ↔ kind = .foreignKey := by
  cases kind <;> decide

/-- A constraint of a table, on some of its columns. -/
structure TableConstraint where
  schema : String
  table : String
  name : String
  kind : ConstraintKind
  columns : List String
deriving DecidableEq

namespace TableConstraint

/-- Its row in the view of constraints. -/
def row (c : TableConstraint) : CatalogRow
  | "constraint_name" => c.name
  | "table_schema" => c.schema
  | "table_name" => c.table
  | "constraint_type" => c.kind.text
  | _ => ""

/-- The row of one of its columns in the view of the columns of keys. -/
def usage (c : TableConstraint) (column : String) : CatalogRow
  | "constraint_name" => c.name
  | "table_schema" => c.schema
  | "table_name" => c.table
  | "column_name" => column
  | _ => ""

/-- The rows of its columns; only those of keys are listed. -/
def usages (c : TableConstraint) : List CatalogRow :=
  if c.kind = .check then [] else c.columns.map c.usage

end TableConstraint

/-- The catalog of a database with these constraints, where names resolve in a
schema. -/
def Catalog.ofConstraints (schema : String)
    (constraints : List TableConstraint) : Catalog :=
  ⟨schema, constraints.map (·.row), constraints.flatMap (·.usages)⟩

variable {schema table column : String}
  {constraints constraints' : List TableConstraint} {c d : TableConstraint}

/-- No table has two constraints of one name. -/
def UniqueNames (constraints : List TableConstraint) : Prop :=
  ∀ c ∈ constraints, ∀ d ∈ constraints, c.schema = d.schema →
    c.table = d.table → c.name = d.name → c = d

instance : Decidable (UniqueNames constraints) :=
  inferInstanceAs
    (Decidable (∀ c ∈ constraints, ∀ d ∈ constraints, _ → _ → _ → c = d))

/-- The constraint is a foreign key of the table. -/
def TableConstraint.IsForeignKeyOf (c : TableConstraint)
    (schema table : String) : Prop :=
  c.kind = .foreignKey ∧ c.schema = schema ∧ c.table = table

instance : Decidable (c.IsForeignKeyOf schema table) :=
  inferInstanceAs (Decidable (_ ∧ _ ∧ _))

/-- A foreign key lists its columns, as a check does not. -/
theorem TableConstraint.IsForeignKeyOf.kind_ne
    (h : c.IsForeignKeyOf schema table) : c.kind ≠ .check := by
  rw [h.1]
  decide

/-- The constraint is a key on a column, and maybe on others. -/
def TableConstraint.IsKeyOn (c : TableConstraint) (schema column : String) :
    Prop :=
  c.kind ≠ .check ∧ c.schema = schema ∧ column ∈ c.columns

instance : Decidable (c.IsKeyOn schema column) :=
  inferInstanceAs (Decidable (_ ∧ _ ∧ _))

/-- A table has a foreign key on a column. -/
def HasForeignKey (schema : String) (constraints : List TableConstraint)
    (table column : String) : Prop :=
  ∃ c ∈ constraints, c.IsForeignKeyOf schema table ∧ column ∈ c.columns

instance : Decidable (HasForeignKey schema constraints table column) :=
  inferInstanceAs (Decidable (∃ c ∈ constraints, _ ∧ _))

/-- A table has no foreign key on a column, but one that bears the name of
another table's key on it. -/
def Misled (schema : String) (constraints : List TableConstraint)
    (table column : String) : Prop :=
  ¬HasForeignKey schema constraints table column
    ∧ ∃ c ∈ constraints, c.IsForeignKeyOf schema table
      ∧ ∃ d ∈ constraints,
        d.IsKeyOn schema column ∧ d.name = c.name ∧ d.table ≠ table

instance : Decidable (Misled schema constraints table column) :=
  inferInstanceAs
    (Decidable (¬_ ∧ ∃ c ∈ constraints, _ ∧ ∃ d ∈ constraints, _ ∧ _ ∧ _))

-- ======================================================== the question

/-- What the question about a table and a column is answered, by these
constraints. -/
def foreignKeyAnswer (schema : String) (constraints : List TableConstraint)
    (table column : String) : Bool :=
  foreignKeyQuestion.holds (.ofConstraints schema constraints) [table, column]

/-- The catalog lists a constraint once for each of its columns. -/
theorem mem_usages {u : CatalogRow} :
    u ∈ d.usages
      ↔ d.kind ≠ .check ∧ ∃ column ∈ d.columns, d.usage column = u := by
  unfold TableConstraint.usages
  split
  · simp [*]
  · simp [*]

/-- What two rows must have to count as an answer. -/
theorem tests_hold_iff {catalog : Catalog} {name : String} :
    ((foreignKeyQuestion.joined ++ foreignKeyQuestion.required).all
      (·.holds catalog [table, column] c.row (d.usage name))) = true
      ↔ c.IsForeignKeyOf catalog.schema table ∧ d.schema = catalog.schema
        ∧ d.name = c.name
        ∧ name = column := by
  simp only [foreignKeyQuestion, List.cons_append, List.nil_append,
    List.all_cons, List.all_nil, Bool.and_true, Bool.and_eq_true,
    CatalogTest.holds, beq_iff_eq, CatalogColumn.value, CatalogOperand.value,
    TableConstraint.row, TableConstraint.usage,
    ConstraintKind.text_eq_foreignKey, TableConstraint.IsForeignKeyOf]
  constructor
  · rintro ⟨hname, hschema, hkind, hcurrent, htable, hcolumn⟩
    exact ⟨⟨hkind, hcurrent, htable⟩, hschema.symm.trans hcurrent, hname.symm,
      hcolumn⟩
  · rintro ⟨⟨hkind, hcurrent, htable⟩, hschema, hname, hcolumn⟩
    exact ⟨hname.symm, hcurrent.trans hschema.symm, hkind, hcurrent, htable,
      hcolumn⟩

/-- What is asked joins a foreign key of the table with any key on the column
that has the same name. -/
theorem foreignKeyAnswer_iff :
    foreignKeyAnswer schema constraints table column = true
      ↔ ∃ c ∈ constraints, c.IsForeignKeyOf schema table
        ∧ ∃ d ∈ constraints, d.IsKeyOn schema column ∧ d.name = c.name := by
  simp only [foreignKeyAnswer, CatalogQuestion.holds, Catalog.ofConstraints,
    List.any_eq_true, List.mem_map, List.mem_flatMap, mem_usages]
  constructor
  · rintro ⟨_, ⟨c, hc, rfl⟩, _, ⟨d, hd, hkey, name, hname, rfl⟩, htests⟩
    obtain ⟨hforeign, hschema, hsame, rfl⟩ := tests_hold_iff.1 htests
    exact ⟨c, hc, hforeign, d, hd, ⟨hkey, hschema, hname⟩, hsame⟩
  · rintro ⟨c, hc, hforeign, d, hd, ⟨hkey, hschema, hcolumn⟩, hsame⟩
    exact ⟨_, ⟨c, hc, rfl⟩, _, ⟨d, hd, hkey, column, hcolumn, rfl⟩,
      tests_hold_iff.2 ⟨hforeign, hschema, hsame, rfl⟩⟩

/-- A foreign key that is there is found. -/
theorem HasForeignKey.answer
    (h : HasForeignKey schema constraints table column) :
    foreignKeyAnswer schema constraints table column = true := by
  obtain ⟨c, hc, hforeign, hcolumn⟩ := h
  exact foreignKeyAnswer_iff.2
    ⟨c, hc, hforeign, c, hc, ⟨hforeign.kind_ne, hforeign.2.1, hcolumn⟩, rfl⟩

/-- The answer is yes for the tables with a foreign key, and for those that are
misled. -/
theorem foreignKeyAnswer_iff_has_or_misled
    (hunique : UniqueNames constraints) :
    foreignKeyAnswer schema constraints table column = true
      ↔ HasForeignKey schema constraints table column
        ∨ Misled schema constraints table column := by
  constructor
  · intro h
    by_cases hhas : HasForeignKey schema constraints table column
    · exact .inl hhas
    · obtain ⟨c, hc, hforeign, d, hd, hkey, hname⟩ := foreignKeyAnswer_iff.1 h
      refine .inr
        ⟨hhas, c, hc, hforeign, d, hd, hkey, hname, fun htable => hhas ?_⟩
      have hsame : d = c :=
        hunique d hd c hc (hkey.2.1.trans hforeign.2.1.symm)
          (htable.trans hforeign.2.2.symm) hname
      subst hsame
      exact ⟨d, hd, hforeign, hkey.2.2⟩
  · rintro (hhas | ⟨-, c, hc, hforeign, d, hd, hkey, hname, -⟩)
    · exact hhas.answer
    · exact foreignKeyAnswer_iff.2 ⟨c, hc, hforeign, d, hd, hkey, hname⟩

-- ============================================================ the keys

/-- The same keys; what else there is may differ. -/
def SameKeys (constraints constraints' : List TableConstraint) : Prop :=
  ∀ c : TableConstraint, c.kind ≠ .check → (c ∈ constraints ↔ c ∈ constraints')

namespace SameKeys

/-- Nothing has changed. -/
theorem refl (constraints : List TableConstraint) :
    SameKeys constraints constraints :=
  fun _ _ => Iff.rfl

/-- Changes that keep the keys may follow each other. -/
theorem trans {constraints'' : List TableConstraint}
    (h : SameKeys constraints constraints')
    (h' : SameKeys constraints' constraints'') :
    SameKeys constraints constraints'' :=
  fun c hc => (h c hc).trans (h' c hc)

/-- To keep the keys is to lose none and to add none. -/
theorem symm (h : SameKeys constraints constraints') :
    SameKeys constraints' constraints :=
  fun c hc => (h c hc).symm

/-- The foreign keys of a table stay. -/
theorem mem_foreignKey (h : SameKeys constraints constraints')
    (hc : c ∈ constraints)
    (hforeign : c.IsForeignKeyOf schema table) : c ∈ constraints' :=
  (h c hforeign.kind_ne).1 hc

/-- And so does what they say of a column. -/
theorem hasForeignKey (h : SameKeys constraints constraints')
    (hhas : HasForeignKey schema constraints table column) :
    HasForeignKey schema constraints' table column := by
  obtain ⟨c, hc, hforeign, hcolumn⟩ := hhas
  exact ⟨c, h.mem_foreignKey hc hforeign, hforeign, hcolumn⟩

theorem hasForeignKey_iff (h : SameKeys constraints constraints') :
    HasForeignKey schema constraints table column
      ↔ HasForeignKey schema constraints' table column :=
  ⟨h.hasForeignKey, h.symm.hasForeignKey⟩

/-- The catalog answers as it did before. -/
theorem answer (h : SameKeys constraints constraints')
    (hanswer : foreignKeyAnswer schema constraints table column = true) :
    foreignKeyAnswer schema constraints' table column = true := by
  obtain ⟨c, hc, hforeign, d, hd, hkey, hname⟩ :=
    foreignKeyAnswer_iff.1 hanswer
  exact foreignKeyAnswer_iff.2
    ⟨c, h.mem_foreignKey hc hforeign, hforeign, d, (h d hkey.1).1 hd, hkey,
      hname⟩

/-- The answer depends on the keys only. -/
theorem answer_eq (h : SameKeys constraints constraints') :
    foreignKeyAnswer schema constraints table column
      = foreignKeyAnswer schema constraints' table column :=
  Bool.eq_iff_iff.2 ⟨h.answer, h.symm.answer⟩

end SameKeys

-- =========================================================== the server

namespace DatabaseStore

variable {σ : Type} {server : World serverInterface σ}
  {listed : σ → List TableConstraint} {s s' : σ} {call : StoreCall}

/-- The calls of a store, answered by the statements that a server runs. -/
def world (server : World serverInterface σ) : World storeInterface σ :=
  fun call => (answer call).run server

/-- The statements that fill, check and tighten a table and record its steps.
None of them makes a key or takes one away. -/
inductive MakesNoKey : Statement → Prop
  | derivedFromParent {table parent key : String} :
      MakesNoKey (deriveFromParent table parent key)
  | derivedFromOwner {table owner : String} :
      MakesNoKey (deriveFromOwner table owner)
  | defaulted {table : String} {organization : Uuid} :
      MakesNoKey (applyDefault table organization)
  | counted {table : String} : MakesNoKey (countMissing table)
  | asked {table : String} : MakesNoKey (columnNullability table)
  | mandatory {table : String} : MakesNoKey (setNotNull table)
  | recorded {fingerprint key : String} :
      MakesNoKey (insertStep fingerprint key)

/-- A server that lists its constraints: it answers the question about a table
by what is listed, and the table has a foreign key once it is added. -/
structure Catalogued (server : World serverInterface σ)
    (listed : σ → List TableConstraint) (schema table : String) : Prop where
  answers : ∀ s, server (foreignKeyExists table) s = (.ok ⟨[[("exists",
    .bool (foreignKeyAnswer schema (listed s) table organizationColumn))]], 0⟩,
      s)
  keeps :
    ∀ statement s, MakesNoKey statement →
    SameKeys (listed s) (listed (server statement s).2)
  adds : ∀ s reply s', server (addConstraint table) s = (.ok reply, s') →
    HasForeignKey schema (listed s') table organizationColumn

-- A call makes no key if none of its statements does.

/-- A query keeps to some statements if its first one is one of them and the
rest keeps to them. -/
theorem callsOnly_run {α : Type} {Of : serverInterface.Call → Prop}
    {statement : Statement}
    {f : Reply → Query α} (h : Of statement)
    (hf : ∀ reply, CallsOnly Of (ExceptT.run (f reply))) :
    CallsOnly Of (ExceptT.run (DatabaseStore.run statement >>= f)) :=
  CallsOnly.bind ⟨h, fun _ => trivial⟩ hf

/-- A call that makes no key. -/
def IsKeyless (call : StoreCall) : Prop :=
  CallsOnly (I := serverInterface) MakesNoKey (answer call)

theorem isKeyless_columnIsNullable : IsKeyless (.columnIsNullable table) := by
  refine CallsOnly.bind (callsOnly_run .asked fun reply => ?_) fun _ =>
    callsOnly_pure
  unfold SqlProgram.firstRow
  split
  · exact callsOnly_pure
  · exact CallsOnly.bind trivial fun _ => callsOnly_pure

theorem isKeyless_countMissing : IsKeyless (.countMissing table) :=
  callsOnly_run .counted fun _ => CallsOnly.bind trivial fun _ =>
    callsOnly_pure

/-- To make a column mandatory makes no key. -/
theorem isKeyless_setNotNull : IsKeyless (.setNotNull table) :=
  callsOnly_run .mandatory fun _ => callsOnly_pure

/-- And neither does a checkpoint. -/
theorem isKeyless_recordStep {fingerprint key : String} :
    IsKeyless (.recordStep fingerprint key) :=
  callsOnly_run .recorded fun _ => callsOnly_pure

/-- What is asked for while a table is filled makes no key. -/
theorem isKeyless_of_covers {c : Checkpoints}
    (h : c.Covers [.derive table, .verify table] call) : IsKeyless call := by
  rcases h with ⟨step, hstep, hcall⟩ | ⟨-, step, -, rfl⟩
  · cases call
    case deriveFromParent =>
      exact callsOnly_run .derivedFromParent fun _ => callsOnly_pure
    case deriveFromOwner =>
      exact callsOnly_run .derivedFromOwner fun _ => callsOnly_pure
    case applyDefault => exact callsOnly_run .defaulted fun _ => callsOnly_pure
    case countMissing => exact isKeyless_countMissing
    all_goals cases hcall <;> simp at hstep
  · exact isKeyless_recordStep

/-- What makes such calls only leaves the keys as they are. -/
theorem sameKeys_of_callsOnly {α : Type} {p : StoreProgram α}
    (hserver : Catalogued server listed schema table)
    (hp : CallsOnly IsKeyless (ExceptT.run p))
    {a : α} (h : Succeeds (world server) p s a s') :
    SameKeys (listed s) (listed s') := by
  have hstatement :
      ∀ statement u, SameKeys (listed s) (listed u) → MakesNoKey statement →
      SameKeys (listed s) (listed (server statement u).2) :=
    fun statement u hu hnone => hu.trans (hserver.keeps statement u hnone)
  have hcall : ∀ call u, SameKeys (listed s) (listed u) → IsKeyless call →
      SameKeys (listed s) (listed (world server call u).2) :=
    fun call u hu hcall => (hcall.abidesBy server u).final hstatement hu
  exact hp.final hcall (.refl _) h

-- ================================================================ runs

/-- A statement has run if the server has replied. -/
theorem succeeds_run {statement : Statement} {reply : Reply} :
    Succeeds server (DatabaseStore.run statement) s reply s'
      ↔ server statement s = (.ok reply, s') := by
  show ((server statement s).1.mapError BackfillError.sql,
      (server statement s).2) = (.ok reply, s') ↔ _
  cases server statement s with
  | mk result s₁ =>
    cases result with
    | error e => exact ⟨nofun, nofun⟩
    | ok reply' =>
      constructor
      · rintro ⟨⟩
        rfl
      · rintro ⟨⟩
        rfl

/-- The question is answered by what is listed. -/
theorem Catalogued.asks (hserver : Catalogued server listed schema table)
    {found : Bool}
    (h : Succeeds (world server) (ask (.foreignKeyExists table)) s found s') :
    found = foreignKeyAnswer schema (listed s) table organizationColumn
      ∧ s' = s := by
  have h : Succeeds server (scalar (foreignKeyExists table)) s found s' := h
  obtain ⟨reply, s₁, hrun, hvalue⟩ := succeeds_bind.1 h
  cases (hserver.answers s).symm.trans (succeeds_run.1 hrun)
  cases hvalue
  exact ⟨rfl, rfl⟩

/-- Where the key is added, the catalog lists it. -/
theorem Catalogued.hasForeignKey
    (hserver : Catalogued server listed schema table)
    (h : Succeeds (world server) (ask (.addForeignKey table)) s () s') :
    HasForeignKey schema (listed s') table organizationColumn := by
  have h : Succeeds server (addForeignKey table) s () s' := h
  obtain ⟨_, s₁, -, hadd⟩ := succeeds_bind.1 h
  obtain ⟨reply, s₂, hrun, hdone⟩ := succeeds_bind.1 hadd
  obtain ⟨-, rfl⟩ := succeeds_pure.1 hdone
  exact hserver.adds s₁ reply s₂ (succeeds_run.1 hrun)

variable {c : Checkpoints} {organization : Uuid} {entry : Entry}
  {report report' : TableReport}

theorem callsOnly_ask_isKeyless (h : IsKeyless call) :
    CallsOnly IsKeyless (ExceptT.run (ask call)) :=
  ⟨h, fun _ => trivial⟩

/-- Where the question is answered no, the foreign key is added, and where it
is answered yes, the keys are left as they are. -/
theorem Catalogued.enforced (hserver : Catalogued server listed schema table)
    (hdue : ¬c.isDone (stepKey "enforce" table) = true)
    (h : Succeeds (world server) (enforce c table report) s report' s') :
    report'.foreignKeyAdded
      = !foreignKeyAnswer schema (listed s) table organizationColumn
      ∧ (HasForeignKey schema (listed s') table organizationColumn
        ↔ report'.foreignKeyAdded = true
          ∨ HasForeignKey schema (listed s) table organizationColumn) := by
  have h := (succeeds_if_neg hdue).1 h
  obtain ⟨nullable, s₁, hask, h⟩ := succeeds_bind.1 h
  obtain ⟨s₂, htighten, h⟩ := succeeds_when.1 h
  obtain ⟨found, s₃, hquestion, h⟩ := succeeds_bind.1 h
  obtain ⟨s₄, hadd, h⟩ := succeeds_when.1 h
  obtain ⟨_, s₅, hmark, h⟩ := succeeds_bind.1 h
  obtain ⟨rfl, rfl⟩ := succeeds_pure.1 h
  obtain ⟨rfl, rfl⟩ := hserver.asks hquestion
  have hbefore : SameKeys (listed s) (listed s₃) := by
    have hasked : SameKeys (listed s) (listed s₁) :=
      sameKeys_of_callsOnly hserver
        (callsOnly_ask_isKeyless isKeyless_columnIsNullable) hask
    rcases htighten with ⟨-, hset⟩ | ⟨-, rfl⟩
    · exact hasked.trans
        (sameKeys_of_callsOnly hserver
          (callsOnly_ask_isKeyless isKeyless_setNotNull) hset)
    · exact hasked
  have hmarked : SameKeys (listed s₄) (listed s₅) := by
    refine sameKeys_of_callsOnly hserver ?_ hmark
    exact .ite (fun _ => callsOnly_ask_isKeyless isKeyless_recordStep) fun _ =>
      callsOnly_pure
  refine ⟨by rw [hbefore.answer_eq], ?_⟩
  rw [hbefore.hasForeignKey_iff, ← hmarked.hasForeignKey_iff]
  rcases hadd with ⟨hnew, hadd⟩ | ⟨hold, rfl⟩
  · exact iff_of_true (hserver.hasForeignKey hadd) (.inl hnew)
  · exact (or_iff_right hold).symm

/-- And so it is with a table that is filled and checked first. -/
theorem Catalogued.backfilled
    (hserver : Catalogued server listed schema entry.table)
    (hdue : ¬c.isDone (stepKey "enforce" entry.table) = true)
    (h : Succeeds (world server) (backfillTable c organization entry report) s
      report' s') :
    report'.foreignKeyAdded
      = !foreignKeyAnswer schema (listed s) entry.table organizationColumn
      ∧ (HasForeignKey schema (listed s') entry.table organizationColumn
        ↔ report'.foreignKeyAdded = true
          ∨ HasForeignKey schema (listed s) entry.table
            organizationColumn) := by
  obtain ⟨filled, s₁, hfill, h⟩ := succeeds_bind.1 h
  obtain ⟨_, s₂, hverify, h⟩ := succeeds_bind.1 h
  have hbefore : SameKeys (listed s) (listed s₂) := by
    have hkeyless :
        ∀ call, c.Covers [.derive entry.table, .verify entry.table] call →
        IsKeyless call := fun _ => isKeyless_of_covers
    have hfilled :=
      sameKeys_of_callsOnly hserver
        ((callsOnly_fill (by simp)).mono hkeyless) hfill
    have hverified :=
      sameKeys_of_callsOnly hserver
        ((callsOnly_verify (by simp) (by simp)).mono hkeyless) hverify
    exact hfilled.trans hverified
  rw [hbefore.answer_eq, hbefore.hasForeignKey_iff]
  exact hserver.enforced hdue h

end DatabaseStore

open DatabaseStore

-- ====================================================== a small server

/-- A server with one table, which is without gaps and mandatory, and with the
constraints of any. -/
def tableServer (table : String) :
    World serverInterface (List TableConstraint) :=
  fun (statement : Statement) s =>
  if statement = foreignKeyExists table then
    (.ok ⟨[[("exists",
      .bool (foreignKeyAnswer "public" s table organizationColumn))]], 0⟩, s)
  else if statement = addConstraint table then
    (.ok ⟨[], 0⟩,
      ⟨"public", table, constraintName table, .foreignKey,
        [organizationColumn]⟩ :: s)
  else if statement = countMissing table then
    (.ok ⟨[[("count", .int8 0)]], 0⟩, s)
  else (.ok ⟨[], 0⟩, s)

/-- A text ends as its last part does. -/
theorem getLast?_append {front last : String} (h : last.toList ≠ []) :
    (front ++ last).toList.getLast? = last.toList.getLast? := by
  rw [String.toList_append, List.getLast?_append_of_ne_nil _ h]

/-- To add a key is none of the statements that make none: they end
otherwise. -/
theorem not_makesNoKey_addConstraint : ¬MakesNoKey (addConstraint table) := by
  intro h
  generalize hstatement : addConstraint table = statement at h
  have hlast : (addConstraint table).text.toList.getLast? = some 'E' :=
    getLast?_append (by decide)
  rw [hstatement] at hlast
  cases h with
  | defaulted | asked | recorded => cases congrArg Statement.params hstatement
  | derivedFromParent | derivedFromOwner | counted | mandatory =>
    cases hlast.symm.trans (getLast?_append (by decide))

/-- The small server keeps such a catalog. -/
theorem catalogued_tableServer (table : String) :
    Catalogued (tableServer table) id "public" table where
  answers s := if_pos rfl
  keeps statement s h := by
    have hadd : statement ≠ addConstraint table := by
      rintro rfl
      exact not_makesNoKey_addConstraint h
    have hkept : (tableServer table statement s).2 = s := by
      unfold tableServer
      rw [if_neg hadd]
      split_ifs <;> rfl
    rw [hkept]
    exact .refl _
  adds s reply s' h := by
    have hquestion : addConstraint table ≠ foreignKeyExists table :=
      fun hsame => nomatch congrArg Statement.params hsame
    have hadded : tableServer table (addConstraint table) s = _ :=
      (if_neg hquestion).trans (if_pos rfl)
    cases hadded.symm.trans h
    exact ⟨_, List.mem_cons_self, ⟨rfl, rfl, rfl⟩, List.mem_cons_self⟩

/-- Two tables: `docs` with a foreign key of some name on another column, and
`tasks` with one named `tenant_key` on the organization. -/
def docsAndTasks (name : String) : List TableConstraint := [
  ⟨"public", "docs", name, .foreignKey, ["user_id"]⟩,
  ⟨"public", "tasks", "tenant_key", .foreignKey, [organizationColumn]⟩]

/-- A backfill of `docs` that goes by no record. -/
def backfillDocs : StoreProgram TableReport :=
  backfillTable ⟨false, "", []⟩ (.ofNat 1) ⟨"docs", .defaultOnly⟩
    (.start "docs")

-- ========================================================== the answer

/-- The question is answered rightly for the tables that are not misled, and
for no others. And a backfill that has a table's enforcement to do takes the
foreign key for granted only if it is there, and ends with it there, if and
only if the table is not misled. -/
theorem asks_rightly_iff (entry : Entry) (hunique : UniqueNames constraints) :
    ((foreignKeyAnswer schema constraints entry.table organizationColumn = true
          ↔ HasForeignKey schema constraints entry.table organizationColumn)
        ↔ ¬Misled schema constraints entry.table organizationColumn)
    ∧ ∀ {σ : Type} {server : World serverInterface σ}
      {listed : σ → List TableConstraint} {s s' : σ}
        {c : Checkpoints} {organization : Uuid} {report report' : TableReport},
      Catalogued server listed schema entry.table → listed s = constraints →
      ¬c.isDone (stepKey "enforce" entry.table) = true →
      Succeeds (world server) (backfillTable c organization entry report) s
        report' s' →
      ((report'.foreignKeyAdded = false
            → HasForeignKey schema constraints entry.table organizationColumn)
          ↔ ¬Misled schema constraints entry.table organizationColumn)
        ∧ (HasForeignKey schema (listed s') entry.table organizationColumn
          ↔ ¬Misled schema constraints entry.table organizationColumn) := by
  have hanswer :
      foreignKeyAnswer schema constraints entry.table organizationColumn = true
      ↔ _ :=
    foreignKeyAnswer_iff_has_or_misled hunique
  rw [hanswer]
  refine ⟨⟨fun h hmisled => hmisled.1 (h.1 (.inr hmisled)), or_iff_left⟩, ?_⟩
  intro σ server listed s s' c organization report report' hserver hlisted
    hdue hrun
  subst hlisted
  obtain ⟨hadded, hkey⟩ := hserver.backfilled hdue hrun
  have hgranted : report'.foreignKeyAdded = false
      ↔ HasForeignKey schema (listed s) entry.table organizationColumn
        ∨ Misled schema (listed s) entry.table organizationColumn := by
    rw [hadded, Bool.not_eq_false', hanswer]
  refine ⟨⟨?_, ?_⟩, hkey.trans ⟨?_, ?_⟩⟩
  · exact fun h hmisled => hmisled.1 (h (hgranted.2 (.inr hmisled)))
  · exact fun hnot hold => (hgranted.1 hold).resolve_right hnot
  · rintro (hnew | hhas) hmisled
    · exact absurd (hnew.symm.trans (hgranted.2 (.inr hmisled))) (by decide)
    · exact hmisled.1 hhas
  · intro hnot
    cases hold : report'.foreignKeyAdded with
    | true => exact .inl rfl
    | false => exact .inr ((hgranted.1 hold).resolve_right hnot)

/-- With a name of its own the foreign key is missed and added. -/
theorem docs_get_their_key :
    UniqueNames (docsAndTasks "owner_key")
    ∧ ¬Misled "public" (docsAndTasks "owner_key") "docs" organizationColumn
    ∧ (foreignKeyAnswer "public" (docsAndTasks "owner_key") "docs"
      organizationColumn = true
      ↔ HasForeignKey "public" (docsAndTasks "owner_key") "docs"
        organizationColumn)
    ∧ ∃ report s',
      Succeeds (world (tableServer "docs")) backfillDocs
        (docsAndTasks "owner_key") report s'
        ∧ HasForeignKey "public" s' "docs" organizationColumn := by
  have hunique : UniqueNames (docsAndTasks "owner_key") := by decide
  have hclear : ¬Misled "public" (docsAndTasks "owner_key") "docs"
      organizationColumn := by decide
  have hdue :
      ¬Checkpoints.isDone ⟨false, "", []⟩ (stepKey "enforce" "docs") = true :=
    nofun
  have hok : (backfillDocs.run.run (world (tableServer "docs"))
      (docsAndTasks "owner_key")).1.isOk = true := by decide +kernel
  obtain ⟨report, s', hrun⟩ := succeeds_of_isOk hok
  obtain ⟨hanswer, hbackfill⟩ :=
    asks_rightly_iff ⟨"docs", .defaultOnly⟩ hunique
  obtain ⟨-, hkey⟩ := hbackfill (catalogued_tableServer "docs") rfl hdue hrun
  exact ⟨hunique, hclear, hanswer.2 hclear, report, s', hrun, hkey.2 hclear⟩

/-- Once the key of `docs` has the name of that of `tasks`, it is taken for it,
and `docs` is left without a foreign key. -/
theorem misled_docs_get_no_key :
    UniqueNames (docsAndTasks "tenant_key")
    ∧ foreignKeyAnswer "public" (docsAndTasks "tenant_key") "docs"
      organizationColumn = true
    ∧ ¬HasForeignKey "public" (docsAndTasks "tenant_key") "docs"
      organizationColumn
    ∧ ∃ report s',
      Succeeds (world (tableServer "docs")) backfillDocs
        (docsAndTasks "tenant_key") report s'
        ∧ report.foreignKeyAdded = false
        ∧ ¬HasForeignKey "public" s' "docs" organizationColumn := by
  have hanswer : foreignKeyAnswer "public" (docsAndTasks "tenant_key") "docs"
      organizationColumn
      = true := by decide +kernel
  have hnone : ¬HasForeignKey "public" (docsAndTasks "tenant_key") "docs"
      organizationColumn := by
    decide
  have hdue :
      ¬Checkpoints.isDone ⟨false, "", []⟩ (stepKey "enforce" "docs") = true :=
    nofun
  have hok : (backfillDocs.run.run (world (tableServer "docs"))
      (docsAndTasks "tenant_key")).1.isOk = true := by decide +kernel
  obtain ⟨report, s', hrun⟩ := succeeds_of_isOk hok
  obtain ⟨hadded, hkey⟩ := (catalogued_tableServer "docs").backfilled hdue hrun
  have hgranted : report.foreignKeyAdded = false := by
    rw [hadded]
    exact congrArg not hanswer
  refine ⟨by decide, hanswer, hnone, report, s', hrun, hgranted,
    fun hhas => ?_⟩
  rcases hkey.1 hhas with hnew | hhas
  · exact absurd (hgranted.symm.trans hnew) (by decide)
  · exact hnone hhas

end Tenancy.Backfill
