import ChatBI.Lib.Relational
import ChatBI.SqlGuard.Joins

/-!
# The rows of FROM and JOIN

What PostgreSQL makes of the tables of a SELECT: identifiers without quotes are folded to lower case,
an alias hides the name of its table and its columns rename those of the table, a column belongs to
the one table in scope that has it, and the conditions have three truth values. Only left joins are
described; the guard lets no other join pass.
-/

namespace ChatBI.SqlGuard

open ChatBI.Lib ChatBI.Lib.Relational

/-- The name that an identifier stands for. -/
def Identifier.folded (i : Identifier) : String := if i.quoted then i.text else lowered i.text

structure StoredTable (ν : Type) where
  columns : List String
  rows : List (Row String ν)

/-- A database: its name and its tables by schema and name. -/
structure Database (ν : Type) where
  name : String
  table : String → String → Option (StoredTable ν)

section Scope

variable {ν : Type}

/-- A table in scope. -/
structure Item (ν : Type) where
  node : TableNode
  stored : StoredTable ν

/-- A reference to the current database, or none. -/
def Database.IsCurrent (db : Database ν) (catalog : Option Identifier) : Prop :=
  ∀ c ∈ catalog, c.folded = db.name

instance (db : Database ν) (catalog : Option Identifier) : Decidable (db.IsCurrent catalog) :=
  inferInstanceAs (Decidable (∀ c ∈ catalog, c.folded = db.name))

/-- The table of a node. A list of column aliases is not longer than the columns. -/
def Database.item (db : Database ν) (t : TableNode) : Option (Item ν) :=
  match t.db, t.name with
  | some schema, some name =>
    match db.table schema.folded name.folded with
    | some stored =>
      if db.IsCurrent t.catalog ∧ t.aliasColumns.length ≤ stored.columns.length then some ⟨t, stored⟩
      else none
    | none => none
  | _, _ => none

/-- The columns of a table under the names that a query uses for them. -/
def Item.visible (item : Item ν) : List (String × String) :=
  item.stored.columns.zipIdx.map fun p =>
    ((item.node.aliasColumns[p.2]?.map Identifier.folded).getD p.1, p.1)

/-- A column may be one of a table when its qualifiers are those of the table. -/
def Item.Answers (db : Database ν) (item : Item ν) (c : ColumnNode) : Prop :=
  db.IsCurrent c.catalog ∧
    match c.db, c.table with
    | some schema, some table =>
      item.node.alias_ = none ∧ item.node.db.map Identifier.folded = some schema.folded ∧
        item.node.name.map Identifier.folded = some table.folded
    | none, some table =>
      (item.node.alias_.or item.node.name).map Identifier.folded = some table.folded
    | _, none => True

instance (db : Database ν) (item : Item ν) (c : ColumnNode) : Decidable (item.Answers db c) := by
  unfold Item.Answers
  split <;> infer_instance

/-- The tables in scope: the base and those that have been joined, the last one first. -/
structure Scope (ν : Type) where
  base : Item ν
  joined : List (Item ν)

def Scope.extend (scope : Scope ν) (item : Item ν) : Scope ν :=
  { scope with joined := item :: scope.joined }

/-- The tables with their places: none for the base. -/
def Scope.places (scope : Scope ν) : List (Option Nat × Item ν) :=
  (none, scope.base) :: scope.joined.zipIdx.map fun p => (some p.2, p.1)

/-- The places and stored names that a column may stand for. -/
def Scope.candidates (db : Database ν) (scope : Scope ν) (c : ColumnNode) :
    List (Option Nat × String) :=
  (scope.places.filter fun p => p.2.Answers db c).flatMap fun p =>
    (p.2.visible.filter fun v => v.1 = c.name.folded).map fun v => (p.1, v.2)

/-- The place of a column, unless it is unknown or ambiguous. -/
def Scope.resolve (db : Database ν) (scope : Scope ν) (c : ColumnNode) :
    Option (Option Nat × String) :=
  match scope.candidates db c with
  | [p] => some p
  | _ => none

end Scope

section Rows

variable {ε ν : Type} [DecidableEq ν]

/-- A row of each table in scope. -/
structure Env (ν : Type) where
  base : Row String ν
  joined : List (Row String ν)

def Env.row (env : Env ν) : Option Nat → Row String ν
  | none => env.base
  | some i => env.joined.getD i fun _ => none

/-- A row is joined, or the row of nulls. -/
def Env.extend (env : Env ν) (row : Option (Row String ν)) : Env ν :=
  { env with joined := row.getD (fun _ => none) :: env.joined }

/-- The meaning of the expressions of other kinds. -/
structure Meaning (ε ν : Type) where
  value : ε → Env ν → Option ν
  truth : ε → Env ν → Option Bool

/-- A query is refused when a column of it has no place. -/
def Operand.Resolves (db : Database ν) (scope : Scope ν) : Operand ε → Prop
  | .column c => (scope.resolve db c).isSome
  | .other _ => True

def Condition.Resolves (db : Database ν) (scope : Scope ν) : Condition ε → Prop
  | .and left right => left.Resolves db scope ∧ right.Resolves db scope
  | .paren inner => inner.Resolves db scope
  | .eq left right => left.Resolves db scope ∧ right.Resolves db scope
  | .other _ => True

instance (db : Database ν) (scope : Scope ν) : (o : Operand ε) → Decidable (o.Resolves db scope)
  | .column c => inferInstanceAs (Decidable ((scope.resolve db c).isSome = true))
  | .other _ => .isTrue trivial

instance Condition.decidableResolves (db : Database ν) (scope : Scope ν) :
    (c : Condition ε) → Decidable (c.Resolves db scope)
  | .and left right =>
    let _ := Condition.decidableResolves db scope left
    let _ := Condition.decidableResolves db scope right
    inferInstanceAs (Decidable (_ ∧ _))
  | .paren inner => Condition.decidableResolves db scope inner
  | .eq _ _ => inferInstanceAs (Decidable (_ ∧ _))
  | .other _ => .isTrue trivial

variable (meaning : Meaning ε ν)

def Operand.value (db : Database ν) (scope : Scope ν) (env : Env ν) : Operand ε → Option ν
  | .column c => (scope.resolve db c).bind fun p => env.row p.1 p.2
  | .other e => meaning.value e env

def Condition.truth (db : Database ν) (scope : Scope ν) (env : Env ν) : Condition ε → Option Bool
  | .and left right => and3 (left.truth db scope env) (right.truth db scope env)
  | .paren inner => inner.truth db scope env
  | .eq left right => eq3 (left.value meaning db scope env) (right.value meaning db scope env)
  | .other e => meaning.truth e env

/-- The rows that are joined in each step, and the condition on them. -/
abbrev Step (ν : Type) := List (Row String ν) × (Env ν → Row String ν → Bool)

/-- A left join. -/
def joinStep (db : Database ν) (scope : Scope ν) (join : Join ε) : Option (Item ν × Step ν) :=
  match join.joined, join.on with
  | .table t, some condition =>
    match db.item t with
    | some item =>
      if join.side = "LEFT" ∧ (join.kind = "" ∨ join.kind = "OUTER") ∧
          condition.Resolves db (scope.extend item) then
        some (item, item.stored.rows, fun env row =>
          condition.truth meaning db (scope.extend item) (env.extend (some row)) = some true)
      else none
    | none => none
  | _, _ => none

def joinSteps (db : Database ν) : Scope ν → List (Join ε) → Option (List (Step ν))
  | _, [] => some []
  | scope, join :: joins => do
    let (item, step) ← joinStep meaning db scope join
    let steps ← joinSteps db (scope.extend item) joins
    return step :: steps

/-- The rows of FROM and JOIN, unless the query is refused. -/
def fromRows (db : Database ν) (select : Select ε) : Option (List (Env ν)) :=
  match select.from_ with
  | some (.table t) => do
    let base ← db.item t
    let steps ← joinSteps meaning db ⟨base, []⟩ select.joins
    return leftJoins Env.extend steps (base.stored.rows.map fun row => ⟨row, []⟩)
  | _ => none

end Rows

end ChatBI.SqlGuard
