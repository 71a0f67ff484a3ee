import Mathlib.Data.List.Basic

/-! # Tables under row-level security -/

namespace Policy

inductive Fault where
  /-- 42704: there is no tenant. -/
  | context
  /-- 25P02: an earlier statement has failed. -/
  | aborted
  /-- 42501 -/
  | denied
  /-- 23514 -/
  | check
  /-- 23505 -/
  | duplicate
  /-- 23503 -/
  | reference
deriving DecidableEq, Repr

/-- Who owns a row, and the keys that hold rows together. -/
structure Schema (Row Key Tenant : Type) where
  /-- A shared row has no owner. -/
  owner : Row → Option Tenant
  check : Row → Bool
  /-- The unique keys a row takes. -/
  keys : Row → List Key
  /-- Foreign keys that name the owner beside the row. -/
  needs : Row → List Key
  /-- Foreign keys that do not. -/
  plain : Row → List Key
  /-- Those whose row takes this one with it. -/
  follows : Row → List Key
  /-- No chain of such references is longer. -/
  depth : Nat
  /-- What the triggers of a row make of the rows its writer can read. -/
  trigger : List Row → Row → Except Fault Unit

/-- A row as a transaction wrote it, and the transaction that took it away; neither is known to the
others before it commits. -/
structure Version (Row X : Type) where
  row : Row
  written : Option X
  gone : Option X

inductive Statement (Row : Type) where
  | select (p : Row → Bool)
  | insert (row : Row)
  | update (p : Row → Bool) (f : Row → Row)
  | delete (p : Row → Bool)

/-- A statement waits for a transaction that may still settle it either way. -/
inductive Stop where
  | waits
  | fault (fault : Fault)
deriving DecidableEq, Repr

inductive Result (Row : Type) where
  | rows (rows : List Row)
  | count (n : Nat)
  | stopped (stop : Stop)
  | ended

section Statements

variable {Row Key Tenant X : Type} [DecidableEq Key] [DecidableEq Tenant] [DecidableEq X]

/-- READ COMMITTED: what is committed, and what the transaction has done itself. -/
def Version.visible (x : X) (v : Version Row X) : Bool :=
  (v.written = none || v.written = some x) && v.gone ≠ some x

def Version.settled (x : X) (v : Version Row X) : Bool := v.visible x && v.gone = none

def Version.made (x : X) (r : Row) : Version Row X := ⟨r, some x, none⟩

def Version.mark (x : X) (v : Version Row X) : Version Row X := { v with gone := some x }

/-- No other row may stand in the way; one that may still go or come to nothing is waited for. -/
def vacant (x : X) (fault : Fault) (vs : List (Version Row X)) : Except Stop Unit :=
  let others := vs.filter (·.gone ≠ some x)
  if others.any (·.settled x) then .error (.fault fault)
  else if others.isEmpty then .ok ()
  else .error .waits

/-- A row that another transaction writes anew under the same key still stands. -/
def found (x : X) (vs : List (Version Row X)) : Except Stop Unit :=
  let known := vs.filter (·.visible x)
  if known.any fun v => v.gone = none || vs.any fun w => w.written = v.gone && w.gone = none then .ok ()
  else if known.isEmpty then .error (.fault .reference)
  else .error .waits

variable (schema : Schema Row Key Tenant)

namespace Schema

def readable (me : Tenant) (r : Row) : Bool := schema.owner r = none || schema.owner r = some me

def writable (me : Tenant) (r : Row) : Bool := schema.owner r = some me

def holders (k : Key) (vs : List (Version Row X)) : List (Version Row X) :=
  vs.filter fun v => k ∈ schema.keys v.row

def dependents (k : Key) (vs : List (Version Row X)) : List (Version Row X) :=
  vs.filter fun v => k ∈ schema.needs v.row ++ schema.plain v.row

/-- A row is entered: the policy, its own checks, and its unique keys among all rows. -/
def enter (x : X) (me : Tenant) (vs : List (Version Row X)) (r : Row) : Except Stop Unit :=
  if !schema.writable me r then .error (.fault .denied)
  else if !schema.check r then .error (.fault .check)
  else (schema.keys r).forM fun k => vacant x .duplicate (schema.holders k vs)

def select (x : X) (me : Tenant) (vs : List (Version Row X)) (p : Row → Bool) : List Row :=
  (vs.filter fun v => v.visible x && schema.readable me v.row && p v.row).map (·.row)

def fire (x : X) (me : Tenant) (vs : List (Version Row X)) (r : Row) : Except Stop Unit :=
  (schema.trigger (schema.select x me vs fun _ => true) r).mapError .fault

/-- What a row refers to, once the statement is through: its foreign keys look among all rows, its
triggers among the readable ones. A trigger refuses what a plain foreign key would, in the same way. -/
def refer (x : X) (me : Tenant) (vs : List (Version Row X)) (r : Row) : Except Stop Unit := do
  (schema.needs r).forM fun k => found x (schema.holders k vs)
  schema.fire x me vs r
  (schema.plain r).forM fun k => found x (schema.holders k vs)

/-- A key is given up when no row refers to it. -/
def release (x : X) (vs : List (Version Row X)) (k : Key) : Except Stop Unit :=
  vacant x .reference (schema.dependents k vs)

/-- The rows of an update, one by one; what is written comes behind. -/
def rewrite (x : X) (me : Tenant) (target : Version Row X → Bool) (f : Row → Row) :
    List (Version Row X) → List (Version Row X) → List (Version Row X) →
      Except Stop (List (Version Row X))
  | earlier, new, [] => .ok (earlier ++ new)
  | earlier, new, v :: rest =>
      if target v then do
        schema.enter x me (earlier ++ v.mark x :: rest ++ new) (f v.row)
        rewrite x me target f (earlier ++ [v.mark x]) (new ++ [.made x (f v.row)]) rest
      else rewrite x me target f (earlier ++ [v]) new rest

/-- The rows a deletion takes with it, so many references deep. -/
def taken (x : X) (vs : List (Version Row X)) (target : Version Row X → Bool) :
    Nat → Version Row X → Bool
  | 0, v => target v
  | n + 1, v => taken x vs target n v || (v.gone ≠ some x && (schema.follows v.row).any fun k =>
      vs.any fun w => taken x vs target n w && k ∈ schema.keys w.row)

/-- The rows a statement is to change. -/
def targets (x : X) (me : Tenant) (p : Row → Bool) (v : Version Row X) : Bool :=
  v.visible x && schema.writable me v.row && p v.row

/-- A row that another transaction is writing or taking away cannot be changed yet. -/
def unlocked (x : X) (vs : List (Version Row X)) : Except Stop Unit :=
  if vs.all (·.settled x) then .ok () else .error .waits

def insert (x : X) (me : Tenant) (vs : List (Version Row X)) (r : Row) :
    Except Stop (List (Version Row X)) := do
  schema.enter x me vs r
  schema.refer x me (vs ++ [.made x r]) r
  return vs ++ [.made x r]

def update (x : X) (me : Tenant) (vs : List (Version Row X)) (p : Row → Bool) (f : Row → Row) :
    Except Stop (List (Version Row X)) := do
  let changed := vs.filter (schema.targets x me p)
  unlocked x changed
  let after ← schema.rewrite x me (schema.targets x me p) f [] [] vs
  changed.forM fun v => schema.refer x me after (f v.row)
  changed.forM fun v =>
    ((schema.keys v.row).filter (· ∉ schema.keys (f v.row))).forM (schema.release x after)
  return after

def delete (x : X) (me : Tenant) (vs : List (Version Row X)) (p : Row → Bool) :
    Except Stop (List (Version Row X)) := do
  let gone := schema.taken x vs (schema.targets x me p) schema.depth
  unlocked x (vs.filter gone)
  let after := vs.map fun v => if gone v then v.mark x else v
  (vs.filter gone).forM fun v => (schema.keys v.row).forM (schema.release x after)
  return after

def exec (x : X) (me : Tenant) (vs : List (Version Row X)) :
    Statement Row → Except Stop (Result Row × List (Version Row X))
  | .select p => .ok (.rows (schema.select x me vs p), vs)
  | .insert r => (schema.insert x me vs r).map (.count 1, ·)
  | .update p f => (schema.update x me vs p f).map
      (.count (vs.countP (schema.targets x me p)), ·)
  | .delete p => (schema.delete x me vs p).map (.count (vs.countP (schema.targets x me p)), ·)

end Schema

/-! ## Transactions -/

/-- The rows, and the transactions that can only roll back. -/
structure State (Row X : Type) where
  versions : List (Version Row X)
  aborted : List X

inductive Event (Row X : Type) where
  | run (x : X) (s : Statement Row)
  | commit (x : X)
  | rollback (x : X)

def Version.commit (x : X) (v : Version Row X) : Version Row X :=
  if v.written = some x then { v with written := none } else v

def Version.rollback (x : X) (v : Version Row X) : Version Row X :=
  if v.gone = some x then { v with gone := none } else v

def State.commit (x : X) (σ : State Row X) : State Row X :=
  { σ with versions := (σ.versions.filter (·.gone ≠ some x)).map (·.commit x) }

def State.rollback (x : X) (σ : State Row X) : State Row X :=
  { versions := (σ.versions.filter (·.written ≠ some x)).map (·.rollback x)
    aborted := σ.aborted.filter (· ≠ x) }

/-- One step of one transaction, under the tenant it was opened for, if it was for one. -/
def Schema.step (tenant : X → Option Tenant) (σ : State Row X) :
    Event Row X → Result Row × State Row X
  | .run x s =>
      if x ∈ σ.aborted then (.stopped (.fault .aborted), σ)
      else match tenant x with
        | none => (.stopped (.fault .context), { σ with aborted := x :: σ.aborted })
        | some me => match schema.exec x me σ.versions s with
            | .ok (result, versions) => (result, { σ with versions })
            | .error .waits => (.stopped .waits, σ)
            | .error (.fault fault) =>
                (.stopped (.fault fault), { σ with aborted := x :: σ.aborted })
  | .commit x => if x ∈ σ.aborted then (.ended, σ.rollback x) else (.ended, σ.commit x)
  | .rollback x => (.ended, σ.rollback x)

/-- The results of a run, each with its event, and the state behind it. -/
def Schema.run (tenant : X → Option Tenant) :
    State Row X → List (Event Row X) → List (Event Row X × Result Row) × State Row X
  | σ, [] => ([], σ)
  | σ, e :: rest =>
      let (result, next) := schema.step tenant σ e
      let (results, last) := Schema.run tenant next rest
      ((e, result) :: results, last)

end Statements

end Policy
