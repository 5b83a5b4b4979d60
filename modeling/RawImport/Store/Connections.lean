import Mathlib.Data.Fintype.Basic
import Mathlib.Data.List.Nodup
import RawImport.Lib.Run
import RawImport.Store.Statements

/-!
# `AllocateSequence` statement by statement

`n` connections over one server, each inside at most one call.  A statement
that fails has no effect, or its whole transaction is rolled back with it.
The tables hold what is committed; every connection has its own open
transaction, which a call leaves behind when its `ROLLBACK` fails.
-/

namespace RawImport

namespace Sequence

/-- What an open transaction has done so far. -/
structure Trx where
  inserted : Option SequenceRow := none
  deleted : List Nat := []
  deriving DecidableEq, Repr

inductive Result where
  | ok | failed | aborted
  deriving DecidableEq, Repr

/-- What is left of a transaction after a statement did not succeed. -/
def Result.keep : Result → Option Trx → Option Trx
  | .aborted, _ => none
  | _, trx => trx

/-- A key read back with `insert_id()`, with the token of its placeholder. -/
structure Issued where
  key : Nat
  token : String
  bounded : key < 2 ^ 64
  nonzero : toInt64 key ≠ 0

namespace Issued

def placeholder (issued : Issued) : SequenceRow :=
  ⟨issued.key, "TMP_" ++ issued.token⟩

/-- The row after the `UPDATE`. -/
def named (issued : Issued) : SequenceRow :=
  ⟨issued.key, Db.storedName issued.key issued.token⟩

def reply (issued : Issued) : Int × String :=
  (toInt64 issued.key, Db.sequenceName (toInt64 issued.key))

@[simp] theorem reply_fst (issued : Issued) :
    issued.reply.1 = toInt64 issued.key :=
  rfl

theorem named_of_lt {issued : Issued} (small : issued.key < 2 ^ 63) :
    issued.reply = ((issued.named.id : Int), issued.named.name) := by
  have same := toInt64_of_lt small
  simp only [named, reply, Db.storedName, same, if_true]

theorem named_of_pos {issued : Issued} (positive : 0 < issued.reply.1) :
    issued.named = ⟨issued.reply.1.toNat, issued.reply.2⟩ := by
  have small : issued.key < 2 ^ 63 := by
    by_contra large
    rw [reply_fst, toInt64_of_ge (by omega) issued.bounded] at positive
    have bounded := issued.bounded
    omega
  rw [named_of_lt small, Int.toNat_natCast]

end Issued

/-- The next statement of a connection.  Up to `START TRANSACTION` and in
`ROLLBACK` a transaction may be open, after it one is. -/
inductive Connection where
  | idle (left : Option Trx)
  | deleteEmpty (token : String) (left : Option Trx)
  | deleteTmp (token : String) (left : Option Trx)
  | startTransaction (token : String) (left : Option Trx)
  | prepareInsert (token : String)
  | insert (token : String)
  | prepareUpdate (issued : Issued)
  | update (issued : Issued)
  | commit (issued : Issued)
  | rollback (left : Option Trx)

namespace Connection

def trx : Connection → Option Trx
  | idle left => left
  | deleteEmpty _ left => left
  | deleteTmp _ left => left
  | startTransaction _ left => left
  | prepareInsert _ => some {}
  | insert _ => some {}
  | prepareUpdate issued => some { inserted := some issued.placeholder }
  | update issued => some { inserted := some issued.placeholder }
  | commit issued => some { inserted := some issued.named }
  | rollback left => left

def pending (connection : Connection) : Option SequenceRow :=
  connection.trx.bind Trx.inserted

def deleted (connection : Connection) : List Nat :=
  (connection.trx.map Trx.deleted).getD []

def Closed : Connection → Prop
  | idle left => left = none
  | deleteEmpty _ left => left = none
  | deleteTmp _ left => left = none
  | startTransaction _ left => left = none
  | _ => True

end Connection

/-- What makes the rows of a transaction visible. -/
def commit (db : Db) (trx : Trx) : Db :=
  { db with
    sequences :=
      (db.sequences.filter fun row => decide (row.id ∉ trx.deleted)) ++
        trx.inserted.toList }

/-- A clean-up `DELETE`.  Outside a transaction it commits at once; in one
that a call has left open it deletes there, the own placeholder too. -/
def cleanUp (matching : String → Bool) (db : Db) (result : Result)
    (left : Option Trx) : Db × Option Trx :=
  match result, left with
  | .ok, none => (db.deleteSequences matching true, none)
  | .ok, some trx =>
      if db.Deletable matching then
        (db, some {
          inserted := trx.inserted.filter fun row => !matching row.name
          deleted := trx.deleted ++
            (db.sequences.filter fun row => matching row.name).map
              SequenceRow.id })
      else (db, some trx)
  | result, left => (db, result.keep left)

abbrev Reply : Type :=
  Int × String

/-- One statement of `AllocateSequence`.  `free` tells which names no other
row has; `skipped` is the gap in front of the key. -/
def next (free : String → Bool) (db : Db) (result : Result)
    (skipped : Nat) : Connection → Option (Db × Connection × List Reply)
  | .idle _ => none
  | .deleteEmpty token left =>
      let (db, left) := cleanUp Db.matchesEmpty db result left
      some (db, .deleteTmp token left, [])
  | .deleteTmp token left =>
      let (db, left) := cleanUp Db.matchesTmp db result left
      some (db, .startTransaction token left, [])
  | .startTransaction token left =>
      match result with
      | .ok => some (commit db (left.getD {}), .prepareInsert token, [])
      | _ => some (db, .idle (result.keep left), [(0, "")])
  | .prepareInsert token =>
      match result with
      | .ok => some (db, .insert token, [])
      | _ => some (db, .rollback (result.keep (some {})), [])
  | .insert token =>
      let key := db.nextSequence + skipped
      match result with
      | .ok =>
          if bounded : key < 2 ^ 64 then
            if free ("TMP_" ++ token) then
              if nonzero : toInt64 key ≠ 0 then
                some ({ db with nextSequence := key + 1 },
                  .prepareUpdate ⟨key, token, bounded, nonzero⟩, [])
              else
                some ({ db with nextSequence := key + 1 },
                  .rollback (some
                    { inserted := some ⟨key, "TMP_" ++ token⟩ }), [])
            else none
          else none
      | _ => some ({ db with nextSequence := key },
          .rollback (result.keep (some {})), [])
  | .prepareUpdate issued =>
      match result with
      | .ok => some (db, .update issued, [])
      | _ => some (db,
          .rollback (result.keep
            (some { inserted := some issued.placeholder })), [])
  | .update issued =>
      match result with
      | .ok =>
          -- the signed id matches no row from `2 ^ 63` on
          if toInt64 issued.key = issued.key →
              free (Db.sequenceName (toInt64 issued.key)) = true then
            some (db, .commit issued, [])
          else none
      | _ => some (db,
          .rollback (result.keep
            (some { inserted := some issued.placeholder })), [])
  | .commit issued =>
      match result with
      | .ok => some (commit db { inserted := some issued.named },
          .idle none, [issued.reply])
      | _ => some (db,
          .rollback (result.keep
            (some { inserted := some issued.named })), [])
  | .rollback left =>
      match result with
      | .failed => some (db, .idle left, [(0, "")])
      | _ => some (db, .idle none, [(0, "")])

structure World (n : Nat) where
  db : Db
  connections : Fin n → Connection
  returned : List Reply := []

inductive Action (n : Nat) where
  | call (connection : Fin n) (token : String)
  | statement (connection : Fin n) (result : Result) (skipped : Nat := 0)
  deriving DecidableEq, Repr

section System

variable {n : Nat}

namespace World

def initial (db : Db) : World n :=
  { db := db
    connections := fun _ => .idle none }

def advance (world : World n) (actor : Fin n) (db : Db)
    (connection : Connection) (replies : List Reply) : World n :=
  { db := db
    connections := Function.update world.connections actor connection
    returned := world.returned ++ replies }

@[simp] theorem advance_same (world : World n) (actor : Fin n) (db : Db)
    (connection : Connection) (replies : List Reply) :
    (world.advance actor db connection replies).connections actor =
      connection := by
  simp [advance]

theorem advance_other (world : World n) {actor other : Fin n} (db : Db)
    (connection : Connection) (replies : List Reply)
    (different : other ≠ actor) :
    (world.advance actor db connection replies).connections other =
      world.connections other := by
  simp [advance, different]

/-- `name VARCHAR(32) NOT NULL UNIQUE`: no other row has the name. -/
def free (mariadb : Mariadb) (world : World n) (actor : Fin n)
    (name : String) : Bool :=
  decide ((∀ row ∈ world.db.sequences,
      mariadb.same row.name name = false) ∧
    ∀ other, other ≠ actor →
      ∀ row ∈ (world.connections other).pending.toList,
        mariadb.same row.name name = false)

/-- The ids and names that calls have returned. -/
def successes (world : World n) : List Reply :=
  world.returned.filter fun reply => decide (reply.1 ≠ 0)

end World

def step (mariadb : Mariadb) (world : World n) :
    Action n → Option (World n)
  | .call actor token =>
      match world.connections actor with
      | .idle left =>
          some (world.advance actor world.db (.deleteEmpty token left) [])
      | _ => none
  | .statement actor result skipped =>
      (next (world.free mariadb actor) world.db result skipped
        (world.connections actor)).map fun after =>
          world.advance actor after.1 after.2.1 after.2.2

end System

end Sequence

end RawImport
