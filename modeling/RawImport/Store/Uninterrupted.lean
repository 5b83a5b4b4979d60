import RawImport.Store.Connections

/-!
# A call on its own

The statements of a call that no other connection interrupts do what
`allocateSequence` says in one step, whatever fails, unless the call leaves
its transaction open.
-/

namespace RawImport

namespace Sequence

open Transition

section Uninterrupted

variable {n : Nat} {mariadb : Mariadb} {actor : Fin n}
  {world final : World n}

/-- The statements of one connection lead to the end of its call, with no
transaction left. -/
def Ends (mariadb : Mariadb) (actor : Fin n) (world final : World n) :
    Prop :=
  ∃ statements : List (Result × Nat),
    run (step mariadb) world (statements.map fun statement =>
      .statement actor statement.1 statement.2) = some final ∧
    final.connections actor = .idle none

theorem Ends.of_idle (ends : Ends mariadb actor world final)
    {left : Option Trx} (idle : world.connections actor = .idle left) :
    final = world := by
  obtain ⟨statements, result, -⟩ := ends
  cases statements with
  | nil =>
      cases result
      rfl
  | cons statement rest =>
      obtain ⟨next, taken, -⟩ := run_cons_eq_some_iff.mp result
      simp only [step, idle, Sequence.next] at taken
      cases taken

theorem Ends.next (ends : Ends mariadb actor world final)
    {connection : Connection}
    (current : world.connections actor = connection)
    (busy : connection ≠ .idle none) :
    ∃ result skipped db connection' replies,
      Sequence.next (world.free mariadb actor) world.db result skipped
        connection = some (db, connection', replies) ∧
      Ends mariadb actor (world.advance actor db connection' replies)
        final := by
  obtain ⟨statements, result, ended⟩ := ends
  cases statements with
  | nil =>
      cases result
      exact (busy (current.symm.trans ended)).elim
  | cons statement rest =>
      obtain ⟨next, taken, remaining⟩ := run_cons_eq_some_iff.mp result
      obtain ⟨⟨db, connection', replies⟩, executed, rfl⟩ :=
        Option.map_eq_some_iff.mp taken
      rw [current] at executed
      exact ⟨statement.1, statement.2, db, connection', replies, executed,
        rest, remaining, ended⟩

/-- The call has returned `{0, ""}` over the given tables. -/
def Fails (returned : List Reply) (db : Db) (final : World n) : Prop :=
  final.db = db ∧ final.returned = returned ++ [(0, "")]

/-- The call has published the row of a key and returned it. -/
def Publishes (returned : List Reply) (db : Db) (issued : Issued)
    (final : World n) : Prop :=
  final.db = commit db { inserted := some issued.named } ∧
    final.returned = returned ++ [issued.reply]

theorem fails_of_rollback (ends : Ends mariadb actor world final)
    {left : Option Trx}
    (current : world.connections actor = .rollback left) :
    Fails world.returned world.db final := by
  obtain ⟨result, skipped, db, connection', replies, executed, rest⟩ :=
    ends.next current nofun
  simp only [Sequence.next] at executed
  split at executed
  · cases executed
    rw [rest.of_idle (World.advance_same ..)]
    exact ⟨rfl, rfl⟩
  · cases executed
    rw [rest.of_idle (World.advance_same ..)]
    exact ⟨rfl, rfl⟩

theorem fails_of_advance {db : Db} {left : Option Trx}
    (ends : Ends mariadb actor
      (world.advance actor db (.rollback left) []) final) :
    Fails world.returned db final := by
  have fails := fails_of_rollback ends (World.advance_same ..)
  rwa [World.advance, List.append_nil] at fails

theorem of_commit (ends : Ends mariadb actor world final)
    {issued : Issued}
    (current : world.connections actor = .commit issued) :
    Publishes world.returned world.db issued final ∨
      Fails world.returned world.db final := by
  obtain ⟨result, skipped, db, connection', replies, executed, rest⟩ :=
    ends.next current nofun
  simp only [Sequence.next] at executed
  split at executed
  · cases executed
    rw [rest.of_idle (World.advance_same ..)]
    exact .inl ⟨rfl, rfl⟩
  · cases executed
    exact .inr (fails_of_advance rest)

theorem of_free {name : String}
    (free : world.free mariadb actor name = true) :
    ∀ row ∈ world.db.sequences, mariadb.same row.name name = false :=
  (of_decide_eq_true free).1

theorem of_update (ends : Ends mariadb actor world final)
    {issued : Issued}
    (current : world.connections actor = .update issued) :
    ((toInt64 issued.key = issued.key →
        ∀ row ∈ world.db.sequences, mariadb.same row.name
          (Db.sequenceName (toInt64 issued.key)) = false) ∧
      Publishes world.returned world.db issued final) ∨
    Fails world.returned world.db final := by
  obtain ⟨result, skipped, db, connection', replies, executed, rest⟩ :=
    ends.next current nofun
  simp only [Sequence.next] at executed
  split at executed
  · split at executed
    · rename_i free
      cases executed
      have later := of_commit rest (World.advance_same ..)
      rw [World.advance, List.append_nil] at later
      exact later.imp_left fun publishes =>
        ⟨fun signed => of_free (free signed), publishes⟩
    · cases executed
  · cases executed
    exact .inr (fails_of_advance rest)

theorem of_prepareUpdate (ends : Ends mariadb actor world final)
    {issued : Issued}
    (current : world.connections actor = .prepareUpdate issued) :
    ((toInt64 issued.key = issued.key →
        ∀ row ∈ world.db.sequences, mariadb.same row.name
          (Db.sequenceName (toInt64 issued.key)) = false) ∧
      Publishes world.returned world.db issued final) ∨
    Fails world.returned world.db final := by
  obtain ⟨result, skipped, db, connection', replies, executed, rest⟩ :=
    ends.next current nofun
  simp only [Sequence.next] at executed
  split at executed
  · cases executed
    have later := of_update rest (World.advance_same ..)
    rwa [World.advance, List.append_nil] at later
  · cases executed
    exact .inr (fails_of_advance rest)

/-- What a call that has started its transaction comes to. -/
def Allocates (mariadb : Mariadb) (returned : List Reply) (db : Db)
    (token : String) (final : World n) : Prop :=
  (∃ issued : Issued, issued.token = token ∧
    db.nextSequence ≤ issued.key ∧
    (∀ row ∈ db.sequences,
      mariadb.same row.name issued.named.name = false) ∧
    Publishes returned { db with nextSequence := issued.key + 1 } issued
      final) ∨
  ∃ skipped,
    Fails returned { db with nextSequence := db.nextSequence + skipped }
      final

theorem allocates_of_insert (ends : Ends mariadb actor world final)
    {token : String} (current : world.connections actor = .insert token) :
    Allocates mariadb world.returned world.db token final := by
  obtain ⟨result, skipped, db, connection', replies, executed, rest⟩ :=
    ends.next current nofun
  simp only [Sequence.next] at executed
  split at executed
  · split at executed
    · rename_i bounded
      split at executed
      · rename_i unused
        split at executed
        · rename_i nonzero
          cases executed
          have later := of_prepareUpdate rest (World.advance_same ..)
          rw [World.advance, List.append_nil] at later
          rcases later with ⟨signed, publishes⟩ | fails
          · refine .inl ⟨⟨world.db.nextSequence + skipped, token, bounded,
              nonzero⟩, rfl, Nat.le_add_right _ _, ?_, publishes⟩
            simp only [Issued.named, Db.storedName]
            split
            · rename_i same
              exact signed same
            · exact of_free unused
          · exact .inr ⟨skipped + 1, fails⟩
        · cases executed
          exact .inr ⟨skipped + 1, fails_of_advance rest⟩
      · cases executed
    · cases executed
  · cases executed
    exact .inr ⟨skipped, fails_of_advance rest⟩

theorem allocates_of_prepareInsert (ends : Ends mariadb actor world final)
    {token : String}
    (current : world.connections actor = .prepareInsert token) :
    Allocates mariadb world.returned world.db token final := by
  obtain ⟨result, skipped, db, connection', replies, executed, rest⟩ :=
    ends.next current nofun
  simp only [Sequence.next] at executed
  split at executed
  · cases executed
    have later := allocates_of_insert rest (World.advance_same ..)
    rwa [World.advance, List.append_nil] at later
  · cases executed
    exact .inr ⟨0, fails_of_advance rest⟩

theorem allocates_of_startTransaction
    (ends : Ends mariadb actor world final) {token : String}
    (current : world.connections actor = .startTransaction token none) :
    Allocates mariadb world.returned world.db token final := by
  obtain ⟨result, skipped, db, connection', replies, executed, rest⟩ :=
    ends.next current nofun
  simp only [Sequence.next] at executed
  split at executed
  · cases executed
    have later := allocates_of_prepareInsert rest (World.advance_same ..)
    have same : commit world.db (Option.getD none {}) = world.db := by
      simp [commit]
    rwa [World.advance, List.append_nil, same] at later
  · cases executed
    rw [rest.of_idle (World.advance_same ..)]
    exact .inr ⟨0, rfl, rfl⟩

/-- A clean-up outside a transaction is one on the tables, or nothing. -/
theorem cleanUp_none (matching : String → Bool) (db : Db)
    (result : Result) :
    cleanUp matching db result none =
      (db.deleteSequences matching (decide (result = .ok)), none) := by
  cases result with
  | ok => rfl
  | failed => simp [cleanUp, Result.keep, Db.deleteSequences]
  | aborted => simp [cleanUp, Result.keep, Db.deleteSequences]

/-- What the two clean-ups leave for the transaction. -/
def cleaned (db : Db) (emptyDeleted tmpDeleted : Bool) : Db :=
  (db.deleteSequences Db.matchesEmpty emptyDeleted).deleteSequences
    Db.matchesTmp tmpDeleted

theorem allocates_of_call (ends : Ends mariadb actor world final)
    {token : String}
    (current : world.connections actor = .deleteEmpty token none) :
    ∃ emptyDeleted tmpDeleted,
      Allocates mariadb world.returned
        (cleaned world.db emptyDeleted tmpDeleted) token final := by
  obtain ⟨first, skipped, db, connection', replies, executed, rest⟩ :=
    ends.next current nofun
  simp only [Sequence.next, cleanUp_none] at executed
  cases executed
  obtain ⟨second, skipped, db, connection', replies, executed, rest⟩ :=
    rest.next (World.advance_same ..) nofun
  simp only [Sequence.next, cleanUp_none] at executed
  cases executed
  have later := allocates_of_startTransaction rest (World.advance_same ..)
  simp only [World.advance, List.append_nil] at later
  exact ⟨_, _, later⟩

/-- The published row and the reply are those of the one-step function. -/
theorem allocateSequence_of_publishes {db : Db}
    {emptyDeleted tmpDeleted : Bool} {issued : Issued}
    (unallocated : (cleaned db emptyDeleted tmpDeleted).nextSequence ≤
      issued.key)
    (unused : ∀ row ∈ (cleaned db emptyDeleted tmpDeleted).sequences,
      mariadb.same row.name issued.named.name = false) :
    ∃ outcome : Db.AllocateOutcome,
      db.allocateSequence mariadb outcome =
        (commit { cleaned db emptyDeleted tmpDeleted with
            nextSequence := issued.key + 1 }
          { inserted := some issued.named }, issued.reply) := by
  have key : (cleaned db emptyDeleted tmpDeleted).nextSequence +
      (issued.key - (cleaned db emptyDeleted tmpDeleted).nextSequence) =
        issued.key := by
    omega
  refine ⟨{ emptyDeleted := emptyDeleted
            tmpDeleted := tmpDeleted
            skipped := issued.key -
              (cleaned db emptyDeleted tmpDeleted).nextSequence
            token := issued.token }, ?_⟩
  unfold Db.allocateSequence
  simp only
  rw [show (db.deleteSequences Db.matchesEmpty
    emptyDeleted).deleteSequences Db.matchesTmp tmpDeleted =
      cleaned db emptyDeleted tmpDeleted from rfl, key,
    if_pos ⟨trivial, issued.bounded, unused⟩]
  simp [commit, Issued.named, Issued.reply]

/-- A call that no statement of another connection interrupts, and that does
not leave its transaction open, is one `allocateSequence`. -/
theorem allocateSequence_of_call {token : String}
    (statements : List (Result × Nat))
    (idle : world.connections actor = .idle none)
    (result : run (step mariadb) world
      (.call actor token :: statements.map fun statement =>
        .statement actor statement.1 statement.2) = some final)
    (ended : final.connections actor = .idle none) :
    ∃ outcome : Db.AllocateOutcome,
      final.db = (world.db.allocateSequence mariadb outcome).1 ∧
      final.returned = world.returned ++
        [(world.db.allocateSequence mariadb outcome).2] := by
  obtain ⟨next, taken, rest⟩ := run_cons_eq_some_iff.mp result
  simp only [step, idle] at taken
  cases taken
  obtain ⟨emptyDeleted, tmpDeleted, allocates⟩ :=
    allocates_of_call ⟨statements, rest, ended⟩ (World.advance_same ..)
  rw [World.advance, List.append_nil] at allocates
  rcases allocates with
    ⟨issued, -, unallocated, unused, tables, returned⟩ |
    ⟨skipped, tables, returned⟩
  · obtain ⟨outcome, same⟩ :=
      allocateSequence_of_publishes unallocated unused
    refine ⟨outcome, ?_⟩
    rw [same]
    exact ⟨tables, returned⟩
  · refine ⟨{ emptyDeleted := emptyDeleted
              tmpDeleted := tmpDeleted
              skipped := skipped
              committed := false }, ?_⟩
    exact ⟨tables, returned⟩

end Uninterrupted

end Sequence

end RawImport
