import RawImport.Store.Connections

/-!
# Unique and atomic allocation

What a statement can do is said once: it is quiet, or reserves a key, or
publishes the row of its transaction.  That the ids differ and the rows stay
holds whatever fails; that nothing else is committed takes a `ROLLBACK` that
does not fail.
-/

namespace RawImport

namespace Sequence

open Transition

def Placeholder (name : String) : Prop :=
  Db.matchesEmpty name = true ∨ Db.matchesTmp name = true

instance (name : String) : Decidable (Placeholder name) :=
  inferInstanceAs (Decidable (_ ∨ _))

theorem not_placeholder_sequenceName (id : Int) :
    ¬Placeholder (Db.sequenceName id) := by
  have text : (Db.sequenceName id).toList =
      'I' :: 'M' :: 'G' :: '_' :: (toString id).toList := by
    simp [Db.sequenceName, String.toList_append]
  rintro (empty | tmp)
  · simp [Db.matchesEmpty, text] at empty
  · unfold Db.matchesTmp at tmp
    rw [text] at tmp
    simp only at tmp
    revert tmp
    decide

/-! ## What a statement does -/

/-- The effect of one statement on the tables and its connection. -/
inductive Effect (db : Db) (connection : Connection) :
    Db → Connection → List Reply → Prop where
  /-- No row comes, and placeholders at most go. -/
  | quiet {db' : Db} {connection' : Connection} {replies : List Reply}
      (fewer : db'.sequences.Sublist db.sequences)
      (kept : ∀ row ∈ db.sequences, ¬Placeholder row.name →
        row ∈ db'.sequences)
      (counter : db.nextSequence ≤ db'.nextSequence)
      (pending : ∀ row, connection'.pending = some row →
        ∃ before, connection.pending = some before ∧ before.id = row.id)
      (deleted : ∀ key ∈ connection'.deleted, key ∈ connection.deleted ∨
        ∃ row ∈ db.sequences, row.id = key ∧ Placeholder row.name)
      (silent : ∀ reply ∈ replies, reply.1 = 0) :
      Effect db connection db' connection' replies
  /-- The connection takes a key past the counter. -/
  | reserves {connection' : Connection} (row : SequenceRow)
      (unallocated : db.nextSequence ≤ row.id)
      (pending : connection'.pending = some row)
      (deleted : connection'.deleted = []) :
      Effect db connection { db with nextSequence := row.id + 1 }
        connection' []
  /-- The transaction commits; without a reply it is one that an earlier call
  has left open. -/
  | publishes {connection' : Connection} {trx : Trx}
      {replies : List Reply}
      (current : connection.trx = some trx)
      (pending : connection'.pending = none)
      (deleted : connection'.deleted = [])
      (reply : (replies = [] ∧ ¬connection.Closed) ∨
        ∃ issued : Issued, trx = { inserted := some issued.named } ∧
          replies = [issued.reply]) :
      Effect db connection (commit db trx) connection' replies

section Effects

variable {free : String → Bool} {db db' : Db}
  {connection connection' : Connection} {replies : List Reply}

theorem pending_keep {left : Option Trx} {result : Result}
    {row : SequenceRow}
    (holds : (result.keep left).bind Trx.inserted = some row) :
    left.bind Trx.inserted = some row := by
  cases result with
  | ok => exact holds
  | failed => exact holds
  | aborted => cases holds

theorem deleted_keep {left : Option Trx} {result : Result} {key : Nat}
    (member : key ∈ ((result.keep left).map Trx.deleted).getD []) :
    key ∈ (left.map Trx.deleted).getD [] := by
  cases result with
  | ok => exact member
  | failed => exact member
  | aborted => cases member

/-- A statement that leaves the rows alone and whose connection keeps its
transaction or loses it. -/
theorem Effect.of_keep (result : Result)
    (sequences : db'.sequences = db.sequences)
    (counter : db.nextSequence ≤ db'.nextSequence)
    (trx : connection'.trx = result.keep connection.trx)
    (silent : ∀ reply ∈ replies, reply.1 = 0) :
    Effect db connection db' connection' replies := by
  refine .quiet (sequences ▸ List.Sublist.refl _)
    (fun row member _ => sequences ▸ member) counter ?_ ?_ silent
  · intro row holds
    refine ⟨row, ?_, rfl⟩
    unfold Connection.pending at holds ⊢
    rw [trx] at holds
    exact pending_keep holds
  · intro key member
    left
    unfold Connection.deleted at member ⊢
    rw [trx] at member
    exact deleted_keep member

/-- A clean-up takes placeholders away, now or with its transaction. -/
theorem Effect.of_cleanUp {matching : String → Bool}
    (placeholders : ∀ name, matching name = true → Placeholder name)
    {result : Result} {left : Option Trx} (before : connection.trx = left)
    (after : connection'.trx = (cleanUp matching db result left).2) :
    Effect db connection (cleanUp matching db result left).1 connection'
      [] := by
  unfold cleanUp at after ⊢
  split at after
  · refine .quiet ?_ ?_ (Nat.le_of_eq (by simp)) ?_ ?_ (by simp)
    · unfold Db.deleteSequences
      split
      · exact List.filter_sublist
      · exact List.Sublist.refl _
    · intro row member other
      refine Db.mem_deleteSequences ?_ member
      exact Bool.eq_false_iff.mpr fun matched =>
        other (placeholders _ matched)
    · intro row holds
      rw [Connection.pending, after] at holds
      cases holds
    · intro key member
      rw [Connection.deleted, after] at member
      cases member
  · rename_i trx
    split at after
    · rename_i deletable
      rw [if_pos deletable]
      refine .quiet (List.Sublist.refl _) (fun row member _ => member)
        (Nat.le_refl _) ?_ ?_ (by simp)
      · intro row holds
        rw [Connection.pending, after] at holds
        have own : trx.inserted = some row :=
          (Option.filter_eq_some_iff.mp holds).1
        refine ⟨row, ?_, rfl⟩
        rw [Connection.pending, before]
        exact own
      · intro key member
        rw [Connection.deleted, after] at member
        rcases List.mem_append.mp member with old | new
        · left
          rw [Connection.deleted, before]
          exact old
        · right
          obtain ⟨row, matched, rfl⟩ := List.mem_map.mp new
          obtain ⟨present, isMatch⟩ := List.mem_filter.mp matched
          exact ⟨row, present, rfl, placeholders _ isMatch⟩
    · rename_i restricted
      rw [if_neg restricted]
      refine .of_keep .ok rfl (Nat.le_refl _) ?_ (by simp)
      rw [after, before]
      rfl
  · refine .of_keep result rfl (Nat.le_refl _) ?_ (by simp)
    rw [after, before]

theorem effect_of_next {result : Result} {skipped : Nat}
    (taken : next free db result skipped connection =
      some (db', connection', replies)) :
    Effect db connection db' connection' replies := by
  cases connection with
  | idle left => cases taken
  | deleteEmpty token left =>
      cases taken
      exact .of_cleanUp (fun _ => .inl) rfl rfl
  | deleteTmp token left =>
      cases taken
      exact .of_cleanUp (fun _ => .inr) rfl rfl
  | startTransaction token left =>
      simp only [next] at taken
      split at taken
      · cases taken
        cases left with
        | none =>
            have same : (Sequence.commit db {}).sequences = db.sequences := by
              simp [Sequence.commit]
            exact .quiet (same ▸ List.Sublist.refl _)
              (fun row member _ => same ▸ member) (Nat.le_refl _) nofun
              nofun nofun
        | some trx =>
            exact .publishes rfl rfl rfl (.inl ⟨rfl, nofun⟩)
      · cases taken
        exact .of_keep result rfl (Nat.le_refl _) rfl (by simp)
  | prepareInsert token =>
      simp only [next] at taken
      split at taken
      · cases taken
        exact .of_keep .ok rfl (Nat.le_refl _) rfl (by simp)
      · cases taken
        exact .of_keep result rfl (Nat.le_refl _) rfl (by simp)
  | insert token =>
      simp only [next] at taken
      split at taken
      · split at taken
        · split at taken
          · split at taken
            · cases taken
              exact .reserves ⟨db.nextSequence + skipped, "TMP_" ++ token⟩
                (Nat.le_add_right _ _) rfl rfl
            · cases taken
              exact .reserves ⟨db.nextSequence + skipped, "TMP_" ++ token⟩
                (Nat.le_add_right _ _) rfl rfl
          · cases taken
        · cases taken
      · cases taken
        exact .of_keep result rfl (Nat.le_add_right _ _) rfl (by simp)
  | prepareUpdate issued =>
      simp only [next] at taken
      split at taken
      · cases taken
        exact .of_keep .ok rfl (Nat.le_refl _) rfl (by simp)
      · cases taken
        exact .of_keep result rfl (Nat.le_refl _) rfl (by simp)
  | update issued =>
      simp only [next] at taken
      split at taken
      · split at taken
        · cases taken
          refine .quiet (List.Sublist.refl _) (fun row member _ => member)
            (Nat.le_refl _) ?_ nofun nofun
          rintro row holds
          cases holds
          exact ⟨issued.placeholder, rfl, rfl⟩
        · cases taken
      · cases taken
        exact .of_keep result rfl (Nat.le_refl _) rfl (by simp)
  | commit issued =>
      simp only [next] at taken
      split at taken
      · cases taken
        have current : (Connection.commit issued).trx =
            some { inserted := some issued.named } := rfl
        exact .publishes current rfl rfl (.inr ⟨issued, rfl, rfl⟩)
      · cases taken
        exact .of_keep result rfl (Nat.le_refl _) rfl (by simp)
  | rollback left =>
      simp only [next] at taken
      split at taken
      · cases taken
        exact .of_keep .failed rfl (Nat.le_refl _) rfl (by simp)
      · cases taken
        exact .of_keep .aborted rfl (Nat.le_refl _) rfl (by simp)

end Effects

/-! ## Keys -/

section Keys

variable {n : Nat} {mariadb : Mariadb} {world after : World n}

/-- Every key is at one place: in a committed row, in the open transaction of
one connection or with a caller; a committed row and the reply about it agree,
and only placeholders are marked for deletion. -/
structure Keys (world : World n) : Prop where
  below : world.db.Keyed
  unique : (world.db.sequences.map SequenceRow.id).Nodup
  pending : ∀ actor row, (world.connections actor).pending = some row →
    row.id < world.db.nextSequence ∧
      ∀ other ∈ world.db.sequences, other.id ≠ row.id
  apart : ∀ first second row row',
    (world.connections first).pending = some row →
    (world.connections second).pending = some row' →
    row.id = row'.id → first = second
  deleted : ∀ actor, ∀ key ∈ (world.connections actor).deleted,
    key < world.db.nextSequence ∧
    (∀ row ∈ world.db.sequences, row.id = key → Placeholder row.name) ∧
    ∀ other row, (world.connections other).pending = some row →
      row.id ≠ key
  returned : ∀ reply ∈ world.successes, ∃ key,
    key < world.db.nextSequence ∧ key < 2 ^ 64 ∧
    reply = (toInt64 key, Db.sequenceName (toInt64 key)) ∧
    ∀ actor row, (world.connections actor).pending = some row →
      row.id ≠ key
  different : (world.successes.map Prod.fst).Nodup
  kept : ∀ reply ∈ world.successes, 0 < reply.1 →
    ⟨reply.1.toNat, reply.2⟩ ∈ world.db.sequences

theorem keys_initial {db : Db} (below : db.Keyed)
    (unique : (db.sequences.map SequenceRow.id).Nodup) :
    Keys (World.initial (n := n) db) := by
  refine ⟨below, unique, ?_, ?_, ?_, ?_, List.nodup_nil, ?_⟩
  · intro actor row holds
    cases holds
  · intro first second row row' holds
    cases holds
  · intro actor key member
    cases member
  · intro reply member
    cases member
  · intro reply member
    cases member

theorem pending_advance {actor other : Fin n} {db : Db}
    {connection : Connection} {replies : List Reply} {row : SequenceRow}
    (holds : ((world.advance actor db connection replies).connections
      other).pending = some row) :
    (other = actor ∧ connection.pending = some row) ∨
      (other ≠ actor ∧ (world.connections other).pending = some row) := by
  by_cases same : other = actor
  · rw [same, World.advance_same] at holds
    exact .inl ⟨same, holds⟩
  · rw [world.advance_other _ _ _ same] at holds
    exact .inr ⟨same, holds⟩

theorem deleted_advance {actor other : Fin n} {db : Db}
    {connection : Connection} {replies : List Reply} {key : Nat}
    (member : key ∈ ((world.advance actor db connection
      replies).connections other).deleted) :
    (other = actor ∧ key ∈ connection.deleted) ∨
      key ∈ (world.connections other).deleted := by
  by_cases same : other = actor
  · rw [same, World.advance_same] at member
    exact .inl ⟨same, member⟩
  · rw [world.advance_other _ _ _ same] at member
    exact .inr member

theorem successes_advance (actor : Fin n) (db : Db)
    (connection : Connection) (replies : List Reply) :
    (world.advance actor db connection replies).successes =
      world.successes ++
        replies.filter fun reply => decide (reply.1 ≠ 0) :=
  List.filter_append ..

/-- The keys of the pending rows were pending before, or are new. -/
def HeldBefore (world after : World n) : Prop :=
  ∀ actor row, (after.connections actor).pending = some row →
    (∃ before, (world.connections actor).pending = some before ∧
      before.id = row.id) ∨ world.db.nextSequence ≤ row.id

theorem HeldBefore.free {after : World n} (held : HeldBefore world after)
    {key : Nat} (below : key < world.db.nextSequence)
    (free : ∀ actor row, (world.connections actor).pending = some row →
      row.id ≠ key) :
    ∀ actor row, (after.connections actor).pending = some row →
      row.id ≠ key := by
  intro actor row holds
  rcases held actor row holds with ⟨before, own, same⟩ | new
  · rw [← same]
    exact free actor before own
  · omega

theorem Keys.returned_later (keys : Keys world) {after : World n}
    (counter : world.db.nextSequence ≤ after.db.nextSequence)
    (held : HeldBefore world after) :
    ∀ reply ∈ world.successes, ∃ key,
      key < after.db.nextSequence ∧ key < 2 ^ 64 ∧
      reply = (toInt64 key, Db.sequenceName (toInt64 key)) ∧
      ∀ actor row, (after.connections actor).pending = some row →
        row.id ≠ key := by
  intro reply member
  obtain ⟨key, below, bounded, equal, free⟩ := keys.returned reply member
  exact ⟨key, Nat.lt_of_lt_of_le below counter, bounded, equal,
    held.free below free⟩

/-- A key that is marked for deletion stays that of placeholders, whatever
pending rows are committed. -/
theorem Keys.deleted_later (keys : Keys world) {after : World n}
    (counter : world.db.nextSequence ≤ after.db.nextSequence)
    (held : HeldBefore world after)
    (rows : ∀ row ∈ after.db.sequences, row ∈ world.db.sequences ∨
      ∃ actor, (world.connections actor).pending = some row)
    {actor : Fin n} {key : Nat}
    (marked : key ∈ (world.connections actor).deleted) :
    key < after.db.nextSequence ∧
      (∀ row ∈ after.db.sequences, row.id = key → Placeholder row.name) ∧
      ∀ other row, (after.connections other).pending = some row →
        row.id ≠ key := by
  obtain ⟨below, placeholders, others⟩ := keys.deleted actor key marked
  refine ⟨Nat.lt_of_lt_of_le below counter, ?_, held.free below others⟩
  intro row member equal
  rcases rows row member with old | ⟨holder, pending⟩
  · exact placeholders row old equal
  · exact (others holder row pending equal).elim

theorem Keys.advance_quiet (keys : Keys world) {actor : Fin n} {db : Db}
    {connection : Connection} {replies : List Reply}
    (fewer : db.sequences.Sublist world.db.sequences)
    (kept : ∀ row ∈ world.db.sequences, ¬Placeholder row.name →
      row ∈ db.sequences)
    (counter : world.db.nextSequence ≤ db.nextSequence)
    (pending : ∀ row, connection.pending = some row →
      ∃ before, (world.connections actor).pending = some before ∧
        before.id = row.id)
    (deleted : ∀ key ∈ connection.deleted,
      key ∈ (world.connections actor).deleted ∨
        ∃ row ∈ world.db.sequences, row.id = key ∧ Placeholder row.name)
    (silent : ∀ reply ∈ replies, reply.1 = 0) :
    Keys (world.advance actor db connection replies) := by
  have held : ∀ other row, ((world.advance actor db connection
      replies).connections other).pending = some row →
      ∃ before, (world.connections other).pending = some before ∧
        before.id = row.id := by
    intro other row holds
    rcases pending_advance holds with ⟨rfl, own⟩ | ⟨-, same⟩
    · exact pending row own
    · exact ⟨row, same, rfl⟩
  have successes : (world.advance actor db connection replies).successes =
      world.successes := by
    rw [successes_advance, List.filter_eq_nil_iff.mpr, List.append_nil]
    intro reply member
    simp [silent reply member]
  have present : ∀ row ∈ db.sequences, row ∈ world.db.sequences :=
    fun row member => fewer.subset member
  have heldBefore : HeldBefore world
      (world.advance actor db connection replies) :=
    fun other row holds => .inl (held other row holds)
  refine ⟨?_, ?_, ?_, ?_, ?_, ?_, ?_, ?_⟩
  · intro row member
    exact Nat.lt_of_lt_of_le (keys.below row (present row member)) counter
  · exact keys.unique.sublist (fewer.map SequenceRow.id)
  · intro other row holds
    obtain ⟨before, own, same⟩ := held other row holds
    obtain ⟨below, new⟩ := keys.pending other before own
    rw [same] at below new
    exact ⟨Nat.lt_of_lt_of_le below counter,
      fun row member => new row (present row member)⟩
  · intro first second row row' firstHolds secondHolds equal
    obtain ⟨before, firstOwn, same⟩ := held first row firstHolds
    obtain ⟨before', secondOwn, same'⟩ := held second row' secondHolds
    refine keys.apart first second before before' firstOwn secondOwn ?_
    rw [same, same', equal]
  · intro other key member
    have old : key ∈ (world.connections other).deleted ∨
        ∃ row ∈ world.db.sequences, row.id = key ∧
          Placeholder row.name := by
      rcases deleted_advance member with ⟨rfl, own⟩ | same
      · exact deleted key own
      · exact .inl same
    rcases old with marked | ⟨marked, committed, rfl, placeholder⟩
    · exact keys.deleted_later counter heldBefore
        (fun row member => .inl (present row member)) marked
    · have below := keys.below marked committed
      have free : ∀ holder row, (world.connections holder).pending =
          some row → row.id ≠ marked.id := fun holder row holds equal =>
        (keys.pending holder row holds).2 marked committed equal.symm
      refine ⟨Nat.lt_of_lt_of_le below counter, ?_,
        heldBefore.free below free⟩
      intro row member equal
      have unique : row = marked := List.inj_on_of_nodup_map keys.unique
        (present row member) committed equal
      rw [unique]
      exact placeholder
  · rw [successes]
    exact keys.returned_later counter heldBefore
  · rw [successes]
    exact keys.different
  · intro reply member positive
    rw [successes] at member
    obtain ⟨key, -, -, equal, -⟩ := keys.returned reply member
    refine kept _ (keys.kept reply member positive) ?_
    rw [equal]
    exact not_placeholder_sequenceName _

theorem Keys.advance_reserves (keys : Keys world) {actor : Fin n}
    {connection : Connection} {row : SequenceRow}
    (unallocated : world.db.nextSequence ≤ row.id)
    (pending : connection.pending = some row)
    (deleted : connection.deleted = []) :
    Keys (world.advance actor { world.db with nextSequence := row.id + 1 }
      connection []) := by
  have successes : (world.advance actor
      { world.db with nextSequence := row.id + 1 } connection
        []).successes = world.successes := by
    rw [successes_advance, List.filter_nil, List.append_nil]
  have held : ∀ other held, ((world.advance actor
      { world.db with nextSequence := row.id + 1 } connection
        []).connections other).pending = some held →
      (other = actor ∧ held = row) ∨
        (other ≠ actor ∧
          (world.connections other).pending = some held) := by
    intro other held holds
    rcases pending_advance holds with ⟨same, own⟩ | others
    · rw [pending] at own
      cases own
      exact .inl ⟨same, rfl⟩
    · exact .inr others
  have counter : world.db.nextSequence ≤ row.id + 1 :=
    Nat.le_succ_of_le unallocated
  have heldBefore : HeldBefore world (world.advance actor
      { world.db with nextSequence := row.id + 1 } connection []) := by
    intro other row' holds
    rcases held other row' holds with ⟨-, rfl⟩ | ⟨-, own⟩
    · exact .inr unallocated
    · exact .inl ⟨row', own, rfl⟩
  refine ⟨?_, keys.unique, ?_, ?_, ?_, ?_, ?_, ?_⟩
  · intro other member
    have below := keys.below other member
    exact Nat.lt_succ_of_lt (Nat.lt_of_lt_of_le below unallocated)
  · intro other held' holds
    rcases held other held' holds with ⟨-, rfl⟩ | ⟨-, own⟩
    · refine ⟨Nat.lt_succ_self _, fun committed member => ?_⟩
      have below := keys.below committed member
      omega
    · obtain ⟨below, new⟩ := keys.pending other held' own
      exact ⟨Nat.lt_succ_of_lt (Nat.lt_of_lt_of_le below unallocated), new⟩
  · intro first second one two firstHolds secondHolds equal
    rcases held first one firstHolds with ⟨rfl, rfl⟩ | ⟨-, firstOwn⟩
    · rcases held second two secondHolds with ⟨rfl, -⟩ | ⟨-, secondOwn⟩
      · rfl
      · have below := (keys.pending second two secondOwn).1
        omega
    · rcases held second two secondHolds with ⟨rfl, rfl⟩ | ⟨-, secondOwn⟩
      · have below := (keys.pending first one firstOwn).1
        omega
      · exact keys.apart first second one two firstOwn secondOwn equal
  · intro other key member
    have marked : key ∈ (world.connections other).deleted := by
      rcases deleted_advance member with ⟨-, own⟩ | old
      · rw [deleted] at own
        cases own
      · exact old
    exact keys.deleted_later counter heldBefore
      (fun row member => .inl member) marked
  · rw [successes]
    exact keys.returned_later counter heldBefore
  · rw [successes]
    exact keys.different
  · intro reply member
    rw [successes] at member
    exact keys.kept reply member

theorem mem_commit {db : Db} {trx : Trx} {row : SequenceRow} :
    row ∈ (commit db trx).sequences ↔
      (row ∈ db.sequences ∧ row.id ∉ trx.deleted) ∨
        trx.inserted = some row := by
  simp [commit]

theorem nodup_commit {db : Db} {trx : Trx}
    (unique : (db.sequences.map SequenceRow.id).Nodup)
    (new : ∀ row, trx.inserted = some row →
      ∀ other ∈ db.sequences, other.id ≠ row.id) :
    ((commit db trx).sequences.map SequenceRow.id).Nodup := by
  have old : ((db.sequences.filter fun row =>
      decide (row.id ∉ trx.deleted)).map SequenceRow.id).Nodup :=
    unique.sublist (List.filter_sublist.map SequenceRow.id)
  cases inserted : trx.inserted with
  | none => simpa [commit, inserted] using old
  | some row =>
      have rows : (commit db trx).sequences =
          (db.sequences.filter fun row =>
            decide (row.id ∉ trx.deleted)) ++ [row] := by
        simp [commit, inserted]
      rw [rows, List.map_append]
      refine List.nodup_append'.mpr ⟨old, List.nodup_singleton _, ?_⟩
      intro key member last
      rw [List.mem_singleton.mp last] at member
      obtain ⟨other, kept, equal⟩ := List.mem_map.mp member
      exact new row inserted other (List.mem_of_mem_filter kept) equal

theorem Keys.kept_commit (keys : Keys world) {actor : Fin n} {trx : Trx}
    (current : (world.connections actor).trx = some trx) :
    ∀ reply ∈ world.successes, 0 < reply.1 →
      ⟨reply.1.toNat, reply.2⟩ ∈ (commit world.db trx).sequences := by
  have ownDeleted : (world.connections actor).deleted = trx.deleted := by
    rw [Connection.deleted, current]
    rfl
  intro reply member positive
  have before := keys.kept reply member positive
  refine mem_commit.mpr (.inl ⟨before, fun marked => ?_⟩)
  rw [← ownDeleted] at marked
  obtain ⟨key, -, -, equal, -⟩ := keys.returned reply member
  have placeholder := (keys.deleted actor _ marked).2.1 _ before rfl
  rw [equal] at placeholder
  exact not_placeholder_sequenceName _ placeholder

theorem Keys.different_append (keys : Keys world) {actor : Fin n}
    {issued : Issued}
    (own : (world.connections actor).pending = some issued.named) :
    ((world.successes ++ [issued.reply]).map Prod.fst).Nodup := by
  rw [List.map_append]
  refine List.nodup_append'.mpr
    ⟨keys.different, List.nodup_singleton _, ?_⟩
  intro id member last
  rw [List.mem_singleton.mp last] at member
  obtain ⟨reply, old, equal⟩ := List.mem_map.mp member
  obtain ⟨key, -, bounded, rfl, free⟩ := keys.returned reply old
  rw [Issued.reply_fst] at equal
  have same := toInt64_injective bounded issued.bounded equal
  exact free actor _ own same.symm

theorem Keys.advance_publishes (keys : Keys world) {actor : Fin n}
    {connection : Connection} {trx : Trx} {replies : List Reply}
    (current : (world.connections actor).trx = some trx)
    (pending : connection.pending = none)
    (deleted : connection.deleted = [])
    (ending : replies = [] ∨
      ∃ issued : Issued, trx = { inserted := some issued.named } ∧
        replies = [issued.reply]) :
    Keys (world.advance actor (commit world.db trx) connection
      replies) := by
  have own : (world.connections actor).pending = trx.inserted := by
    rw [Connection.pending, current, Option.bind_some]
  have held : ∀ other row, ((world.advance actor (commit world.db trx)
      connection replies).connections other).pending = some row →
      other ≠ actor ∧ (world.connections other).pending = some row := by
    intro other row holds
    rcases pending_advance holds with ⟨-, none⟩ | others
    · rw [pending] at none
      cases none
    · exact others
  have apart : ∀ other row row', other ≠ actor →
      (world.connections other).pending = some row →
      trx.inserted = some row' → row.id ≠ row'.id := by
    intro other row row' different holds inserted equal
    exact different (keys.apart other actor row row' holds
      (own.trans inserted) equal)
  have news : (world.advance actor (commit world.db trx) connection
      replies).successes = world.successes ∨
      ∃ issued : Issued, trx = { inserted := some issued.named } ∧
        (world.advance actor (commit world.db trx) connection
          replies).successes = world.successes ++ [issued.reply] := by
    rw [successes_advance]
    rcases ending with rfl | ⟨issued, same, rfl⟩
    · exact .inl (List.append_nil _)
    · refine .inr ⟨issued, same, ?_⟩
      congr 1
      exact List.filter_cons_of_pos (decide_eq_true issued.nonzero)
  have heldBefore : HeldBefore world (world.advance actor
      (commit world.db trx) connection replies) :=
    fun other row holds => .inl ⟨row, (held other row holds).2, rfl⟩
  have counter : world.db.nextSequence ≤ (world.advance actor
      (commit world.db trx) connection replies).db.nextSequence :=
    Nat.le_refl _
  have returned := keys.returned_later counter heldBefore
  refine ⟨?_, ?_, ?_, ?_, ?_, ?_, ?_, ?_⟩
  · intro row member
    rcases mem_commit.mp member with ⟨old, -⟩ | inserted
    · exact keys.below row old
    · exact (keys.pending actor row (own.trans inserted)).1
  · exact nodup_commit keys.unique fun row inserted =>
      (keys.pending actor row (own.trans inserted)).2
  · intro other row holds
    obtain ⟨different, before⟩ := held other row holds
    obtain ⟨below, new⟩ := keys.pending other row before
    refine ⟨below, fun committed member equal => ?_⟩
    rcases mem_commit.mp member with ⟨old, -⟩ | inserted
    · exact new committed old equal
    · exact apart other row committed different before inserted equal.symm
  · intro first second row row' firstHolds secondHolds equal
    exact keys.apart first second row row' (held first row firstHolds).2
      (held second row' secondHolds).2 equal
  · intro other key member
    have marked : key ∈ (world.connections other).deleted := by
      rcases deleted_advance member with ⟨-, none⟩ | old
      · rw [deleted] at none
        cases none
      · exact old
    refine keys.deleted_later counter heldBefore ?_ marked
    intro row member
    exact (mem_commit.mp member).imp And.left
      fun inserted => ⟨actor, own.trans inserted⟩
  · intro reply member
    rcases news with same | ⟨issued, rfl, same⟩
    · rw [same] at member
      exact returned reply member
    · rw [same] at member
      rcases List.mem_append.mp member with old | new
      · exact returned reply old
      · rw [List.mem_singleton.mp new]
        refine ⟨issued.key, (keys.pending actor _ own).1, issued.bounded,
          rfl, ?_⟩
        intro holder row holds
        obtain ⟨different, before⟩ := held holder row holds
        exact apart holder row _ different before rfl
  · rcases news with same | ⟨issued, rfl, same⟩
    · rw [same]
      exact keys.different
    · rw [same]
      exact keys.different_append own
  · intro reply member positive
    rcases news with same | ⟨issued, rfl, same⟩
    · rw [same] at member
      exact keys.kept_commit current reply member positive
    · rw [same] at member
      rcases List.mem_append.mp member with old | new
      · exact keys.kept_commit current reply old positive
      · rw [List.mem_singleton.mp new] at positive ⊢
        refine mem_commit.mpr (.inr ?_)
        exact congrArg some (Issued.named_of_pos positive)

theorem Keys.advance (keys : Keys world) {actor : Fin n} {db : Db}
    {connection : Connection} {replies : List Reply}
    (effect : Effect world.db (world.connections actor) db connection
      replies) :
    Keys (world.advance actor db connection replies) := by
  cases effect with
  | quiet fewer kept counter pending deleted silent =>
      exact keys.advance_quiet fewer kept counter pending deleted silent
  | reserves row unallocated pending deleted =>
      exact keys.advance_reserves unallocated pending deleted
  | publishes current pending deleted reply =>
      exact keys.advance_publishes current pending deleted
        (reply.imp_left And.left)

theorem Keys.step (keys : Keys world) {action : Action n}
    (taken : Sequence.step mariadb world action = some after) :
    Keys after := by
  cases action with
  | call actor token =>
      simp only [Sequence.step] at taken
      split at taken
      · rename_i left idle
        cases taken
        refine keys.advance ?_
        refine .of_keep .ok rfl (Nat.le_refl _) ?_ (by simp)
        rw [idle]
        rfl
      · cases taken
  | statement actor result skipped =>
      obtain ⟨⟨db, connection, replies⟩, executed, rfl⟩ :=
        Option.map_eq_some_iff.mp taken
      exact keys.advance (effect_of_next executed)

end Keys

/-! ## Failing rollbacks -/

section Atomic

variable {n : Nat} {mariadb : Mariadb} {world after : World n}
  {start : Db}

/-- A `ROLLBACK` does not fail. -/
def RollsBack (world : World n) : Action n → Prop
  | .call _ _ => True
  | .statement actor result _ =>
      match world.connections actor with
      | .rollback _ => result ≠ .failed
      | _ => True

instance (world : World n) (action : Action n) :
    Decidable (RollsBack world action) := by
  unfold RollsBack
  split
  · exact instDecidableTrue
  · split
    · exact inferInstance
    · exact instDecidableTrue

/-- Every committed row was there before, or is the row of a reply. -/
def Recorded (start : Db) (world : World n) : Prop :=
  ∀ row ∈ world.db.sequences, row.id < 2 ^ 63 →
    row ∈ start.sequences ∨
      ((row.id : Int), row.name) ∈ world.successes

/-- No transaction is open between two calls, and what is committed is
recorded. -/
structure Atomic (start : Db) (world : World n) : Prop where
  closed : ∀ actor, (world.connections actor).Closed
  recorded : Recorded start world

theorem closed_next {free : String → Bool} {db db' : Db}
    {connection connection' : Connection} {replies : List Reply}
    {result : Result} {skipped : Nat}
    (taken : next free db result skipped connection =
      some (db', connection', replies))
    (closed : connection.Closed)
    (rollsBack : ∀ left, connection = .rollback left →
      result ≠ .failed) : connection'.Closed := by
  cases connection with
  | idle left => cases taken
  | deleteEmpty token left =>
      cases closed
      cases taken
      cases result <;> rfl
  | deleteTmp token left =>
      cases closed
      cases taken
      cases result <;> rfl
  | startTransaction token left =>
      cases closed
      simp only [next] at taken
      split at taken
      · cases taken
        trivial
      · cases taken
        cases result <;> rfl
  | prepareInsert token =>
      simp only [next] at taken
      split at taken <;> (cases taken; trivial)
  | insert token =>
      simp only [next] at taken
      split at taken
      · split at taken
        · split at taken
          · split at taken <;> (cases taken; trivial)
          · cases taken
        · cases taken
      · cases taken
        trivial
  | prepareUpdate issued =>
      simp only [next] at taken
      split at taken <;> (cases taken; trivial)
  | update issued =>
      simp only [next] at taken
      split at taken
      · split at taken
        · cases taken
          trivial
        · cases taken
      · cases taken
        trivial
  | commit issued =>
      simp only [next] at taken
      split at taken
      · cases taken
        rfl
      · cases taken
        trivial
  | rollback left =>
      simp only [next] at taken
      split at taken
      · exact (rollsBack left rfl rfl).elim
      · cases taken
        rfl

theorem Recorded.advance (recorded : Recorded start world)
    {actor : Fin n} {db : Db} {connection : Connection}
    {replies : List Reply}
    (closed : (world.connections actor).Closed)
    (effect : Effect world.db (world.connections actor) db connection
      replies) :
    Recorded start (world.advance actor db connection replies) := by
  have keeps : ∀ reply ∈ world.successes,
      reply ∈ (world.advance actor db connection replies).successes := by
    intro reply member
    rw [successes_advance]
    exact List.mem_append_left _ member
  intro row member small
  cases effect with
  | quiet fewer kept counter pending deleted silent =>
      exact (recorded row (fewer.subset member) small).imp_right (keeps _)
  | reserves reserved unallocated pending deleted =>
      exact (recorded row member small).imp_right (keeps _)
  | publishes current pending deleted reply =>
      rcases reply with ⟨-, left⟩ | ⟨issued, rfl, rfl⟩
      · exact (left closed).elim
      · rcases mem_commit.mp member with ⟨old, -⟩ | inserted
        · exact (recorded row old small).imp_right (keeps _)
        · cases inserted
          right
          rw [successes_advance, ← Issued.named_of_lt small]
          refine List.mem_append_right _ (List.mem_filter.mpr
            ⟨List.mem_singleton.mpr rfl, decide_eq_true issued.nonzero⟩)

theorem Atomic.step (atomic : Atomic start world) {action : Action n}
    (rollsBack : RollsBack world action)
    (taken : Sequence.step mariadb world action = some after) :
    Atomic start after := by
  cases action with
  | call actor token =>
      simp only [Sequence.step] at taken
      split at taken
      · rename_i left idle
        cases taken
        have closed := atomic.closed actor
        rw [idle] at closed
        constructor
        · intro other
          by_cases same : other = actor
          · rw [same, World.advance_same]
            exact closed
          · rw [world.advance_other _ _ _ same]
            exact atomic.closed other
        · intro row member small
          rw [successes_advance, List.filter_nil, List.append_nil]
          exact atomic.recorded row member small
      · cases taken
  | statement actor result skipped =>
      obtain ⟨⟨db, connection, replies⟩, executed, rfl⟩ :=
        Option.map_eq_some_iff.mp taken
      constructor
      · intro other
        by_cases same : other = actor
        · rw [same, World.advance_same]
          refine closed_next executed (atomic.closed actor) ?_
          intro left rolling
          unfold RollsBack at rollsBack
          simp only [rolling] at rollsBack
          exact rollsBack
        · rw [world.advance_other _ _ _ same]
          exact atomic.closed other
      · exact atomic.recorded.advance (atomic.closed actor)
          (effect_of_next executed)

/-- The ids that calls have returned are pairwise different. -/
def DifferentIds (world : World n) : Prop :=
  (world.successes.map Prod.fst).Nodup

/-- Every returned id came with its name, and its row is committed; an id
that is negative stands for a key from `2 ^ 63` on. -/
def Kept (world : World n) : Prop :=
  ∀ reply ∈ world.successes, reply.2 = Db.sequenceName reply.1 ∧
    (0 < reply.1 → ⟨reply.1.toNat, reply.2⟩ ∈ world.db.sequences)

def NoPlaceholder (start : Db) (world : World n) : Prop :=
  ∀ row ∈ world.db.sequences, row.id < 2 ^ 63 →
    row ∈ start.sequences ∨ ¬Placeholder row.name

theorem Keys.kept_and_named (keys : Keys world) : Kept world := by
  intro reply member
  obtain ⟨key, -, -, rfl, -⟩ := keys.returned reply member
  exact ⟨rfl, keys.kept _ member⟩

theorem Keys.noPlaceholder (keys : Keys world)
    (recorded : Recorded start world) : NoPlaceholder start world := by
  intro row member small
  refine (recorded row member small).imp_right fun returned => ?_
  obtain ⟨key, -, -, equal, -⟩ := keys.returned _ returned
  rw [show row.name = Db.sequenceName (toInt64 key) from
    congrArg Prod.snd equal]
  exact not_placeholder_sequenceName _

/-- Over any number of connections, in every interleaving and whatever fails,
the returned ids differ and their rows below `2 ^ 63` stay; when no `ROLLBACK`
fails, those are the only rows below `2 ^ 63` that come. -/
theorem allocation_run (mariadb : Mariadb) (n : Nat) (start : Db)
    (keyed : start.Keyed)
    (unique : (start.sequences.map SequenceRow.id).Nodup)
    (actions : List (Action n)) :
    Visits (step mariadb) (fun world => DifferentIds world ∧ Kept world)
      (World.initial start) actions ∧
    (Along (step mariadb) RollsBack (World.initial start) actions →
      Visits (step mariadb)
        (fun world => Recorded start world ∧ NoPlaceholder start world)
        (World.initial start) actions) := by
  have initial := keys_initial (n := n) keyed unique
  constructor
  · refine (visits_of_preserved Keys ?_ initial actions).mono ?_
    · exact fun world action after keys taken => keys.step taken
    · exact fun world keys => ⟨keys.different, keys.kept_and_named⟩
  · intro rollsBack
    refine (visits_of_along (fun world => Keys world ∧ Atomic start world)
      ?_ ⟨initial, ?_⟩ rollsBack).mono ?_
    · rintro world action after ⟨keys, atomic⟩ here taken
      exact ⟨keys.step taken, atomic.step here taken⟩
    · exact ⟨fun actor => rfl, fun row member small => .inl member⟩
    · exact fun world both => ⟨both.2.recorded,
        both.1.noPlaceholder both.2.recorded⟩

/-- Two calls whose statements alternate; the second one cannot commit. -/
def alternating : List (Action 2) :=
  [.call 0 "a", .call 1 "b", .statement 0 .ok, .statement 1 .ok,
    .statement 0 .ok, .statement 1 .failed, .statement 1 .ok,
    .statement 0 .ok, .statement 1 .ok, .statement 0 .ok,
    .statement 1 .ok, .statement 0 .ok, .statement 0 .ok,
    .statement 1 .ok, .statement 1 .ok, .statement 0 .ok,
    .statement 1 .failed, .statement 1 .ok, .statement 0 .ok]

theorem allocation_alternating :
    Visits (step .binary) (fun world => DifferentIds world ∧ Kept world)
      (World.initial {}) alternating ∧
    Visits (step .binary)
      (fun world => Recorded {} world ∧ NoPlaceholder {} world)
      (World.initial {}) alternating :=
  have run := allocation_run .binary 2 {} (by simp [Db.Keyed]) (by decide)
    alternating
  ⟨run.1, run.2 (by decide +kernel)⟩

def inserting : List (Action 1) :=
  [.call 0 "a", .statement 0 .ok, .statement 0 .ok, .statement 0 .ok,
    .statement 0 .ok, .statement 0 .ok]

/-- The next `START TRANSACTION` commits what a failed `ROLLBACK` has left:
a named row, or a placeholder; and a key of `2 ^ 63` keeps its placeholder
under a negative id. -/
theorem allocation_not_atomic :
    (∃ world,
      run (step .binary) (World.initial {})
        (inserting ++ [.statement 0 .ok, .statement 0 .ok,
          .statement 0 .failed, .statement 0 .failed, .call 0 "b",
          .statement 0 .ok, .statement 0 .ok, .statement 0 .ok]) =
        some world ∧
      world.returned = [(0, "")] ∧
      world.db.sequences = [⟨1, "IMG_1"⟩]) ∧
    (∃ world,
      run (step .binary) (World.initial {})
        (inserting ++ [.statement 0 .failed, .statement 0 .failed,
          .call 0 "b", .statement 0 .ok, .statement 0 .failed,
          .statement 0 .ok]) = some world ∧
      world.returned = [(0, "")] ∧
      world.db.sequences = [⟨1, "TMP_a"⟩]) ∧
    (∃ world,
      run (step .binary) (World.initial { nextSequence := 2 ^ 63 })
        (inserting ++ [.statement 0 .ok, .statement 0 .ok,
          .statement 0 .ok]) = some world ∧
      world.returned =
        [(-9223372036854775808, "IMG_-9223372036854775808")] ∧
      world.db.sequences = [⟨9223372036854775808, "TMP_a"⟩]) :=
  ⟨exists_run_of_decide (by decide +kernel),
    exists_run_of_decide (by decide +kernel),
    exists_run_of_decide (by decide +kernel)⟩

end Atomic

end Sequence

end RawImport
