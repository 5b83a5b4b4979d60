import RawImport.Worker.Machine

/-!
# Tokens of passes

A pass may hold a token, such as a source hash or an output path, from some
stage on until its insert puts a row with that token into `imports`.  When
tokens are fresh where they are taken, no two rows come to carry one token.
-/

namespace RawImport

namespace Worker

namespace ProcessFile

variable {platform : Platform} {cfg : Config} {path : Path}
  {shared after : Shared} {stage stage' : Stage} {event : Event}

/-- Only an insert adds a row, and only the thumbnail or the archive stage
follows it. -/
theorem Step.rows
    (step : Step platform cfg path shared stage event after stage') :
    after.db.imports = shared.db.imports ∨
      ∃ record executed now, stage = .insert record ∧
        (stage' = .thumbnail record ∨ stage' = .archive record) ∧
        after.db =
          (shared.db.insertImport platform.mariadb record executed
            now).1 := by
  cases step with
  | insert =>
      refine .inr ⟨_, _, _, rfl, ?_, rfl⟩
      split
      · exact .inl rfl
      · exact .inr rfl
  | noSequence => exact .inl (by simp)
  | allocate => exact .inl (by simp)
  | alert => exact .inl (by simp)
  | _ => exact .inl rfl

end ProcessFile

section Tokens

variable {n : Nat} (held : ProcessFile.Stage → Option String)
  (carries : ImportRow → String → Prop)

def heldBy (world : World n) (thread : Fin n) : Option String :=
  (world.threads thread).bind fun pass => held pass.stage

/-- Rows carry different tokens, and the held tokens are in no row and
pairwise different. -/
structure Exclusively (world : World n) : Prop where
  once : world.shared.db.imports.Pairwise fun first second =>
    ∀ token, carries first token → ¬carries second token
  absent : ∀ thread token, heldBy held world thread = some token →
    ∀ row ∈ world.shared.db.imports, ¬carries row token
  apart : ∀ first second token, heldBy held world first = some token →
    heldBy held world second = some token → first = second

variable {held carries}
variable {platform : Platform} {cfg : Config} {world after : World n}
  {action : Action n}

theorem exclusively_initial (clock wall : Int) (fs : Fs) {db : Db}
    (once : db.imports.Pairwise fun first second =>
      ∀ token, carries first token → ¬carries second token) :
    Exclusively held carries (World.initial (n := n) clock wall fs db) := by
  refine ⟨once, ?_, ?_⟩
  · intro thread token holding
    cases holding
  · intro first second token holding
    cases holding

def FreshToken (held : ProcessFile.Stage → Option String)
    (carries : ImportRow → String → Prop) (world : World n)
    (token : String) : Prop :=
  (∀ row ∈ world.shared.db.imports, ¬carries row token) ∧
    ∀ other, heldBy held world other ≠ some token

theorem Exclusively.drop (exclusive : Exclusively held carries world)
    (sameRows : after.shared.db.imports = world.shared.db.imports)
    (holding : ∀ thread token, heldBy held after thread = some token →
      heldBy held world thread = some token) :
    Exclusively held carries after := by
  refine ⟨?_, ?_, ?_⟩
  · rw [sameRows]
    exact exclusive.once
  · intro thread token holds
    rw [sameRows]
    exact exclusive.absent thread token (holding thread token holds)
  · intro first second token firstHolds secondHolds
    exact exclusive.apart first second token
      (holding first token firstHolds) (holding second token secondHolds)

theorem Exclusively.take (exclusive : Exclusively held carries world)
    {actor : Fin n}
    (sameRows : after.shared.db.imports = world.shared.db.imports)
    (others : ∀ thread, thread ≠ actor →
      heldBy held after thread = heldBy held world thread)
    (taking : ∀ token, heldBy held after actor = some token →
      heldBy held world actor = some token ∨
        FreshToken held carries world token) :
    Exclusively held carries after := by
  have apart : ∀ thread token, thread ≠ actor →
      heldBy held after actor = some token →
        heldBy held world thread ≠ some token := by
    intro thread token different holds other
    rcases taking token holds with kept | fresh
    · exact different (exclusive.apart thread actor token other kept)
    · exact fresh.2 thread other
  refine ⟨?_, ?_, ?_⟩
  · rw [sameRows]
    exact exclusive.once
  · intro thread token holds
    rw [sameRows]
    by_cases here : thread = actor
    · rw [here] at holds
      rcases taking token holds with kept | fresh
      · exact exclusive.absent actor token kept
      · exact fresh.1
    · rw [others thread here] at holds
      exact exclusive.absent thread token holds
  · intro first second token firstHolds secondHolds
    by_cases firstHere : first = actor
    · by_cases secondHere : second = actor
      · rw [firstHere, secondHere]
      · rw [firstHere] at firstHolds
        rw [others second secondHere] at secondHolds
        exact (apart second token secondHere firstHolds secondHolds).elim
    · rw [others first firstHere] at firstHolds
      by_cases secondHere : second = actor
      · rw [secondHere] at secondHolds
        exact (apart first token firstHere secondHolds firstHolds).elim
      · rw [others second secondHere] at secondHolds
        exact exclusive.apart first second token firstHolds secondHolds

theorem Exclusively.give (exclusive : Exclusively held carries world)
    {actor : Fin n} {row : ImportRow}
    (grown : after.shared.db.imports = world.shared.db.imports ++ [row])
    (others : ∀ thread, thread ≠ actor →
      heldBy held after thread = heldBy held world thread)
    (released : heldBy held after actor = none)
    (carried : ∀ token, carries row token →
      heldBy held world actor = some token) :
    Exclusively held carries after := by
  have away : ∀ thread token, heldBy held after thread = some token →
      thread ≠ actor ∧ heldBy held world thread = some token := by
    intro thread token holds
    have different : thread ≠ actor := by
      rintro rfl
      rw [released] at holds
      cases holds
    rw [others thread different] at holds
    exact ⟨different, holds⟩
  refine ⟨?_, ?_, ?_⟩
  · rw [grown]
    refine List.pairwise_append.mpr
      ⟨exclusive.once, List.pairwise_singleton _ _, ?_⟩
    intro old member added last token carrying addedCarries
    rw [List.mem_singleton.mp last] at addedCarries
    exact exclusive.absent actor token (carried token addedCarries) old
      member carrying
  · intro thread token holds old member carrying
    obtain ⟨different, before⟩ := away thread token holds
    rw [grown] at member
    rcases List.mem_append.mp member with present | last
    · exact exclusive.absent thread token before old present carrying
    · rw [List.mem_singleton.mp last] at carrying
      exact different (exclusive.apart thread actor token before
        (carried token carrying))
  · intro first second token firstHolds secondHolds
    exact exclusive.apart first second token
      (away first token firstHolds).2 (away second token secondHolds).2

/-- Exclusive tokens stay so when a pass takes fresh ones only, away from its
insert, and its insert carries the token it held. -/
theorem Exclusively.step (exclusive : Exclusively held carries world)
    (taken : Worker.step platform cfg world action = some after)
    (starts : held .fingerprint = none)
    (carried : ∀ record db now token,
      carries (Db.importRow db record now) token →
        held (.insert record) = some token)
    (released : ∀ record, held (.thumbnail record) = none ∧
      held (.archive record) = none)
    (acquired : ∀ thread event pass shared stage token,
      action = .pass thread event → world.threads thread = some pass →
      ProcessFile.Step platform cfg pass.path world.shared pass.stage event
        shared stage →
      held stage = some token →
        held pass.stage = some token ∨
          FreshToken held carries world token) :
    Exclusively held carries after := by
  rcases step_cases taken with ⟨-, sameDb, -, before⟩ |
    ⟨actor, event, pass, shared, stage, same, busy, passStep, rfl⟩
  · refine exclusive.drop (congrArg Db.imports sameDb) ?_
    intro thread token holds
    obtain ⟨pass, running, token⟩ := Option.bind_eq_some_iff.mp holds
    rcases before thread pass running with old | new
    · exact Option.bind_eq_some_iff.mpr ⟨pass, old, token⟩
    · rw [new, starts] at token
      cases token
  · have own : heldBy held ((world.withShared shared).setThread actor
        (some ⟨pass.path, stage⟩)) actor = held stage := by
      rw [heldBy, World.setThread_same, Option.bind_some]
    have others : ∀ thread, thread ≠ actor →
        heldBy held ((world.withShared shared).setThread actor
          (some ⟨pass.path, stage⟩)) thread = heldBy held world thread := by
      intro thread different
      rw [heldBy, World.setThread_other _ _ different]
      rfl
    have ownBefore : heldBy held world actor = held pass.stage := by
      rw [heldBy, busy, Option.bind_some]
    have taking : ∀ token,
        heldBy held ((world.withShared shared).setThread actor
          (some ⟨pass.path, stage⟩)) actor = some token →
        heldBy held world actor = some token ∨
          FreshToken held carries world token := by
      intro token holds
      rw [own] at holds
      rw [ownBefore]
      exact acquired actor event pass shared stage token same busy passStep
        holds
    rcases passStep.rows with sameRows |
      ⟨record, executed, now, inserting, ended, inserted⟩
    · exact exclusive.take sameRows others taking
    · rcases Db.insertImport_cases platform.mariadb world.shared.db record
          executed now with ⟨-, -, grown⟩ | ⟨-, refused⟩
      · refine exclusive.give
          (congrArg Db.imports (inserted.trans grown)) others ?_ ?_
        · rw [own]
          rcases ended with rfl | rfl
          · exact (released record).1
          · exact (released record).2
        · intro token carrying
          rw [ownBefore, inserting]
          exact carried record _ now token carrying
      · exact exclusive.take (congrArg Db.imports (inserted.trans refused))
          others taking

end Tokens

end Worker

end RawImport
