import RawImport.Lib.Spacing
import RawImport.Worker.NewFiles
import RawImport.Worker.Retries

/-!
# Paced retries

A path is pushed when it has no `seen` entry, and the entry that a push makes
is erased by a cleanup more than the TTL after the time of its scan.  So the
scan times of two pushes are more than the TTL apart.  Every counted failure
needs a push of its own, and the dead letters come after the last of them.  A
file that finds failures, or a pass, of an earlier file of its name needs
fewer.
-/

namespace RawImport

namespace Worker

open PathText Spacing Transition

theorem ProcessFile.Step.clock {platform : Platform} {cfg : Config}
    {path : Path} {shared after : Shared} {stage stage' : ProcessFile.Stage}
    {event : ProcessFile.Event}
    (step : ProcessFile.Step platform cfg path shared stage event after
      stage') : after.clock = shared.clock := by
  cases step <;> rfl

/-- A pass at this stage can still be counted as a failure. -/
def ProcessFile.Stage.mayFail : ProcessFile.Stage → Bool
  | .moveDead _ _ => false
  | .alert _ _ => false
  | .release => false
  | .done => false
  | _ => true

theorem ProcessFile.Failure.after_mayFail (failure : ProcessFile.Failure) :
    failure.after.mayFail ≠ true := by
  cases failure <;> exact Bool.false_ne_true

/-- A pass is counted once, and what may still fail could fail before. -/
theorem ProcessFile.Step.mayFail {platform : Platform} {cfg : Config}
    {path : Path} {shared after : Shared} {stage stage' : ProcessFile.Stage}
    {event : ProcessFile.Event}
    (step : ProcessFile.Step platform cfg path shared stage event after
      stage') (may : stage'.mayFail = true) :
    stage.mayFail = true ∧ ∀ failure, stage ≠ .countFailure failure := by
  cases step with
  | countFailure =>
      split at may
      · cases may
      · exact (ProcessFile.Failure.after_mayFail _ may).elim
  | moveDead =>
      split at may
      · cases may
      · exact (ProcessFile.Failure.after_mayFail _ may).elim
  | alert => exact (ProcessFile.Failure.after_mayFail _ may).elim
  | moveDuplicate => cases may
  | archive => cases may
  | release => cases may
  | _ => exact ⟨rfl, nofun⟩

section Pushes

variable {n : Nat} (platform : Platform) (cfg : Config)

/-- The time of the scan whose step puts the path into `files`. -/
def pushedAt (path : Path) (world : World n) (action : Action n) :
    Option Int :=
  match world.poll, step platform cfg world action with
  | .scan now, some after =>
      if after.shared.impl.files = world.shared.impl.files ++ [path] then
        some now
      else none
  | _, _ => none

/-- The scan times of all pushes of the path, latest first. -/
def pushes (path : Path) (past : List (World n × Action n)) : List Int :=
  past.filterMap fun earlier => pushedAt platform cfg path earlier.1 earlier.2

/-- The scan times of the pushes since the file that is under the path
appeared, latest first. -/
def filePushes (path : Path) : List (World n × Action n) → List Int
  | [] => []
  | (world, action) :: past =>
      if world.shared.fs path = none then []
      else
        (pushedAt platform cfg path world action).toList ++
          filePushes path past

end Pushes

/-- The time that the next push can have: the one of the running scan, or the
clock. -/
def World.horizon {n : Nat} (world : World n) : Int :=
  match world.poll with
  | .scan now => now
  | _ => world.shared.clock

section Spacing

variable {n : Nat} {platform : Platform} {cfg : Config}

/-- The queue and the `seen` map change by a push, a cleanup or a pop. -/
inductive QueueStep (cfg : Config) (world after : World n) : Prop where
  | push (path : Path) (now : Int)
      (polling : world.poll = .scan now)
      (present : world.shared.fs path ≠ none)
      (unseen : world.shared.impl.seen path = none)
      (files : after.shared.impl.files = world.shared.impl.files ++ [path])
      (seen : after.shared.impl.seen =
        Function.update world.shared.impl.seen path (some now))
      (clock : after.shared.clock = world.shared.clock)
      (poll : after.poll = world.poll)
  | quiet
      (files : after.shared.impl.files = world.shared.impl.files)
      (seen : after.shared.impl.seen = world.shared.impl.seen)
      (clock : world.shared.clock ≤ after.shared.clock)
      (poll : after.poll = world.poll ∨ after.horizon = after.shared.clock)
  | cleanup
      (files : after.shared.impl.files = world.shared.impl.files)
      (seen : after.shared.impl.seen =
        (world.shared.impl.cleanupSeenTtl cfg world.shared.clock).seen)
      (clock : after.shared.clock = world.shared.clock)
      (horizon : after.horizon = after.shared.clock)
  | pop (path : Path)
      (files : world.shared.impl.files = path :: after.shared.impl.files)
      (seen : after.shared.impl.seen = world.shared.impl.seen)
      (clock : after.shared.clock = world.shared.clock)
      (poll : after.poll = world.poll)

theorem queueStep_of_step {world after : World n} {action : Action n}
    (taken : step platform cfg world action = some after) :
    QueueStep cfg world after := by
  cases action with
  | advance ns =>
      cases taken
      exact .quiet rfl rfl (le_add_of_nonneg_right (Int.natCast_nonneg ns))
        (.inl rfl)
  | setWall wall =>
      cases taken
      exact .quiet rfl rfl (le_refl _) (.inl rfl)
  | external path file =>
      cases taken
      exact .quiet rfl rfl (le_refl _) (.inl rfl)
  | beginScan =>
      simp only [step] at taken
      split at taken
      · split at taken
        · cases taken
          exact .quiet rfl rfl (le_refl _) (.inr rfl)
        · cases taken
          exact .quiet rfl rfl (le_refl _) (.inr rfl)
      · cases taken
  | scanFile name =>
      obtain ⟨now, file, polling, present, -, ⟨-, rfl⟩ | ⟨-, rfl⟩⟩ :=
        scanFile_cases taken
      · rcases world.shared.impl.scanEntry_cases
          (joinPath cfg.watchDir name) now with
          ⟨-, same⟩ | ⟨-, unseen, queued⟩
        · rw [same]
          exact .quiet rfl rfl (le_refl _) (.inl rfl)
        · rw [queued]
          have there : world.shared.fs (joinPath cfg.watchDir name) ≠ none := by
            rw [present]
            exact Option.some_ne_none file
          exact .push _ now polling there unseen rfl rfl rfl rfl
      · exact .quiet rfl rfl (le_refl _) (.inl rfl)
  | endScan =>
      simp only [step] at taken
      split at taken
      · cases taken
        exact .quiet rfl rfl (le_refl _) (.inr rfl)
      · cases taken
  | cleanup =>
      simp only [step] at taken
      split at taken
      · cases taken
        exact .cleanup rfl rfl rfl rfl
      · cases taken
  | pop thread =>
      obtain ⟨path, impl, -, popped, rfl⟩ := pop_cases taken
      obtain ⟨files, -, seen, -, -⟩ := Impl.popFile_cases popped
      exact .pop path files seen rfl rfl
  | pass thread event =>
      obtain ⟨pass, shared, stage, -, passStep, rfl⟩ := pass_cases taken
      obtain ⟨files, seen⟩ := passStep.queue
      exact .quiet files seen (le_of_eq passStep.clock.symm) (.inl rfl)
  | finish thread =>
      obtain ⟨path, -, rfl⟩ := finish_cases taken
      exact .quiet rfl rfl (le_refl _) (.inl rfl)

theorem pushes_cons (path : Path) (world : World n) (action : Action n)
    (past : List (World n × Action n)) :
    pushes platform cfg path ((world, action) :: past) =
      (pushedAt platform cfg path world action).toList ++
        pushes platform cfg path past := by
  unfold pushes
  rw [List.filterMap_cons]
  cases pushedAt platform cfg path world action with
  | none => rfl
  | some now => rfl

theorem pushedAt_of_push {world after : World n} {action : Action n}
    {path : Path} {now : Int}
    (taken : step platform cfg world action = some after)
    (polling : world.poll = .scan now)
    (files : after.shared.impl.files = world.shared.impl.files ++ [path])
    (other : Path) :
    pushedAt platform cfg other world action =
      if other = path then some now else none := by
  unfold pushedAt
  rw [polling, taken]
  simp only [files, List.append_cancel_left_eq, List.cons.injEq, and_true,
    eq_comm]

theorem pushedAt_eq_none {world after : World n} {action : Action n}
    {path : Path} (taken : step platform cfg world action = some after)
    (short : after.shared.impl.files.length ≤
      world.shared.impl.files.length) :
    pushedAt platform cfg path world action = none := by
  unfold pushedAt
  rw [taken]
  split
  · rename_i same
    cases same
    refine if_neg fun grown => ?_
    rw [grown, List.length_append, List.length_singleton] at short
    omega
  · rfl

theorem pushedAt_absent {world after : World n} {action : Action n}
    {path : Path} (taken : step platform cfg world action = some after)
    (absent : world.shared.fs path = none) :
    pushedAt platform cfg path world action = none := by
  cases queueStep_of_step taken with
  | push pushed now polling present unseen files seen clock poll =>
      rw [pushedAt_of_push taken polling files]
      refine if_neg ?_
      rintro rfl
      exact present absent
  | quiet files => exact pushedAt_eq_none taken (by rw [files])
  | cleanup files => exact pushedAt_eq_none taken (by rw [files])
  | pop front files =>
      exact pushedAt_eq_none taken (by rw [files]; exact Nat.le_succ _)

theorem filePushes_sublist (path : Path) (past : List (World n × Action n)) :
    (filePushes platform cfg path past).Sublist
      (pushes platform cfg path past) := by
  induction past with
  | nil => exact List.Sublist.refl _
  | cons entry past ih =>
      obtain ⟨world, action⟩ := entry
      rw [pushes_cons, filePushes]
      split
      · exact List.nil_sublist _
      · exact ih.append_left _

theorem filePushes_cons {path : Path} {world : World n}
    (present : world.shared.fs path ≠ none) (action : Action n)
    (past : List (World n × Action n)) :
    filePushes platform cfg path ((world, action) :: past) =
      (pushedAt platform cfg path world action).toList ++
        filePushes platform cfg path past :=
  if_neg present

/-- The pushes of every path are apart, with its `seen` entry as the mark. -/
structure Paced (platform : Platform) (cfg : Config)
    (state : Tracked (World n) (Action n)) : Prop where
  timely : state.now.horizon ≤ state.now.shared.clock
  spaced : ∀ path, Spaced (Impl.ttl cfg) state.now.horizon
    (state.now.shared.impl.seen path)
    (pushes platform cfg path state.past)

theorem paced_start (clock wall : Int) (fs : Fs) (db : Db) :
    Paced platform cfg
      (.start (World.initial (n := n) clock wall fs db)) where
  timely := le_refl _
  spaced _ := .nil _ _ _

/-- A cleanup keeps an entry or erases one that is older than the TTL. -/
theorem cleanupSeenTtl_cases {impl : Impl} {now : Int} (path : Path) :
    (impl.cleanupSeenTtl cfg now).seen path = impl.seen path ∨
      ∃ stamp, impl.seen path = some stamp ∧ Impl.ttl cfg < now - stamp ∧
        (impl.cleanupSeenTtl cfg now).seen path = none := by
  cases seen : impl.seen path with
  | none =>
      left
      show (impl.seen path).filter _ = none
      rw [seen]
      rfl
  | some stamp =>
      by_cases expired : Impl.ttl cfg < now - stamp
      · right
        exact ⟨stamp, rfl, expired, cleanupSeenTtl_expired seen expired⟩
      · left
        have young : decide (now - stamp ≤ Impl.ttl cfg) = true :=
          decide_eq_true (not_lt.mp expired)
        show (impl.seen path).filter _ = some stamp
        rw [seen, Option.filter_some, young]
        rfl

theorem horizon_step {world after : World n}
    (queued : QueueStep cfg world after)
    (timely : world.horizon ≤ world.shared.clock) :
    world.horizon ≤ after.horizon ∧ after.horizon ≤ after.shared.clock := by
  have same : after.poll = world.poll →
      world.shared.clock ≤ after.shared.clock →
        world.horizon ≤ after.horizon ∧
          after.horizon ≤ after.shared.clock := by
    intro poll clock
    unfold World.horizon at timely ⊢
    rw [poll]
    split
    · rename_i now polling
      rw [polling] at timely
      exact ⟨le_refl _, timely.trans clock⟩
    · exact ⟨clock, le_refl _⟩
  cases queued with
  | push _ _ _ _ _ _ _ clock poll => exact same poll clock.ge
  | quiet _ _ clock poll =>
      rcases poll with poll | arrived
      · exact same poll clock
      · rw [arrived]
        exact ⟨timely.trans clock, le_refl _⟩
  | cleanup _ _ clock horizon =>
      rw [horizon, clock]
      exact ⟨timely, le_refl _⟩
  | pop _ _ _ clock poll => exact same poll clock.ge

theorem paced_step {state after : Tracked (World n) (Action n)}
    {action : Action n} (paced : Paced platform cfg state)
    (taken : track (step platform cfg) state action = some after) :
    Paced platform cfg after := by
  obtain ⟨stepTaken, past⟩ := track_eq_some_iff.mp taken
  have queued := queueStep_of_step stepTaken
  obtain ⟨later, timely⟩ := horizon_step queued paced.timely
  refine ⟨timely, fun path => ?_⟩
  have before := paced.spaced path
  have silent : after.now.shared.impl.files.length ≤
        state.now.shared.impl.files.length →
      pushes platform cfg path after.past =
        pushes platform cfg path state.past := by
    intro short
    rw [past, pushes_cons, pushedAt_eq_none stepTaken short]
    rfl
  cases queued with
  | push pushed now polling present unseen files seen clock poll =>
      have horizon : state.now.horizon = now := by
        rw [World.horizon, polling]
      have same : after.now.horizon = now := by
        rw [World.horizon, poll, polling]
      rw [past, pushes_cons, pushedAt_of_push stepTaken polling files, seen,
        same]
      rw [horizon] at before
      by_cases here : path = pushed
      · subst here
        rw [unseen] at before
        rw [if_pos rfl, Function.update_self]
        exact before.event
      · rw [if_neg here, Function.update_of_ne here]
        exact before
  | quiet files seen clock poll =>
      rw [silent (by rw [files]), seen]
      exact before.later later
  | cleanup files seen clock horizon =>
      rw [silent (by rw [files]), seen]
      rcases cleanupSeenTtl_cases path with
        kept | ⟨stamp, stamped, expired, erased⟩
      · rw [kept]
        exact before.later later
      · rw [erased]
        rw [stamped] at before
        apply before.expire later
        rw [horizon, clock]
        exact expired
  | pop front files seen clock poll =>
      have short : after.now.shared.impl.files.length ≤
          state.now.shared.impl.files.length := by
        rw [files]
        exact Nat.le_succ _
      rw [silent short, seen]
      exact before.later later

end Spacing

section Budget

variable {n : Nat} {platform : Platform} {cfg : Config}

/-- The pass of the thread is on the path and may still fail. -/
def Attempts (world : World n) (path : Path) (thread : Fin n) : Prop :=
  ∃ pass ∈ world.threads thread,
    pass.path = path ∧ pass.stage.mayFail = true

instance (world : World n) (path : Path) :
    DecidablePred (Attempts world path) :=
  fun thread => inferInstanceAs (Decidable (∃ pass ∈ world.threads thread, _))

/-- The passes on the path that may still fail, started or not. -/
def chances (world : World n) (path : Path) : Nat :=
  world.shared.impl.files.count path +
    (Finset.univ.filter (Attempts world path)).card

theorem Counts.attempts {world : World n} {path : Path} {thread : Fin n}
    (counts : Counts world path thread) : Attempts world path thread := by
  obtain ⟨failure, busy⟩ := counts
  exact ⟨_, busy, rfl, rfl⟩

theorem chances_le {world after : World n} {path : Path}
    (files : after.shared.impl.files.count path ≤
      world.shared.impl.files.count path)
    (before : ∀ thread, Attempts after path thread →
      Attempts world path thread) :
    chances after path ≤ chances world path := by
  have subset : Finset.univ.filter (Attempts after path) ⊆
      Finset.univ.filter (Attempts world path) := by
    intro thread
    simp only [Finset.mem_filter, Finset.mem_univ, true_and]
    exact before thread
  exact Nat.add_le_add files (Finset.card_le_card subset)

theorem chances_push {world after : World n} {pushed : Path}
    (files : after.shared.impl.files = world.shared.impl.files ++ [pushed])
    (threads : after.threads = world.threads) (path : Path) :
    chances after path ≤
      chances world path + if path = pushed then 1 else 0 := by
  have same : Finset.univ.filter (Attempts after path) =
      Finset.univ.filter (Attempts world path) := by
    apply Finset.filter_congr
    intro thread _
    unfold Attempts
    rw [threads]
  unfold chances
  rw [files, same, List.count_append]
  by_cases here : path = pushed
  · rw [if_pos here, here, List.count_singleton_self]
    omega
  · have other : (pushed == path) = false :=
      beq_false_of_ne fun equal => here equal.symm
    rw [if_neg here, List.count_singleton, other]
    exact Nat.le_refl _

theorem chances_lt {world after : World n} {path : Path} {counted : Fin n}
    (files : after.shared.impl.files = world.shared.impl.files)
    (before : ∀ thread, Attempts after path thread →
      Attempts world path thread)
    (attempted : Attempts world path counted)
    (gone : ¬ Attempts after path counted) :
    chances after path < chances world path := by
  have subset : Finset.univ.filter (Attempts after path) ⊂
      Finset.univ.filter (Attempts world path) := by
    rw [Finset.ssubset_iff_of_subset]
    · exact ⟨counted, by simpa using attempted, by simpa using gone⟩
    · intro thread
      simp only [Finset.mem_filter, Finset.mem_univ, true_and]
      exact before thread
  unfold chances
  rw [files]
  exact Nat.add_lt_add_left (Finset.card_lt_card subset) _

/-- Outside of the scan and the pop a step gives no new chance. -/
theorem attempts_pass {world : World n} {thread : Fin n} {pass : Pass}
    {shared : Shared} {stage : ProcessFile.Stage}
    {event : ProcessFile.Event} (busy : world.threads thread = some pass)
    (passStep : ProcessFile.Step platform cfg pass.path world.shared
      pass.stage event shared stage)
    (path : Path) (other : Fin n)
    (attempts : Attempts ((world.withShared shared).setThread thread
      (some ⟨pass.path, stage⟩)) path other) :
    Attempts world path other ∧ (other = thread →
      ∀ failure, pass.stage ≠ .countFailure failure) := by
  obtain ⟨running, otherBusy, samePath, may⟩ := attempts
  by_cases same : other = thread
  · subst same
    rw [World.setThread_same] at otherBusy
    cases otherBusy
    obtain ⟨mayBefore, uncounted⟩ := passStep.mayFail may
    exact ⟨⟨pass, busy, samePath, mayBefore⟩, fun _ => uncounted⟩
  · rw [World.setThread_other _ _ same] at otherBusy
    exact ⟨⟨running, otherBusy, samePath, may⟩, fun equal =>
      (same equal).elim⟩

theorem chances_pop {world : World n} {thread : Fin n} {front : Path}
    {impl : Impl} (idle : world.threads thread = none)
    (popped : world.shared.impl.popFile = some (front, impl))
    (path : Path) :
    chances ((world.withShared { world.shared with
      impl := impl }).setThread thread (some ⟨front, .fingerprint⟩)) path ≤
      chances world path := by
  obtain ⟨files, -⟩ := Impl.popFile_cases popped
  set after := (world.withShared { world.shared with
    impl := impl }).setThread thread (some ⟨front, .fingerprint⟩)
  have before : ∀ other, other ≠ thread → Attempts after path other →
      Attempts world path other := by
    rintro other different ⟨running, busy, rest⟩
    rw [World.setThread_other _ _ different] at busy
    exact ⟨running, busy, rest⟩
  unfold chances
  rw [files]
  by_cases here : front = path
  · rw [here, List.count_cons_self]
    have subset : Finset.univ.filter (Attempts after path) ⊆
        insert thread (Finset.univ.filter (Attempts world path)) := by
      intro other
      simp only [Finset.mem_filter, Finset.mem_univ, true_and,
        Finset.mem_insert]
      by_cases same : other = thread
      · exact fun _ => .inl same
      · exact fun attempts => .inr (before other same attempts)
    have bound := (Finset.card_le_card subset).trans
      (Finset.card_insert_le _ _)
    show impl.files.count path + _ ≤ _
    omega
  · rw [List.count_cons_of_ne here]
    refine Nat.add_le_add (le_refl _) (Finset.card_le_card ?_)
    intro other
    simp only [Finset.mem_filter, Finset.mem_univ, true_and]
    by_cases same : other = thread
    · subst same
      rintro ⟨running, busy, samePath, -⟩
      rw [World.setThread_same] at busy
      cases busy
      exact (here samePath).elim
    · exact before other same

/-- A step gives a path no more new chances than it pushes it, and a counted
failure takes one away. -/
theorem chances_step {world after : World n} {action : Action n}
    (path : Path) (taken : step platform cfg world action = some after) :
    chances after path ≤ chances world path +
        (pushedAt platform cfg path world action).toList.length ∧
      ∀ thread event, action = .pass thread event →
        Counts world path thread → chances after path < chances world path := by
  have quiet : after.shared.impl.files = world.shared.impl.files →
      after.threads = world.threads →
        chances after path ≤ chances world path +
          (pushedAt platform cfg path world action).toList.length := by
    intro files threads
    refine Nat.le_add_right_of_le (chances_le (by rw [files]) ?_)
    intro thread attempts
    unfold Attempts at attempts
    rwa [threads] at attempts
  cases action with
  | advance ns =>
      cases taken
      exact ⟨quiet rfl rfl, nofun⟩
  | setWall wall =>
      cases taken
      exact ⟨quiet rfl rfl, nofun⟩
  | external other file =>
      cases taken
      exact ⟨quiet rfl rfl, nofun⟩
  | beginScan =>
      obtain ⟨shared, threads⟩ := beginScan_cases taken
      exact ⟨quiet (by rw [shared]) threads, nofun⟩
  | endScan =>
      obtain ⟨shared, threads⟩ := endScan_cases taken
      exact ⟨quiet (by rw [shared]) threads, nofun⟩
  | cleanup =>
      obtain ⟨shared, threads⟩ := cleanup_cases taken
      exact ⟨quiet (by rw [shared]; rfl) threads, nofun⟩
  | scanFile name =>
      refine ⟨?_, nofun⟩
      obtain ⟨now, file, polling, -, -, ⟨-, rfl⟩ | ⟨-, rfl⟩⟩ :=
        scanFile_cases taken
      · rcases world.shared.impl.scanEntry_cases
          (joinPath cfg.watchDir name) now with ⟨-, same⟩ | ⟨-, -, queued⟩
        · exact quiet (by rw [same]; rfl) rfl
        · have files : (world.withShared { world.shared with
              impl := world.shared.impl.scanEntry
                (joinPath cfg.watchDir name) now }).shared.impl.files =
              world.shared.impl.files ++ [joinPath cfg.watchDir name] := by
            rw [queued]
            rfl
          rw [pushedAt_of_push taken polling files]
          have grown := chances_push files rfl path
          by_cases here : path = joinPath cfg.watchDir name
          · rw [if_pos here] at grown ⊢
            exact grown
          · rw [if_neg here] at grown ⊢
            exact grown
      · exact quiet rfl rfl
  | pop thread =>
      obtain ⟨front, impl, idle, popped, rfl⟩ := pop_cases taken
      exact ⟨Nat.le_add_right_of_le (chances_pop idle popped path), nofun⟩
  | pass thread event =>
      obtain ⟨pass, shared, stage, busy, passStep, rfl⟩ := pass_cases taken
      have files := passStep.queue.1
      have before := attempts_pass busy passStep path
      constructor
      · refine Nat.le_add_right_of_le (chances_le ?_ fun other attempts =>
          (before other attempts).1)
        exact Nat.le_of_eq (congrArg (List.count path) files)
      · intro counted event' same counts
        cases same
        refine chances_lt files (fun other attempts =>
          (before other attempts).1) counts.attempts fun attempts => ?_
        obtain ⟨failure, atCounter⟩ := counts
        rw [busy] at atCounter
        cases atCounter
        exact (before thread attempts).2 rfl failure rfl
  | finish thread =>
      obtain ⟨ended, -, rfl⟩ := finish_cases taken
      refine ⟨Nat.le_add_right_of_le (chances_le (Nat.le_refl _) ?_), nofun⟩
      rintro other ⟨running, busy, rest⟩
      by_cases same : other = thread
      · subst same
        rw [World.setThread_same] at busy
        cases busy
      · rw [World.setThread_other _ _ same] at busy
        exact ⟨running, busy, rest⟩

/-- No pass on the path is queued, may fail or is about to move the file. -/
structure Vacant (path : Path) (world : World n) : Prop where
  unqueued : path ∉ world.shared.impl.files
  settled : ∀ thread pass, world.threads thread = some pass →
    pass.path = path → pass.stage.mayFail = false
  unmoved : ∀ thread failure newRetry,
    world.threads thread ≠ some ⟨path, .moveDead failure newRetry⟩

theorem Vacant.chances {path : Path} {world : World n}
    (vacant : Vacant path world) : chances world path = 0 := by
  have idle : Finset.univ.filter (Attempts world path) = ∅ := by
    rw [Finset.filter_eq_empty_iff]
    rintro thread - ⟨pass, busy, same, may⟩
    rw [vacant.settled thread pass busy same] at may
    cases may
  rw [Worker.chances, List.count_eq_zero.mpr vacant.unqueued, idle]
  rfl

/-- A file appears only under a path without counted failures and without a
pass. -/
def AppearsClear (platform : Platform) (cfg : Config)
    (state : Tracked (World n) (Action n)) (action : Action n) : Prop :=
  ∀ path after, step platform cfg state.now action = some after →
    Appears path state.now after →
      (state.now.shared.impl.failCounts path).getD 0 = 0 ∧
        Vacant path state.now

/-- For a file that is there, every failure of the streak and every chance has
a push of its own. -/
def WithinBudget (platform : Platform) (cfg : Config)
    (state : Tracked (World n) (Action n)) : Prop :=
  ∀ path, state.now.shared.fs path ≠ none →
    chances state.now path + streak platform cfg path state.past ≤
      (filePushes platform cfg path state.past).length

theorem withinBudget_start (clock wall : Int) (fs : Fs) (db : Db) :
    WithinBudget platform cfg
      (.start (World.initial (n := n) clock wall fs db)) := by
  intro path _
  have idle : Finset.univ.filter (Attempts (Tracked.start
      (World.initial (n := n) clock wall fs db) :
        Tracked (World n) (Action n)).now path) = ∅ := by
    rw [Finset.filter_eq_empty_iff]
    rintro thread - ⟨pass, busy, -⟩
    cases busy
  show 0 + _ + 0 ≤ 0
  rw [idle]
  exact Nat.le_refl _

/-- What a step does to the failures and the chances of a path. -/
theorem budget_step {state after : Tracked (World n) (Action n)}
    {action : Action n} (path : Path)
    (taken : track (step platform cfg) state action = some after) :
    chances after.now path + streak platform cfg path after.past ≤
      chances state.now path + streak platform cfg path state.past +
        (pushedAt platform cfg path state.now action).toList.length := by
  obtain ⟨stepTaken, past⟩ := track_eq_some_iff.mp taken
  obtain ⟨bound, counted⟩ := chances_step path stepTaken
  rw [past]
  rcases outcome_counter path stepTaken with ⟨silent, -⟩ |
    ⟨cleared, -⟩ | ⟨thread, event, same, atCounter, -, told⟩
  · simp only [streak, silent]
    omega
  · have reset : streak platform cfg path ((state.now, action) :: state.past) =
        0 := by
      rcases cleared with told | told <;> simp only [streak, told]
    omega
  · have used := counted thread event same atCounter
    have most : streak platform cfg path ((state.now, action) :: state.past) ≤
        streak platform cfg path state.past + 1 := by
      simp only [streak, told]
      split
      · rename_i failed
        exact Nat.le_refl _
      · exact Nat.zero_le _
      · exact Nat.le_succ _
    omega

theorem withinBudget_step {state after : Tracked (World n) (Action n)}
    {action : Action n} (budget : WithinBudget platform cfg state)
    (counts : CountsStreak platform cfg state)
    (clear : AppearsClear platform cfg state action)
    (taken : track (step platform cfg) state action = some after) :
    WithinBudget platform cfg after := by
  obtain ⟨stepTaken, past⟩ := track_eq_some_iff.mp taken
  intro path present
  have grown := budget_step path taken
  by_cases absent : state.now.shared.fs path = none
  · obtain ⟨none, vacant⟩ := clear path after.now stepTaken ⟨absent, present⟩
    rw [(counts path).1] at none
    rw [vacant.chances, pushedAt_absent stepTaken absent,
      Int.ofNat_eq_zero.mp none] at grown
    exact grown.trans (Nat.zero_le _)
  · have before := budget path absent
    rw [past, filePushes_cons absent, List.length_append]
    rw [past] at grown
    omega

end Budget

section Retries

variable {n : Nat} (platform : Platform) (cfg : Config)

/-- With N failures for the dead letters, the scan of the first push of the
file was N - 1 times the TTL ago, at least. -/
def Late (path : Path) (state : Tracked (World n) (Action n)) : Prop :=
  ∃ first, (filePushes platform cfg path state.past).getLast? = some first ∧
    first + Impl.ttl cfg * (limit cfg - 1) ≤ state.now.shared.clock

/-- The step decides that the file under the path is dead, or moves it. -/
def DeadLetters (path : Path) (world : World n) (action : Action n) : Prop :=
  world.shared.fs path ≠ none ∧
    ∃ thread event, action = .pass thread event ∧
      ((Counts world path thread ∧
          (step platform cfg world action).any (movesDead · thread) = true) ∨
        ∃ failure newRetry,
          world.threads thread = some ⟨path, .moveDead failure newRetry⟩)

/-- A step that deals with a dead file does so late. -/
def DeadLate (state : Tracked (World n) (Action n)) (action : Action n) :
    Prop :=
  ∀ path, DeadLetters platform cfg path state.now action →
    Late platform cfg path state

variable {platform : Platform} {cfg : Config}

theorem Late.step {path : Path} {state after : Tracked (World n) (Action n)}
    {action : Action n} (late : Late platform cfg path state)
    (present : state.now.shared.fs path ≠ none)
    (taken : track (step platform cfg) state action = some after) :
    Late platform cfg path after := by
  obtain ⟨stepTaken, past⟩ := track_eq_some_iff.mp taken
  obtain ⟨first, last, waited⟩ := late
  refine ⟨first, ?_, ?_⟩
  · rw [past, filePushes_cons present, List.getLast?_append, last]
    rfl
  · refine waited.trans ?_
    cases queueStep_of_step stepTaken with
    | push _ _ _ _ _ _ _ clock _ => exact clock.ge
    | quiet _ _ clock _ => exact clock
    | cleanup _ _ clock _ => exact clock.ge
    | pop _ _ _ clock _ => exact clock.ge

/-- The counted failures that lead to the dead letters had pushes that were
apart. -/
theorem late_of_streak {path : Path} {state : Tracked (World n) (Action n)}
    {thread : Fin n} (paced : Paced platform cfg state)
    (budget : WithinBudget platform cfg state)
    (present : state.now.shared.fs path ≠ none)
    (counts : Counts state.now path thread)
    (reached : (streak platform cfg path state.past : Int) + 1 = limit cfg) :
    Late platform cfg path state := by
  have chance : 0 < chances state.now path := by
    have attempting : 0 < (Finset.univ.filter
        (Attempts state.now path)).card :=
      Finset.card_pos.mpr ⟨thread, by simpa using counts.attempts⟩
    unfold chances
    omega
  have enough := budget path present
  have own : (filePushes platform cfg path state.past).Sublist
      (pushes platform cfg path state.past) := filePushes_sublist path _
  have apart := (paced.spaced path).apart.sublist own
  have within : ∀ time ∈ filePushes platform cfg path state.past,
      time ≤ state.now.shared.clock := fun time member =>
    ((paced.spaced path).within time (own.subset member)).trans paced.timely
  unfold Late
  clear own
  revert enough apart within
  generalize filePushes platform cfg path state.past = times
  intro enough apart within
  have pushed : times ≠ [] := by
    rintro rfl
    rw [List.length_nil] at enough
    omega
  have last := List.getLast?_eq_some_getLast pushed
  refine ⟨_, last, ?_⟩
  have positive : 1 ≤ limit cfg := by
    unfold limit
    omega
  have many : limit cfg ≤ times.length := by
    omega
  rcases le_total (Impl.ttl cfg) 0 with none | gap
  · have first := within _ (List.getLast_mem pushed)
    have less : Impl.ttl cfg * (limit cfg - 1) ≤ 0 :=
      mul_nonpos_of_nonpos_of_nonneg none (by omega)
    omega
  · have reach := first_add_le apart within last
    have more : Impl.ttl cfg * (limit cfg - 1) ≤
        Impl.ttl cfg * (times.length - 1) :=
      mul_le_mul_of_nonneg_left (by omega) gap
    omega

/-- What the pacing of a run rests on. -/
structure Pacing (platform : Platform) (cfg : Config)
    (state : Tracked (World n) (Action n)) : Prop where
  paced : Paced platform cfg state
  budget : WithinBudget platform cfg state
  counts : CountsStreak platform cfg state
  moves : ∀ thread path failure newRetry,
    state.now.threads thread = some ⟨path, .moveDead failure newRetry⟩ →
      state.now.shared.fs path ≠ none → Late platform cfg path state

theorem ProcessFile.Step.into_moveDead {path : Path}
    {shared after : Shared} {stage : ProcessFile.Stage}
    {event : ProcessFile.Event} {failure : ProcessFile.Failure}
    {newRetry : Int}
    (step : ProcessFile.Step platform cfg path shared stage event after
      (.moveDead failure newRetry)) :
    stage = .countFailure failure := by
  generalize reached : ProcessFile.Stage.moveDead failure newRetry = target
    at step
  have returned : ∀ other : ProcessFile.Failure,
      ProcessFile.Stage.moveDead failure newRetry ≠ other.after := by
    intro other
    cases other <;> nofun
  cases step with
  | countFailure =>
      split at reached
      · cases reached
        rfl
      · exact (returned _ reached).elim
  | moveDead =>
      split at reached
      · cases reached
      · exact (returned _ reached).elim
  | alert => exact (returned _ reached).elim
  | cacheHit =>
      unfold ProcessFile.hashed at reached
      split at reached <;> cases reached
  | hashOnly =>
      unfold ProcessFile.hashed at reached
      split at reached <;> cases reached
  | cacheStore =>
      unfold ProcessFile.hashed at reached
      split at reached <;> cases reached
  | insert => split at reached <;> cases reached
  | _ => cases reached

theorem pacing_step {state after : Tracked (World n) (Action n)}
    {action : Action n} (pacing : Pacing platform cfg state)
    (clear : AppearsClear platform cfg state action)
    (taken : track (step platform cfg) state action = some after) :
    Pacing platform cfg after := by
  refine ⟨paced_step pacing.paced taken,
    withinBudget_step pacing.budget pacing.counts clear taken,
    countsStreak_step pacing.counts taken, ?_⟩
  intro thread path failure newRetry moving present
  obtain ⟨stepTaken, -⟩ := track_eq_some_iff.mp taken
  have vacant : state.now.shared.fs path = none → Vacant path state.now :=
    fun absent => (clear path after.now stepTaken ⟨absent, present⟩).2
  have kept : state.now.threads thread =
      some ⟨path, .moveDead failure newRetry⟩ →
        Late platform cfg path after := by
    intro before
    have there : state.now.shared.fs path ≠ none := fun absent =>
      (vacant absent).unmoved thread failure newRetry before
    exact (pacing.moves thread path failure newRetry before there).step there
      taken
  rcases step_cases stepTaken with ⟨-, -, -, before⟩ |
    ⟨moved, event, pass, shared, stage, rfl, busy, passStep, equality⟩
  · rcases before thread _ moving with old | fresh
    · exact kept old
    · cases fresh
  · rw [equality] at moving
    by_cases same : thread = moved
    · subst same
      rw [World.setThread_same] at moving
      cases moving
      have counts : Counts state.now pass.path thread := by
        refine ⟨failure, ?_⟩
        rw [busy, ← passStep.into_moveDead]
      have there : state.now.shared.fs pass.path ≠ none := by
        intro absent
        obtain ⟨failed, atCounter⟩ := counts
        cases (vacant absent).settled thread _ atCounter rfl
      have decided : movesDead after.now thread = true := by
        rw [equality]
        simp [movesDead]
      have last := (movesDead_countFailure counts stepTaken).1.mp decided
      exact (late_of_streak pacing.paced pacing.budget there counts
        ((lastFailure_iff pacing.counts pass.path).mp last)).step there taken
    · rw [World.setThread_other _ _ same] at moving
      exact kept moving

theorem deadLate_of_pacing {state after : Tracked (World n) (Action n)}
    {action : Action n} (pacing : Pacing platform cfg state)
    (taken : track (step platform cfg) state action = some after) :
    DeadLate platform cfg state action := by
  obtain ⟨stepTaken, -⟩ := track_eq_some_iff.mp taken
  intro path dead
  obtain ⟨present, thread, event, rfl, ⟨counts, decides⟩ |
    ⟨failure, newRetry, moving⟩⟩ := dead
  · rw [stepTaken, Option.any_some] at decides
    have last := (movesDead_countFailure counts stepTaken).1.mp decides
    exact late_of_streak pacing.paced pacing.budget present counts
      ((lastFailure_iff pacing.counts path).mp last)
  · exact pacing.moves thread path failure newRetry moving present

def twoAttempts : Config where
  deadLetterMaxRetries := 2

/-- A photograph fails once and is removed.  Another one appears under its
name, is pushed and fails. -/
def secondFails : List (Action 1) :=
  scanning "DSC_0001.NEF" ++
    [.pop 0, .pass 0 (.fingerprint true true), .pass 0 .go,
      .pass 0 (.hash false), .pass 0 .go, .pass 0 .go, .finish 0,
      .external "/watch/DSC_0001.NEF" none, .advance 60000000000,
      .beginScan, .endScan, .cleanup, nextPhotograph,
      .advance 60000000000] ++
    scanning "DSC_0001.NEF" ++
    [.pop 0, .pass 0 (.fingerprint true true), .pass 0 .go,
      .pass 0 (.hash false), .pass 0 .go]

end Retries

end Worker

end RawImport
