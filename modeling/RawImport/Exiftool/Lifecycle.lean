import RawImport.Exiftool.Daemon
import RawImport.Lib.Resources
import RawImport.Lib.Run

/-!
# Descriptors and process of the daemon

`start`, `send_command` and `stop` with the pipes, the stream and the child
that they make and give up, while the other threads of the server open, close,
fork and wait as well.
-/

namespace RawImport

namespace Exiftool

open Cxx Resources Transition

/-- Who uses a descriptor or a process id. -/
inductive Party where
  | daemon
  | elsewhere
  deriving DecidableEq, Repr

/-- The members of `ExifToolDaemon`; -1 and null are `none`. -/
structure Handles where
  stdinFd : Option Nat := none
  stdoutFd : Option Nat := none
  -- the descriptor under `stdout_f_`
  stdoutF : Option Nat := none
  childPid : Option Nat := none
  stream : Daemon := { running := false }

/-- The server process.  `lost` are the ends of a pipe that no member names. -/
structure Host where
  fds : Table Party
  pids : Table Party
  handles : Handles := {}
  lost : List Nat := []
  constructed : Bool := false
  stopped : Bool := false

def foreign (inUse : Nat → Bool) : Table Party where
  owner id := if inUse id then some .elsewhere else none

namespace Host

def initial (fds pids : Nat → Bool) : Host where
  fds := foreign fds
  pids := foreign pids

/-- `healthy()`. -/
def healthy (host : Host) : Bool := host.handles.stream.running

def pipe (host : Host) (ends : Nat × Nat) : Option Host :=
  (host.fds.acquire .daemon ends.1).bind fun fds =>
    (fds.acquire .daemon ends.2).map fun fds => { host with fds := fds }

def close (host : Host) (fd : Nat) : Host :=
  { host with fds := host.fds.release .daemon fd }

/-- `send_command`. -/
def sendCommand (host : Host) (written : Bool) (printed : Text) :
    Text × Host :=
  if host.handles.stream.running = false ∨ host.handles.childPid = none ∨
      host.handles.stdoutF = none then
    ([], host)
  else
    let (answer, stream) :=
      Exiftool.sendCommand host.handles.stream written printed
    (answer, { host with handles := { host.handles with stream := stream } })

/-- The first part of `stop`. -/
def closeStdin (host : Host) : Host :=
  match host.handles.stdinFd with
  | some fd =>
      { host.close fd with handles := { host.handles with stdinFd := none } }
  | none => host

/-- `fclose` closes the descriptor under the stream. -/
def closeStdout (host : Host) : Host :=
  match host.handles.stdoutF, host.handles.stdoutFd with
  | some fd, _ =>
      { host.close fd with
        handles := { host.handles with stdoutF := none, stdoutFd := none } }
  | none, some fd =>
      { host.close fd with
        handles := { host.handles with stdoutFd := none } }
  | none, none => host

/-- `waitpid` returns once the child has ended. -/
def reap (host : Host) : Host :=
  match host.handles.childPid with
  | some pid =>
      { host with
        pids := host.pids.release .daemon pid
        handles := { host.handles with childPid := none } }
  | none => host

/-- `running_.exchange(false)`. -/
def quit (host : Host) : Host :=
  { host with
    handles :=
      { host.handles with
        stream := { host.handles.stream with running := false } } }

/-- `stop`. -/
def stop (host : Host) : Host :=
  host.closeStdin.closeStdout.reap.quit

end Host

/-- What the calls of `start` return; the read end of a pipe comes first. -/
structure Start where
  stdinPipe : Option (Nat × Nat)
  stdoutPipe : Option (Nat × Nat)
  forked : Option Nat
  opened : Bool
  written : Bool
  printed : Text

/-- The ends of the pipe that is left open when the second one fails. -/
def Start.forgotten (calls : Start) : List Nat :=
  match calls.stdinPipe, calls.stdoutPipe with
  | some stdin, none => [stdin.1, stdin.2]
  | _, _ => []

namespace Host

/-- The members behind the `fork`. -/
def adopt (host : Host) (stdin stdout : Nat × Nat) (pid : Nat) : Host :=
  let host := (host.close stdin.1).close stdout.2
  { host with
    handles :=
      { host.handles with
        stdinFd := some stdin.2
        stdoutFd := some stdout.1
        childPid := some pid } }

/-- The stream over `stdout_fd_`, and `running_`. -/
def listen (host : Host) : Host :=
  { host with
    handles :=
      { host.handles with
        stdoutF := host.handles.stdoutFd
        stream := { running := true } } }

/-- `start` behind the `fork`. -/
def handshake (host : Host) (opened written : Bool) (printed : Text) :
    Bool × Host :=
  if opened = false then (false, host.stop)
  else
    let (test, host) := host.listen.sendCommand written printed
    if test = [] then (false, host.stop) else (true, host)

/-- `start`. -/
def start (host : Host) (calls : Start) : Option (Bool × Host) :=
  match calls.stdinPipe with
  | none => some (false, host)
  | some stdin =>
      (host.pipe stdin).bind fun host =>
        match calls.stdoutPipe with
        -- nothing closes the pipe that was made
        | none => some (false, { host with lost := [stdin.1, stdin.2] })
        | some stdout =>
            (host.pipe stdout).bind fun host =>
              match calls.forked with
              | none =>
                  some (false, (((host.close stdin.1).close stdin.2).close
                    stdout.1).close stdout.2)
              | some pid =>
                  (host.pids.acquire .daemon pid).map fun pids =>
                    ({ host with pids := pids }.adopt stdin stdout
                      pid).handshake calls.opened calls.written calls.printed

/-- `extract_date`. -/
def extractDate (host : Host) (path : Text) (written : Bool)
    (printed : Text) (mtime : ExifResult) : ExifResult × Host :=
  if host.healthy = false then (mtime, host)
  else if '\n' ∈ path then (readDate [] mtime, host)
  else
    let (response, host) := host.sendCommand written printed
    (readDate response mtime, host)

end Host

inductive HostAction where
  | construct (calls : Start)
  | extractDate (path : Text) (written : Bool) (printed : Text)
      (mtime : ExifResult)
  | stop
  | openElsewhere (fd : Nat)
  | closeElsewhere (fd : Nat)
  | forkElsewhere (pid : Nat)
  | reapElsewhere (pid : Nat)

def HostAction.forgotten : HostAction → List Nat
  | .construct calls => calls.forgotten
  | _ => []

/-- One call on the daemon, or of another thread on what is its own. -/
def Host.step (host : Host) : HostAction → Option Host
  | .construct calls =>
      if host.constructed then none
      else
        (host.start calls).map fun result =>
          { result.2 with constructed := true, stopped := false }
  | .extractDate path written printed mtime =>
      if host.constructed then
        some (host.extractDate path written printed mtime).2
      else none
  | .stop =>
      if host.constructed then some { host.stop with stopped := true }
      else none
  | .openElsewhere fd =>
      (host.fds.acquire .elsewhere fd).map fun fds =>
        { host with fds := fds }
  | .closeElsewhere fd =>
      if host.fds.owner fd = some .elsewhere then
        some { host with fds := host.fds.release .elsewhere fd }
      else none
  | .forkElsewhere pid =>
      (host.pids.acquire .elsewhere pid).map fun pids =>
        { host with pids := pids }
  | .reapElsewhere pid =>
      if host.pids.owner pid = some .elsewhere then
        some { host with pids := host.pids.release .elsewhere pid }
      else none

namespace Host

/-- The daemon owns what its members name and what is lost, and nothing was
closed or waited for that was not its own. -/
structure Owned (host : Host) : Prop where
  fds : host.fds.Holds .daemon (host.handles.stdinFd.toList ++
    (host.handles.stdoutFd.toList ++ host.lost))
  pids : host.pids.Holds .daemon host.handles.childPid.toList
  stream : ∀ fd, host.handles.stdoutF = some fd →
    host.handles.stdoutFd = some fd

variable {host next : Host}

/-! ## `stop` -/

theorem Owned.closeStdin (owned : host.Owned) : host.closeStdin.Owned := by
  unfold Host.closeStdin
  split
  · rename_i fd present
    have held := owned.fds
    rw [present] at held
    exact ⟨held.release_head, owned.pids, owned.stream⟩
  · exact owned

theorem Owned.closeStdout (owned : host.Owned)
    (closed : host.handles.stdinFd = none) : host.closeStdout.Owned := by
  have held := owned.fds
  rw [closed] at held
  unfold Host.closeStdout
  split
  · rename_i fd under
    rw [owned.stream fd under] at held
    refine ⟨?_, owned.pids, nofun⟩
    rw [closed]
    exact held.release_head
  · rename_i fd bare present
    rw [present] at held
    refine ⟨?_, owned.pids, ?_⟩
    · rw [closed]
      exact held.release_head
    · intro fd under
      rw [bare] at under
      cases under
  · exact owned

theorem Owned.reap (owned : host.Owned) : host.reap.Owned := by
  unfold Host.reap
  split
  · rename_i pid present
    have held := owned.pids
    rw [present] at held
    exact ⟨owned.fds, held.release_head, owned.stream⟩
  · exact owned

theorem closeStdin_stdinFd (host : Host) :
    host.closeStdin.handles.stdinFd = none := by
  unfold Host.closeStdin
  split
  · rfl
  · rename_i absent
    exact absent

theorem Owned.stop (owned : host.Owned) : host.stop.Owned := by
  have reaped := (owned.closeStdin.closeStdout
    (closeStdin_stdinFd host)).reap
  exact ⟨reaped.fds, reaped.pids, reaped.stream⟩

theorem stop_handles (host : Host) :
    host.stop.handles =
      { stream := { host.handles.stream with running := false } } := by
  obtain ⟨fds, pids, ⟨stdinFd, stdoutFd, stdoutF, childPid, stream⟩, lost,
    constructed, stopped⟩ := host
  cases stdinFd <;> cases stdoutF <;> cases stdoutFd <;> cases childPid <;>
    rfl

theorem stop_rest (host : Host) :
    host.stop.lost = host.lost ∧ host.stop.constructed = host.constructed ∧
      host.stop.stopped = host.stopped := by
  obtain ⟨fds, pids, ⟨stdinFd, stdoutFd, stdoutF, childPid, stream⟩, lost,
    constructed, stopped⟩ := host
  cases stdinFd <;> cases stdoutF <;> cases stdoutFd <;> cases childPid <;>
    exact ⟨rfl, rfl, rfl⟩

/-! ## `start` -/

theorem pipe_cases {ends : Nat × Nat} {ids : List Nat}
    (held : host.fds.Holds .daemon ids)
    (piped : host.pipe ends = some next) :
    ∃ fds : Table Party, next = { host with fds := fds } ∧
      fds.Holds .daemon (ends.2 :: ends.1 :: ids) := by
  obtain ⟨first, one, rest⟩ := Option.bind_eq_some_iff.mp piped
  obtain ⟨second, two, rfl⟩ := Option.map_eq_some_iff.mp rest
  exact ⟨second, rfl, (held.acquire one).acquire two⟩

theorem sendCommand_cases (host : Host) (written : Bool) (printed : Text) :
    ∃ stream : Daemon, (host.sendCommand written printed).2 =
        { host with handles := { host.handles with stream := stream } } ∧
      (stream.running = true → host.healthy = true) := by
  unfold Host.sendCommand
  split
  · exact ⟨host.handles.stream, rfl, id⟩
  · rename_i usable
    refine ⟨_, rfl, fun _ => ?_⟩
    rw [not_or, Bool.not_eq_false] at usable
    exact usable.1

theorem extractDate_cases (host : Host) (path : Text) (written : Bool)
    (printed : Text) (mtime : ExifResult) :
    ∃ stream : Daemon, (host.extractDate path written printed mtime).2 =
        { host with handles := { host.handles with stream := stream } } ∧
      (stream.running = true → host.healthy = true) := by
  unfold Host.extractDate
  split
  · exact ⟨host.handles.stream, rfl, id⟩
  · split
    · exact ⟨host.handles.stream, rfl, id⟩
    · exact host.sendCommand_cases written printed

theorem Owned.restream (owned : host.Owned) (stream : Daemon) :
    Host.Owned
      { host with handles := { host.handles with stream := stream } } :=
  ⟨owned.fds, owned.pids, owned.stream⟩

def Equipped (host : Host) : Prop :=
  host.handles.stdinFd.isSome ∧ host.handles.stdoutF.isSome ∧
    host.handles.childPid.isSome

def Bare (host : Host) : Prop :=
  host.handles.stdinFd = none ∧ host.handles.stdoutFd = none ∧
    host.handles.childPid = none

theorem stop_bare (host : Host) : host.stop.Bare := by
  unfold Bare
  rw [stop_handles]
  exact ⟨rfl, rfl, rfl⟩

/-- The constructor or a call on the daemon has ended. -/
structure Settled (host : Host) : Prop where
  owned : host.Owned
  equipped : host.healthy = true → host.Equipped
  lost : host.lost = [] ∨ host.lost.length = 2

theorem Settled.of_stop (owned : host.Owned)
    (lost : host.lost = [] ∨ host.lost.length = 2) : host.stop.Settled :=
  ⟨owned.stop, nofun, host.stop_rest.1 ▸ lost⟩

theorem settled_handshake (owned : host.Owned)
    (equipped : host.handles.stdinFd.isSome ∧
      host.handles.stdoutFd.isSome ∧ host.handles.childPid.isSome)
    (lost : host.lost = [] ∨ host.lost.length = 2) (opened written : Bool)
    (printed : Text) :
    (host.handshake opened written printed).2.Settled := by
  have listening : host.listen.Owned := ⟨owned.fds, owned.pids, fun _ => id⟩
  obtain ⟨stream, same, -⟩ := host.listen.sendCommand_cases written printed
  unfold Host.handshake
  by_cases failed : opened = false
  · rw [if_pos failed]
    exact .of_stop owned lost
  · rw [if_neg failed]
    generalize host.listen.sendCommand written printed = result at same ⊢
    obtain ⟨test, after⟩ := result
    cases same
    by_cases empty : test = []
    · simp only [if_pos empty]
      exact .of_stop (listening.restream stream) lost
    · simp only [if_neg empty]
      exact ⟨listening.restream stream, fun _ => equipped, lost⟩

/-- Nothing was made yet. -/
structure Unmade (host : Host) : Prop where
  handles : host.handles = {}
  lost : host.lost = []

theorem settled_start {calls : Start} {result : Bool × Host}
    (owned : host.Owned) (unmade : host.Unmade)
    (started : host.start calls = some result) : result.2.Settled := by
  have none' : host.fds.Holds .daemon [] := by
    have held := owned.fds
    rwa [unmade.handles, unmade.lost] at held
  have noChild : host.pids.Holds .daemon [] := by
    have held := owned.pids
    rwa [unmade.handles] at held
  unfold Host.start at started
  split at started
  · cases started
    refine ⟨owned, ?_, .inl unmade.lost⟩
    intro healthy
    rw [Host.healthy, unmade.handles] at healthy
    cases healthy
  · rename_i stdin made
    obtain ⟨first, piped, started⟩ := Option.bind_eq_some_iff.mp started
    obtain ⟨fds, rfl, held⟩ := pipe_cases none' piped
    split at started
    · cases started
      refine ⟨⟨?_, ?_, ?_⟩, ?_, .inr rfl⟩
      · rw [unmade.handles]
        exact held.perm (.swap _ _ _)
      · exact owned.pids
      · exact owned.stream
      · intro healthy
        change host.handles.stream.running = true at healthy
        rw [unmade.handles] at healthy
        cases healthy
    · rename_i stdout made'
      obtain ⟨second, piped, started⟩ := Option.bind_eq_some_iff.mp started
      obtain ⟨fds, rfl, held⟩ := pipe_cases held piped
      have ordered := held.perm (List.reverse_perm _).symm
      split at started
      · cases started
        have closed := ordered.release_head.release_head.release_head
          |>.release_head
        refine ⟨⟨?_, owned.pids, owned.stream⟩, ?_, .inl unmade.lost⟩
        · change Table.Holds _ _ (host.handles.stdinFd.toList ++
            (host.handles.stdoutFd.toList ++ host.lost))
          rw [unmade.handles, unmade.lost]
          exact closed
        · intro healthy
          change host.handles.stream.running = true at healthy
          rw [unmade.handles] at healthy
          cases healthy
      · rename_i pid forked
        obtain ⟨pids, acquired, rfl⟩ := Option.map_eq_some_iff.mp started
        have child := noChild.acquire acquired
        have order : [stdout.2, stdout.1, stdin.2, stdin.1].Perm
            [stdin.1, stdout.2, stdin.2, stdout.1] := by
          refine (List.reverse_perm _).symm.trans (.cons _ ?_)
          exact @List.perm_append_comm _ [stdin.2, stdout.1] [stdout.2]
        have closed := (held.perm order).release_head.release_head
        apply settled_handshake
        · refine ⟨?_, child, ?_⟩
          · change Table.Holds _ _ ([stdin.2] ++ ([stdout.1] ++ host.lost))
            rw [unmade.lost]
            exact closed
          · intro fd under
            change host.handles.stdoutF = some fd at under
            rw [unmade.handles] at under
            cases under
        · exact ⟨rfl, rfl, rfl⟩
        · exact .inl unmade.lost

/-! ## Runs -/

/-- The invariant of the runs. -/
structure Sound (host : Host) : Prop where
  settled : host.Settled
  unmade : host.constructed = false → host.Unmade
  bare : host.stopped = true → host.Bare ∧ host.healthy = false

theorem sound_initial (fds pids : Nat → Bool) :
    (initial fds pids).Sound := by
  have nobody : ∀ inUse, (foreign inUse).Holds .daemon [] := by
    intro inUse
    refine ⟨List.nodup_nil, fun id => iff_of_false ?_ List.not_mem_nil, rfl⟩
    intro owned
    change (if inUse id then some Party.elsewhere else none) = _ at owned
    split at owned
    · cases owned
    · cases owned
  exact ⟨⟨⟨nobody fds, nobody pids, nofun⟩, nofun, .inl rfl⟩,
    fun _ => ⟨rfl, rfl⟩, nofun⟩

theorem Sound.elsewhere {fds pids : Table Party} (sound : host.Sound)
    (held : ∀ ids, host.fds.Holds .daemon ids → fds.Holds .daemon ids)
    (heldPids : ∀ ids, host.pids.Holds .daemon ids → pids.Holds .daemon ids) :
    { host with fds := fds, pids := pids }.Sound :=
  ⟨⟨⟨held _ sound.settled.owned.fds, heldPids _ sound.settled.owned.pids,
      sound.settled.owned.stream⟩, sound.settled.equipped,
      sound.settled.lost⟩,
    fun unmade => ⟨(sound.unmade unmade).handles, (sound.unmade unmade).lost⟩,
    sound.bare⟩

theorem sound_step {action : HostAction} (sound : host.Sound)
    (taken : host.step action = some next) : next.Sound := by
  have other : Party.elsewhere ≠ Party.daemon := by decide
  cases action with
  | construct calls =>
      simp only [Host.step] at taken
      split at taken
      · cases taken
      · rename_i unmade
        obtain ⟨result, started, rfl⟩ := Option.map_eq_some_iff.mp taken
        have fresh := sound.unmade (Bool.eq_false_iff.mpr unmade)
        have settled := settled_start sound.settled.owned fresh started
        exact ⟨⟨⟨settled.owned.fds, settled.owned.pids,
          settled.owned.stream⟩, settled.equipped, settled.lost⟩, nofun, nofun⟩
  | extractDate path written printed mtime =>
      simp only [Host.step] at taken
      split at taken
      · rename_i constructed
        cases taken
        obtain ⟨stream, same, falls⟩ :=
          host.extractDate_cases path written printed mtime
        rw [same]
        have settled := sound.settled
        refine ⟨⟨settled.owned.restream stream, fun running =>
          settled.equipped (falls running), settled.lost⟩, ?_, ?_⟩
        · intro unmade
          rw [constructed] at unmade
          cases unmade
        · intro stopped
          obtain ⟨bare, unhealthy⟩ := sound.bare stopped
          refine ⟨bare, Bool.eq_false_iff.mpr fun running => ?_⟩
          rw [falls running] at unhealthy
          cases unhealthy
      · cases taken
  | stop =>
      simp only [Host.step] at taken
      split at taken
      · cases taken
        rename_i constructed
        have settled :=
          Settled.of_stop sound.settled.owned sound.settled.lost
        refine ⟨⟨⟨settled.owned.fds, settled.owned.pids,
          settled.owned.stream⟩, settled.equipped, settled.lost⟩, ?_,
          fun _ => ⟨host.stop_bare, rfl⟩⟩
        intro unmade
        change host.stop.constructed = false at unmade
        rw [host.stop_rest.2.1, constructed] at unmade
        cases unmade
      · cases taken
  | openElsewhere fd =>
      obtain ⟨fds, acquired, rfl⟩ := Option.map_eq_some_iff.mp taken
      exact sound.elsewhere (fun _ held => held.acquire_other other acquired)
        fun _ => id
  | closeElsewhere fd =>
      simp only [Host.step] at taken
      split at taken
      · rename_i owned
        cases taken
        exact sound.elsewhere (fun _ held => held.release_other other owned)
          fun _ => id
      · cases taken
  | forkElsewhere pid =>
      obtain ⟨pids, acquired, rfl⟩ := Option.map_eq_some_iff.mp taken
      exact sound.elsewhere (fun _ => id)
        fun _ held => held.acquire_other other acquired
  | reapElsewhere pid =>
      simp only [Host.step] at taken
      split at taken
      · rename_i owned
        cases taken
        exact sound.elsewhere (fun _ => id)
          fun _ held => held.release_other other owned
      · cases taken

/-- What holds in every state.  The ends of the first pipe are lost when the
second could not be made, and nothing is lost otherwise. -/
structure Tidy (host : Host) : Prop where
  proper : host.fds.misused = false ∧ host.pids.misused = false
  usable : host.healthy = true → ∃ write read pid,
    host.handles.stdinFd = some write ∧ host.handles.stdoutF = some read ∧
    host.handles.childPid = some pid ∧ write ≠ read ∧
    host.fds.owner write = some .daemon ∧
    host.fds.owner read = some .daemon ∧
    host.pids.owner pid = some .daemon
  released : host.stopped = true → host.healthy = false ∧
    (∀ pid, host.pids.owner pid ≠ some .daemon) ∧
    ∀ fd, host.fds.owner fd = some .daemon ↔ fd ∈ host.lost
  lost : host.lost = [] ∨ host.lost.length = 2

theorem Sound.tidy (sound : host.Sound) : host.Tidy := by
  have owned := sound.settled.owned
  refine ⟨⟨owned.fds.proper, owned.pids.proper⟩, ?_, ?_, sound.settled.lost⟩
  · intro healthy
    obtain ⟨stdin, stdout, child⟩ := sound.settled.equipped healthy
    obtain ⟨write, input⟩ := Option.isSome_iff_exists.mp stdin
    obtain ⟨read, output⟩ := Option.isSome_iff_exists.mp stdout
    obtain ⟨pid, forked⟩ := Option.isSome_iff_exists.mp child
    have fds := owned.fds
    have pids := owned.pids
    rw [input, owned.stream read output] at fds
    rw [forked] at pids
    refine ⟨write, read, pid, input, output, forked, ?_, ?_, ?_, ?_⟩
    · intro same
      exact (List.nodup_cons.mp fds.nodup).1 (same ▸ List.mem_cons_self)
    · exact (fds.owns write).mpr List.mem_cons_self
    · exact (fds.owns read).mpr (List.mem_cons_of_mem _ List.mem_cons_self)
    · exact (pids.owns pid).mpr List.mem_cons_self
  · intro stopped
    obtain ⟨⟨stdin, stdout, child⟩, unhealthy⟩ := sound.bare stopped
    have fds := owned.fds
    have pids := owned.pids
    rw [stdin, stdout] at fds
    rw [child] at pids
    exact ⟨unhealthy, fun pid mine => List.not_mem_nil
      ((pids.owns pid).mp mine), fds.owns⟩

theorem handshake_lost (host : Host) (opened written : Bool)
    (printed : Text) :
    (host.handshake opened written printed).2.lost = host.lost := by
  obtain ⟨stream, same, -⟩ := host.listen.sendCommand_cases written printed
  unfold Host.handshake
  by_cases failed : opened = false
  · rw [if_pos failed]
    exact host.stop_rest.1
  · rw [if_neg failed]
    generalize host.listen.sendCommand written printed = result at same ⊢
    obtain ⟨test, after⟩ := result
    cases same
    by_cases empty : test = []
    · simp only [if_pos empty]
      exact (stop_rest _).1
    · simp only [if_neg empty]
      rfl

theorem pipe_lost {ends : Nat × Nat} (piped : host.pipe ends = some next) :
    next.lost = host.lost := by
  obtain ⟨first, -, rest⟩ := Option.bind_eq_some_iff.mp piped
  obtain ⟨second, -, rfl⟩ := Option.map_eq_some_iff.mp rest
  rfl

theorem start_lost {calls : Start} {result : Bool × Host}
    (nothing : host.lost = [])
    (started : host.start calls = some result) :
    result.2.lost = calls.forgotten := by
  unfold Host.start at started
  split at started
  · rename_i failed
    cases started
    rw [Start.forgotten, failed]
    exact nothing
  · rename_i stdin made
    obtain ⟨first, piped, started⟩ := Option.bind_eq_some_iff.mp started
    split at started
    · rename_i failed
      cases started
      rw [Start.forgotten, made, failed]
    · rename_i stdout madeToo
      have kept : calls.forgotten = [] := by
        rw [Start.forgotten, made, madeToo]
      obtain ⟨second, pipedToo, started⟩ :=
        Option.bind_eq_some_iff.mp started
      have still : second.lost = [] :=
        (pipe_lost pipedToo).trans ((pipe_lost piped).trans nothing)
      rw [kept]
      split at started
      · cases started
        exact still
      · obtain ⟨pids, -, rfl⟩ := Option.map_eq_some_iff.mp started
        exact (handshake_lost _ _ _ _).trans still

theorem lost_step {action : HostAction} (sound : host.Sound)
    (taken : host.step action = some next) :
    next.lost = host.lost ++ action.forgotten := by
  cases action with
  | construct calls =>
      simp only [Host.step] at taken
      split at taken
      · cases taken
      · rename_i unmade
        obtain ⟨result, started, rfl⟩ := Option.map_eq_some_iff.mp taken
        have fresh := sound.unmade (Bool.eq_false_iff.mpr unmade)
        rw [fresh.lost]
        exact start_lost fresh.lost started
  | extractDate path written printed mtime =>
      simp only [Host.step] at taken
      split at taken
      · cases taken
        obtain ⟨stream, same, -⟩ :=
          host.extractDate_cases path written printed mtime
        rw [same]
        exact (List.append_nil _).symm
      · cases taken
  | stop =>
      simp only [Host.step] at taken
      split at taken
      · cases taken
        exact host.stop_rest.1.trans (List.append_nil _).symm
      · cases taken
  | openElsewhere fd =>
      obtain ⟨fds, -, rfl⟩ := Option.map_eq_some_iff.mp taken
      exact (List.append_nil _).symm
  | closeElsewhere fd =>
      simp only [Host.step] at taken
      split at taken
      · cases taken
        exact (List.append_nil _).symm
      · cases taken
  | forkElsewhere pid =>
      obtain ⟨pids, -, rfl⟩ := Option.map_eq_some_iff.mp taken
      exact (List.append_nil _).symm
  | reapElsewhere pid =>
      simp only [Host.step] at taken
      split at taken
      · cases taken
        exact (List.append_nil _).symm
      · cases taken

theorem lost_run {actions : List HostAction} {final : Host}
    (sound : host.Sound)
    (reached : run Host.step host actions = some final) :
    final.lost = host.lost ++ actions.flatMap HostAction.forgotten := by
  induction actions generalizing host with
  | nil =>
      cases reached
      exact (List.append_nil _).symm
  | cons action actions ih =>
      obtain ⟨next, taken, rest⟩ := run_cons_eq_some_iff.mp reached
      rw [ih (sound_step sound taken) rest, lost_step sound taken,
        List.flatMap_cons, List.append_assoc]

/-- The daemon over whole runs, whatever its calls return and the other
threads do: it closes and waits for nothing but its own, it is healthy only
with both pipe ends and its child, and after `stop` it has given back all but
what was lost, the ends of a first pipe whose second one failed. -/
theorem lifecycle_run (fds pids : Nat → Bool) (actions : List HostAction) :
    Visits Host.step Host.Tidy (initial fds pids) actions ∧
      ∀ final, run Host.step (initial fds pids) actions = some final →
        final.lost = actions.flatMap HostAction.forgotten := by
  have sound := sound_initial fds pids
  constructor
  · exact (visits_of_preserved Host.Sound
      (fun _ _ _ kept taken => sound_step kept taken) sound actions).mono
      fun _ kept => kept.tidy
  · intro final reached
    exact lost_run sound reached

end Host

end Exiftool

end RawImport
