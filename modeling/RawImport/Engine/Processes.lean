import RawImport.Engine.Commands
import RawImport.Lib.Polling

/-!
# Running a command with a timeout

`run_timed` forks a shell, looks for its end every 50 ms and kills it when the
time is over.  The calls are recorded: a process id must not be used any more
once `waitpid` has returned it.
-/

namespace RawImport

namespace Engine

open Polling ShellWords

/-- How a process ends. -/
inductive Status where
  | exited (code : Fin 256)
  | signalled
  deriving DecidableEq, Repr

/-- What `sh -c` does with a command: when it ends by itself, and how. -/
abbrev Shell := Text → Event Status

/-- The calls of the parent. -/
inductive SysCall where
  | waitpidNoHang (returned : Bool)
  | kill
  | waitpid
  deriving DecidableEq, Repr

/-- The call returns the process id, which may then be used again. -/
def SysCall.reaps : SysCall → Bool
  | .waitpidNoHang returned => returned
  | .kill => false
  | .waitpid => true

/-- `WIFEXITED` and `WEXITSTATUS`. -/
def exitCode : Status → Int
  | .exited code => code.val
  | .signalled => -1

abbrev pollMs : Nat := 50

/-- The loop of `run_timed` with the calls so far; the first argument bounds
the rounds that are left. -/
def runTimedLoop (schedule : Schedule pollMs) (child : Event Status)
    (timeoutMs : Nat) : Nat → Nat → List SysCall → Option (Int × List SysCall)
  | 0, _, _ => none
  | rounds + 1, round, calls =>
      match child.seen (schedule.looks round) with
      | some status =>
          some (exitCode status, calls ++ [.waitpidNoHang true])
      | none =>
          if timeoutMs ≤ schedule.clocks round then
            some (-1, calls ++ [.waitpidNoHang false, .kill, .waitpid])
          else
            runTimedLoop schedule child timeoutMs rounds (round + 1)
              (calls ++ [.waitpidNoHang false])

/-- `run_timed`, with the child that `fork` made, if it did. -/
def runTimed (schedule : Schedule pollMs) (child : Option (Event Status))
    (timeoutMs rounds : Nat) : Option (Int × List SysCall) :=
  match child with
  | none => some (-1, [])
  | some child => runTimedLoop schedule child timeoutMs rounds 0 []

def returned (calls : List SysCall) : Ended Status → Int × List SysCall
  | .found round status =>
      (exitCode status,
        calls ++ List.replicate round (.waitpidNoHang false) ++
          [.waitpidNoHang true])
  | .late round =>
      (-1, calls ++ List.replicate round (.waitpidNoHang false) ++
        [.waitpidNoHang false, .kill, .waitpid])

variable {schedule : Schedule pollMs} {child : Event Status}
  {timeoutMs : Nat}

theorem runTimedLoop_eq (rounds round : Nat) (calls : List SysCall)
    (front : calls = List.replicate round (.waitpidNoHang false)) :
    runTimedLoop schedule child timeoutMs rounds round calls =
      (poll schedule child timeoutMs rounds round).map (returned []) := by
  induction rounds generalizing round calls with
  | zero => rfl
  | succ rounds ih =>
      unfold runTimedLoop poll
      cases child.seen (schedule.looks round) with
      | some status =>
          rw [front]
          rfl
      | none =>
          by_cases late : timeoutMs ≤ schedule.clocks round
          · simp only [if_pos late]
            rw [front]
            rfl
          · simp only [if_neg late]
            apply ih
            rw [front, List.replicate_succ']

/-- The calls of one run: the process is killed only while its id is its own,
and the id is given back once, at the end. -/
structure Orderly (calls : List SysCall) (killed : Prop) : Prop where
  reaped : ∃ front last, calls = front ++ [last] ∧ last.reaps = true ∧
    ∀ call ∈ front, call.reaps = false
  killed_iff : .kill ∈ calls ↔ killed

theorem orderly_found (round : Nat) :
    Orderly (List.replicate round (.waitpidNoHang false) ++
      [.waitpidNoHang true]) False := by
  refine ⟨⟨_, _, rfl, rfl, ?_⟩, ?_⟩
  · intro call member
    rw [List.eq_of_mem_replicate member]
    rfl
  · refine iff_of_false ?_ id
    intro member
    rcases List.mem_append.mp member with early | last
    · cases List.eq_of_mem_replicate early
    · cases List.mem_singleton.mp last

theorem orderly_late (round : Nat) :
    Orderly (List.replicate round (.waitpidNoHang false) ++
      [.waitpidNoHang false, .kill, .waitpid]) True := by
  refine ⟨⟨List.replicate round (.waitpidNoHang false) ++
    [.waitpidNoHang false, .kill], .waitpid, ?_, rfl, ?_⟩, ?_⟩
  · rw [List.append_assoc]
    rfl
  · intro call member
    rcases List.mem_append.mp member with early | last
    · rw [List.eq_of_mem_replicate early]
      rfl
    · rcases List.mem_cons.mp last with rfl | last
      · rfl
      · rw [List.mem_singleton.mp last]
        rfl
  · refine iff_of_true ?_ trivial
    exact List.mem_append_right _ (List.mem_cons_of_mem _ List.mem_cons_self)

def roundsFor (timeoutMs : Nat) : Nat := timeoutMs / pollMs + 2

/-- For every command and every schedule `run_timed` returns after at most
`timeout / 50 + 4` calls: the exit code when the process has ended by the look
of the round that finds the time over, and -1 behind a kill when it has not.
The process is reaped in either case. -/
theorem runTimed_returns (schedule : Schedule pollMs) (child : Event Status)
    (timeoutMs more : Nat) :
    ∃ result calls last, Last schedule timeoutMs last ∧
      runTimed schedule (some child) timeoutMs (roundsFor timeoutMs + more) =
        some (result, calls) ∧
      result = (child.seen (schedule.looks last)).elim (-1) exitCode ∧
      calls.length ≤ timeoutMs / pollMs + 4 ∧
      Orderly calls (child.seen (schedule.looks last) = none) := by
  obtain ⟨last, final, soon⟩ :=
    exists_last schedule (by decide : 0 < pollMs) timeoutMs
  have few : last ≤ timeoutMs / pollMs + 1 := by
    unfold pollMs at soon ⊢
    omega
  have enough : last < 0 + (roundsFor timeoutMs + more) := by
    unfold roundsFor
    omega
  obtain ⟨ended, polled, how⟩ :=
    @poll_eq _ _ _ child _ _ final _ 0 (Nat.zero_le last) enough
      (fun earlier less => absurd less (Nat.not_lt_zero earlier))
  have run : runTimed schedule (some child) timeoutMs
      (roundsFor timeoutMs + more) = some (returned [] ended) := by
    change runTimedLoop schedule child timeoutMs _ 0 [] = _
    rw [runTimedLoop_eq _ 0 [] rfl, polled]
    rfl
  cases ended with
  | found round status =>
      obtain ⟨le, seen, -⟩ := how
      have still := Event.seen_mono (schedule.looks_mono le) seen
      refine ⟨_, _, last, final, run, ?_, ?_, ?_⟩
      · rw [still]
        rfl
      · rw [List.nil_append, List.length_append, List.length_replicate,
          List.length_singleton]
        omega
      · have unkilled : child.seen (schedule.looks last) = none ↔ False := by
          rw [still]
          exact iff_of_false nofun id
        rw [unkilled]
        exact orderly_found round
  | late round =>
      obtain ⟨rfl, unseen⟩ := how
      refine ⟨_, _, round, final, run, ?_, ?_, ?_⟩
      · rw [unseen]
        rfl
      · rw [List.nil_append, List.length_append, List.length_replicate]
        simp only [List.length_cons, List.length_nil]
        omega
      · rw [unseen]
        have killed : ((none : Option Status) = none) = True := eq_self _
        rw [killed]
        exact orderly_late round

section Engine

variable (schedule : Schedule pollMs) (shell : Shell)

/-- What `run_timed` returns for a command. -/
def result (command : Text) (timeoutMs : Nat) : Int :=
  ((runTimed schedule (some (shell command)) timeoutMs
    (roundsFor timeoutMs)).map Prod.fst).getD (-1)

/-- `DnglabEngine::Available`. -/
def available (bin : Text) : Bool :=
  0 ≤ result schedule shell
    (bin ++ " convert --help >/dev/null 2>&1".toList) 5000

def succeeds (command : Text) (timeoutMs : Nat) : Bool :=
  result schedule shell command timeoutMs = 0

/-- `DnglabEngine::Convert`. -/
def convert (bin src dst : Text) (s : ConversionSettings) : Bool :=
  succeeds schedule shell (convertCommand bin src dst s) 300000

/-- `DnglabEmbedder::Embed`. -/
def embed (bin dngPath jpegPath seed : Text) : Bool :=
  succeeds schedule shell
    (bin ++ " reembed --dng ".toList ++ shellQuote dngPath ++
      " --preview ".toList ++ shellQuote jpegPath ++ " --output ".toList ++
      shellQuote dngPath ++ " --seed ".toList ++ shellQuote seed)
    120000

/-- `DnglabEmbedder::SetOrientation`. -/
def setOrientation (exif dngPath : Text) (orientation : Int) : Bool :=
  succeeds schedule shell (setOrientationCommand exif dngPath orientation)
    30000

end Engine

end Engine

end RawImport
