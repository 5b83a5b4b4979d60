import RawImport.Exiftool.Daemon

/-!
# Answers in step

The answer to a command ends at the sentinel line.  `send_command` compares
every piece of a line with the sentinel, so a long line can end an answer too
early, and the rest of it is read as the answer to the next command.
-/

namespace RawImport

namespace Exiftool

open Cxx

/-- Lines that exiftool prints for a command, none of them the sentinel. -/
structure Output where
  lines : List Text
  single : ∀ line ∈ lines, '\n' ∉ line
  notReady : ∀ line ∈ lines, line ≠ ready

def lineText (line : Text) : Text := line ++ ['\n']

def Output.text (output : Output) : Text :=
  output.lines.flatMap lineText ++ lineText ready

/-- The piece at the front of this rest of a line looks like the sentinel:
the rest is the sentinel, or goes on with a NUL byte, where `line` ends as a
C string. -/
def Stops (rest : Text) : Prop :=
  rest = ready ∨ ready ++ ['\x00'] <+: rest

/-- The line holds a false sentinel at the start of one of its pieces. -/
def FalseReady (line : Text) : Prop :=
  ∃ piece : Nat, Stops (line.drop (lineRoom * piece))

theorem fgetsWithin_line {room : Nat} {line rest : Text}
    (single : '\n' ∉ line) :
    fgetsWithin room (line ++ '\n' :: rest) =
      if line.length < room then (lineText line, rest)
      else (line.take room, line.drop room ++ '\n' :: rest) := by
  induction line generalizing room with
  | nil =>
      cases room with
      | zero => rfl
      | succ room => exact (if_pos (Nat.succ_pos room)).symm
  | cons c line ih =>
      rw [List.mem_cons, not_or] at single
      cases room with
      | zero => rfl
      | succ room =>
          have other : c ≠ '\n' := fun same => single.1 same.symm
          rw [List.cons_append, fgetsWithin, if_neg other, ih single.2]
          by_cases short : line.length < room
          · have fits : (c :: line).length < room + 1 := Nat.succ_lt_succ short
            rw [if_pos short, if_pos fits]
            rfl
          · have long : ¬ (c :: line).length < room + 1 := fun less =>
              short (Nat.lt_of_succ_lt_succ less)
            rw [if_neg short, if_neg long]
            rfl

theorem cStr_eq_ready_iff {text : Text} :
    cStr text = ready ↔ Stops text := by
  constructor
  · intro same
    have shape : text = cStr text ++ text.dropWhile (· != '\x00') :=
      List.takeWhile_append_dropWhile.symm
    rw [same] at shape
    cases behind : text.dropWhile (· != '\x00') with
    | nil =>
        rw [behind, List.append_nil] at shape
        exact .inl shape
    | cons c rest =>
        have zero : c = '\x00' := by
          have stopped := List.head?_dropWhile_not (· != '\x00') text
          rw [behind] at stopped
          simpa using stopped
        rw [behind, zero] at shape
        refine .inr ⟨rest, ?_⟩
        rw [shape, List.append_assoc]
        rfl
  · have plain : ∀ c ∈ ready, (c != '\x00') = true :=
      List.all_eq_true.mp (by decide +kernel)
    rintro (rfl | ⟨rest, rfl⟩)
    · decide +kernel
    · rw [cStr, List.append_assoc, List.takeWhile_append_of_pos plain]
      exact List.append_nil _

theorem shown_part {part : Text} (single : '\n' ∉ part) :
    shown part = cStr part := by
  have last : (cStr part).getLast? ≠ some '\n' := by
    intro newline
    have member := List.mem_of_getLast? newline
    exact single (List.takeWhile_subset _ member)
  exact if_neg last

theorem shown_lineText {line : Text} (single : '\n' ∉ line) :
    shown (lineText line) = cStr line := by
  by_cases zero : '\x00' ∈ line
  · have cut : cStr (lineText line) = cStr line := by
      have shorter : ¬ (cStr line).length = line.length := by
        intro whole
        have same := (List.takeWhile_sublist _).eq_of_length whole
        exact cStr_eq_self_iff.mp same zero
      unfold cStr at shorter ⊢
      rw [lineText, List.takeWhile_append, if_neg shorter]
    have part := shown_part single
    unfold shown at part ⊢
    rw [cut]
    exact part
  · have plain : '\x00' ∉ lineText line := by
      intro member
      rcases List.mem_append.mp member with inLine | newline
      · exact zero inLine
      · exact absurd (List.mem_singleton.mp newline) (by decide)
    have newline : (lineText line).getLast? = some '\n' :=
      List.getLast?_concat
    unfold shown
    rw [cStr_eq_self_iff.mpr plain, cStr_eq_self_iff.mpr zero]
    rw [if_pos newline]
    exact List.dropLast_concat

theorem receive_of_fgets {stream piece rest : Text} (result : Text)
    (read : fgets stream = some (piece, rest)) :
    receive result stream =
      if shown piece = ready then some (result, rest)
      else receive ((if result = [] then result else result ++ ['\n']) ++
        shown piece) rest := by
  rw [receive]
  split
  · rename_i ended
    rw [ended] at read
    cases read
  · rename_i piece' rest' read'
    rw [read'] at read
    cases read
    rfl

theorem fgets_line {line : Text} (rest : Text) (single : '\n' ∉ line) :
    fgets (line ++ '\n' :: rest) =
      if line.length < lineRoom then some (lineText line, rest)
      else some (line.take lineRoom, line.drop lineRoom ++ '\n' :: rest) := by
  have present : line ++ '\n' :: rest ≠ [] := by
    intro empty
    cases (List.append_eq_nil_iff.mp empty).2
  unfold fgets
  rw [if_neg present, fgetsWithin_line single]
  split <;> rfl

theorem not_stops_nil : ¬ Stops [] := by
  rintro (same | ⟨rest, same⟩)
  · cases same
  · cases same

theorem not_falseReady_nil : ¬ FalseReady [] := by
  rintro ⟨piece, stops⟩
  rw [List.drop_nil] at stops
  exact not_stops_nil stops

theorem stops_take_iff {line : Text} (long : lineRoom ≤ line.length) :
    Stops (line.take lineRoom) ↔ Stops line := by
  have notReady : ∀ text : Text, lineRoom ≤ text.length → text ≠ ready := by
    rintro text much rfl
    exact absurd much (by decide +kernel)
  have part : lineRoom ≤ (line.take lineRoom).length := by
    rw [List.length_take]
    omega
  have fits : (ready ++ ['\x00']).length ≤ lineRoom := by decide +kernel
  unfold Stops
  rw [iff_of_false (notReady _ part) (notReady line long)]
  constructor
  · rintro (same | front)
    · exact .inl same
    · exact .inr (front.trans (List.take_prefix _ _))
  · rintro (same | front)
    · exact .inl same
    · exact .inr (List.prefix_take_iff.mpr ⟨front, fits⟩)

theorem falseReady_iff (line : Text) :
    FalseReady line ↔ Stops line ∨ FalseReady (line.drop lineRoom) := by
  unfold FalseReady
  constructor
  · rintro ⟨piece, stops⟩
    cases piece with
    | zero => exact .inl stops
    | succ piece =>
        refine .inr ⟨piece, ?_⟩
        rwa [List.drop_drop, Nat.add_comm, ← Nat.mul_succ]
  · rintro (stops | ⟨piece, stops⟩)
    · exact ⟨0, stops⟩
    · refine ⟨piece + 1, ?_⟩
      rwa [List.drop_drop, Nat.add_comm, ← Nat.mul_succ] at stops

/-- A piece that looks like the sentinel ends the answer, and what stands
behind it is left. -/
theorem receive_of_stops {line : Text} (rest result : Text)
    (single : '\n' ∉ line) (stops : Stops line) :
    ∃ kept, receive result (line ++ '\n' :: rest) =
      some (result, kept ++ rest) := by
  have read := fgets_line rest single
  by_cases short : line.length < lineRoom
  · rw [if_pos short] at read
    rw [receive_of_fgets result read, shown_lineText single,
      if_pos (cStr_eq_ready_iff.mpr stops)]
    exact ⟨[], rfl⟩
  · rw [if_neg short] at read
    have part : '\n' ∉ line.take lineRoom := fun member =>
      single (List.mem_of_mem_take member)
    have ends : Stops (line.take lineRoom) :=
      (stops_take_iff (Nat.le_of_not_lt short)).mpr stops
    rw [receive_of_fgets result read, shown_part part,
      if_pos (cStr_eq_ready_iff.mpr ends)]
    refine ⟨line.drop lineRoom ++ ['\n'], ?_⟩
    rw [List.append_assoc]
    rfl

theorem receive_of_short {line : Text} (rest result : Text)
    (single : '\n' ∉ line) (passes : ¬ Stops line)
    (short : line.length < lineRoom) :
    ∃ result', receive result (line ++ '\n' :: rest) =
      receive result' rest := by
  have read := fgets_line rest single
  rw [if_pos short] at read
  rw [receive_of_fgets result read, shown_lineText single,
    if_neg (cStr_eq_ready_iff.not.mpr passes)]
  exact ⟨_, rfl⟩

theorem receive_of_long {line : Text} (rest result : Text)
    (single : '\n' ∉ line) (passes : ¬ Stops line)
    (long : ¬ line.length < lineRoom) :
    ∃ result', receive result (line ++ '\n' :: rest) =
      receive result' (line.drop lineRoom ++ '\n' :: rest) := by
  have read := fgets_line rest single
  rw [if_neg long] at read
  have part : '\n' ∉ line.take lineRoom := fun member =>
    single (List.mem_of_mem_take member)
  have goes : ¬ Stops (line.take lineRoom) :=
    (stops_take_iff (Nat.le_of_not_lt long)).not.mpr passes
  rw [receive_of_fgets result read, shown_part part,
    if_neg (cStr_eq_ready_iff.not.mpr goes)]
  exact ⟨_, rfl⟩

theorem length_drop_room {line : Text} (long : ¬ line.length < lineRoom) :
    (line.drop lineRoom).length < line.length := by
  have room : 0 < lineRoom := by decide
  rw [List.length_drop]
  omega

/-- A line without a false sentinel is passed and no more than it. -/
theorem receive_line {line : Text} (rest result : Text)
    (single : '\n' ∉ line) (clean : ¬ FalseReady line) :
    ∃ result', receive result (line ++ '\n' :: rest) =
      receive result' rest := by
  -- Induction over the pieces: what stands behind the first one is shorter.
  induction length : line.length using Nat.strongRecOn
    generalizing line result with
  | ind size ih =>
      rw [falseReady_iff, not_or] at clean
      by_cases short : line.length < lineRoom
      · exact receive_of_short rest result single clean.1 short
      · obtain ⟨passed, reads⟩ :=
          receive_of_long rest result single clean.1 short
        rw [reads]
        apply ih _ (length ▸ length_drop_room short) passed
        · exact fun member => single (List.mem_of_mem_drop member)
        · exact clean.2
        · rfl

/-- A false sentinel ends the answer, and the lines behind it are left. -/
theorem receive_falseReady {line : Text} (rest result : Text)
    (single : '\n' ∉ line) (found : FalseReady line) :
    ∃ result' kept, receive result (line ++ '\n' :: rest) =
      some (result', kept ++ rest) := by
  induction length : line.length using Nat.strongRecOn
    generalizing line result with
  | ind size ih =>
      by_cases stops : Stops line
      · exact ⟨result, receive_of_stops rest result single stops⟩
      · have behind := ((falseReady_iff line).mp found).resolve_left stops
        by_cases short : line.length < lineRoom
        · rw [List.drop_of_length_le short.le] at behind
          exact (not_falseReady_nil behind).elim
        · obtain ⟨passed, reads⟩ :=
            receive_of_long rest result single stops short
          rw [reads]
          apply ih _ (length ▸ length_drop_room short) passed
          · exact fun member => single (List.mem_of_mem_drop member)
          · exact behind
          · rfl

theorem receive_ready (result : Text) :
    receive result (lineText ready) = some (result, []) := by
  have single : '\n' ∉ ready := by decide +kernel
  have short : ready.length < lineRoom := by decide +kernel
  have read := fgets_line [] single
  rw [if_pos short] at read
  have same : shown (lineText ready) = ready := by
    rw [shown_lineText single]
    exact cStr_eq_ready_iff.mpr (.inl rfl)
  exact (receive_of_fgets result read).trans (if_pos same)

theorem receive_clean {lines : List Text} (result : Text)
    (single : ∀ line ∈ lines, '\n' ∉ line)
    (clean : ∀ line ∈ lines, ¬ FalseReady line) :
    ∃ answer, receive result (lines.flatMap lineText ++ lineText ready) =
      some (answer, []) := by
  induction lines generalizing result with
  | nil => exact ⟨result, receive_ready result⟩
  | cons line lines ih =>
      rw [List.forall_mem_cons] at single clean
      obtain ⟨passed, reads⟩ := receive_line
        (lines.flatMap lineText ++ lineText ready) result single.1 clean.1
      obtain ⟨answer, rest⟩ := ih passed single.2 clean.2
      refine ⟨answer, ?_⟩
      rw [← rest, ← reads, List.flatMap_cons, lineText, List.append_assoc,
        List.append_assoc]
      rfl

theorem receive_found {lines : List Text} (result : Text)
    (single : ∀ line ∈ lines, '\n' ∉ line)
    (found : ∃ line ∈ lines, FalseReady line) :
    ∃ answer left, left ≠ [] ∧
      receive result (lines.flatMap lineText ++ lineText ready) =
        some (answer, left) := by
  induction lines generalizing result with
  | nil =>
      obtain ⟨line, member, -⟩ := found
      cases member
  | cons line lines ih =>
      rw [List.forall_mem_cons] at single
      have shape : (line :: lines).flatMap lineText ++ lineText ready =
          line ++ '\n' :: (lines.flatMap lineText ++ lineText ready) := by
        rw [List.flatMap_cons, lineText, List.append_assoc, List.append_assoc]
        rfl
      rw [shape]
      by_cases here : FalseReady line
      · obtain ⟨answer, kept, stops⟩ := receive_falseReady
          (lines.flatMap lineText ++ lineText ready) result single.1 here
        refine ⟨answer, _, ?_, stops⟩
        intro empty
        have behind := (List.append_eq_nil_iff.mp empty).2
        cases (List.append_eq_nil_iff.mp behind).2
      · obtain ⟨passed, reads⟩ := receive_line
          (lines.flatMap lineText ++ lineText ready) result single.1 here
        rw [reads]
        apply ih passed single.2
        obtain ⟨other, member, false_⟩ := found
        rcases List.mem_cons.mp member with rfl | later
        · exact (here false_).elim
        · exact ⟨other, later, false_⟩

/-- A call of `extract_date`, with what exiftool prints for its command. -/
structure Call where
  path : Text
  output : Output
  mtime : ExifResult := {}

namespace Call

/-- The call on the daemon; its command is written. -/
def run (call : Call) (daemon : Daemon) : ExifResult × Daemon :=
  extractDate daemon call.path true call.output.text call.mtime

/-- No line that is printed for the call holds a false sentinel. -/
def Clean (call : Call) : Prop :=
  '\n' ∉ call.path → ∀ line ∈ call.output.lines, ¬ FalseReady line

theorem run_clean {call : Call} (clean : call.Clean) :
    (call.run {}).2 = {} := by
  unfold run extractDate
  rw [if_neg Bool.noConfusion]
  split
  · rfl
  · rename_i sent
    obtain ⟨answer, reads⟩ :=
      receive_clean [] call.output.single (clean sent)
    have received : receive [] (([] : Text) ++ call.output.text) =
        some (answer, []) := reads
    simp only [sendCommand, received, Bool.true_eq_false, if_false]

theorem run_found {call : Call} (found : ¬ call.Clean) :
    (call.run {}).2.unread ≠ [] := by
  unfold Clean at found
  push Not at found
  obtain ⟨sent, line, member, false_⟩ := found
  obtain ⟨answer, left, present, reads⟩ :=
    receive_found [] call.output.single ⟨line, member, false_⟩
  have received : receive [] (([] : Text) ++ call.output.text) =
      some (answer, left) := reads
  unfold run extractDate
  rw [if_neg Bool.noConfusion, if_neg sent]
  simpa only [sendCommand, received, Bool.true_eq_false, if_false]

end Call

/-- Every call finds the stream at the start of its own output and leaves it
at the end of it; its date is the one that its own output gives, and the
daemon goes on. -/
def InStep : Daemon → List Call → Prop
  | _, [] => True
  | daemon, call :: calls =>
      daemon.unread = [] ∧ (call.run daemon).2.unread = [] ∧
        (call.run daemon).1 = (call.run {}).1 ∧
        (call.run daemon).2.running = true ∧
        InStep (call.run daemon).2 calls

/-- A session stays in step exactly when no line of an answer holds a false
sentinel at the start of one of its pieces. -/
theorem inStep_iff (calls : List Call) :
    InStep {} calls ↔ ∀ call ∈ calls, call.Clean := by
  induction calls with
  | nil => exact iff_of_true True.intro nofun
  | cons call calls ih =>
      rw [List.forall_mem_cons]
      constructor
      · rintro ⟨-, consumed, -, -, later⟩
        have clean : call.Clean := by
          by_contra found
          exact Call.run_found found consumed
        rw [Call.run_clean clean] at later
        exact ⟨clean, ih.mp later⟩
      · rintro ⟨clean, later⟩
        have fresh := Call.run_clean clean
        refine ⟨rfl, ?_, rfl, ?_, ?_⟩
        · rw [fresh]
        · rw [fresh]
        · rw [fresh]
          exact ih.mpr later

/-- A `DateTimeOriginal` whose second piece is the sentinel. -/
def longCall : Call where
  path := "/inbox/1.cr2".toList
  output :=
    { lines := ["DateTimeOriginal: ".toList ++ List.replicate 1005 'x' ++ ready,
        "FileModifyDate: 2026:07:05 14:30:22".toList]
      single := by decide +kernel
      notReady := by decide +kernel }

def secondCall : Call where
  path := "/inbox/2.cr2".toList
  output :=
    { lines := ["DateTimeOriginal: 2001:01:01 00:00:00".toList]
      single := by decide +kernel
      notReady := by decide +kernel }

def thirdCall : Call where
  path := "/inbox/3.cr2".toList
  output :=
    { lines := ["DateTimeOriginal: 2002:02:02 00:00:00".toList]
      single := by decide +kernel
      notReady := by decide +kernel }

/-- The third file gets the date of the second. -/
theorem long_line_shifts_dates :
    ¬ InStep {} [longCall, secondCall, thirdCall] ∧
      (thirdCall.run (secondCall.run (longCall.run {}).2).2).1.date =
        "2001-01-01" ∧
      (thirdCall.run {}).1.date = "2002-02-02" := by
  refine ⟨?_, by decide +kernel, by decide +kernel⟩
  rintro ⟨-, consumed, -⟩
  exact absurd consumed (by decide +kernel)

end Exiftool

end RawImport
