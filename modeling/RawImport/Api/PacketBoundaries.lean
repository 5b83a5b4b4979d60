import RawImport.Api.Request
import RawImport.Lib.HttpMessage

/-!
# Packet boundaries

What the read loop returns for one request cut in all possible ways.  The loop
depends on the cut through the prefix in which it looks for the content length
and through the place where it stops.  Every cut gives the whole request
exactly when the request has no NUL byte and no prefix it can look at makes it
stop early.
-/

namespace RawImport

namespace Api

open Cxx Search

def delivered (chunks : List Chunk) : Text :=
  (chunks.map Chunk.bytes).flatten

/-- The announced length reaches the end of the body, behind a header section
of the given length, and its sum with that length is a `long`. -/
def Covers (request : Text) (header : Nat) (cl : Int) : Prop :=
  (request.length : Int) ≤ header + cl ∧ (header : Int) + cl < 2 ^ 63

instance (request : Text) (header : Nat) (cl : Int) :
    Decidable (Covers request header cl) :=
  inferInstanceAs (Decidable (_ ∧ _))

section Stop

variable {request : Text} {header : Nat} {cl : Int}

theorem announced_bounds (req : Text) :
    -2 ^ 63 ≤ announced req ∧ announced req < 2 ^ 63 := by
  unfold announced
  split
  · decide
  · split
    · rename_i cl converted
      obtain ⟨-, lower, upper⟩ := convert_bounds converted
      exact ⟨lower, upper⟩
    · decide

theorem Covers.reaches (covers : Covers request header cl) :
    (request.length : Int) ≤ Int.bmod (header + cl) (2 ^ 64) := by
  unfold Covers at covers
  rw [Int.bmod_def]
  omega

/-- Otherwise the sum is too small, or it wraps around to a negative
number. -/
theorem stops_of_not_covers (short : header ≤ request.length)
    (small : request.length < 65536) (lower : -2 ^ 63 ≤ cl)
    (upper : cl < 2 ^ 63) (uncovered : ¬Covers request header cl) :
    Int.bmod (header + cl) (2 ^ 64) < request.length := by
  unfold Covers at uncovered
  rw [Int.bmod_def]
  omega

end Stop

section Cuts

variable {request : Text} {hpos : Nat}

theorem find_take_eq_none_iff
    (headers : find blankLine request = some hpos) (length : Nat) :
    find blankLine (request.take length) = none ↔ length < hpos + 4 := by
  constructor
  · intro missing
    by_contra reached
    have found := find_take headers (Nat.le_of_not_lt reached)
    rw [missing] at found
    cases found
  · intro short
    cases found : find blankLine (request.take length) with
    | none => rfl
    | some place =>
        have room := find_bound found
        have same := find_append found (request.drop length)
        rw [List.take_append_drop, headers] at same
        cases same
        rw [List.length_take] at room
        have four : blankLine.length = 4 := rfl
        omega

theorem headerLen_take (headers : find blankLine request = some hpos)
    {length : Nat} (reached : hpos + 4 ≤ length) :
    headerLen (request.take length) = hpos + 4 := by
  unfold headerLen
  rw [find_take headers reached]

/-- The loop has read the first `length` bytes and not stopped. -/
structure Reads (request : Text) (hpos length : Nat) (reading : Reading) :
    Prop where
  req : reading.req = request.take length
  total : reading.total = length
  bound : length ≤ request.length
  unfinished : reading.headersDone = false → length < hpos + 4
  finished : reading.headersDone = true → hpos + 4 ≤ length

theorem reads_start (request : Text) (hpos : Nat) :
    Reads request hpos 0 {} :=
  { req := rfl
    total := rfl
    bound := Nat.zero_le _
    unfinished := fun _ => by omega
    finished := fun done => by cases done }

variable {length : Nat} {reading : Reading} {chunk : Chunk}

theorem Reads.open_of_lt (reads : Reads request hpos length reading)
    (inside : length < hpos + 4) : reading.headersDone = false := by
  cases done : reading.headersDone with
  | false => rfl
  | true =>
      have reached := reads.finished done
      omega

theorem Reads.extend (reads : Reads request hpos length reading)
    (nulFree : '\x00' ∉ request) {rest : Text}
    (next : request.drop length = chunk.bytes ++ rest) :
    reading.req ++ cStr chunk.bytes =
        request.take (length + chunk.bytes.length) ∧
      length + chunk.bytes.length ≤ request.length ∧
      request.drop (length + chunk.bytes.length) = rest := by
  have whole : request = request.take length ++ (chunk.bytes ++ rest) := by
    rw [← next, List.take_append_drop]
  have clean : '\x00' ∉ chunk.bytes := by
    intro member
    apply nulFree
    rw [whole]
    exact List.mem_append_right _ (List.mem_append_left _ member)
  have size : (request.drop length).length =
      chunk.bytes.length + rest.length := by
    rw [next, List.length_append]
  rw [List.length_drop] at size
  have bound := reads.bound
  refine ⟨?_, by omega, ?_⟩
  · rw [cStr_eq_self_iff.mpr clean, reads.req, List.take_add, next,
      List.take_left]
  · rw [← List.drop_drop, next, List.drop_left]

theorem Reads.append (reads : Reads request hpos length reading)
    (headers : find blankLine request = some hpos)
    (nulFree : '\x00' ∉ request) {rest : Text}
    (next : request.drop length = chunk.bytes ++ rest)
    (inside : length + chunk.bytes.length < hpos + 4) :
    receive reading chunk = .ok (reading.append chunk, false) ∧
      Reads request hpos (length + chunk.bytes.length)
        (reading.append chunk) := by
  obtain ⟨text, bound, -⟩ := reads.extend nulFree next
  have unfinished := reads.open_of_lt (by omega)
  constructor
  · apply receive_open unfinished
    rw [text]
    exact (find_take_eq_none_iff headers _).mpr inside
  · exact
      { req := text
        total := congrArg (· + chunk.bytes.length) reads.total
        bound := bound
        unfinished := fun _ => inside
        finished := fun done => by
          rw [Reading.append, unfinished] at done
          cases done }

theorem Reads.complete (reads : Reads request hpos length reading)
    (headers : find blankLine request = some hpos)
    (nulFree : '\x00' ∉ request) {rest : Text}
    (next : request.drop length = chunk.bytes ++ rest)
    (behind : hpos + 4 ≤ length + chunk.bytes.length) :
    receive reading chunk =
        .ok (reading.complete chunk,
          decide (Int.bmod ((hpos + 4 : Nat) + (reading.complete chunk).cl)
              (2 ^ 64) ≤ (length + chunk.bytes.length : Nat))) ∧
      Reads request hpos (length + chunk.bytes.length)
        (reading.complete chunk) := by
  obtain ⟨text, bound, -⟩ := reads.extend nulFree next
  have found : find blankLine (reading.req ++ cStr chunk.bytes) ≠
      none := by
    rw [text]
    intro missing
    have inside := (find_take_eq_none_iff headers _).mp missing
    omega
  constructor
  · rw [receive_done (fun missing => found missing.2)]
    have req : (reading.complete chunk).req =
        request.take (length + chunk.bytes.length) := text
    unfold bodyEnd
    rw [req, headerLen_take headers behind, List.length_take,
      Nat.min_eq_left bound]
  · exact
      { req := text
        total := congrArg (· + chunk.bytes.length) reads.total
        bound := bound
        unfinished := fun open' => by cases open'
        finished := fun _ => behind }

theorem complete_cl_of_done (chunk : Chunk)
    (done : reading.headersDone = true) :
    (reading.complete chunk).cl = reading.cl :=
  if_pos done

theorem Reads.complete_cl (reads : Reads request hpos length reading)
    (nulFree : '\x00' ∉ request) {rest : Text}
    (next : request.drop length = chunk.bytes ++ rest)
    (unfinished : reading.headersDone = false) :
    (reading.complete chunk).cl =
      announced (request.take (length + chunk.bytes.length)) := by
  obtain ⟨text, -, -⟩ := reads.extend nulFree next
  unfold Reading.complete
  simp only [unfinished, Bool.false_eq_true, if_false, text]

def oneByte (c : Char) : Chunk :=
  ⟨[c], by simp, by simp⟩

theorem length_oneByte (c : Char) : (oneByte c).bytes.length = 1 := rfl

def singles (text : Text) : List Chunk :=
  text.map oneByte

theorem delivered_singles (text : Text) : delivered (singles text) = text := by
  induction text with
  | nil => rfl
  | cons c text ih => exact congrArg (c :: ·) ih

theorem delivered_append (first second : List Chunk) :
    delivered (first ++ second) = delivered first ++ delivered second := by
  unfold delivered
  rw [List.map_append, List.flatten_append]

theorem Reads.length_lt (_reads : Reads request hpos length reading)
    {rest : Text} (next : request.drop length = chunk.bytes ++ rest) :
    length < request.length := by
  have size := congrArg List.length next
  rw [List.length_drop, List.length_append] at size
  have nonempty := List.length_pos_of_ne_nil chunk.property.1
  unfold Chunk.bytes at size
  omega

theorem Reads.readLoop_cons (reads : Reads request hpos length reading)
    (small : request.length < 65536) (chunks : List Chunk) :
    readLoop reading (chunk :: chunks) = (do
      let (next, left) ← receive reading chunk
      if left then .ok next.req else readLoop next chunks) := by
  have bound := reads.bound
  have total := reads.total
  exact if_pos (by omega)

theorem Reads.readLoop_headers (reads : Reads request hpos length reading)
    (headers : find blankLine request = some hpos)
    (nulFree : '\x00' ∉ request) (small : request.length < 65536)
    {chunks : List Chunk} {rest : Text}
    (next : request.drop length = delivered chunks ++ rest)
    (inside : length + (delivered chunks).length < hpos + 4)
    (more : List Chunk) :
    ∃ reading',
      Reads request hpos (length + (delivered chunks).length) reading' ∧
      readLoop reading (chunks ++ more) = readLoop reading' more := by
  induction chunks generalizing length reading with
  | nil => exact ⟨reading, reads, rfl⟩
  | cons chunk chunks ih =>
      have split : delivered (chunk :: chunks) =
          chunk.bytes ++ delivered chunks := rfl
      rw [split, List.append_assoc] at next
      rw [split, List.length_append] at inside ⊢
      obtain ⟨-, -, behind⟩ := reads.extend nulFree next
      obtain ⟨received, reads'⟩ :=
        reads.append headers nulFree next (by omega)
      obtain ⟨reading', reached, same⟩ := ih reads' behind (by omega)
      refine ⟨reading', ?_, ?_⟩
      · rw [← Nat.add_assoc]
        exact reached
      · rw [List.cons_append, reads.readLoop_cons small, received]
        exact same

/-- A loop whose announcement covers the body, where the header section is
complete, reads the whole request. -/
theorem Reads.readLoop_whole (reads : Reads request hpos length reading)
    (headers : find blankLine request = some hpos)
    (nulFree : '\x00' ∉ request) (small : request.length < 65536)
    (announces : ∀ length, hpos + 4 ≤ length → length < request.length →
      length ≤ hpos + 4 + 4094 →
      Covers request (hpos + 4) (announced (request.take length)))
    (covered : reading.headersDone = true → length < request.length →
      Covers request (hpos + 4) reading.cl)
    {chunks : List Chunk} (next : request.drop length = delivered chunks) :
    readLoop reading chunks = .ok request := by
  induction chunks generalizing length reading with
  | nil =>
      have ended : request.length ≤ length := List.drop_eq_nil_iff.mp next
      rw [readLoop, reads.req, List.take_of_length_le ended]
  | cons chunk chunks ih =>
      have split : delivered (chunk :: chunks) =
          chunk.bytes ++ delivered chunks := rfl
      rw [split] at next
      obtain ⟨-, bound, rest⟩ := reads.extend nulFree next
      have more := reads.length_lt next
      have size : chunk.bytes.length ≤ 4095 := chunk.property.2
      rw [reads.readLoop_cons small]
      by_cases inside : length + chunk.bytes.length < hpos + 4
      · obtain ⟨received, reads'⟩ :=
          reads.append headers nulFree next inside
        rw [received]
        apply ih reads' _ rest
        intro done
        have finished := reads'.finished done
        omega
      · have behind := Nat.le_of_not_lt inside
        obtain ⟨received, reads'⟩ :=
          reads.complete headers nulFree next behind
        have covered' : length + chunk.bytes.length < request.length →
            Covers request (hpos + 4) (reading.complete chunk).cl := by
          intro short
          cases done : reading.headersDone with
          | true =>
              rw [complete_cl_of_done chunk done]
              exact covered done more
          | false =>
              have started := reads.unfinished done
              rw [reads.complete_cl nulFree next done]
              exact announces _ behind short (by omega)
        rw [received]
        simp only [bind, Except.bind, decide_eq_true_eq]
        split
        · rename_i left
          rw [reads'.req]
          by_cases short : length + chunk.bytes.length < request.length
          · have reaches := (covered' short).reaches
            omega
          · rw [List.take_of_length_le (Nat.le_of_not_lt short)]
        · exact ih reads' (fun _ => covered') rest

/-- A loop that has yet to stop, and does so before the request ends, returns
less than the request. -/
theorem Reads.readLoop_short (reads : Reads request hpos length reading)
    (headers : find blankLine request = some hpos)
    (nulFree : '\x00' ∉ request) (small : request.length < 65536)
    (done : reading.headersDone = true)
    (going : (length : Int) <
      Int.bmod ((hpos + 4 : Nat) + reading.cl) (2 ^ 64))
    (stops : Int.bmod ((hpos + 4 : Nat) + reading.cl) (2 ^ 64) <
      request.length)
    {rest : Text} (next : request.drop length = rest) :
    ∃ short < request.length,
      readLoop reading (singles rest) = .ok (request.take short) := by
  induction rest generalizing length reading with
  | nil =>
      have ended : request.length ≤ length := List.drop_eq_nil_iff.mp next
      omega
  | cons c rest ih =>
      have finished := reads.finished done
      have here : request.drop length = (oneByte c).bytes ++ rest := next
      obtain ⟨received, reads'⟩ :=
        reads.complete headers nulFree here (Nat.le_add_right_of_le finished)
      obtain ⟨-, -, behind⟩ := reads.extend nulFree here
      have same := complete_cl_of_done (oneByte c) done
      rw [length_oneByte] at reads' received behind
      rw [same] at received
      unfold singles
      rw [List.map_cons, reads.readLoop_cons small, received]
      simp only [bind, Except.bind, decide_eq_true_eq]
      split
      · refine ⟨length + 1, by omega, ?_⟩
        rw [reads'.req]
      · rename_i further
        rw [← same] at stops further
        exact ih reads' rfl (Int.not_le.mp further) stops behind

theorem exists_chunk {start : Nat} (nonempty : start < length)
    (inside : length ≤ request.length) (near : length ≤ start + 4095) :
    ∃ chunk : Chunk, start + chunk.bytes.length = length ∧
      request.drop start = chunk.bytes ++ request.drop length := by
  have width : ((request.drop start).take (length - start)).length =
      length - start := by
    rw [List.length_take, List.length_drop]
    omega
  refine ⟨⟨(request.drop start).take (length - start),
    List.ne_nil_of_length_pos (by omega), by omega⟩, ?_, ?_⟩
  · calc
      start + ((request.drop start).take (length - start)).length
        = start + (length - start) := congrArg (start + ·) width
      _ = length := Nat.add_sub_cancel' (Nat.le_of_lt nonempty)
  · have rest : (request.drop start).drop (length - start) =
        request.drop length := by
      rw [List.drop_drop, Nat.add_sub_cancel' (Nat.le_of_lt nonempty)]
    rw [← rest]
    exact (List.take_append_drop _ _).symm

/-- A cut whose chunk with the header section's end also ends before the
request does, where the announcement does not cover the body. -/
theorem exists_short_cut (headers : find blankLine request = some hpos)
    (nulFree : '\x00' ∉ request) (small : request.length < 65536)
    {length : Nat} (behind : hpos + 4 ≤ length)
    (inside : length < request.length) (near : length ≤ hpos + 4 + 4094)
    (uncovered :
      ¬Covers request (hpos + 4) (announced (request.take length))) :
    ∃ chunks, delivered chunks = request ∧
      ∃ short < request.length,
        readRequest chunks = .ok (request.take short) := by
  obtain ⟨middle, ending, between⟩ :=
    exists_chunk (Nat.lt_of_succ_le behind) (Nat.le_of_lt inside) near
  have start : request.drop 0 =
      delivered (singles (request.take (hpos + 3))) ++
        request.drop (hpos + 3) := by
    rw [delivered_singles, List.take_append_drop, List.drop_zero]
  have opening :
      (delivered (singles (request.take (hpos + 3)))).length = hpos + 3 := by
    rw [delivered_singles, List.length_take]
    omega
  refine ⟨singles (request.take (hpos + 3)) ++
    middle :: singles (request.drop length), ?_, ?_⟩
  · have tail : delivered (middle :: singles (request.drop length)) =
        middle.bytes ++ request.drop length :=
      congrArg (middle.bytes ++ ·) (delivered_singles _)
    rw [delivered_append, tail, ← between, delivered_singles,
      List.take_append_drop]
  · obtain ⟨reading, reads, run⟩ :=
      (reads_start request hpos).readLoop_headers headers nulFree small start
        (by omega) (middle :: singles (request.drop length))
    rw [opening, Nat.zero_add] at reads
    have unfinished := reads.open_of_lt (by omega)
    obtain ⟨received, reads'⟩ :=
      reads.complete headers nulFree between (by omega)
    have cl := reads.complete_cl nulFree between unfinished
    rw [ending] at cl reads' received
    have bounds := announced_bounds (request.take length)
    have stops := stops_of_not_covers (by omega) small bounds.1 bounds.2
      uncovered
    rw [← cl] at stops
    unfold readRequest
    rw [run, reads.readLoop_cons small, received]
    simp only [bind, Except.bind, decide_eq_true_eq]
    split
    · refine ⟨length, inside, ?_⟩
      rw [reads'.req]
    · rename_i further
      exact reads'.readLoop_short headers nulFree small rfl
        (Int.not_le.mp further) stops rfl

end Cuts

/-- Every cut of a request gives the whole request exactly when it has no NUL
byte and, in each prefix that can be looked at for the announcement, the number
found covers the body. -/
theorem readRequest_every_cut_iff {request : Text} {hpos : Nat}
    (headers : find blankLine request = some hpos)
    (small : request.length < 65536) :
    (∀ chunks, delivered chunks = request →
        readRequest chunks = .ok request) ↔
      '\x00' ∉ request ∧
        ∀ length, hpos + 4 ≤ length → length < request.length →
          length ≤ hpos + 4 + 4094 →
            Covers request (hpos + 4) (announced (request.take length)) := by
  constructor
  · intro every
    have nulFree : '\x00' ∉ request :=
      readLoop_nulFree (List.not_mem_nil)
        (every (singles request) (delivered_singles request))
    refine ⟨nulFree, ?_⟩
    intro length behind inside near
    by_contra uncovered
    obtain ⟨chunks, cut, short, shorter, result⟩ :=
      exists_short_cut headers nulFree small behind inside near uncovered
    rw [every chunks cut] at result
    have same := congrArg List.length (Except.ok.inj result)
    rw [List.length_take] at same
    omega
  · intro condition chunks cut
    obtain ⟨nulFree, announces⟩ := condition
    exact (reads_start request hpos).readLoop_whole headers nulFree small
      announces (fun done => by cases done) cut.symm

def twoBytes : Text :=
  "POST / HTTP/1.1\r\nContent-Length: 2\r\n\r\nhi".toList

/-- A request with a body of two bytes, cut in front of it. -/
theorem readRequest_twoBytes :
    readRequest
        [⟨twoBytes.take 38, by decide, by decide⟩,
          ⟨twoBytes.drop 38, by decide, by decide⟩] =
      .ok twoBytes := by
  have headers : find blankLine twoBytes = some 34 := by decide
  apply (readRequest_every_cut_iff headers (by decide)).mpr
  · refine ⟨by decide, ?_⟩
    intro length behind inside near
    have size : twoBytes.length = 40 := by decide
    have last : length = 38 ∨ length = 39 := by omega
    rcases last with rfl | rfl <;> decide
  · decide

/-- The search knows two spellings of the header's name only. -/
theorem cut_of_upper_case :
    ¬∀ (request : Text) (chunks : List Chunk), Http.Sized request →
      request.length < 65536 → delivered chunks = request →
        readRequest chunks = .ok request := by
  intro every
  have whole := every
    "POST / HTTP/1.1\r\nCONTENT-LENGTH: 2\r\n\r\nhi".toList
    [⟨"POST / HTTP/1.1\r\nCONTENT-LENGTH: 2\r\n\r\n".toList,
        by decide, by decide⟩,
      ⟨"hi".toList, by decide, by decide⟩]
    (by decide) (by decide) (by decide)
  revert whole
  decide

/-- The announcement is taken from the header section, whatever of the body
has arrived with it. -/
theorem announced_take {request : Text} {hpos clpos : Nat}
    (headers : find blankLine request = some hpos)
    (spelled : find "Content-Length:".toList request = some clpos)
    (inside : clpos < hpos) (small : request.length < 65536) {length : Nat}
    (reached : hpos + 4 ≤ length) :
    announced (request.take length) = announced request := by
  obtain ⟨bound, blank, -⟩ := find_eq_some_iff.mp headers
  obtain ⟨-, name, -⟩ := find_eq_some_iff.mp spelled
  have newline : crlf <+: request.drop hpos :=
    List.IsPrefix.trans (by decide) blank
  obtain ⟨ending, near, found⟩ :=
    exists_findFrom_le (Nat.le_of_lt inside) bound newline
  obtain ⟨behind, stands, room⟩ := findFrom_eq_some found
  have separate : clpos + 15 ≤ ending := by
    by_contra overlap
    have member : '\r' ∈ "Content-Length:".toList :=
      mem_of_inside name stands behind (Nat.lt_of_not_le overlap)
    revert member
    decide
  have name' : find "Content-Length:".toList (request.take length) =
      some clpos := by
    apply find_take spelled
    have size : "Content-Length:".toList.length = 15 := by decide
    omega
  have found' : findFrom crlf (request.take length) clpos = some ending := by
    apply findFrom_take found
    have size : crlf.length = 2 := by decide
    omega
  unfold announced
  rw [name', spelled]
  have number : ((request.take length).drop (clpos + 15)).take
      (sizeSub ending (clpos + 15)) =
        (request.drop (clpos + 15)).take (sizeSub ending (clpos + 15)) := by
    rw [sizeSub_of_le separate (by omega), List.drop_take, List.take_take,
      Nat.min_eq_left (by omega)]
  simp only [Option.some_or, found, found', Option.getD_some, number]

/-- Such a request without a NUL byte, whose number covers the body, is read
whole from every cut, whatever its body contains. -/
theorem readRequest_of_spelled {request : Text} {hpos clpos : Nat}
    (headers : find blankLine request = some hpos)
    (spelled : find "Content-Length:".toList request = some clpos)
    (inside : clpos < hpos) (small : request.length < 65536)
    (nulFree : '\x00' ∉ request)
    (covers : Covers request (hpos + 4) (announced request))
    {chunks : List Chunk} (cut : delivered chunks = request) :
    readRequest chunks = .ok request := by
  apply (reads_start request hpos).readLoop_whole headers nulFree small _
    (fun done => by cases done) cut.symm
  intro length behind _ _
  rw [announced_take headers spelled inside small behind]
  exact covers

end Api

end RawImport
