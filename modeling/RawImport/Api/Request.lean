import Mathlib.Data.List.TakeWhile
import RawImport.Lib.Cxx

/-!
# Reading a request

`handle` appends what `recv` delivers until the header section is there and
then as many bytes as the text read so far seems to announce.  Each piece is
appended as a C string, and the announcement is searched for once, in whatever
has arrived with the end of the header section.
-/

namespace RawImport

namespace Api

open Cxx Search

/-- What one `recv` delivers into the buffer of 4096 bytes. -/
abbrev Chunk := { bytes : Text // bytes ≠ [] ∧ bytes.length ≤ 4095 }

def Chunk.bytes (chunk : Chunk) : Text := chunk.val

/-- `"\r\n\r\n"`. -/
def blankLine : Text := "\r\n\r\n".toList

def crlf : Text := "\r\n".toList

/-- The search for the content length in the text read so far. -/
def contentLength (req : Text) : Except StdException Int :=
  match (find "Content-Length:".toList req).or
      (find "content-length:".toList req) with
  | none => .ok 0
  | some clpos => do
      let cs := findFrom crlf req clpos
      let cstr ← substr req (clpos + 15)
        (sizeSub (cs.getD req.length) (clpos + 15))
      match stol cstr with
      | .ok cl => .ok cl
      | .error _ => .ok 0

/-- `req.find("\r\n\r\n") + 4`; `npos` wraps around. -/
def headerLen (req : Text) : Nat :=
  match find blankLine req with
  | some hpos => hpos + 4
  | none => 3

/-- `static_cast<long>(header_len) + cl`. -/
def bodyEnd (req : Text) (cl : Int) : Int :=
  Int.bmod (headerLen req + cl) (2 ^ 64)

/-- The locals of the read loop. -/
structure Reading where
  req : Text := []
  total : Nat := 0
  headersDone : Bool := false
  cl : Int := 0
  deriving DecidableEq, Repr

/-- One round of the loop: the locals behind it, and whether it was left. -/
def receive (reading : Reading) (chunk : Chunk) :
    Except StdException (Reading × Bool) := do
  let req := reading.req ++ cStr chunk.bytes
  let total := reading.total + chunk.bytes.length
  if reading.headersDone = false ∧ find blankLine req = none then
    return ({ reading with req := req, total := total }, false)
  let cl ← if reading.headersDone then .ok reading.cl
    else contentLength req
  return ({ req := req, total := total, headersDone := true, cl := cl },
    decide (bodyEnd req cl ≤ req.length))

/-- The loop; without another chunk `recv` reports the end or a timeout. -/
def readLoop (reading : Reading) : List Chunk → Except StdException Text
  | [] => .ok reading.req
  | chunk :: chunks =>
      if reading.total < 65536 then do
        let (next, left) ← receive reading chunk
        if left then .ok next.req else readLoop next chunks
      else .ok reading.req

/-- The text that `handle` goes on to parse. -/
def readRequest (chunks : List Chunk) : Except StdException Text :=
  readLoop {} chunks

/-- The number behind the first `Content-Length:`, or else behind the first
`content-length:`; 0 where no number stands. -/
def announced (req : Text) : Int :=
  match (find "Content-Length:".toList req).or
      (find "content-length:".toList req) with
  | none => 0
  | some clpos =>
      match stol ((req.drop (clpos + 15)).take
          (sizeSub ((findFrom crlf req clpos).getD req.length)
            (clpos + 15))) with
      | .ok cl => cl
      | .error _ => 0

theorem contentLength_ok (req : Text) :
    contentLength req = .ok (announced req) := by
  unfold contentLength announced
  split
  · rfl
  · rename_i clpos found
    have room : clpos + 15 ≤ req.length := by
      rcases Option.or_eq_some_iff.mp found with upper | ⟨-, lower⟩
      · exact find_bound upper
      · exact find_bound lower
    simp only [substr_ok room, bind, Except.bind]
    split <;> rfl

/-- The reading behind a chunk that ends inside the header section. -/
def Reading.append (reading : Reading) (chunk : Chunk) : Reading :=
  { reading with
    req := reading.req ++ cStr chunk.bytes
    total := reading.total + chunk.bytes.length }

/-- The reading behind a chunk that ends behind the header section. -/
def Reading.complete (reading : Reading) (chunk : Chunk) : Reading :=
  { reading.append chunk with
    headersDone := true
    cl :=
      if reading.headersDone then reading.cl
      else announced (reading.req ++ cStr chunk.bytes) }

theorem receive_open {reading : Reading} {chunk : Chunk}
    (unfinished : reading.headersDone = false)
    (missing : find blankLine (reading.req ++ cStr chunk.bytes) = none) :
    receive reading chunk = .ok (reading.append chunk, false) := by
  unfold receive Reading.append
  simp only [unfinished, missing, and_self, if_true]
  rw [← unfinished]
  rfl

theorem receive_done {reading : Reading} {chunk : Chunk}
    (done : ¬(reading.headersDone = false ∧
      find blankLine (reading.req ++ cStr chunk.bytes) = none)) :
    receive reading chunk =
      .ok (reading.complete chunk,
        decide (bodyEnd (reading.complete chunk).req
          (reading.complete chunk).cl ≤
            (reading.complete chunk).req.length)) := by
  unfold receive
  simp only [if_neg done, contentLength_ok, Reading.complete,
    Reading.append]
  split <;> rfl

theorem readLoop_ok (reading : Reading) (chunks : List Chunk) :
    ∃ req, readLoop reading chunks = .ok req := by
  induction chunks generalizing reading with
  | nil => exact ⟨reading.req, rfl⟩
  | cons chunk chunks ih =>
      unfold readLoop
      split
      · by_cases opened : reading.headersDone = false ∧
            find blankLine (reading.req ++ cStr chunk.bytes) = none
        · rw [receive_open opened.1 opened.2]
          exact ih _
        · rw [receive_done opened]
          simp only [bind, Except.bind]
          split
          · exact ⟨_, rfl⟩
          · exact ih _
      · exact ⟨reading.req, rfl⟩

theorem readLoop_nulFree {reading : Reading} {chunks : List Chunk}
    {req : Text} (before : '\x00' ∉ reading.req)
    (result : readLoop reading chunks = .ok req) : '\x00' ∉ req := by
  induction chunks generalizing reading with
  | nil =>
      cases result
      exact before
  | cons chunk chunks ih =>
      have after : '\x00' ∉ reading.req ++ cStr chunk.bytes := by
        intro member
        rcases List.mem_append.mp member with old | new
        · exact before old
        · have kept := List.mem_takeWhile_imp new
          simp at kept
      unfold readLoop at result
      split at result
      · by_cases opened : reading.headersDone = false ∧
            find blankLine (reading.req ++ cStr chunk.bytes) = none
        · rw [receive_open opened.1 opened.2] at result
          exact ih after result
        · rw [receive_done opened] at result
          simp only [bind, Except.bind] at result
          split at result
          · cases result
            exact after
          · exact ih after result
      · cases result
        exact before

theorem readLoop_length {reading : Reading} {chunks : List Chunk}
    {req : Text} (counted : reading.req.length ≤ reading.total)
    (total : reading.total < 65536 + 4095)
    (result : readLoop reading chunks = .ok req) :
    req.length < 65536 + 4095 := by
  induction chunks generalizing reading with
  | nil =>
      cases result
      omega
  | cons chunk chunks ih =>
      have size : chunk.bytes.length ≤ 4095 := chunk.property.2
      have kept : (cStr chunk.bytes).length ≤ chunk.bytes.length :=
        (List.takeWhile_sublist _).length_le
      have after : (reading.req ++ cStr chunk.bytes).length ≤
          reading.total + chunk.bytes.length := by
        rw [List.length_append]
        omega
      unfold readLoop at result
      split at result
      · rename_i room
        by_cases opened : reading.headersDone = false ∧
            find blankLine (reading.req ++ cStr chunk.bytes) = none
        · rw [receive_open opened.1 opened.2] at result
          exact ih after (Nat.add_lt_add_of_lt_of_le room size) result
        · rw [receive_done opened] at result
          simp only [bind, Except.bind] at result
          split at result
          · cases result
            exact Nat.lt_of_le_of_lt after
              (Nat.add_lt_add_of_lt_of_le room size)
          · exact ih after (Nat.add_lt_add_of_lt_of_le room size) result
      · cases result
        omega

theorem readRequest_length {chunks : List Chunk} {req : Text}
    (result : readRequest chunks = .ok req) : req.length < 65536 + 4095 :=
  readLoop_length (Nat.zero_le _) (by decide) result

end Api

end RawImport
