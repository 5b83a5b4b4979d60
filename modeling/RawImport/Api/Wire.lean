import RawImport.Api.Permissions
import RawImport.Lib.HttpFraming

/-!
# The text of a response

`send_response` writes the lines, the empty line and the body into one string
and sends it in as many pieces as the kernel takes.  A client that got all of
it reads back what was sent; one that did not can tell.
-/

namespace RawImport

namespace Api

open Cxx Effect Search

def reason (code : Nat) : Text :=
  if code = 200 then "OK".toList
  else if code = 404 then "Not Found".toList
  else if code = 401 then "Unauthorized".toList
  else if code = 503 then "Service Unavailable".toList
  else "Error".toList

/-- What the `ostringstream` holds. -/
def responseText (answer : Answer) : Text :=
  "HTTP/1.1 ".toList ++ (toString answer.code).toList ++ " ".toList ++
    reason answer.code ++
    "\r\nContent-Type: ".toList ++ answer.contentType ++ "\r\n".toList ++
    "Content-Length: ".toList ++ (toString answer.body.length).toList ++
      "\r\n".toList ++
    "Connection: close\r\n\r\n".toList ++ answer.body

/-- The loop around `::send`: the results of the calls from the given one on,
and the bytes sent so far.  The kernel takes no more than it is given. -/
def sendRounds (out : Text) (results : Nat → Int) : Nat → Nat → Nat → Nat
  | 0, _, sent => sent
  | rounds + 1, call, sent =>
      if sent < out.length then
        if results call ≤ 0 then sent
        else
          sendRounds out results rounds (call + 1)
            (sent + min (results call).toNat (out.length - sent))
      else sent

/-- What reaches the client; each round but the last sends a byte. -/
def received (out : Text) (results : Nat → Int) : Text :=
  out.take (sendRounds out results out.length 0 0)

def statusLine (answer : Answer) : Text :=
  "HTTP/1.1 ".toList ++ (toString answer.code).toList ++ " ".toList ++
    reason answer.code

def typeLine (answer : Answer) : Text :=
  "Content-Type: ".toList ++ answer.contentType

def lengthLine (answer : Answer) : Text :=
  "Content-Length: ".toList ++ (toString answer.body.length).toList

def responseHead (answer : Answer) : List Text :=
  [statusLine answer, typeLine answer, lengthLine answer,
    "Connection: close".toList]

theorem responseText_eq (answer : Answer) :
    responseText answer =
      Http.assemble (responseHead answer) answer.body := by
  have kind : "\r\nContent-Type: ".toList =
      '\r' :: '\n' :: "Content-Type: ".toList := rfl
  have line : "\r\n".toList = ['\r', '\n'] := rfl
  have close : "Connection: close\r\n\r\n".toList =
      "Connection: close".toList ++ ['\r', '\n', '\r', '\n'] := rfl
  unfold responseText Http.assemble responseHead statusLine typeLine
    lengthLine
  rw [kind, line, close]
  simp only [List.append_assoc, List.flatMap_cons, List.flatMap_nil,
    List.cons_append, List.nil_append]

theorem sendRounds_bounds {out : Text} {results : Nat → Int}
    {rounds call sent : Nat} (enough : out.length ≤ sent + rounds)
    (bound : sent ≤ out.length) :
    sendRounds out results rounds call sent ≤ out.length ∧
      (sendRounds out results rounds call sent < out.length →
        ∃ failed, results failed ≤ 0) := by
  induction rounds generalizing call sent with
  | zero =>
      refine ⟨bound, fun short => ?_⟩
      exact absurd short (Nat.not_lt.mpr enough)
  | succ rounds ih =>
      unfold sendRounds
      split
      · split
        · rename_i failed
          exact ⟨bound, fun _ => ⟨call, failed⟩⟩
        · rename_i taken
          apply ih
          · omega
          · omega
      · rename_i whole
        exact ⟨bound, fun short => absurd short whole⟩

theorem received_cases (out : Text) (results : Nat → Int) :
    received out results = out ∨
      (∃ failed, results failed ≤ 0) ∧
        ∃ missing, missing ≠ [] ∧ received out results ++ missing = out := by
  obtain ⟨-, failing⟩ := @sendRounds_bounds out results out.length 0 0
    (Nat.le_add_left out.length 0) (Nat.zero_le out.length)
  rcases Nat.lt_or_ge (sendRounds out results out.length 0 0) out.length
    with short | whole
  · refine .inr ⟨failing short, out.drop _, ?_, List.take_append_drop _ _⟩
    intro none
    have length := congrArg List.length none
    rw [List.length_drop, List.length_nil] at length
    omega
  · exact .inl (List.take_of_length_le whole)

section Lines

variable {answer : Answer}

theorem not_mem_digits {c : Char} (n : Nat) (other : c.isDigit = false) :
    c ∉ (toString n).toList := by
  intro member
  rw [Numeral.isDigit_of_mem_nat member] at other
  cases other

theorem not_mem_reason (code : Nat) : '\r' ∉ reason code := by
  unfold reason
  repeat' split
  all_goals decide

theorem clean_statusLine (answer : Answer) :
    Http.Clean (statusLine answer) := by
  constructor
  · exact List.cons_ne_nil _ _
  · unfold statusLine
    simp only [List.mem_append, not_or]
    exact ⟨⟨⟨by decide, not_mem_digits _ rfl⟩, by decide⟩,
      not_mem_reason _⟩

theorem clean_lengthLine (answer : Answer) :
    Http.Clean (lengthLine answer) := by
  constructor
  · exact List.cons_ne_nil _ _
  · unfold lengthLine
    simp only [List.mem_append, not_or]
    exact ⟨by decide, not_mem_digits _ rfl⟩

theorem clean_typeLine (known : answer.contentType ∈ contentTypes) :
    Http.Clean (typeLine answer) := by
  have plain : ∀ text ∈ contentTypes, '\r' ∉ text := by decide
  constructor
  · exact List.cons_ne_nil _ _
  · unfold typeLine
    simp only [List.mem_append, not_or]
    exact ⟨by decide, plain _ known⟩

theorem clean_responseHead (known : answer.contentType ∈ contentTypes) :
    ∀ line ∈ responseHead answer, Http.Clean line := by
  intro line member
  simp only [responseHead, List.mem_cons, List.not_mem_nil, or_false]
    at member
  rcases member with rfl | rfl | rfl | rfl
  · exact clean_statusLine answer
  · exact clean_typeLine known
  · exact clean_lengthLine answer
  · exact ⟨List.cons_ne_nil _ _, by decide⟩

theorem field_lengthLine (answer : Answer) :
    Http.field (lengthLine answer) =
      some ⟨"Content-Length".toList,
        (toString answer.body.length).toList⟩ := by
  have notBlank : ∀ c ∈ (toString answer.body.length).toList,
      Http.isBlank c = false := by
    intro c member
    have digit := Numeral.isDigit_of_mem_nat member
    cases blank : Http.isBlank c with
    | false => rfl
    | true =>
        rcases Bool.or_eq_true_iff.mp blank with space | tab
        · rw [eq_of_beq space] at digit
          exact absurd digit (by decide)
        · rw [eq_of_beq tab] at digit
          exact absurd digit (by decide)
  have text : lengthLine answer = "Content-Length".toList ++ ':' :: ' ' ::
      (toString answer.body.length).toList := by
    have named : "Content-Length: ".toList =
        "Content-Length".toList ++ [':', ' '] := rfl
    unfold lengthLine
    rw [named, List.append_assoc]
    rfl
  rw [text]
  apply Http.field_of_name (by decide)
  · apply List.dropWhile_eq_self_iff.mpr
    intro _ blank
    rw [notBlank _ (List.getElem_mem _)] at blank
    cases blank
  · apply List.rdropWhile_eq_self_iff.mpr
    intro nonempty blank
    rw [notBlank _ (List.getLast_mem nonempty)] at blank
    cases blank

theorem other_lines (known : answer.contentType ∈ contentTypes) :
    ∀ line ∈ [typeLine answer] ++ ["Connection: close".toList], ∀ f,
      Http.field line = some f →
        Http.lower f.name ≠ Http.lower "Content-Length".toList := by
  have types : ∀ text ∈ contentTypes,
      (Http.field ("Content-Type: ".toList ++ text)).map
        (fun f => Http.lower f.name) =
          some "content-type".toList := by decide
  intro line member f parsed
  rcases List.mem_append.mp member with first | last
  · rw [List.mem_singleton.mp first] at parsed
    have name := types _ known
    have same : Http.field ("Content-Type: ".toList ++
      answer.contentType) = some f := parsed
    rw [same, Option.map_some, Option.some.injEq] at name
    rw [name]
    decide
  · rw [List.mem_singleton.mp last] at parsed
    cases parsed
    decide

theorem sized_responseText (known : answer.contentType ∈ contentTypes) :
    Http.Sized (responseText answer) := by
  rw [responseText_eq]
  have clean : ∀ line ∈ statusLine answer :: ([typeLine answer] ++
      lengthLine answer :: ["Connection: close".toList]),
        Http.Clean line := clean_responseHead known
  exact Http.sized_assemble clean (field_lengthLine answer) rfl
    (other_lines known) rfl

theorem headerSection_responseText
    (known : answer.contentType ∈ contentTypes) :
    Http.headerSection (responseText answer) = responseHead answer := by
  rw [responseText_eq]
  exact Http.headerSection_assemble (clean_responseHead known) _

theorem body_responseText (known : answer.contentType ∈ contentTypes) :
    Http.body (responseText answer) = answer.body := by
  rw [responseText_eq]
  exact Http.body_assemble (clean_responseHead known) _

/-- What a client makes of the bytes it got: they announce their own length
exactly when they are the whole response, and then they read back as its lines
and its body; less arrives only when a call of `::send` failed. -/
structure Readable (answer : Answer) (results : Nat → Int) : Prop where
  sized : Http.Sized (received (responseText answer) results) ↔
    received (responseText answer) results = responseText answer
  lines : Http.Sized (received (responseText answer) results) →
    Http.headerSection (received (responseText answer) results) =
      responseHead answer
  body : Http.Sized (received (responseText answer) results) →
    Http.body (received (responseText answer) results) = answer.body
  whole : (∀ call, 0 < results call) →
    received (responseText answer) results = responseText answer

theorem readable_of_known (known : answer.contentType ∈ contentTypes)
    (results : Nat → Int) : Readable answer results := by
  have sized : Http.Sized (received (responseText answer) results) ↔
      received (responseText answer) results = responseText answer := by
    constructor
    · intro sized
      rcases received_cases (responseText answer) results with same |
        ⟨-, missing, cut, text⟩
      · exact same
      · have whole : Http.Sized (received (responseText answer) results ++
            missing) := by
          rw [text]
          exact sized_responseText known
        exact (Http.not_sized_prefix cut whole sized).elim
    · intro same
      rw [same]
      exact sized_responseText known
  refine ⟨sized, fun told => ?_, fun told => ?_, fun taken => ?_⟩
  · rw [sized.mp told]
    exact headerSection_responseText known
  · rw [sized.mp told]
    exact body_responseText known
  · rcases received_cases (responseText answer) results with same |
      ⟨⟨failed, zero⟩, -⟩
    · exact same
    · exact absurd (taken failed) (Int.not_lt.mpr zero)

end Lines

/-- Every response to every request, in whatever pieces the kernel takes it,
is whole for the client exactly when it looks whole. -/
theorem handle_readable {σ : Type} (impl : Impl σ) (chunks : List Chunk)
    (world : σ) :
    Ends (handle impl chunks) { world := world }
      (fun _ final => ∀ answer ∈ final.sent, ∀ results,
        Readable answer results)
      fun _ final => ∀ answer ∈ final.sent, ∀ results,
        Readable answer results := by
  have known : ∀ {final : Session σ},
      Within (Licensed impl chunks) { world := world } final →
      ∀ answer ∈ final.sent, ∀ results, Readable answer results := by
    intro final within answer member results
    apply readable_of_known
    exact ((within.sent answer member).resolve_left List.not_mem_nil).typed
  exact (does_handle impl chunks { world := world }).mono
    (fun _ _ within => known within) fun _ _ within => known within

end Api

end RawImport
