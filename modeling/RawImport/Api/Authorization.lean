import RawImport.Api.Responses
import RawImport.Lib.HttpMessage

/-!
# The token check

The check searches the whole request, so it can find its two texts outside the
header it means and miss the header where its name is spelled otherwise.  What
it comes to is told by the lines of the request: the token has to end the
first line with `Bearer ` from the first `Authorization:` on.
-/

namespace RawImport

namespace Api

open Cxx Effect Search

variable {σ : Type}

def restOfLine (text : Text) : Text :=
  match find crlf text with
  | none => text
  | some nl => text.take nl

/-- The text from the first `Bearer ` behind the first `Authorization:` to the
end of its line, wherever in the request that is. -/
def presented (req : Text) : Option Text :=
  match find "Authorization:".toList req with
  | none => none
  | some ah =>
      (findFrom "Bearer ".toList req ah).map fun b =>
        restOfLine (req.drop (b + 7))

/-- A header named `Authorization` carries the token. -/
def Carries (req token : Text) : Prop :=
  "Bearer ".toList ++ token ∈ Http.values "Authorization".toList req

/-- From the first `Authorization:` on, the token is what follows the first
`Bearer ` up to the end of its line. -/
def ShowsToken (req token : Text) : Prop :=
  ∃ later more,
    Http.behind "Authorization:".toList (Http.lines req) = some later ∧
      Http.behind "Bearer ".toList later = some (token :: more)

/-- The request shows the token that a header of its carries, or shows another
text, or none, and no header carries the token. -/
inductive Straight (req token : Text) : Prop where
  | carried : Carries req token → ShowsToken req token → Straight req token
  | foreign : ¬Carries req token → ¬ShowsToken req token → Straight req token

theorem presented_of_missing {req : Text}
    (missing : find "Authorization:".toList req = none) :
    presented req = none := by
  unfold presented
  rw [missing]

theorem presented_of_find {req : Text} {ah : Nat}
    (start : find "Authorization:".toList req = some ah) :
    presented req = (findFrom "Bearer ".toList req ah).map
      fun b => restOfLine (req.drop (b + 7)) := by
  unfold presented
  rw [start]

theorem presented_iff (req token : Text) :
    presented req = some token ↔ ShowsToken req token := by
  have name := Http.find_lines (show "Authorization:".toList ≠ [] by decide)
    (by decide) (by decide) req
  unfold ShowsToken
  rw [← name]
  cases start : find "Authorization:".toList req with
  | none => simp [presented_of_missing start]
  | some ah =>
      have room := find_bound start
      have size : "Authorization:".toList.length = 14 := by decide
      have length : "Bearer ".toList.length = 7 := by decide
      rw [size] at room
      have bearer := Http.find_lines (show "Bearer ".toList ≠ [] by decide)
        (by decide) (by decide) (req.drop (ah + 14))
      have passed : findFrom "Bearer ".toList req ah =
          (find "Bearer ".toList (req.drop (ah + 14))).map
            (ah + 14 + ·) := by
        obtain ⟨-, ⟨rest, stands⟩, -⟩ := find_eq_some_iff.mp start
        have cut : req.drop (ah + 14) = rest := by
          rw [← List.drop_drop, ← stands]
          rfl
        have absent : 'B' ∉ "Authorization:".toList := by decide
        have shifted : find ('B' :: "earer ".toList)
            ("Authorization:".toList ++ rest) =
              (find ('B' :: "earer ".toList) rest).map
                ("Authorization:".toList.length + ·) :=
          find_pass absent rest
        rw [findFrom, if_pos (by omega), ← stands, cut]
        change (find ('B' :: "earer ".toList) _).map _ = _
        rw [shifted, Option.map_map, size]
        apply congrArg (Option.map · _)
        funext place
        exact (Nat.add_assoc ah 14 place).symm
      rw [presented_of_find start, passed, Option.map_map]
      simp only [Option.map_some, Option.some.injEq, exists_and_left,
        exists_eq_left', size]
      rw [← bearer, length]
      cases place : find "Bearer ".toList (req.drop (ah + 14)) with
      | none => simp
      | some b =>
          have shown : req.drop (ah + 14 + b + 7) =
              (req.drop (ah + 14)).drop (b + 7) := by
            rw [List.drop_drop, Nat.add_assoc (ah + 14)]
          simp only [Option.map_some, Function.comp, Option.some.injEq, shown]
          generalize (req.drop (ah + 14)).drop (b + 7) = text
          obtain ⟨line, more, split⟩ :=
            List.exists_cons_of_ne_nil (Http.lines_ne_nil text)
          have head : restOfLine text = line := Http.lines_head split
          rw [head, split]
          simp

theorem checkToken_eq (apiToken req : Text) :
    checkToken apiToken req =
      .ok (decide (presented req = some apiToken)) := by
  unfold checkToken
  cases start : find "Authorization:".toList req with
  | none =>
      rw [presented_of_missing start]
      rfl
  | some ah =>
      rw [presented_of_find start]
      dsimp only
      cases bearer : findFrom "Bearer ".toList req ah with
      | none => rfl
      | some b =>
          obtain ⟨-, -, room⟩ := findFrom_eq_some bearer
          have behind : b + 7 ≤ req.length := room
          dsimp only
          rw [substrFrom_ok behind, Option.map_some]
          simp only [ok_bind, Option.some.injEq]
          unfold restOfLine
          cases find crlf (req.drop (b + 7)) with
          | none => rfl
          | some nl =>
              dsimp only
              rw [substr_ok (Nat.zero_le _)]
              rfl

variable (impl : Impl σ)

def Impl.withToken (token : String) : Impl σ :=
  { impl with config := { impl.config with apiToken := token } }

theorem authorized_withToken (req : Text) {path : Text} {token : String}
    (guarded : path ≠ "/health".toList) (nonempty : token ≠ "") :
    authorized (impl.withToken token).config req path =
      .ok (decide (presented req = some token.toList)) := by
  unfold authorized
  rw [if_pos ⟨guarded, nonempty⟩]
  exact checkToken_eq _ req

def Admits (program : Handler σ Unit) (world : σ) : Prop :=
  Ends program { world := world }
    (fun _ final => ∀ answer ∈ final.sent, answer.code ≠ 401)
    fun _ final => ∀ answer ∈ final.sent, answer.code ≠ 401

/-- The run answers 401 and calls neither the store nor the rotation
manager. -/
def Refuses (program : Handler σ Unit) (world : σ) : Prop :=
  Ends program { world := world }
    (fun _ final => (∃ answer, final.sent = [answer] ∧ answer.code = 401) ∧
      final.calls = [])
    fun _ _ => False

/-- What the gate is to do with a request under a token. -/
structure Gated (chunks : List Chunk) (req : Text) (token : String)
    (world : σ) : Prop where
  admits : Carries req token.toList →
    Admits (handle (impl.withToken token) chunks) world
  refuses : ¬Carries req token.toList →
    Refuses (handle (impl.withToken token) chunks) world

theorem admits_route (req method path : Text) (q : Params) (world : σ) :
    Admits (route impl req method path q) world := by
  by_cases unguarded : Unguarded impl req method path q
  · apply (raises_route impl unguarded _).mono
    · intro _ _ impossible
      exact impossible.elim
    · intro _ final silent answer member
      rw [silent.1] at member
      cases member
  · apply (answers_route impl unguarded _).mono
    · intro _ final answered answer member
      obtain ⟨⟨only, sent, accepted⟩, -⟩ := answered
      rw [sent] at member
      cases List.mem_singleton.mp member
      exact accepted
    · intro _ _ impossible
      exact impossible.elim

theorem refuses_sendError (error : String) (world : σ) :
    Refuses (sendError 401 error) world :=
  ⟨⟨_, rfl, rfl⟩, rfl⟩

theorem not_admits_of_refuses {program : Handler σ Unit} {world : σ}
    (refuses : Refuses program world) : ¬Admits program world := by
  intro admits
  unfold Refuses Admits Ends at *
  split at refuses
  · rename_i value final ended
    obtain ⟨⟨answer, sent, refused⟩, -⟩ := refuses
    rw [ended] at admits
    exact admits answer (by rw [sent]; exact List.mem_singleton_self answer)
      refused
  · exact refuses

section Gate

variable {impl} {chunks : List Chunk} {req method path query : Text}
  {token : String}

theorem admits_of_presented (read : readRequest chunks = .ok req)
    (line : requestLine req = .ok (some (method, path, query)))
    (guarded : path ≠ "/health".toList) (nonempty : token ≠ "")
    (equal : presented req = some token.toList) (world : σ) :
    Admits (handle (impl.withToken token) chunks) world := by
  obtain ⟨q, params⟩ := parseQuery_ok query
  have routed : Routed (impl.withToken token) req method path q :=
    { line := ⟨query, line, params⟩
      passes := by
        rw [authorized_withToken impl req guarded nonempty, equal]
        simp }
  rw [handle_eq _ read, respond_routed _ routed]
  exact admits_route _ req method path q world

theorem refuses_of_not_presented (read : readRequest chunks = .ok req)
    (line : requestLine req = .ok (some (method, path, query)))
    (guarded : path ≠ "/health".toList) (nonempty : token ≠ "")
    (different : presented req ≠ some token.toList) (world : σ) :
    Refuses (handle (impl.withToken token) chunks) world := by
  have gate := authorized_withToken impl req guarded nonempty
  rw [decide_eq_false different] at gate
  rw [handle_eq _ read, respond_refused _ line gate]
  exact refuses_sendError "unauthorized" world

end Gate

section Plain

variable {start token body : Text} {before after : List Text}

/-- The one authorization header, spelled as the check searches it, is the
first place where its name stands. -/
structure Plain (start token body : Text) (before after : List Text) :
    Prop where
  clean : ∀ line ∈ start :: (before ++
      ("Authorization: Bearer ".toList ++ token) :: after), Http.Clean line
  blank : ∀ c ∈ token.getLast?, Http.isBlank c = false
  other : ∀ line ∈ before ++ after, ∀ f, Http.field line = some f →
    Http.lower f.name ≠ Http.lower "Authorization".toList
  first : find "Authorization:".toList
      (Http.assemble (start :: (before ++
        ("Authorization: Bearer ".toList ++ token) :: after)) body) =
    some ((start :: before).flatMap (· ++ ['\r', '\n'])).length

def plainRequest (start token body : Text) (before after : List Text) :
    Text :=
  Http.assemble (start :: (before ++
    ("Authorization: Bearer ".toList ++ token) :: after)) body

theorem plainRequest_eq (start token body : Text) (before after : List Text) :
    ∃ rest, plainRequest start token body before after =
      (start :: before).flatMap (· ++ ['\r', '\n']) ++
        ("Authorization: ".toList ++ ("Bearer ".toList ++
          (token ++ ('\r' :: '\n' :: rest)))) := by
  refine ⟨after.flatMap (· ++ ['\r', '\n']) ++ '\r' :: '\n' :: body, ?_⟩
  have header : "Authorization: Bearer ".toList =
      "Authorization: ".toList ++ "Bearer ".toList := by decide
  unfold plainRequest Http.assemble
  rw [header]
  simp only [List.flatMap_cons, List.flatMap_append, List.append_assoc,
    List.cons_append, List.nil_append]

theorem findFrom_bearer (front rest : Text) :
    findFrom "Bearer ".toList
      (front ++ ("Authorization: ".toList ++ ("Bearer ".toList ++ rest)))
      front.length = some (front.length + 15) := by
  have behind : (front ++ ("Authorization: ".toList ++
      ("Bearer ".toList ++ rest))).drop (front.length + 15) =
        "Bearer ".toList ++ rest := by
    rw [← List.drop_drop, List.drop_left]
    rfl
  apply findFrom_eq_some_iff.mpr
  refine ⟨Nat.le_add_right _ _, ?_, ?_, ?_⟩
  · have size : "Authorization: ".toList.length = 15 := by decide
    rw [List.length_append, List.length_append, size]
    omega
  · rw [behind]
    exact List.prefix_append _ _
  · intro earlier from' below stands
    have name : "Authorization: ".toList <+:
        (front ++ ("Authorization: ".toList ++
          ("Bearer ".toList ++ rest))).drop front.length := by
      rw [List.drop_left]
      exact List.prefix_append _ _
    have member : 'B' ∈ "Authorization: ".toList :=
      mem_of_inside name stands from' below
    revert member
    decide

theorem presented_plain (plain : Plain start token body before after) :
    presented (plainRequest start token body before after) = some token := by
  obtain ⟨rest, layout⟩ := plainRequest_eq start token body before after
  have first := plain.first
  have clean : '\r' ∉ token := by
    intro member
    have line := plain.clean ("Authorization: Bearer ".toList ++ token)
      (by simp)
    exact line.2 (List.mem_append_right _ member)
  change find "Authorization:".toList
    (plainRequest start token body before after) = _ at first
  rw [presented_of_find first, layout, findFrom_bearer, Option.map_some]
  generalize (start :: before).flatMap (· ++ ['\r', '\n']) = front
  have value : (front ++ ("Authorization: ".toList ++ ("Bearer ".toList ++
      (token ++ '\r' :: '\n' :: rest)))).drop (front.length + 15 + 7) =
        token ++ '\r' :: '\n' :: rest := by
    rw [← List.drop_drop, ← List.drop_drop, List.drop_left]
    rfl
  have ending : find crlf (token ++ '\r' :: '\n' :: rest) =
      some token.length :=
    find_of_not_mem rest clean
  rw [value]
  unfold restOfLine
  rw [ending]
  dsimp only
  rw [List.take_left]

theorem values_plain (plain : Plain start token body before after)
    (nonempty : token ≠ []) :
    Http.values "Authorization".toList
        (plainRequest start token body before after) =
      ["Bearer ".toList ++ token] := by
  have line : "Authorization: Bearer ".toList ++ token =
      "Authorization".toList ++ ':' :: ' ' :: ("Bearer ".toList ++ token) := by
    rfl
  have parsed : Http.field ("Authorization: Bearer ".toList ++ token) =
      some ⟨"Authorization".toList, "Bearer ".toList ++ token⟩ := by
    rw [line]
    apply Http.field_of_name (by decide) rfl
    apply List.rdropWhile_eq_self_iff.mpr
    intro _
    rw [List.getLast_append_of_ne_nil _ nonempty, plain.blank]
    · exact Bool.false_ne_true
    · exact List.getLast?_eq_some_getLast nonempty
  exact Http.values_assemble plain.clean parsed rfl plain.other body

theorem straight_plain (plain : Plain start token body before after)
    (nonempty : token ≠ []) (token' : Text) :
    Straight (plainRequest start token body before after) token' := by
  have carried : Carries (plainRequest start token body before after)
      token' ↔ token' = token := by
    unfold Carries
    rw [values_plain plain nonempty, List.mem_singleton]
    exact List.append_right_inj _
  have shown : ShowsToken (plainRequest start token body before after)
      token' ↔ token' = token := by
    rw [← presented_iff, presented_plain plain, Option.some.injEq, eq_comm]
  by_cases same : token' = token
  · exact .carried (carried.mpr same) (shown.mpr same)
  · exact .foreign (fun carries => same (carried.mp carries))
      fun shows' => same (shown.mp shows')

end Plain

/-- Where `Authorization:` stands in no line with this spelling, the token of
a header is overlooked. -/
theorem overlooked {req token : Text} (carries : Carries req token)
    (missing : ∀ line ∈ Http.lines req,
      find "Authorization:".toList line = none) :
    ¬Straight req token := by
  have silent : ¬ShowsToken req token := by
    rintro ⟨later, more, first, -⟩
    have none : ∀ lines : List Text,
        (∀ line ∈ lines, find "Authorization:".toList line = none) →
          Http.behind "Authorization:".toList lines = none := by
      intro lines absent
      induction lines with
      | nil => rfl
      | cons line lines ih =>
          rw [Http.behind, absent line List.mem_cons_self]
          exact ih fun other member =>
            absent other (List.mem_cons_of_mem line member)
    rw [none _ missing] at first
    cases first
  intro straight
  cases straight with
  | carried _ shows' => exact silent shows'
  | foreign absent => exact absent carries

/-- A request without an authorization header that shows a token. -/
theorem forged {req token : Text} (shows' : ShowsToken req token)
    (none : Http.values "Authorization".toList req = []) :
    ¬Straight req token := by
  intro straight
  cases straight with
  | carried carries =>
      unfold Carries at carries
      rw [none] at carries
      cases carries
  | foreign _ silent => exact silent shows'

def plainReady : Chunk :=
  ⟨"GET /ready HTTP/1.1\r\nAuthorization: Bearer secret\r\n\r\n".toList,
    by decide, by decide⟩

def lowerReady : Chunk :=
  ⟨"GET /ready HTTP/1.1\r\nauthorization: Bearer secret\r\n\r\n".toList,
    by decide, by decide⟩

end Api

end RawImport
