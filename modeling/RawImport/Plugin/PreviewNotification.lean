import RawImport.Api.Json
import RawImport.Plugin.Commands

/-!
# The preview notification on its way through the shell

The body of the notification stands between double quotes and has double
quotes of its own, so the shell hands another text to `curl`.
-/

namespace RawImport

namespace Plugin

open ShellWords

/-- The word behind `-d`. -/
def delivered (command : Text) : Option Text :=
  (words command).bind (argument "-d".toList)

/-- The body is the word behind `-d`, and the server finds the path in it. -/
def Arrives (base token dng worker : Text) (w h q : Option Int) : Prop :=
  ∃ body,
    delivered (notifyPreviewUpdated base token dng worker w h q) =
      some body ∧
    body = notifyBody dng worker w h q ∧
    Api.jsonGet body "output_path".toList = .ok dng

section Command

/-- The words of the command before its address. -/
def options : List Text :=
  ["curl".toList, "-s".toList, "-o".toList, "nul".toList, "-w".toList,
    "%\x7bhttp_code\x7d".toList, "-X".toList, "POST".toList]

/-- The words between the address and the body. -/
def contentType : List Text :=
  ["-H".toList, "Content-Type: application/json".toList]

theorem feed_options :
    feed {} "curl -s -o nul -w \"%\x7bhttp_code\x7d\" -X POST ".toList =
      ⟨.plain, none, options⟩ := by
  decide +kernel

theorem feed_body (word : Text) (front : List Text) :
    feed ⟨.plain, some word, front⟩
        (" -H \"Content-Type: application/json\" -d \"".toList ++
          "\x7b\"output_path\":\"".toList) =
      ⟨.plain, some "\x7boutput_path:".toList,
        (front ++ [word]) ++ (contentType ++ ["-d".toList])⟩ := by
  have blank : " -H \"Content-Type: application/json\" -d \"".toList ++
      "\x7b\"output_path\":\"".toList =
      ' ' :: "-H \"Content-Type: application/json\" -d \"\x7b\"output_path\":\"".toList := by
    decide +kernel
  have body : feed {}
      "-H \"Content-Type: application/json\" -d \"\x7b\"output_path\":\"".toList =
      ⟨.plain, some "\x7boutput_path:".toList,
        contentType ++ ["-d".toList]⟩ := by
    decide +kernel
  rw [blank, feed_space, feed_between, body]
  rfl

variable {base token : Text}

theorem feed_address (configured : Configured base token) (address : Text)
    (plain : ∀ c ∈ address, Plain c) (long : 2 < address.length) :
    ∃ front word,
      feed ⟨.plain, none, options⟩ (authHdr token ++ (base ++ address)) =
        ⟨.plain, some word, front⟩ ∧ "-d".toList ∉ front ++ [word] := by
  have all : ∀ c ∈ base ++ address, Plain c := by
    intro c member
    rcases List.mem_append.mp member with old | new
    · exact configured.base c old
    · exact plain c new
  have differs : ∀ start : Text, start ++ (base ++ address) ≠ "-d".toList := by
    intro start same
    have lengths := congrArg List.length same
    simp only [List.length_append] at lengths
    have two : "-d".toList.length = 2 := by decide
    omega
  rw [feed_append, feed_authHdr configured.token]
  split
  · refine ⟨options, base ++ address, ?_, ?_⟩
    · rw [feed_plain_start _ all]
      intro empty
      have lengths := congrArg List.length empty
      simp only [List.length_append, List.length_nil] at lengths
      omega
    · intro member
      rcases List.mem_append.mp member with old | new
      · revert old
        decide
      · exact differs [] (List.mem_singleton.mp new).symm
  · refine ⟨options ++ ["-H".toList],
      "Authorization: Bearer ".toList ++ token ++ (base ++ address),
      feed_plain all, ?_⟩
    intro member
    rcases List.mem_append.mp member with old | new
    · revert old
      decide
    · exact differs _ (List.mem_singleton.mp new).symm

/-- The words up to `-d`, and the beginning of the one behind it. -/
theorem begun_body (configured : Configured base token) (address : Text)
    (plain : ∀ c ∈ address, Plain c) (long : 2 < address.length) :
    ∃ front, "-d".toList ∉ front ∧
      Begun (front ++ ["-d".toList]) "\x7boutput_path:".toList
        (feed {}
          ("curl -s -o nul -w \"%\x7bhttp_code\x7d\" -X POST ".toList ++
            (authHdr token ++ (base ++ address)) ++
            (" -H \"Content-Type: application/json\" -d \"".toList ++
              "\x7b\"output_path\":\"".toList))) := by
  obtain ⟨front, word, fed, absent⟩ := feed_address configured address plain
    long
  have start : feed {}
      ("curl -s -o nul -w \"%\x7bhttp_code\x7d\" -X POST ".toList ++
        (authHdr token ++ (base ++ address))) =
      ⟨.plain, some word, front⟩ := by
    rw [feed_append, feed_options, fed]
  refine ⟨front ++ [word] ++ contentType, ?_, ?_⟩
  · intro member
    rcases List.mem_append.mp member with early | late
    · exact absent early
    · revert late
      decide
  · rw [feed_append, start, feed_body, ← List.append_assoc]
    exact .start .plain

theorem regroup (start hdr middle first rest last : Text) :
    start ++ hdr ++ middle ++ (first ++ rest ++ last) =
      start ++ hdr ++ (middle ++ first) ++ (rest ++ last) := by
  simp only [List.append_assoc]

/-- Whatever the shell makes of the rest of the command, the word behind `-d`
begins with the first name of the body without its quotes. -/
theorem delivered_start (configured : Configured base token)
    (dng worker : Text) (w h q : Option Int) {received : Text}
    (result : delivered (notifyPreviewUpdated base token dng worker w h q) =
      some received) :
    "\x7boutput_path:".toList <+: received := by
  obtain ⟨all, cut, found⟩ := Option.bind_eq_some_iff.mp result
  obtain ⟨front, first, begun⟩ := begun_body configured
    "/api/v1/imports/by-path/preview-updated".toList
    (List.all_iff_forall_prop.mp (by decide +kernel)) (by decide +kernel)
  unfold notifyPreviewUpdated postCommand notifyBody at cut
  rw [regroup] at cut
  obtain ⟨more, rest, rfl⟩ := words_of_begun begun cut
  rw [List.append_assoc, List.singleton_append,
    argument_of_first first] at found
  cases found
  exact List.prefix_append _ _

end Command

/-- The notification never arrives: for every path, worker name and numbers,
and any configured address and token, the word behind `-d` is not the body that
was built. -/
theorem notification_never_arrives {base token : Text}
    (configured : Configured base token) (dng worker : Text)
    (w h q : Option Int) : ¬Arrives base token dng worker w h q := by
  intro arrives
  obtain ⟨body, result, same, -⟩ := arrives
  obtain ⟨rest, starts⟩ := delivered_start configured dng worker w h q result
  have received : "\x7boutput_path:".toList =
      '\x7b' :: 'o' :: "utput_path:".toList := by
    decide +kernel
  have built : "\x7b\"output_path\":\"".toList =
      '\x7b' :: '"' :: "output_path\":\"".toList := by
    decide +kernel
  rw [same, received] at starts
  unfold notifyBody at starts
  rw [built, List.cons_append, List.cons_append, List.cons_append,
    List.cons_append] at starts
  have second := (List.cons.inj (List.cons.inj starts).2).1
  exact absurd second (by decide)

theorem default_notification_never_arrives :
    ¬Arrives "http://localhost:8080".toList []
      "/output/2024/05/IMG_1.dng".toList "exiftool".toList (some 1024)
      (some 768) (some 90) :=
  notification_never_arrives
    ⟨List.all_iff_forall_prop.mp (by decide +kernel),
      fun _ none => absurd none List.not_mem_nil⟩ _ _ _ _ _

/-- What `curl` is given instead; the server finds no path in it. -/
theorem notification_loses_quotes :
    delivered (notifyPreviewUpdated "http://localhost:8080".toList []
        "/output/2024/05/IMG_1.dng".toList "exiftool".toList (some 1024)
        (some 768) (some 90)) =
      some ("\x7boutput_path:/output/2024/05/IMG_1.dng,worker:exiftool," ++
        "preview_width:1024,preview_height:768,preview_quality:90\x7d").toList ∧
    Api.jsonGet
        ("\x7boutput_path:/output/2024/05/IMG_1.dng,worker:exiftool," ++
          "preview_width:1024,preview_height:768,preview_quality:90\x7d").toList
        "output_path".toList = .ok [] ∧
    ¬Arrives "http://localhost:8080".toList []
      "/output/2024/05/IMG_1.dng".toList "exiftool".toList (some 1024)
      (some 768) (some 90) := by
  have received : delivered (notifyPreviewUpdated
      "http://localhost:8080".toList [] "/output/2024/05/IMG_1.dng".toList
      "exiftool".toList (some 1024) (some 768) (some 90)) =
      some ("\x7boutput_path:/output/2024/05/IMG_1.dng,worker:exiftool," ++
        "preview_width:1024,preview_height:768,preview_quality:90\x7d").toList := by
    decide +kernel
  refine ⟨received, by decide +kernel, ?_⟩
  intro arrives
  obtain ⟨body, result, same, -⟩ := arrives
  rw [received, same] at result
  revert result
  decide +kernel

end Plugin

end RawImport
