import Mathlib.Logic.Function.Basic
import RawImport.Lib.Cxx
import RawImport.Lib.Trim

/-!
# `.env` files

`load_dotenv` of `util.cpp` and the typed readers of `config.cpp`.  A line is
trimmed and cut at its first `=`; a comment behind a value is part of the
value.
-/

namespace RawImport

namespace Dotenv

open Cxx Search Trim

abbrev Environment := Text → Option Text

/-- `setenv(name, value, 0)`. -/
def setenv (environment : Environment) (name value : Text) : Environment :=
  if name = [] ∨ '=' ∈ name ∨ (environment name).isSome then environment
  else Function.update environment name (some value)

def isQuote (c : Char) : Bool :=
  c == '"' || c == '\''

/-- `if (!v.empty() && v.front() is a quote) v = v.substr(1)`. -/
def unquoteFront (v : Text) : Text :=
  if v.head?.any isQuote then v.drop 1 else v

def unquoteBack (v : Text) : Text :=
  if v.getLast?.any isQuote then v.dropLast else v

/-- The body of the loop of `load_dotenv`. -/
def loadLine (environment : Environment) (line : Text) : Environment :=
  let line := trim isSpace line
  if line = [] ∨ line.head? = some '#' then environment
  else
    match find ['='] line with
    | none => environment
    | some eq =>
        let k := trim isSpace (line.take eq)
        let v := unquoteBack
          (unquoteFront (trim isSpace (line.drop (eq + 1))))
        if environment (cStr k) = none then
          setenv environment (cStr k) (cStr v)
        else environment

/-- `load_dotenv`; there may be no file. -/
def loadDotenv (environment : Environment) (content : Option Text) :
    Environment :=
  match content with
  | none => environment
  | some text => (getlines text).foldl loadLine environment

/-- `env_or` of `config.cpp`. -/
def envOr (environment : Environment) (name fallback : Text) : Text :=
  match environment name with
  | none => fallback
  | some v =>
      let s := trim isSpace v
      if s = [] then fallback else s

def isTrue (s : Text) : Bool :=
  s == "1".toList || s == "true".toList || s == "yes".toList

/-- `env_bool`. -/
def envBool (environment : Environment) (name : Text) (fallback : Bool) :
    Bool :=
  match environment name with
  | none => fallback
  | some v => isTrue ((trim isSpace v).map Char.toLower)

/-- `env_int`. -/
def envInt (environment : Environment) (name : Text) (fallback : Int) :
    Int :=
  match environment name with
  | none => fallback
  | some v =>
      let s := trim isSpace v
      if s = [] then fallback
      else
        match stoi s with
        | .ok value => value
        | .error _ => fallback

/-- A line `KEY=VALUE`, with blanks and a comment behind it at will. -/
structure Setting where
  key : Text
  value : Text
  blanks : Text
  comment : Option Text
  keyPresent : key ≠ []
  keyPlain : ∀ c ∈ key, isSpace c = false ∧ c ≠ '=' ∧ c ≠ '\x00'
  keyBegins : key.head? ≠ some '#'
  valuePlain : ∀ c ∈ value, isSpace c = false ∧ isQuote c = false ∧ c ≠ '#'
  blank : ∀ c ∈ blanks, isSpace c = true ∧ c ≠ '\n'
  apart : comment.isSome = true → blanks ≠ []
  commentLine : ∀ text, comment = some text → '\n' ∉ text

def Setting.rest (setting : Setting) : Text :=
  setting.value ++ setting.blanks ++
    (setting.comment.map ('#' :: ·)).getD []

def Setting.text (setting : Setting) : Text :=
  setting.key ++ '=' :: setting.rest

/-- A line of the format. -/
inductive Line where
  | blank (blanks : Text) (blank : ∀ c ∈ blanks, isSpace c = true ∧ c ≠ '\n')
  | comment (blanks text : Text)
      (blank : ∀ c ∈ blanks, isSpace c = true ∧ c ≠ '\n') (line : '\n' ∉ text)
  | setting (setting : Setting)

def Line.text : Line → Text
  | .blank blanks _ => blanks
  | .comment blanks text _ _ => blanks ++ '#' :: text
  | .setting stated => stated.text

def Line.stated : Line → Option Setting
  | .setting stated => some stated
  | _ => none

/-- A file of such lines whose keys are distinct. -/
structure EnvFile where
  lines : List Line
  finalNewline : Bool
  distinct : ((lines.filterMap Line.stated).map Setting.key).Nodup

def EnvFile.settings (file : EnvFile) : List Setting :=
  file.lines.filterMap Line.stated

def EnvFile.text (file : EnvFile) : Text :=
  ['\n'].intercalate (file.lines.map Line.text) ++
    if file.finalNewline then ['\n'] else []

/-- The variable is what the file says, and so is each reading of it. -/
def ReadAsWritten (environment : Environment) (setting : Setting) : Prop :=
  environment setting.key = some setting.value ∧
    (∀ fallback, envOr environment setting.key fallback =
      if setting.value = [] then fallback else setting.value) ∧
    (∀ fallback, envBool environment setting.key fallback =
      isTrue (setting.value.map Char.toLower)) ∧
    ∀ fallback, envInt environment setting.key fallback =
      match setting.value, stoi setting.value with
      | [], _ => fallback
      | _, .ok value => value
      | _, .error _ => fallback

theorem unquoteFront_of_plain {v : Text}
    (plain : ∀ c, v.head? = some c → isQuote c = false) :
    unquoteFront v = v := by
  unfold unquoteFront
  cases v with
  | nil => rfl
  | cons c v =>
      have here := plain c rfl
      simp [here]

theorem unquoteBack_of_plain {v : Text}
    (plain : ∀ c ∈ v, isQuote c = false) : unquoteBack v = v := by
  unfold unquoteBack
  cases last : v.getLast? with
  | none => rfl
  | some c =>
      have here := plain c (List.mem_of_getLast? last)
      simp [here]

/-- Only what stands behind a character that is no quote can lose its quote. -/
theorem unquoteBack_append_cons (front : Text) {c : Char} (rest : Text)
    (plain : isQuote c = false) :
    ∃ later, unquoteBack (front ++ c :: rest) = front ++ c :: later := by
  unfold unquoteBack
  split
  · rename_i quoted
    cases rest with
    | nil => simp [plain] at quoted
    | cons d rest =>
        refine ⟨(d :: rest).dropLast, ?_⟩
        rw [List.dropLast_append_of_ne_nil (List.cons_ne_nil _ _)]
        rfl
  · exact ⟨rest, rfl⟩

def Setting.stored (setting : Setting) : Text :=
  cStr (unquoteBack (unquoteFront (trim isSpace setting.rest)))

theorem Setting.head_value (setting : Setting) {c : Char}
    (first : setting.value.head? = some c) :
    isSpace c = false ∧ isQuote c = false ∧ c ≠ '#' :=
  setting.valuePlain c (List.mem_of_head? first)

theorem Setting.stored_plain (setting : Setting)
    (plain : setting.comment = none) :
    setting.stored = cStr setting.value := by
  have blankLater : ∀ c ∈ setting.blanks, isSpace c = true := by
    intro c member
    exact (setting.blank c member).1
  have nothing : ∀ c ∈ ([] : Text), isSpace c = true := by simp
  have trimmed : trim isSpace setting.rest = setting.value := by
    have padded := trim_padded nothing blankLater setting.value
    rw [List.nil_append] at padded
    rw [Setting.rest, plain]
    simp only [Option.map_none, Option.getD_none, List.append_nil]
    rw [padded, trim_of_solid fun c member => (setting.valuePlain c member).1]
  rw [Setting.stored, trimmed,
    unquoteFront_of_plain fun c first => (setting.head_value first).2.1,
    unquoteBack_of_plain fun c member => (setting.valuePlain c member).2.1]

/-- With a comment something behind the value is stored with it. -/
theorem Setting.stored_commented (setting : Setting) {text : Text}
    (commented : setting.comment = some text) :
    ∃ c later, c ≠ '\x00' ∧
      setting.stored = cStr (setting.value ++ c :: later) := by
  have hash : isSpace '#' = false := by decide
  have noQuote : isQuote '#' = false := by decide
  have whole : setting.rest = setting.value ++ setting.blanks ++ '#' :: text := by
    rw [Setting.rest, commented]
    rfl
  cases value : setting.value with
  | nil =>
      have blankBefore : ∀ c ∈ setting.blanks, isSpace c = true := by
        intro c member
        exact (setting.blank c member).1
      have nothing : ∀ c ∈ ([] : Text), isSpace c = true := by simp
      have trimmed : trim isSpace setting.rest =
          [] ++ '#' :: trimEnd isSpace text := by
        have padded := trim_padded blankBefore nothing ('#' :: text)
        rw [List.append_nil] at padded
        rw [whole, value, List.nil_append, padded]
        exact trim_append_cons List.dropWhile_nil hash text
      obtain ⟨later, back⟩ :=
        unquoteBack_append_cons [] (trimEnd isSpace text) noQuote
      refine ⟨'#', later, by decide, ?_⟩
      rw [Setting.stored, trimmed, unquoteFront_of_plain, back]
      rintro c ⟨⟩
      exact noQuote
  | cons first others =>
      have head := setting.head_value (by rw [value]; rfl)
      obtain ⟨blank, blanks, split⟩ := List.exists_cons_of_ne_nil
        (setting.apart (by rw [commented]; rfl))
      have starts : (setting.value ++ setting.blanks).dropWhile isSpace =
          setting.value ++ setting.blanks := by
        rw [value]
        exact List.dropWhile_cons_of_neg (by simp [head.1])
      have trimmed : trim isSpace setting.rest =
          setting.value ++ setting.blanks ++
            '#' :: trimEnd isSpace text := by
        rw [whole]
        exact trim_append_cons starts hash text
      obtain ⟨later, back⟩ := unquoteBack_append_cons
        (setting.value ++ setting.blanks) (trimEnd isSpace text) noQuote
      refine ⟨blank, blanks ++ '#' :: later, ?_, ?_⟩
      · rintro rfl
        have space := (setting.blank '\x00' (by simp [split])).1
        exact absurd space (by decide)
      · rw [Setting.stored, trimmed, unquoteFront_of_plain, back, split, value]
        · simp
        · intro c here
          rw [value] at here
          cases here
          exact head.2.1

/-- The value is stored as it is written exactly when no comment follows it and
no byte of it is zero. -/
theorem Setting.stored_eq_iff (setting : Setting) :
    setting.stored = setting.value ↔
      setting.comment = none ∧ '\x00' ∉ setting.value := by
  cases comment : setting.comment with
  | none =>
      rw [setting.stored_plain comment, cStr_eq_self_iff]
      simp
  | some text =>
      obtain ⟨c, later, present, stored⟩ := setting.stored_commented comment
      rw [stored]
      constructor
      · intro same
        exact (cStr_append_cons_ne present same).elim
      · intro both
        cases both.1

theorem loadLine_setting (environment : Environment) (setting : Setting)
    (unset : environment setting.key = none) :
    loadLine environment setting.text =
      Function.update environment setting.key (some setting.stored) := by
  have present : ∀ c ∈ setting.key, isSpace c = false := by
    intro c member
    exact (setting.keyPlain c member).1
  have plain : '=' ∉ setting.key := by
    intro member
    exact (setting.keyPlain '=' member).2.1 rfl
  have name : cStr setting.key = setting.key := by
    apply cStr_eq_self_iff.mpr
    intro zero
    exact (setting.keyPlain _ zero).2.2 rfl
  have line : trim isSpace setting.text =
      setting.key ++ '=' :: trimEnd isSpace setting.rest :=
    trim_append_cons (dropWhile_of_solid present) (by decide) setting.rest
  have found : find ['='] (setting.key ++ '=' :: trimEnd isSpace setting.rest) =
      some setting.key.length :=
    find_of_not_mem (trimEnd isSpace setting.rest) plain
  have known : setting.key ++ '=' :: trimEnd isSpace setting.rest ≠ [] ∧
      (setting.key ++ '=' :: trimEnd isSpace setting.rest).head? ≠
        some '#' := by
    obtain ⟨c, others, split⟩ := List.exists_cons_of_ne_nil setting.keyPresent
    have begins := setting.keyBegins
    rw [split] at begins ⊢
    exact ⟨List.cons_ne_nil _ _, begins⟩
  have behind : (setting.key ++ '=' :: trimEnd isSpace setting.rest).drop
      (setting.key.length + 1) = trimEnd isSpace setting.rest := by
    rw [← List.drop_drop, List.drop_left]
    rfl
  unfold loadLine
  simp only [line]
  rw [if_neg (not_or.mpr known), found]
  simp only
  rw [List.take_left, behind, trim_of_solid present, trim_trimEnd, name,
    if_pos unset, setenv, if_neg]
  · rfl
  · simp [setting.keyPresent, plain, unset]

theorem loadLine_blank (environment : Environment) {blanks : Text}
    (blank : ∀ c ∈ blanks, isSpace c = true) :
    loadLine environment blanks = environment := by
  have empty : trim isSpace blanks = [] := by
    apply trim_eq_nil_iff.mpr
    apply List.filter_eq_nil_iff.mpr
    intro c member
    simpa using blank c member
  simp [loadLine, empty]

theorem loadLine_nil (environment : Environment) :
    loadLine environment [] = environment :=
  rfl

theorem loadLine_comment (environment : Environment) {blanks : Text}
    (blank : ∀ c ∈ blanks, isSpace c = true) (text : Text) :
    loadLine environment (blanks ++ '#' :: text) = environment := by
  have nothing : ∀ c ∈ ([] : Text), isSpace c = true := by simp
  have trimmed : trim isSpace (blanks ++ '#' :: text) =
      '#' :: trimEnd isSpace text := by
    have padded := trim_padded blank nothing ('#' :: text)
    rw [List.append_nil] at padded
    rw [padded]
    exact trim_append_cons List.dropWhile_nil (by decide) text
  simp [loadLine, trimmed]

theorem Line.no_newline (line : Line) : '\n' ∉ line.text := by
  have space : isSpace '\n' = true := by decide
  cases line with
  | blank blanks blank =>
      intro member
      exact (blank _ member).2 rfl
  | comment blanks text blank plain =>
      intro member
      rcases List.mem_append.mp member with before | behind
      · exact (blank _ before).2 rfl
      · rcases List.mem_cons.mp behind with same | inside
        · cases same
        · exact plain inside
  | setting stated =>
      intro member
      rcases List.mem_append.mp member with inKey | behind
      · have other := (stated.keyPlain _ inKey).1
        rw [space] at other
        cases other
      · rcases List.mem_cons.mp behind with same | inRest
        · cases same
        · rcases List.mem_append.mp inRest with front | inComment
          · rcases List.mem_append.mp front with inValue | inBlanks
            · have other := (stated.valuePlain _ inValue).1
              rw [space] at other
              cases other
            · exact (stated.blank _ inBlanks).2 rfl
          · cases comment : stated.comment with
            | none => simp [comment] at inComment
            | some text =>
                rw [comment] at inComment
                rcases List.mem_cons.mp inComment with same | inside
                · cases same
                · exact stated.commentLine text comment inside

/-- The empty line behind a final newline would change nothing. -/
theorem foldl_getlines (environment : Environment) (text : Text) :
    (getlines text).foldl loadLine environment =
      (text.splitOn '\n').foldl loadLine environment := by
  unfold getlines
  dsimp only
  split
  · rename_i last
    obtain ⟨front, split⟩ := List.getLast?_eq_some_iff.mp last
    rw [split, List.dropLast_concat, List.foldl_append]
    exact (loadLine_nil _).symm
  · rfl

theorem loadDotenv_lines (environment : Environment) (file : EnvFile) :
    loadDotenv environment (some file.text) =
      (file.lines.map Line.text).foldl loadLine environment := by
  have joined : ((['\n'].intercalate (file.lines.map Line.text)).splitOn
      '\n').foldl loadLine environment =
        (file.lines.map Line.text).foldl loadLine environment := by
    cases lines : file.lines with
    | nil => exact loadLine_nil environment
    | cons line lines =>
        rw [List.splitOn_intercalate]
        · intro text member
          obtain ⟨other, -, rfl⟩ := List.mem_map.mp member
          exact other.no_newline
        · simp
  show (getlines file.text).foldl loadLine environment = _
  rw [foldl_getlines, ← joined, EnvFile.text]
  cases file.finalNewline with
  | false => simp
  | true =>
      rw [if_pos rfl, List.splitOn_append_cons_self, List.foldl_append]
      exact loadLine_nil _

/-- Induction over the lines: a stored variable is not stored again, as the
keys are distinct. -/
theorem foldl_loadLine (lines : List Line) (environment : Environment)
    (distinct : ((lines.filterMap Line.stated).map Setting.key).Nodup)
    (unset : ∀ setting ∈ lines.filterMap Line.stated,
      environment setting.key = none) :
    (∀ setting ∈ lines.filterMap Line.stated,
      (lines.map Line.text).foldl loadLine environment setting.key =
        some setting.stored) ∧
    ∀ name, name ∉ (lines.filterMap Line.stated).map Setting.key →
      (lines.map Line.text).foldl loadLine environment name =
        environment name := by
  induction lines generalizing environment with
  | nil => exact ⟨by simp, fun _ _ => rfl⟩
  | cons line lines ih =>
      cases line with
      | blank blanks blank =>
          have unchanged := loadLine_blank environment
            fun c member => (blank c member).1
          rw [List.map_cons, List.foldl_cons]
          simp only [Line.text, unchanged]
          exact ih environment distinct unset
      | comment blanks text blank plain =>
          have unchanged := loadLine_comment environment
            (fun c member => (blank c member).1) text
          rw [List.map_cons, List.foldl_cons]
          simp only [Line.text, unchanged]
          exact ih environment distinct unset
      | setting stated =>
          have listed : (Line.setting stated :: lines).filterMap Line.stated =
              stated :: lines.filterMap Line.stated := rfl
          rw [listed] at distinct unset ⊢
          obtain ⟨fresh, distinct⟩ := List.nodup_cons.mp distinct
          obtain ⟨here, unset⟩ := List.forall_mem_cons.mp unset
          have loaded := loadLine_setting environment stated here
          rw [List.map_cons, List.foldl_cons]
          simp only [Line.text, loaded]
          have still : ∀ setting ∈ lines.filterMap Line.stated,
              Function.update environment stated.key (some stated.stored)
                setting.key = none := by
            intro setting member
            have other : setting.key ≠ stated.key := by
              intro same
              exact fresh (same ▸ List.mem_map_of_mem member)
            rw [Function.update_of_ne other]
            exact unset setting member
          obtain ⟨values, others⟩ := ih _ distinct still
          constructor
          · rw [List.forall_mem_cons]
            refine ⟨?_, values⟩
            rw [others stated.key fresh, Function.update_self]
          · intro name absent
            rw [List.map_cons, List.mem_cons, not_or] at absent
            rw [others name absent.2, Function.update_of_ne absent.1]

/-- What the readers make of a value that is stored as it is written. -/
theorem readAsWritten_iff {environment : Environment} {setting : Setting} :
    ReadAsWritten environment setting ↔
      environment setting.key = some setting.value := by
  constructor
  · intro read
    exact read.1
  · intro value
    have trimmed : trim isSpace setting.value = setting.value :=
      trim_of_solid fun c member => (setting.valuePlain c member).1
    refine ⟨value, ?_, ?_, ?_⟩
    · intro fallback
      simp [envOr, value, trimmed]
    · intro fallback
      simp [envBool, value, trimmed]
    · intro fallback
      simp only [envInt, value, trimmed]
      cases setting.value with
      | nil => rfl
      | cons c others =>
          rw [if_neg (List.cons_ne_nil _ _)]
          cases stoi (c :: others) <;> rfl

/-- A file of the format is read as it is written exactly when no value has a
comment behind it and none has a zero byte. -/
theorem loadDotenv_readAsWritten_iff (environment : Environment)
    (file : EnvFile)
    (unset : ∀ setting ∈ file.settings, environment setting.key = none) :
    (∀ setting ∈ file.settings,
      ReadAsWritten (loadDotenv environment (some file.text)) setting) ↔
      ∀ setting ∈ file.settings,
        setting.comment = none ∧ '\x00' ∉ setting.value := by
  have stored := (foldl_loadLine file.lines environment file.distinct
    unset).1
  rw [← loadDotenv_lines] at stored
  apply forall₂_congr
  intro setting member
  rw [readAsWritten_iff, stored setting member, Option.some.injEq]
  exact setting.stored_eq_iff

/-- `EXIFTOOL_DAEMON=true`, with a comment or without. -/
def daemonSetting (comment : Option Text)
    (line : ∀ text, comment = some text → '\n' ∉ text) : Setting where
  key := "EXIFTOOL_DAEMON".toList
  value := "true".toList
  blanks := " ".toList
  comment := comment
  keyPresent := by decide +kernel
  keyPlain := forall_of_all (by decide +kernel)
  keyBegins := by decide +kernel
  valuePlain := forall_of_all (by decide +kernel)
  blank := forall_of_all (by decide +kernel)
  apart := fun _ => by decide +kernel
  commentLine := line

def daemonFile (comment : Option Text)
    (line : ∀ text, comment = some text → '\n' ∉ text) : EnvFile where
  lines := [.setting (daemonSetting comment line)]
  finalNewline := true
  distinct := by simp [Line.stated]

/-- `HTTP_PORT=8081`. -/
def portSetting : Setting where
  key := "HTTP_PORT".toList
  value := "8081".toList
  blanks := []
  comment := none
  keyPresent := by decide +kernel
  keyPlain := forall_of_all (by decide +kernel)
  keyBegins := by decide +kernel
  valuePlain := forall_of_all (by decide +kernel)
  blank := nofun
  apart := nofun
  commentLine := nofun

/-- Two settings below a comment, with an empty line between them. -/
def serverFile : EnvFile where
  lines :=
    [.comment [] " server".toList nofun (by decide +kernel),
      .setting portSetting, .blank [] nofun,
      .setting (daemonSetting none nofun)]
  finalNewline := true
  distinct := by decide +kernel

theorem server_read_as_written :
    ReadAsWritten (loadDotenv (fun _ => none) (some serverFile.text))
        portSetting ∧
      ReadAsWritten (loadDotenv (fun _ => none) (some serverFile.text))
        (daemonSetting none nofun) := by
  have plain : ∀ setting ∈ serverFile.settings,
      setting.comment = none ∧ '\x00' ∉ setting.value := by
    intro setting member
    rcases List.mem_cons.mp member with rfl | member
    · decide +kernel
    · rw [List.mem_singleton.mp member]
      decide +kernel
  have read := (loadDotenv_readAsWritten_iff (fun _ => none) serverFile
    fun _ _ => rfl).mpr plain
  exact ⟨read _ List.mem_cons_self,
    read _ (List.mem_cons_of_mem _ List.mem_cons_self)⟩

/-- With the comment of the shipped example the daemon is off. -/
theorem commented_daemon_off :
    ∃ file : EnvFile,
      (¬∀ setting ∈ file.settings,
        ReadAsWritten (loadDotenv (fun _ => none) (some file.text))
          setting) ∧
      envBool (loadDotenv (fun _ => none) (some file.text))
        "EXIFTOOL_DAEMON".toList true = false := by
  refine ⟨daemonFile (some " persistent".toList) ?_, ?_, ?_⟩
  · rintro text ⟨⟩
    decide +kernel
  · intro read
    have value := (read _ List.mem_cons_self).1
    exact absurd value (by decide +kernel)
  · decide +kernel

end Dotenv

end RawImport
