import Mathlib.Data.Bool.AllAny
import Mathlib.Data.List.Basic

/-!
# Words of a shell command

How the quotes of a POSIX shell cut a command into words: a backslash and the
two kinds of quotes take their characters literally and are removed, blanks
outside them end a word.  Expansions, operators and comments are not looked
at.  The command is read from the left, so what has been read of a word stays
its beginning.
-/

namespace ShellWords

abbrev Text := List Char

inductive Mode where
  | plain
  | escaped
  | single
  | double
  | doubleEscaped
  deriving DecidableEq, Repr

/-- The word that is being read, behind the finished ones. -/
structure Reading where
  mode : Mode := .plain
  word : Option Text := none
  words : List Text := []
  deriving DecidableEq, Repr

/-- Put a text to the word, which begins with it if there is none. -/
def Reading.push (reading : Reading) (mode : Mode) (text : Text) :
    Reading :=
  { reading with
    mode := mode
    word := some (reading.word.getD [] ++ text) }

def Reading.endWord (reading : Reading) : Reading :=
  { reading with
    word := none
    words := reading.words ++ reading.word.toList }

def isBlank (c : Char) : Bool :=
  c == ' ' || c == '\t' || c == '\n'

/-- What a backslash between double quotes escapes. -/
def isEscapable (c : Char) : Bool :=
  c == '$' || c == '\x60' || c == '"' || c == '\\'

def step (reading : Reading) (c : Char) : Reading :=
  match reading.mode with
  | .plain =>
      if isBlank c then reading.endWord
      else if c = '\\' then { reading with mode := .escaped }
      else if c = '\'' then reading.push .single []
      else if c = '"' then reading.push .double []
      else reading.push .plain [c]
  | .escaped =>
      if c = '\n' then { reading with mode := .plain }
      else reading.push .plain [c]
  | .single =>
      if c = '\'' then { reading with mode := .plain }
      else reading.push .single [c]
  | .double =>
      if c = '"' then { reading with mode := .plain }
      else if c = '\\' then { reading with mode := .doubleEscaped }
      else reading.push .double [c]
  | .doubleEscaped =>
      if c = '\n' then { reading with mode := .double }
      else if isEscapable c then reading.push .double [c]
      else reading.push .double ['\\', c]

def feed (reading : Reading) (text : Text) : Reading :=
  text.foldl step reading

/-- The words of a command; none when a quote stays open. -/
def words (command : Text) : Option (List Text) :=
  let reading := feed {} command
  if reading.mode = .plain then some reading.endWord.words else none

/-- A character that stands for itself outside quotes, where the shell neither
expands nor finds an operator or a comment. -/
def Plain (c : Char) : Prop :=
  isBlank c = false ∧ c ≠ '\\' ∧ c ≠ '\'' ∧ c ≠ '"'

/-- A character that stands for itself between double quotes. -/
def Quoted (c : Char) : Prop :=
  c ≠ '"' ∧ c ≠ '\\'

instance (c : Char) : Decidable (Plain c) :=
  inferInstanceAs (Decidable (_ ∧ _))

instance (c : Char) : Decidable (Quoted c) :=
  inferInstanceAs (Decidable (_ ∧ _))

section Rules

variable {reading : Reading} {word : Text} {finished : List Text}

@[simp] theorem feed_nil : feed reading [] = reading := rfl

theorem feed_append (first second : Text) :
    feed reading (first ++ second) = feed (feed reading first) second :=
  List.foldl_append

theorem feed_cons (c : Char) (text : Text) :
    feed reading (c :: text) = feed (step reading c) text :=
  rfl

theorem feed_space (text : Text) :
    feed ⟨.plain, some word, finished⟩ (' ' :: text) =
      feed ⟨.plain, none, finished ++ [word]⟩ text :=
  rfl

def Reading.behind (front : List Text) (reading : Reading) : Reading :=
  { reading with words := front ++ reading.words }

theorem step_behind (front : List Text) (c : Char) :
    step (reading.behind front) c = (step reading c).behind front := by
  obtain ⟨mode, word, finished⟩ := reading
  have push : ∀ mode' text,
      Reading.push (.behind front ⟨mode, word, finished⟩) mode' text =
        .behind front (Reading.push ⟨mode, word, finished⟩ mode' text) :=
    fun _ _ => rfl
  have ended : Reading.endWord (.behind front ⟨mode, word, finished⟩) =
      .behind front (Reading.endWord ⟨mode, word, finished⟩) := by
    simp [Reading.endWord, Reading.behind]
  cases mode with
  | plain =>
      simp only [step, Reading.behind] at push ended ⊢
      rw [ended, push, push, push]
      split
      · rfl
      · split
        · rfl
        · split
          · rfl
          · split <;> rfl
  | escaped =>
      simp only [step, Reading.behind]
      split <;> rfl
  | single =>
      simp only [step, Reading.behind]
      split <;> rfl
  | double =>
      simp only [step, Reading.behind]
      split
      · rfl
      · split <;> rfl
  | doubleEscaped =>
      simp only [step, Reading.behind]
      split
      · rfl
      · split <;> rfl

/-- The finished words do not matter for what is read behind them. -/
theorem feed_behind (front : List Text) (text : Text) :
    feed (reading.behind front) text = (feed reading text).behind front := by
  induction text generalizing reading with
  | nil => rfl
  | cons c text ih =>
      rw [feed_cons, feed_cons, step_behind]
      exact ih

theorem feed_between (front : List Text) (text : Text) :
    feed ⟨.plain, none, front⟩ text = (feed {} text).behind front := by
  have start : (⟨.plain, none, front⟩ : Reading) =
      Reading.behind front {} := by
    simp [Reading.behind]
  rw [start, feed_behind]

theorem feed_plain {text : Text} (plain : ∀ c ∈ text, Plain c) :
    feed ⟨.plain, some word, finished⟩ text =
      ⟨.plain, some (word ++ text), finished⟩ := by
  induction text generalizing word with
  | nil => rw [List.append_nil, feed_nil]
  | cons c text ih =>
      obtain ⟨blank, backslash, apostrophe, quote⟩ :=
        plain c List.mem_cons_self
      have here : step ⟨.plain, some word, finished⟩ c =
          ⟨.plain, some (word ++ [c]), finished⟩ := by
        simp [step, blank, backslash, apostrophe, quote, Reading.push]
      rw [feed_cons, here, ih fun d member =>
        plain d (List.mem_cons_of_mem c member), List.append_assoc]
      rfl

theorem feed_plain_start {text : Text} (nonempty : text ≠ [])
    (plain : ∀ c ∈ text, Plain c) :
    feed ⟨.plain, none, finished⟩ text =
      ⟨.plain, some text, finished⟩ := by
  cases text with
  | nil => exact (nonempty rfl).elim
  | cons c text =>
      obtain ⟨blank, backslash, apostrophe, quote⟩ :=
        plain c List.mem_cons_self
      have here : step ⟨.plain, none, finished⟩ c =
          ⟨.plain, some [c], finished⟩ := by
        simp [step, blank, backslash, apostrophe, quote, Reading.push]
      rw [feed_cons, here, feed_plain fun d member =>
        plain d (List.mem_cons_of_mem c member)]
      rfl

/-- Between double quotes other characters go to the word as they are. -/
theorem feed_double {text : Text} (quoted : ∀ c ∈ text, Quoted c) :
    feed ⟨.double, some word, finished⟩ text =
      ⟨.double, some (word ++ text), finished⟩ := by
  induction text generalizing word with
  | nil => rw [List.append_nil, feed_nil]
  | cons c text ih =>
      obtain ⟨quote, backslash⟩ := quoted c List.mem_cons_self
      have here : step ⟨.double, some word, finished⟩ c =
          ⟨.double, some (word ++ [c]), finished⟩ := by
        simp [step, quote, backslash, Reading.push]
      rw [feed_cons, here, ih fun d member =>
        quoted d (List.mem_cons_of_mem c member), List.append_assoc]
      rfl

theorem feed_quotes {text : Text} (quoted : ∀ c ∈ text, Quoted c) :
    feed ⟨.plain, none, finished⟩ ('"' :: (text ++ ['"'])) =
      ⟨.plain, some text, finished⟩ := by
  rw [feed_cons]
  change feed ⟨.double, some [], finished⟩ _ = _
  rw [feed_append, feed_double quoted]
  rfl

theorem Plain.quoted {c : Char} (plain : Plain c) : Quoted c :=
  ⟨plain.2.2.2, plain.2.1⟩

/-- The word behind the finished ones begins with the text. -/
inductive Begun (finished : List Text) (word : Text) : Reading → Prop where
  | reading (mode : Mode) (more : Text) :
      Begun finished word ⟨mode, some (word ++ more), finished⟩
  | finished (mode : Mode) (more : Text) (current : Option Text)
      (rest : List Text) :
      Begun finished word
        ⟨mode, current, finished ++ (word ++ more) :: rest⟩

theorem Begun.start (mode : Mode) :
    Begun finished word ⟨mode, some word, finished⟩ := by
  have begun : Begun finished word ⟨mode, some (word ++ []), finished⟩ :=
    .reading mode []
  rwa [List.append_nil] at begun

theorem Begun.push (begun : Begun finished word reading) (mode : Mode)
    (text : Text) : Begun finished word (reading.push mode text) := by
  cases begun with
  | reading old more =>
      have extended : (Reading.push ⟨old, some (word ++ more), finished⟩ mode
          text) = ⟨mode, some (word ++ (more ++ text)), finished⟩ := by
        simp [Reading.push]
      rw [extended]
      exact .reading mode (more ++ text)
  | finished old more current rest => exact .finished mode more _ rest

theorem Begun.endWord (begun : Begun finished word reading) :
    Begun finished word reading.endWord := by
  cases begun with
  | reading mode more => exact .finished mode more none []
  | finished mode more current rest =>
      have extended : (Reading.endWord ⟨mode, current,
          finished ++ (word ++ more) :: rest⟩) =
          ⟨mode, none,
            finished ++ (word ++ more) :: (rest ++ current.toList)⟩ := by
        simp [Reading.endWord]
      rw [extended]
      exact .finished mode more none _

theorem Begun.setMode (begun : Begun finished word reading) (mode : Mode) :
    Begun finished word { reading with mode := mode } := by
  cases begun with
  | reading old more => exact .reading mode more
  | finished old more current rest => exact .finished mode more current rest

theorem Begun.step (begun : Begun finished word reading) (c : Char) :
    Begun finished word (ShellWords.step reading c) := by
  unfold ShellWords.step
  split
  · split
    · exact begun.endWord
    · split
      · exact begun.setMode .escaped
      · split
        · exact begun.push .single []
        · split
          · exact begun.push .double []
          · exact begun.push .plain [c]
  · split
    · exact begun.setMode .plain
    · exact begun.push .plain [c]
  · split
    · exact begun.setMode .plain
    · exact begun.push .single [c]
  · split
    · exact begun.setMode .plain
    · split
      · exact begun.setMode .doubleEscaped
      · exact begun.push .double [c]
  · split
    · exact begun.setMode .double
    · split
      · exact begun.push .double [c]
      · exact begun.push .double ['\\', c]

theorem Begun.feed (begun : Begun finished word reading) (text : Text) :
    Begun finished word (ShellWords.feed reading text) := by
  induction text generalizing reading with
  | nil => exact begun
  | cons c text ih => exact ih (begun.step c)

theorem words_of_begun {front back : Text} {all : List Text}
    (begun : Begun finished word (feed {} front))
    (cut : words (front ++ back) = some all) :
    ∃ more rest, all = finished ++ (word ++ more) :: rest := by
  have last := begun.feed back
  unfold words at cut
  rw [feed_append] at cut
  generalize feed (feed {} front) back = reading at cut last
  simp only at cut
  split at cut
  · cases cut
    cases last with
    | reading mode more => exact ⟨more, [], rfl⟩
    | finished mode more current rest =>
        refine ⟨more, rest ++ current.toList, ?_⟩
        simp [Reading.endWord]
  · cases cut

end Rules

/-- The word behind the first one that is the flag. -/
def argument (flag : Text) : List Text → Option Text
  | word :: next :: rest =>
      if word = flag then some next else argument flag (next :: rest)
  | _ => none

theorem argument_of_first {flag next : Text} {front rest : List Text}
    (first : flag ∉ front) :
    argument flag (front ++ flag :: next :: rest) = some next := by
  induction front with
  | nil => exact if_pos rfl
  | cons word front ih =>
      have different : word ≠ flag := fun same =>
        first (same ▸ List.mem_cons_self)
      have there := ih fun member =>
        first (List.mem_cons_of_mem word member)
      cases front with
      | nil => exact (if_neg different).trans there
      | cons second front => exact (if_neg different).trans there

end ShellWords
