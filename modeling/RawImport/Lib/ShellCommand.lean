import Mathlib.Data.List.Forall2
import RawImport.Lib.ShellWords

/-!
# Texts that are one simple command

Beside the words, what a POSIX shell would do with the rest of a command:
operators, expansions, patterns, comments, reserved words and assignments.  A
text without them is one command, and its words are what the quotes leave.
-/

namespace ShellWords

/-- Outside quotes an operator, the beginning of an expansion or of a pattern,
or the end of the command. -/
def isActive (c : Char) : Bool :=
  ['|', '&', ';', '<', '>', '(', ')', '$', '\x60', '*', '?', '[',
    '\n'].contains c

/-- At the beginning of a word a home directory or a comment. -/
def isLeading (c : Char) : Bool :=
  c == '~' || c == '#'

/-- The next character is nothing but text, a blank or a quote. -/
def Reading.inert (reading : Reading) (c : Char) : Bool :=
  match reading.mode with
  | .plain => !isActive c && (reading.word.isSome || !isLeading c)
  | .double => !(c == '$' || c == '\x60')
  | _ => true

def inert : Reading → Text → Bool
  | _, [] => true
  | reading, c :: text => reading.inert c && inert (step reading c) text

def reserved : List Text :=
  ["!", "\x7b", "\x7d", "case", "do", "done", "elif", "else", "esac", "fi",
    "for", "if", "in", "then", "until", "while"].map String.toList

def isNameChar (c : Char) : Bool :=
  c.isAlphanum || c == '_'

/-- `name=value`. -/
def isAssignment (word : Text) : Bool :=
  let name := word.takeWhile isNameChar
  (name.head?.any fun c => !c.isDigit) &&
    (word.drop name.length).head? == some '='

/-- The words name a command; a quoted reserved word is left out as well. -/
def isCommand : List Text → Bool
  | [] => false
  | name :: _ => !reserved.contains name && !isAssignment name

/-- The words of a text that is one simple command without expansions. -/
def simpleCommand (command : Text) : Option (List Text) :=
  if inert {} command then (words command).filter isCommand else none

/-- A character that stands for itself everywhere in a word. -/
def Bare (c : Char) : Prop :=
  Plain c ∧ isActive c = false

instance (c : Char) : Decidable (Bare c) :=
  inferInstanceAs (Decidable (_ ∧ _))

/-- A text that needs no quotes to be a word. -/
structure Bareword (text : Text) : Prop where
  nonempty : text ≠ []
  bare : ∀ c ∈ text, Bare c
  leading : ∀ c ∈ text.head?, isLeading c = false

theorem bareword_iff {text : Text} : Bareword text ↔
    (text ≠ [] ∧ (text.all fun c => decide (Bare c)) = true ∧
      (text.head?.all fun c => !isLeading c) = true) := by
  constructor
  · intro bareword
    obtain ⟨nonempty, bare, leading⟩ := bareword
    refine ⟨nonempty, ?_, ?_⟩
    · rw [List.all_eq_true]
      intro c member
      exact decide_eq_true (bare c member)
    · rw [Option.all_eq_true]
      intro c first
      rw [leading c first]
      rfl
  · intro checks
    obtain ⟨nonempty, bare, leading⟩ := checks
    rw [List.all_eq_true] at bare
    rw [Option.all_eq_true] at leading
    refine ⟨nonempty, ?_, ?_⟩
    · intro c member
      exact of_decide_eq_true (bare c member)
    · intro c first
      simpa using leading c first

instance (text : Text) : Decidable (Bareword text) :=
  decidable_of_iff _ bareword_iff.symm

/-- A word that the shell takes for the name of a command. -/
structure CommandName (name : Text) : Prop where
  bareword : Bareword name
  unreserved : reserved.contains name = false
  unassigned : isAssignment name = false

/-- The text leads from one reading to another and is inert on the way. -/
structure Reads (reading : Reading) (text : Text) (after : Reading) :
    Prop where
  inert : inert reading text = true
  reached : feed reading text = after

def Denotes (text word : Text) : Prop :=
  ∀ finished, Reads ⟨.plain, none, finished⟩ text
    ⟨.plain, some word, finished⟩

/-- A name and its arguments, with a blank before each. -/
def commandLine (name : Text) (arguments : List Text) : Text :=
  name ++ arguments.flatMap fun argument => ' ' :: argument

section Rules

variable {reading middle after : Reading} {first second text word : Text}
  {finished : List Text}

theorem inert_append :
    inert reading (first ++ second) =
      (inert reading first && inert (feed reading first) second) := by
  induction first generalizing reading with
  | nil => rfl
  | cons c first ih =>
      rw [List.cons_append, inert, inert, ih, feed_cons, Bool.and_assoc]

theorem Reads.nil : Reads reading [] reading :=
  ⟨rfl, rfl⟩

theorem Reads.append (front : Reads reading first middle)
    (back : Reads middle second after) :
    Reads reading (first ++ second) after := by
  constructor
  · rw [inert_append, front.inert, front.reached, back.inert]
    rfl
  · rw [feed_append, front.reached, back.reached]

theorem reads_bare (bare : ∀ c ∈ text, Bare c) :
    Reads ⟨.plain, some word, finished⟩ text
      ⟨.plain, some (word ++ text), finished⟩ := by
  constructor
  · induction text generalizing word with
    | nil => rfl
    | cons c text ih =>
        have plain : ∀ d ∈ [c], Plain d := by
          intro d member
          rw [List.mem_singleton.mp member]
          exact (bare c List.mem_cons_self).1
        have here : step ⟨.plain, some word, finished⟩ c =
            ⟨.plain, some (word ++ [c]), finished⟩ := feed_plain plain
        have passive : Reading.inert ⟨.plain, some word, finished⟩ c =
            true := by
          simp [Reading.inert, (bare c List.mem_cons_self).2]
        rw [inert, passive, here, Bool.true_and]
        exact ih fun d member => bare d (List.mem_cons_of_mem c member)
  · exact feed_plain fun c member => (bare c member).1

theorem Bareword.denotes (bareword : Bareword text) :
    Denotes text text := by
  intro finished
  obtain ⟨nonempty, bare, leading⟩ := bareword
  refine ⟨?_, feed_plain_start nonempty fun c member => (bare c member).1⟩
  cases text with
  | nil => exact (nonempty rfl).elim
  | cons c text =>
      have plain : ∀ d ∈ [c], Plain d := by
        intro d member
        rw [List.mem_singleton.mp member]
        exact (bare c List.mem_cons_self).1
      have here : step ⟨.plain, none, finished⟩ c =
          ⟨.plain, some [c], finished⟩ :=
        feed_plain_start (List.cons_ne_nil c []) plain
      have passive : Reading.inert ⟨.plain, none, finished⟩ c = true := by
        simp [Reading.inert, (bare c List.mem_cons_self).2, leading c rfl]
      rw [inert, passive, here, Bool.true_and]
      exact (reads_bare fun d member =>
        bare d (List.mem_cons_of_mem c member)).inert

/-- Between single quotes every other character goes to the word. -/
theorem reads_single {c : Char} (other : c ≠ '\'') :
    Reads ⟨.single, some word, finished⟩ [c]
      ⟨.single, some (word ++ [c]), finished⟩ := by
  refine ⟨rfl, ?_⟩
  simp [feed, step, other, Reading.push]

theorem Denotes.reads {argument : Text} (denotes : Denotes text argument) :
    Reads ⟨.plain, some word, finished⟩ (' ' :: text)
      ⟨.plain, some argument, finished ++ [word]⟩ := by
  have blank : Reads ⟨.plain, some word, finished⟩ [' ']
      ⟨.plain, none, finished ++ [word]⟩ := ⟨rfl, rfl⟩
  exact blank.append (denotes _)

theorem reads_arguments {arguments words : List Text}
    (denotes : List.Forall₂ Denotes arguments words) (word : Text)
    (finished : List Text) :
    ∃ last front,
      Reads ⟨.plain, some word, finished⟩
        (arguments.flatMap fun argument => ' ' :: argument)
        ⟨.plain, some last, front⟩ ∧
      front ++ [last] = finished ++ word :: words := by
  induction denotes generalizing word finished with
  | nil => exact ⟨word, finished, .nil, rfl⟩
  | @cons argument next arguments words here later ih =>
      obtain ⟨last, front, reads, together⟩ :=
        ih next (finished ++ [word])
      refine ⟨last, front, here.reads.append reads, ?_⟩
      rw [together, List.append_assoc]
      rfl

theorem CommandName.isCommand {name : Text} (named : CommandName name)
    (words : List Text) : isCommand (name :: words) = true := by
  rw [ShellWords.isCommand, named.unreserved, named.unassigned]
  rfl

theorem simpleCommand_eq_some_iff {all : List Text} :
    simpleCommand text = some all ↔
      (inert {} text = true ∧ (feed {} text).mode = .plain ∧
        (feed {} text).endWord.words = all) ∧ isCommand all = true := by
  unfold simpleCommand words
  constructor
  · intro result
    obtain ⟨passive, result⟩ := Option.ite_none_right_eq_some.mp result
    obtain ⟨result, named⟩ := Option.filter_eq_some_iff.mp result
    obtain ⟨closed, result⟩ := Option.ite_none_right_eq_some.mp result
    exact ⟨⟨passive, closed, Option.some.inj result⟩, named⟩
  · intro both
    obtain ⟨⟨passive, closed, cut⟩, named⟩ := both
    rw [if_pos passive, if_pos closed, cut]
    exact Option.filter_eq_some_iff.mpr ⟨rfl, named⟩

/-- The words of a command line are what its parts are read as. -/
theorem simpleCommand_commandLine {name : Text}
    {arguments words : List Text} (named : CommandName name)
    (denotes : List.Forall₂ Denotes arguments words) :
    simpleCommand (commandLine name arguments) = some (name :: words) := by
  obtain ⟨last, front, reads, together⟩ :=
    reads_arguments denotes name []
  have whole : Reads {} (commandLine name arguments)
      ⟨.plain, some last, front⟩ :=
    (named.bareword.denotes []).append reads
  rw [List.nil_append] at together
  rw [simpleCommand_eq_some_iff, whole.reached]
  exact ⟨⟨whole.inert, rfl, together⟩, named.isCommand words⟩

theorem reads_commandLine {name : Text} {arguments words : List Text}
    (named : CommandName name)
    (denotes : List.Forall₂ Denotes arguments words) :
    Reads {} (commandLine name arguments ++ [' '])
      ⟨.plain, none, name :: words⟩ := by
  obtain ⟨last, front, reads, together⟩ :=
    reads_arguments denotes name []
  have blank : Reads ⟨.plain, some last, front⟩ [' ']
      ⟨.plain, none, front ++ [last]⟩ := ⟨rfl, rfl⟩
  rw [List.nil_append] at together
  rw [together] at blank
  exact ((named.bareword.denotes []).append reads).append blank

/-- How much text has been read: quotes and blanks leave nothing. -/
def Reading.size (reading : Reading) : Nat :=
  reading.words.flatten.length + (reading.word.getD []).length +
    if reading.mode = .doubleEscaped then 1 else 0

theorem size_push (mode : Mode) (ordinary : mode ≠ .doubleEscaped) :
    (reading.push mode text).size =
      reading.words.flatten.length + (reading.word.getD []).length +
        text.length := by
  simp [Reading.size, Reading.push, ordinary, Nat.add_assoc]

theorem size_endWord (plain : reading.mode = .plain) :
    reading.endWord.size = reading.size := by
  cases word : reading.word with
  | none => simp [Reading.size, Reading.endWord, plain, word]
  | some text => simp [Reading.size, Reading.endWord, plain, word]

theorem step_plain {c : Char} (mode : reading.mode = .plain)
    (plain : Plain c) : step reading c = reading.push .plain [c] := by
  obtain ⟨blank, backslash, apostrophe, quote⟩ := plain
  simp [step, mode, blank, backslash, apostrophe, quote]

theorem plain_of_size_lt {c : Char} (mode : reading.mode = .plain)
    (grows : reading.size < (step reading c).size) : Plain c := by
  by_contra special
  have same : (step reading c).size = reading.size := by
    unfold step
    rw [mode]
    dsimp only
    split
    · exact size_endWord mode
    · split
      · simp [Reading.size, mode]
      · split
        · rw [size_push .single (by decide)]
          simp [Reading.size, mode]
        · split
          · rw [size_push .double (by decide)]
            simp [Reading.size, mode]
          · rename_i blank backslash apostrophe quote
            exact absurd ⟨Bool.eq_false_iff.mpr blank, backslash,
              apostrophe, quote⟩ special
  omega

theorem size_step (reading : Reading) (c : Char) :
    (step reading c).size ≤ reading.size + 1 := by
  have pushed : ∀ mode : Mode, mode ≠ .doubleEscaped → ∀ text : Text,
      text.length ≤ 1 →
        (reading.push mode text).size ≤ reading.size + 1 := by
    intro mode ordinary text short
    rw [size_push mode ordinary, Reading.size]
    omega
  have moved : ∀ mode : Mode, ({ reading with mode := mode } : Reading).size ≤
      reading.size + 1 := by
    intro mode
    simp only [Reading.size]
    split <;> omega
  cases mode : reading.mode with
  | plain =>
      by_cases plain : Plain c
      · rw [step_plain mode plain]
        exact pushed .plain (by decide) [c] (Nat.le_refl 1)
      · have still : ¬ reading.size < (step reading c).size :=
          fun grows => plain (plain_of_size_lt mode grows)
        omega
  | escaped =>
      unfold step
      rw [mode]
      dsimp only
      split
      · exact moved .plain
      · exact pushed .plain (by decide) [c] (Nat.le_refl 1)
  | single =>
      unfold step
      rw [mode]
      dsimp only
      split
      · exact moved .plain
      · exact pushed .single (by decide) [c] (Nat.le_refl 1)
  | double =>
      unfold step
      rw [mode]
      dsimp only
      split
      · exact moved .plain
      · split
        · exact moved .doubleEscaped
        · exact pushed .double (by decide) [c] (Nat.le_refl 1)
  | doubleEscaped =>
      unfold step
      rw [mode]
      dsimp only
      split
      · exact moved .double
      · split
        · exact pushed .double (by decide) [c] (Nat.le_refl 1)
        · -- the backslash has been counted with the mode
          rw [size_push .double (by decide), Reading.size, mode]
          exact Nat.le_refl _

theorem size_feed (reading : Reading) (text : Text) :
    (feed reading text).size ≤ reading.size + text.length := by
  induction text generalizing reading with
  | nil => exact Nat.le_refl _
  | cons c text ih =>
      have first := size_step reading c
      have rest := ih (step reading c)
      rw [feed_cons, List.length_cons]
      omega

theorem plain_of_size (mode : reading.mode = .plain)
    (whole : (feed reading text).size = reading.size + text.length) :
    ∀ c ∈ text, Plain c := by
  induction text generalizing reading with
  | nil =>
      intro c member
      cases member
  | cons c text ih =>
      have first := size_step reading c
      have rest := size_feed (step reading c) text
      rw [feed_cons, List.length_cons] at whole
      have plain : Plain c := plain_of_size_lt mode (by omega)
      have later := @ih (step reading c)
        (by rw [step_plain mode plain]; rfl) (by omega)
      intro d member
      cases member with
      | head => exact plain
      | tail _ member => exact later d member

theorem passive_of_inert (mode : reading.mode = .plain)
    (plain : ∀ c ∈ text, Plain c) (passive : inert reading text = true) :
    ∀ c ∈ text, isActive c = false := by
  induction text generalizing reading with
  | nil =>
      intro c member
      cases member
  | cons c text ih =>
      rw [inert, Bool.and_eq_true] at passive
      obtain ⟨here, rest⟩ := passive
      have first := plain c List.mem_cons_self
      have later := @ih (step reading c)
        (by rw [step_plain mode first]; rfl)
        (fun d member => plain d (List.mem_cons_of_mem c member)) rest
      rw [Reading.inert, mode] at here
      dsimp only at here
      rw [Bool.and_eq_true, Bool.not_eq_true'] at here
      intro d member
      cases member with
      | head => exact here.1
      | tail _ member => exact later d member

theorem endWord_eq {all : List Text} (closed : reading.mode = .plain)
    (same : reading.endWord.words = all) :
    reading.endWord = ⟨.plain, none, all⟩ := by
  obtain ⟨mode, word, words⟩ := reading
  cases closed
  cases same
  rfl

theorem bareword_of_words
    (passive : inert ⟨.plain, none, finished⟩ text = true)
    (closed : (feed ⟨.plain, none, finished⟩ text).mode = .plain)
    (same : (feed ⟨.plain, none, finished⟩ text).endWord.words =
      finished ++ [text]) : Bareword text := by
  have size : (feed ⟨.plain, none, finished⟩ text).size =
      (⟨.plain, none, finished⟩ : Reading).size + text.length := by
    rw [← size_endWord closed, endWord_eq closed same]
    simp [Reading.size]
  have plain : ∀ c ∈ text, Plain c := plain_of_size rfl size
  have bare := passive_of_inert rfl plain passive
  constructor
  · intro empty
    rw [empty] at same
    have lengths := congrArg List.length same
    simp [Reading.endWord] at lengths
  · intro c member
    exact ⟨plain c member, bare c member⟩
  · intro c first
    cases text with
    | nil => cases first
    | cons d text =>
        cases first
        rw [inert, Bool.and_eq_true] at passive
        have here := passive.1
        simp only [Reading.inert] at here
        rw [Bool.and_eq_true] at here
        simpa using here.2

/-- A text behind a finished front is the last word of the command, exactly
when it needs no quotes. -/
theorem simpleCommand_append_iff {front : Text}
    (reads : Reads {} front ⟨.plain, none, finished⟩)
    (named : isCommand (finished ++ [text]) = true) :
    simpleCommand (front ++ text) = some (finished ++ [text]) ↔
      Bareword text := by
  rw [simpleCommand_eq_some_iff, inert_append, feed_append, reads.inert,
    reads.reached, Bool.true_and]
  constructor
  · intro command
    obtain ⟨⟨passive, closed, same⟩, -⟩ := command
    exact bareword_of_words passive closed same
  · intro bareword
    obtain ⟨passive, reached⟩ := bareword.denotes finished
    rw [reached]
    exact ⟨⟨passive, rfl, rfl⟩, named⟩

end Rules

end ShellWords
