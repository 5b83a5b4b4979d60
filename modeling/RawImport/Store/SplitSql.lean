import RawImport.Lib.Cutting
import RawImport.Store.Migrations

/-!
# What `split_sql` returns

The quote and the escape of the loop form an automaton of their own.  It marks
the separating `;`, and the statements are the entries of the marked text: so
splitting undoes joining, and nothing but separators and blanks is lost.
-/

namespace RawImport

namespace Migrations

open Cutting Trim
open Cxx (isSpace)

/-- `quote` and `escaped` of `split_sql`. -/
structure Reading where
  quote : Option Char := none
  escaped : Bool := false
  deriving DecidableEq

def Reading.read (reading : Reading) (c : Char) : Reading :=
  if reading.escaped then { reading with escaped := false }
  else if c = '\\' then { reading with escaped := true }
  else
    match reading.quote with
    | some quote =>
        { reading with quote := if c = quote then none else some quote }
    | none =>
        if c = '\'' ∨ c = '"' ∨ c = '\x60' then
          { reading with quote := some c }
        else reading

/-- The characters of a text, each with whether it is a separator. -/
def marks (reading : Reading) : Text → List (Char × Bool)
  | [] => []
  | c :: rest =>
      (c, decide (reading = {} ∧ c = ';')) :: marks (reading.read c) rest

def Split.reading (split : Split) : Reading :=
  ⟨split.quote, split.escaped⟩

/-- One round of the loop: a separator ends the statement, anything else is
added to it. -/
theorem splitChar_eq (split : Split) (c : Char) :
    splitChar split c =
      if split.reading = {} ∧ c = ';' then split.endStatement
      else
        { out := split.out
          cur := split.cur ++ [c]
          quote := (split.reading.read c).quote
          escaped := (split.reading.read c).escaped } := by
  obtain ⟨out, cur, quote, escaped⟩ := split
  cases escaped with
  | true => simp [splitChar, Split.reading, Reading.read]
  | false =>
      by_cases escape : c = '\\'
      · simp [splitChar, Split.reading, Reading.read, escape]
      · cases quote with
        | some quote => simp [splitChar, Split.reading, Reading.read, escape]
        | none =>
            by_cases opening : c = '\'' ∨ c = '"' ∨ c = '\x60'
            · have other : c ≠ ';' := by
                rintro rfl
                exact absurd opening (by decide)
              simp [splitChar, Split.reading, Reading.read, escape, opening,
                other]
            · by_cases separator : c = ';'
              · simp [splitChar, Split.reading, separator]
              · simp [splitChar, Split.reading, Reading.read, escape, opening,
                  separator]

theorem endStatement_out (split : Split) :
    split.endStatement.out = split.out ++
      if Trim.trim isSpace split.cur = [] then []
      else [Trim.trim isSpace split.cur] := by
  have same : Trim.trim isSpace split.cur = trim split.cur := rfl
  unfold Split.endStatement
  by_cases empty : trim split.cur = [] <;> simp [same, empty]

theorem foldl_splitChar (sql : Text) (split : Split) :
    (sql.foldl splitChar split).endStatement.out =
      split.out ++ entriesFrom isSpace split.cur
        (marks split.reading sql) := by
  induction sql generalizing split with
  | nil =>
      rw [marks, entriesFrom_end]
      exact endStatement_out split
  | cons c sql ih =>
      rw [List.foldl_cons, ih, splitChar_eq, marks]
      by_cases separator : split.reading = {} ∧ c = ';'
      · have marked := decide_eq_true separator
        rw [if_pos separator, marked, entriesFrom_cons_true,
          ← List.append_assoc, ← endStatement_out, ← entriesFrom_nil]
        obtain ⟨start, rfl⟩ := separator
        have stays : split.reading.read ';' = split.reading := by
          rw [start]
          decide
        rw [stays]
        rfl
      · rw [if_neg separator]
        simp only [decide_eq_false separator]
        rw [entriesFrom_cons_false]
        rfl

theorem splitSql_eq_entries (sql : Text) :
    splitSql sql = entries isSpace (marks {} sql) := by
  have whole := foldl_splitChar sql {}
  rw [List.nil_append, entriesFrom_nil] at whole
  exact whole

theorem marks_append (reading : Reading) (text more : Text) :
    marks reading (text ++ more) =
      marks reading text ++ marks (text.foldl Reading.read reading) more := by
  induction text generalizing reading with
  | nil => rfl
  | cons c text ih => exact congrArg (List.cons _) (ih (reading.read c))

@[simp] theorem marks_fst (reading : Reading) (text : Text) :
    (marks reading text).map Prod.fst = text := by
  induction text generalizing reading with
  | nil => rfl
  | cons c text ih => exact congrArg (List.cons c) (ih (reading.read c))

theorem read_blank {c : Char} (blank : isSpace c = true) :
    Reading.read {} c = {} ∧ c ≠ ';' := by
  simp only [isSpace, Bool.or_eq_true, beq_iff_eq] at blank
  rcases blank with ((((rfl | rfl) | rfl) | rfl) | rfl) | rfl <;> decide

theorem marks_blanks {text : Text}
    (blanks : ∀ c ∈ text, isSpace c = true) :
    text.foldl Reading.read {} = {} ∧
      ∀ entry ∈ marks {} text, entry.2 = false := by
  induction text with
  | nil => exact ⟨rfl, by simp [marks]⟩
  | cons c text ih =>
      obtain ⟨here, rest⟩ := List.forall_mem_cons.mp blanks
      obtain ⟨stays, other⟩ := read_blank here
      obtain ⟨ends, unmarked⟩ := ih rest
      constructor
      · rw [List.foldl_cons, stays]
        exact ends
      · rw [marks, stays, List.forall_mem_cons]
        exact ⟨decide_eq_false fun both => other both.2, unmarked⟩

/-- A trimmed statement without a separator, whose quotes and escapes are
closed. -/
structure Closed (text : Text) : Prop where
  nonempty : text ≠ []
  trimmed : trim text = text
  unseparated : ∀ entry ∈ marks {} text, entry.2 = false
  ends : text.foldl Reading.read {} = {}

/-- A closed statement with blanks on both sides. -/
structure Padded where
  before : Text
  text : Text
  later : Text
  closed : Closed text
  blankBefore : ∀ c ∈ before, isSpace c = true
  blankLater : ∀ c ∈ later, isSpace c = true

def Padded.whole (padded : Padded) : Text :=
  padded.before ++ padded.text ++ padded.later

theorem Padded.marks_whole (padded : Padded) :
    padded.whole.foldl Reading.read {} = {} ∧
      ∀ entry ∈ marks {} padded.whole, entry.2 = false := by
  obtain ⟨startBefore, unmarkedBefore⟩ := marks_blanks padded.blankBefore
  obtain ⟨startLater, unmarkedLater⟩ := marks_blanks padded.blankLater
  have ends := padded.closed.ends
  constructor
  · rw [Padded.whole, List.foldl_append, List.foldl_append, startBefore, ends,
      startLater]
  · intro entry member
    rw [Padded.whole, marks_append, marks_append, List.foldl_append,
      startBefore, ends] at member
    rcases List.mem_append.mp member with front | later
    · rcases List.mem_append.mp front with before | text
      · exact unmarkedBefore entry before
      · exact padded.closed.unseparated entry text
    · exact unmarkedLater entry later

theorem Padded.trim_whole (padded : Padded) :
    Trim.trim isSpace padded.whole = padded.text :=
  (trim_padded padded.blankBefore padded.blankLater padded.text).trans
    padded.closed.trimmed

/-- The statements joined with `;`. -/
def join (statements : List Padded) : Text :=
  [';'].intercalate (statements.map Padded.whole)

theorem splitSql_join (statements : List Padded) :
    splitSql (join statements) = statements.map Padded.text := by
  rw [splitSql_eq_entries]
  induction statements with
  | nil => rfl
  | cons padded statements ih =>
      obtain ⟨ends, unmarked⟩ := padded.marks_whole
      have shown : Trim.trim isSpace padded.whole ≠ [] := by
        rw [padded.trim_whole]
        exact padded.closed.nonempty
      cases statements with
      | nil =>
          have alone : join [padded] = padded.whole ++ [] := by
            simp [join]
          rw [alone, marks_append, ← entriesFrom_nil,
            entriesFrom_append unmarked]
          rw [marks, List.nil_append, marks_fst, entriesFrom_end,
            if_neg shown, padded.trim_whole]
          rfl
      | cons next statements =>
          have joined : join (padded :: next :: statements) =
              padded.whole ++ ';' :: join (next :: statements) := by
            simp [join, List.intercalate_cons_cons]
          rw [joined, marks_append, ← entriesFrom_nil,
            entriesFrom_append unmarked, ends]
          have separated : marks {} (';' :: join (next :: statements)) =
              (';', true) :: marks {} (join (next :: statements)) := rfl
          rw [separated, List.nil_append, marks_fst, entriesFrom_cons_true,
            if_neg shown, padded.trim_whole, ih]
          rfl

/-- Splitting undoes joining, whatever blanks stand around the separators; and
of every text the statements keep all but separators and blanks, in order. -/
theorem splitSql_laws :
    (∀ statements : List Padded,
      splitSql (join statements) = statements.map Padded.text) ∧
    ∀ sql : Text,
      (splitSql sql).flatten.filter (fun c => !isSpace c) =
        (((marks {} sql).filter fun entry => !entry.2).map Prod.fst).filter
          fun c => !isSpace c := by
  constructor
  · exact splitSql_join
  · intro sql
    rw [splitSql_eq_entries]
    exact solid_entries _

/-- A separator between quotes, behind an escaped quote. -/
def quotedStatement : Padded where
  before := "\n".toList
  text := "INSERT INTO t VALUES ('it\\'s; new')".toList
  later := " ".toList
  closed :=
    { nonempty := by decide +kernel
      trimmed := by decide +kernel
      unseparated := by decide +kernel
      ends := by decide +kernel }
  blankBefore := Cxx.forall_of_all (by decide +kernel)
  blankLater := Cxx.forall_of_all (by decide +kernel)

example :
    splitSql (join [quotedStatement, quotedStatement]) =
      [quotedStatement.text, quotedStatement.text] := by
  decide +kernel

end Migrations

end RawImport
