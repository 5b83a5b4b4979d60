import Mathlib.Data.List.DropRight
import RawImport.Lib.Search

/-!
# Messages of HTTP

The header section of a request as HTTP reads it: the lines behind the request
line and before the first empty line, each a name and a value, names compared
without letter case and values without the blanks around them.
-/

namespace Http

/-- The lines of a text, which `"\r\n"` separates. -/
def lines : List Char → List (List Char)
  | [] => [[]]
  | '\r' :: '\n' :: rest => [] :: lines rest
  | c :: rest =>
      match lines rest with
      | [] => [[c]]
      | line :: more => (c :: line) :: more

def isBlank (c : Char) : Bool :=
  c == ' ' || c == '\t'

def trim (text : List Char) : List Char :=
  (text.dropWhile isBlank).rdropWhile isBlank

def lower (text : List Char) : List Char :=
  text.map Char.toLower

structure Field where
  name : List Char
  value : List Char
  deriving DecidableEq, Repr

def field (line : List Char) : Option Field :=
  match line.dropWhile (· ≠ ':') with
  | [] => none
  | _ :: value => some ⟨line.takeWhile (· ≠ ':'), trim value⟩

def headerSection (message : List Char) : List (List Char) :=
  (lines message).takeWhile (· ≠ [])

/-- The header fields; the request line is none of them. -/
def fields (request : List Char) : List Field :=
  (headerSection request).tail.filterMap field

/-- The values of all fields of one name, in their order. -/
def values (name request : List Char) : List (List Char) :=
  ((fields request).filter fun f => lower f.name = lower name).map
    Field.value

def body (request : List Char) : List Char :=
  match Search.find "\r\n\r\n".toList request with
  | some index => request.drop (index + 4)
  | none => []

/-- A decimal number without anything around it. -/
def number (text : List Char) : Option Nat :=
  if text ≠ [] ∧ text.all Char.isDigit then
    some (Nat.ofDigitChars 10 text 0)
  else none

/-- The header section is complete and announces the length of what stands
behind it, in whatever letter case. -/
def Sized (request : List Char) : Prop :=
  Search.find "\r\n\r\n".toList request ≠ none ∧
    (values "Content-Length".toList request).map number =
      [some (body request).length]

instance (request : List Char) : Decidable (Sized request) :=
  inferInstanceAs (Decidable (_ ∧ _))

/-- The lines with their ends, the empty line and the body. -/
def assemble (headLines : List (List Char)) (body : List Char) : List Char :=
  headLines.flatMap (· ++ ['\r', '\n']) ++ '\r' :: '\n' :: body

def Clean (line : List Char) : Prop :=
  line ≠ [] ∧ '\r' ∉ line

theorem lines_append {line : List Char} (clean : '\r' ∉ line)
    (rest : List Char) :
    lines (line ++ '\r' :: '\n' :: rest) = line :: lines rest := by
  induction line with
  | nil => rfl
  | cons c line ih =>
      have other : c ≠ '\r' := by
        rintro rfl
        exact clean List.mem_cons_self
      have tail : '\r' ∉ line := fun member =>
        clean (List.mem_cons_of_mem c member)
      rw [List.cons_append, lines, ih tail]
      intro _ equal
      exact (other equal).elim

theorem headerSection_assemble {headLines : List (List Char)}
    (clean : ∀ line ∈ headLines, Clean line) (body : List Char) :
    headerSection (assemble headLines body) = headLines := by
  induction headLines with
  | nil => rfl
  | cons line rest ih =>
      have first := clean line List.mem_cons_self
      have others := ih fun line member =>
        clean line (List.mem_cons_of_mem _ member)
      unfold headerSection assemble at others ⊢
      rw [List.flatMap_cons, List.append_assoc, List.append_assoc]
      rw [List.cons_append, List.cons_append, List.nil_append,
        lines_append first.2, List.takeWhile_cons, others]
      simp [first.1]

theorem fields_assemble {start : List Char} {headers : List (List Char)}
    (clean : ∀ line ∈ start :: headers, Clean line) (body : List Char) :
    fields (assemble (start :: headers) body) = headers.filterMap field := by
  unfold fields
  rw [headerSection_assemble clean, List.tail_cons]

theorem values_filter_of_other (name : List Char)
    (headers : List (List Char))
    (other : ∀ line ∈ headers, ∀ f, field line = some f →
      lower f.name ≠ lower name) :
    ((headers.filterMap field).filter fun f => lower f.name = lower name) =
      [] := by
  apply List.filter_eq_nil_iff.mpr
  intro f member
  obtain ⟨line, here, parsed⟩ := List.mem_filterMap.mp member
  simp only [decide_eq_true_eq]
  exact other line here f parsed

theorem values_assemble {name start line : List Char} {f : Field}
    {before after : List (List Char)}
    (clean : ∀ line' ∈ start :: (before ++ line :: after), Clean line')
    (parsed : field line = some f) (named : lower f.name = lower name)
    (other : ∀ line' ∈ before ++ after, ∀ f, field line' = some f →
      lower f.name ≠ lower name)
    (body : List Char) :
    values name (assemble (start :: (before ++ line :: after)) body) =
      [f.value] := by
  have earlier := values_filter_of_other name before
    fun line' member => other line' (List.mem_append_left _ member)
  have later := values_filter_of_other name after
    fun line' member => other line' (List.mem_append_right _ member)
  unfold values
  rw [fields_assemble clean, List.filterMap_append, List.filterMap_cons,
    parsed, List.filter_append, earlier, List.nil_append]
  simp only [List.filter_cons, named, decide_true, if_true, later,
    List.map_cons, List.map_nil]

/-- A line with one blank behind the colon, and none around the value. -/
theorem field_of_name {name value : List Char} (plain : ':' ∉ name)
    (start : value.dropWhile isBlank = value)
    (ending : value.rdropWhile isBlank = value) :
    field (name ++ ':' :: ' ' :: value) = some ⟨name, value⟩ := by
  have noColon : ∀ c ∈ name, decide (c ≠ ':') = true := by
    intro c member
    apply decide_eq_true
    rintro rfl
    exact plain member
  have trimmed : trim (' ' :: value) = value := by
    unfold trim
    rw [List.dropWhile_cons_of_pos (by decide), start, ending]
  unfold field
  rw [List.dropWhile_append_of_pos noColon,
    List.takeWhile_append_of_pos noColon]
  simp [trimmed]

/-- The rest of the first line with the pattern, and the lines behind it. -/
def behind (pattern : List Char) :
    List (List Char) → Option (List (List Char))
  | [] => none
  | line :: more =>
      match Search.find pattern line with
      | some index => some (line.drop (index + pattern.length) :: more)
      | none => behind pattern more

theorem lines_ne_nil (text : List Char) : lines text ≠ [] := by
  fun_cases lines text <;> simp

theorem lines_cons {c : Char} {rest : List Char}
    (inside : ∀ others, c = '\r' → rest ≠ '\n' :: others) :
    ∃ line more, lines rest = line :: more ∧
      lines (c :: rest) = (c :: line) :: more := by
  obtain ⟨line, more, split⟩ := List.exists_cons_of_ne_nil (lines_ne_nil rest)
  refine ⟨line, more, split, ?_⟩
  rw [lines, split]
  exact inside

theorem find_nil {pattern : List Char} (nonempty : pattern ≠ []) :
    Search.find pattern [] = none :=
  if_neg nonempty

section Lines

variable {text line pattern : List Char} {more : List (List Char)}

theorem line_cons {c : Char} {rest : List Char}
    (split : lines (c :: rest) = line :: more) :
    (∃ others, c = '\r' ∧ rest = '\n' :: others ∧ line = []) ∨
      ∃ line', line = c :: line' ∧ lines rest = line' :: more := by
  by_cases ends : ∃ others, c = '\r' ∧ rest = '\n' :: others
  · obtain ⟨others, rfl, rfl⟩ := ends
    rw [lines] at split
    cases split
    exact .inl ⟨others, rfl, rfl, rfl⟩
  · have inside : ∀ others, c = '\r' → rest ≠ '\n' :: others :=
      fun others first second => ends ⟨others, first, second⟩
    obtain ⟨line', more', rest', whole⟩ := lines_cons inside
    rw [whole] at split
    cases split
    exact .inr ⟨line', rfl, rest'⟩

/-- A pattern without an end of a line leads the text when it leads its first
line. -/
theorem leads_line_iff (clear : '\r' ∉ pattern)
    (split : lines text = line :: more) :
    pattern <+: text ↔ pattern <+: line := by
  induction pattern generalizing text line with
  | nil => simp
  | cons d pattern ih =>
      cases text with
      | nil =>
          cases split
          exact Iff.rfl
      | cons c rest =>
          rcases line_cons split with ⟨others, rfl, rfl, rfl⟩ |
            ⟨line', rfl, split'⟩
          · simp only [List.cons_prefix_cons, List.prefix_nil,
              List.cons_ne_nil, iff_false, not_and]
            rintro rfl
            exact (clear List.mem_cons_self).elim
          · rw [List.cons_prefix_cons, List.cons_prefix_cons,
              ih (fun member => clear (List.mem_cons_of_mem d member)) split']

theorem lines_drop {count : Nat} (split : lines text = line :: more)
    (inside : count ≤ line.length) :
    lines (text.drop count) = line.drop count :: more := by
  induction count generalizing text line with
  | zero => exact split
  | succ count ih =>
      cases text with
      | nil =>
          cases split
          cases inside
      | cons c rest =>
          rcases line_cons split with ⟨others, rfl, rfl, rfl⟩ |
            ⟨line', rfl, split'⟩
          · cases inside
          · exact ih split' (Nat.le_of_succ_le_succ inside)

/-- Searching the text and searching its lines come to the same lines. -/
theorem find_lines (nonempty : pattern ≠ []) (clear : '\r' ∉ pattern)
    (clear' : '\n' ∉ pattern) (text : List Char) :
    (Search.find pattern text).map
        (fun index => lines (text.drop (index + pattern.length))) =
      behind pattern (lines text) := by
  have missed : ∀ {c : Char} {rest : List Char}, c ∉ pattern →
      ¬pattern <+: c :: rest := by
    intro c rest absent leads
    cases pattern with
    | nil => exact nonempty rfl
    | cons d pattern =>
        rw [List.cons_prefix_cons] at leads
        exact absent (leads.1 ▸ List.mem_cons_self)
  fun_induction lines text with
  | case1 => simp [behind, find_nil nonempty]
  | case2 rest ih =>
      rw [Search.find_cons (missed clear), Search.find_cons (missed clear'),
        behind, find_nil nonempty, ← ih]
      cases Search.find pattern rest with
      | none => rfl
      | some index =>
          simp only [Option.map_some, Option.some.injEq]
          rw [Nat.add_right_comm, Nat.add_right_comm _ 1]
          rfl
  | case3 c rest inside none => exact (lines_ne_nil rest none).elim
  | case4 c rest inside line more split ih =>
      have whole : lines (c :: rest) = (c :: line) :: more := by
        rw [lines, split]
        exact inside
      by_cases leads : pattern <+: c :: rest
      · have leadsLine := (leads_line_iff clear whole).mp leads
        rw [behind, Search.find_here leads, Search.find_here leadsLine]
        exact congrArg some (lines_drop whole (by
          rw [Nat.zero_add]
          exact leadsLine.length_le))
      · have passes : ¬pattern <+: c :: line := fun leadsLine =>
          leads ((leads_line_iff clear whole).mpr leadsLine)
        rw [split, behind] at ih
        rw [behind, Search.find_cons leads, Search.find_cons passes]
        cases found : Search.find pattern line with
        | none =>
            rw [found] at ih
            dsimp only at ih
            rw [Option.map_none]
            dsimp only
            rw [← ih]
            cases Search.find pattern rest with
            | none => rfl
            | some index =>
                simp only [Option.map_some, Option.some.injEq]
                rw [Nat.add_right_comm]
                rfl
        | some place =>
            rw [found] at ih
            dsimp only at ih
            rw [Option.map_some]
            dsimp only
            rw [Nat.add_right_comm, List.drop_succ_cons, ← ih]
            cases Search.find pattern rest with
            | none => rfl
            | some index =>
                simp only [Option.map_some, Option.some.injEq]
                rw [Nat.add_right_comm]
                rfl

/-- What stands before the first end of a line is the first line. -/
theorem lines_head (split : lines text = line :: more) :
    (match Search.find "\r\n".toList text with
      | none => text
      | some index => text.take index) = line := by
  have ending : "\r\n".toList = ['\r', '\n'] := by decide
  rw [ending]
  induction text generalizing line more with
  | nil =>
      cases split
      rfl
  | cons c rest ih =>
      rcases line_cons split with ⟨others, rfl, rfl, rfl⟩ |
        ⟨line', rfl, split'⟩
      · have here : Search.find ['\r', '\n'] ('\r' :: '\n' :: others) =
            some 0 := Search.find_here ⟨others, rfl⟩
        rw [here]
        rfl
      · have passes : ¬['\r', '\n'] <+: c :: rest := by
          rintro ⟨others, whole⟩
          have same : c :: rest = '\r' :: '\n' :: others := whole.symm
          rw [same, lines] at split
          cases split
        have before := ih split'
        rw [Search.find_cons passes]
        cases found : Search.find ['\r', '\n'] rest with
        | none =>
            rw [found] at before
            exact congrArg (c :: ·) before
        | some index =>
            rw [found] at before
            exact congrArg (c :: ·) before

end Lines

end Http
