import Mathlib.Data.List.Nodup
import RawImport.Api.JsonReading

/-!
# Reading a flat object

`json_get` against the grammar, over every flat object with string and integer
members: what it reads at a member's name, and when that is the member's value.
-/

namespace RawImport

namespace Api

open Cxx Search

/-! ## Flat objects -/

def isInteger (text : Text) : Bool :=
  Json.isNumeral text && text.all fun c => c.isDigit || c == '-'

inductive FlatValue where
  | string (literal : Json.Literal)
  | integer (numeral : { text : Text // isInteger text = true })

namespace FlatValue

theorem numeral_legal (numeral : { text : Text // isInteger text = true }) :
    Json.isNumeral numeral.val = true :=
  (Bool.and_eq_true_iff.mp numeral.property).1

def layout : FlatValue → Json.Layout
  | .string literal => .string literal
  | .integer numeral => .number ⟨numeral.val, numeral_legal numeral⟩

def content : FlatValue → Text
  | .string literal => literal.value
  | .integer numeral => numeral.val

end FlatValue

/-- A member; its name has no escapes. -/
structure FlatMember where
  before : Json.Blank
  name : List Json.Unescaped
  behind : Json.Blank
  colon : Json.Blank
  value : FlatValue
  after : Json.Blank

namespace FlatMember

def key (member : FlatMember) : Text := member.name.map Subtype.val

def toMember (member : FlatMember) : Json.Member where
  before := member.before
  name := member.name.map Json.Piece.plain
  behind := member.behind
  colon := member.colon
  value := member.value.layout
  after := member.after

end FlatMember

structure FlatLayout where
  before : Json.Blank
  blank : Json.Blank
  members : List FlatMember
  after : Json.Blank

namespace FlatLayout

def document (layout : FlatLayout) : Json.Document where
  before := layout.before
  layout := .objectOf layout.blank (layout.members.map FlatMember.toMember)
  after := layout.after

def text (layout : FlatLayout) : Text := layout.document.text

def named (layout : FlatLayout) (key : Text) : Option FlatMember :=
  layout.members.find? fun member => member.key = key

/-- Its value, and the empty string when there is none. -/
def get (layout : FlatLayout) (key : Text) : Text :=
  (layout.named key).elim [] fun member => member.value.content

/-- What stands in front of the member of a name. -/
def front (layout : FlatLayout) (key : Text) : Text :=
  layout.before.val ++ '\x7b' ::
    ((layout.members.takeWhile fun member => member.key ≠ key).map
      FlatMember.toMember).flatMap fun member => member.text ++ [',']

end FlatLayout

/-- A flat object in a string of the language. -/
structure FlatObject extends FlatLayout where
  distinct : (members.map FlatMember.key).Nodup
  fits : toFlatLayout.text.length < 2 ^ 64

theorem plain_raw (name : List Json.Unescaped) :
    Json.Literal.raw (name.map Json.Piece.plain) = name.map Subtype.val := by
  induction name with
  | nil => rfl
  | cons c name ih =>
      rw [List.map_cons, Json.Literal.raw_cons, ih]
      rfl

theorem FlatLayout.text_eq {layout : FlatLayout} {key : Text}
    {member : FlatMember} (named : layout.named key = some member) :
    member.key = key ∧ ∃ c rest, (c = ',' ∨ c = '\x7d') ∧
      layout.text = layout.front key ++ member.toMember.text ++ c :: rest := by
  obtain ⟨equal, front, back, split, others⟩ :=
    List.find?_eq_some_iff_append.mp named
  have same : member.key = key := of_decide_eq_true equal
  refine ⟨same, ?_⟩
  have before : layout.members.takeWhile (fun other => other.key ≠ key) =
      front := by
    have passed : ∀ other ∈ front, decide (other.key ≠ key) = true := by
      intro other inside
      have different := others other inside
      simpa using different
    rw [split, List.takeWhile_append_of_pos passed,
      List.takeWhile_cons_of_neg (by simp [same]), List.append_nil]
  have whole : layout.text = layout.front key ++ member.toMember.text ++
      ((back.map FlatMember.toMember).flatMap
        (fun other => ',' :: other.text) ++ ['\x7d'] ++
          layout.after.val) := by
    rw [FlatLayout.text, Json.Document.text, FlatLayout.document, split,
      List.map_append, List.map_cons, Json.Layout.text_objectOf,
      FlatLayout.front, before]
    simp only [List.append_assoc, List.cons_append]
  cases back with
  | nil => exact ⟨'\x7d', layout.after.val, .inr rfl, whole⟩
  | cons next back =>
      rw [List.map_cons, List.flatMap_cons, List.cons_append,
        List.cons_append, List.cons_append] at whole
      exact ⟨',', _, .inl rfl, whole⟩

/-! ## Behind the colon of a member -/

def FlatMember.tail (member : FlatMember) (rest : Text) : Text :=
  member.colon.val ++ member.value.layout.text ++ member.after.val ++ rest

/-- The colon is followed by spaces and tabs only, a string has no escapes, and
an integer is followed by its comma or brace or by a space. -/
def FlatMember.Plain (member : FlatMember) : Prop :=
  (∀ c ∈ member.colon.val, isSkipped c = true) ∧
    match member.value with
    | .string literal => literal.all Json.Piece.isPlain = true
    | .integer _ => ∀ c ∈ member.after.val.head?, c = ' '

/-- The colon is followed by line breaks and tabs up to a space, and they are
what the string stands for. -/
def FlatMember.Breaks (member : FlatMember) : Prop :=
  ∃ skipped first breaks more literal,
    member.colon.val = skipped ++ first :: (breaks ++ ' ' :: more) ∧
      (∀ c ∈ skipped, isSkipped c = true) ∧ isSkipped first = false ∧
      ' ' ∉ breaks ∧ member.value = .string literal ∧
      literal.value = first :: breaks

/-- An integer starts with a digit or a sign and has no other characters. -/
theorem integer_chars (numeral : { text : Text // isInteger text = true }) :
    ∃ first rest, numeral.val = first :: rest ∧
      ∀ c ∈ numeral.val, c.isDigit = true ∨ c = '-' := by
  have legal := FlatValue.numeral_legal numeral
  have chars := (Bool.and_eq_true_iff.mp numeral.property).2
  obtain ⟨first, rest, split⟩ := List.exists_cons_of_ne_nil
    (Json.numeral_ne_nil ⟨numeral.val, legal⟩)
  refine ⟨first, rest, split, ?_⟩
  intro c member
  have here := List.all_eq_true.mp chars c member
  simpa using here

theorem digit_ne {c : Char} (digit : c.isDigit = true ∨ c = '-')
    (other : Char) (different : other.isDigit = false ∧ other ≠ '-') : c ≠ other := by
  intro equal
  rw [equal] at digit
  rcases digit with digit | sign
  · rw [different.1] at digit
    cases digit
  · exact different.2 sign

theorem blank_isStop (blank : Json.Blank) {c : Char}
    (member : c ∈ blank.val) : isStop c = true ↔ c = ' ' := by
  have legal := List.all_eq_true.mp blank.property c member
  unfold Json.isBlank at legal
  unfold isStop
  simp only [Bool.or_eq_true, beq_iff_eq] at legal ⊢
  rcases legal with ((equal | equal) | equal) | equal <;> simp [equal]

theorem readBehind_integer
    (numeral : { text : Text // isInteger text = true })
    (after : Json.Blank) {c : Char} (stop : c = ',' ∨ c = '\x7d')
    (rest : Text) :
    readBehind (numeral.val ++ after.val ++ c :: rest) = numeral.val ↔
      ∀ d ∈ after.val.head?, d = ' ' := by
  obtain ⟨first, others, split, chars⟩ := integer_chars numeral
  have digit := chars first (by rw [split]; exact List.mem_cons_self)
  have read : readBehind (numeral.val ++ after.val ++ c :: rest) =
      numeral.val ++ (after.val ++ c :: rest).takeWhile (!isStop ·) := by
    have shown : ∀ d ∈ numeral.val, (!isStop d) = true := by
      intro d member
      have here := chars d member
      unfold isStop
      simp [digit_ne here ',' (by decide), digit_ne here '\x7d' (by decide),
        digit_ne here ' ' (by decide)]
    have bare : readBehind (numeral.val ++ after.val ++ c :: rest) =
        (numeral.val ++ after.val ++ c :: rest).takeWhile (!isStop ·) := by
      rw [split]
      simp only [List.cons_append]
      rw [readBehind_cons, readBare_cons]
      · exact digit_ne digit '"' (by decide)
      · unfold isSkipped
        simp [digit_ne digit ' ' (by decide),
          digit_ne digit '\t' (by decide)]
    rw [bare, List.append_assoc, List.takeWhile_append_of_pos shown]
  rw [read, List.append_right_eq_self]
  have delimiter : isStop c = true := by
    rcases stop with equal | equal
    · rw [equal]
      rfl
    · rw [equal]
      rfl
  cases blanks : after.val with
  | nil => simp [delimiter]
  | cons d more =>
      have stops := blank_isStop after (c := d)
        (by rw [blanks]; exact List.mem_cons_self)
      rw [List.cons_append]
      constructor
      · intro empty e head
        have equal : d = e := by simpa using head
        subst equal
        apply stops.mp
        cases holds : isStop d with
        | true => rfl
        | false => simp [holds] at empty
      · intro spaces
        have space := stops.mpr (spaces d rfl)
        rw [List.takeWhile_cons_of_neg (by simp [space])]

/-! A line break behind the colon. -/

theorem stop_mem_value {literal : Json.Literal} {c : Char}
    (member : c ∈ literal.raw) (stop : isStop c = true) :
    c ∈ literal.value := by
  apply Json.Literal.mem_value member
  unfold isStop at stop
  simp only [Bool.or_eq_true, beq_iff_eq] at stop
  rcases stop with (equal | equal) | equal <;> subst equal <;> decide

theorem broken_ne_value {breaks : Text} (nonempty : breaks ≠ [])
    (shown : ∀ c ∈ breaks, isStop c = false) (literal : Json.Literal)
    (rest : Text) :
    (breaks ++ (literal.text ++ rest)).takeWhile (!isStop ·) ≠
      literal.value := by
  intro equal
  have passed : ∀ c ∈ breaks, (!isStop c) = true := by
    intro c member
    rw [shown c member]
    rfl
  rw [List.takeWhile_append_of_pos passed, Json.Literal.text,
    List.cons_append, List.cons_append, List.append_assoc,
    List.takeWhile_cons_of_pos (by rfl)] at equal
  by_cases stop : ∃ c ∈ literal.raw, isStop c = true
  · -- the string holds the character at which the reading ends
    obtain ⟨c, member, ends⟩ := stop
    have inside := stop_mem_value member ends
    rw [← equal] at inside
    rcases List.mem_append.mp inside with front | behind
    · rw [shown c front] at ends
      cases ends
    · cases behind with
      | head => cases ends
      | tail _ later =>
          have other := List.mem_takeWhile_imp later
          rw [ends] at other
          cases other
  · -- more than the whole literal is read
    have all : ∀ c ∈ literal.raw, (!isStop c) = true := by
      intro c member
      cases holds : isStop c with
      | false => rfl
      | true => exact (stop ⟨c, member, holds⟩).elim
    rw [List.takeWhile_append_of_pos all] at equal
    have lengths := congrArg List.length equal
    have short := Json.Literal.length_value_le literal
    have some' := List.length_pos_of_ne_nil nonempty
    simp only [List.length_append, List.length_cons] at lengths
    omega

theorem readBehind_plain_iff {member : FlatMember}
    (skipped : ∀ c ∈ member.colon.val, isSkipped c = true) {c : Char}
    (stop : c = ',' ∨ c = '\x7d') (rest : Text) :
    readBehind (member.tail (c :: rest)) = member.value.content ↔
      member.Plain := by
  rw [FlatMember.tail, List.append_assoc, List.append_assoc,
    readBehind_append skipped]
  unfold FlatMember.Plain
  rw [← List.append_assoc]
  cases value : member.value with
  | string literal =>
      rw [FlatValue.layout, Json.Layout.text, FlatValue.content,
        List.append_assoc, readBehind_string, takeWhile_raw_iff]
      exact ⟨fun plain => ⟨skipped, plain⟩, fun plain => plain.2⟩
  | integer numeral =>
      rw [FlatValue.layout, Json.Layout.text, FlatValue.content]
      have read := readBehind_integer numeral member.after stop rest
      exact ⟨fun equal => ⟨skipped, read.mp equal⟩,
        fun plain => read.mpr plain.2⟩

theorem readBehind_line {member : FlatMember} {skipped tail : Text}
    {first : Char}
    (split : member.colon.val = skipped ++ first :: tail)
    (all : ∀ c ∈ skipped, isSkipped c = true)
    (clear : isSkipped first = false) (rest : Text) :
    (first = '\n' ∨ first = '\r') ∧
      (∀ c ∈ first :: tail, c ≠ ' ' → isStop c = false) ∧
      readBehind (member.tail rest) =
        (first :: tail ++ (member.value.layout.text ++
          (member.after.val ++ rest))).takeWhile (!isStop ·) := by
  have inColon : ∀ c ∈ first :: tail, c ∈ member.colon.val := by
    intro c inside
    rw [split]
    exact List.mem_append_right _ inside
  have line := break_of_not_skipped
    (inColon first List.mem_cons_self) clear
  refine ⟨line, ?_, ?_⟩
  · intro c inside other
    apply Bool.eq_false_iff.mpr
    intro stops
    exact other ((blank_isStop member.colon (inColon c inside)).mp stops)
  · rw [FlatMember.tail, split, List.append_assoc, List.append_assoc,
      List.append_assoc, readBehind_append all, List.cons_append,
      readBehind_cons clear, readBare_cons (line_ne line '"' (by decide))]

theorem takeWhile_line {breaks : Text}
    (shown : ∀ c ∈ breaks, isStop c = false) (more : Text) :
    (breaks ++ ' ' :: more).takeWhile (!isStop ·) = breaks := by
  have passed : ∀ c ∈ breaks, (!isStop c) = true := by
    intro c member
    rw [shown c member]
    rfl
  rw [List.takeWhile_append_of_pos passed,
    List.takeWhile_cons_of_neg (by decide), List.append_nil]

/-- The characters in front of the first space do not end the reading. -/
theorem lines_shown {first : Char} {lines more : Text}
    (firstOther : first ≠ ' ') (noSpace : ' ' ∉ lines)
    (shown : ∀ c ∈ first :: (lines ++ ' ' :: more), c ≠ ' ' →
      isStop c = false) :
    ∀ c ∈ first :: lines, isStop c = false := by
  intro c inside
  cases inside with
  | head => exact shown first List.mem_cons_self firstOther
  | tail _ later =>
      apply shown c
      · exact List.mem_cons_of_mem _ (List.mem_append_left _ later)
      · intro space
        exact noSpace (space ▸ later)

theorem readBehind_of_breaks {member : FlatMember} (breaks : member.Breaks)
    (rest : Text) :
    readBehind (member.tail rest) = member.value.content := by
  obtain ⟨skipped, first, lines, more, literal, split, all, clear, noSpace,
    value, equal⟩ := breaks
  obtain ⟨line, shown, read⟩ := readBehind_line split all clear rest
  rw [read, value, FlatValue.content, equal]
  rw [List.cons_append, List.append_assoc, List.cons_append,
    ← List.cons_append]
  exact takeWhile_line
    (lines_shown (line_ne line ' ' (by decide)) noSpace shown) _

/-- Only a string of line breaks is read right behind a line break. -/
theorem breaks_of_readBehind {member : FlatMember} {skipped tail : Text}
    {first : Char}
    (split : member.colon.val = skipped ++ first :: tail)
    (all : ∀ c ∈ skipped, isSkipped c = true)
    (clear : isSkipped first = false) {rest : Text}
    (equal : readBehind (member.tail rest) = member.value.content) :
    member.Breaks := by
  obtain ⟨line, shown, read⟩ := readBehind_line split all clear rest
  have firstShown := shown first List.mem_cons_self
    (line_ne line ' ' (by decide))
  rw [read] at equal
  cases value : member.value with
  | integer numeral =>
      obtain ⟨digit, others, numeralSplit, chars⟩ := integer_chars numeral
      rw [value, FlatValue.content, numeralSplit, List.cons_append,
        List.takeWhile_cons_of_pos (by rw [firstShown]; rfl)] at equal
      have isNumber := chars digit (by
        rw [numeralSplit]
        exact List.mem_cons_self)
      rw [← (List.cons.inj equal).1] at isNumber
      rcases line with break' | return'
      · exact (digit_ne isNumber '\n' (by decide) break').elim
      · exact (digit_ne isNumber '\r' (by decide) return').elim
  | string literal =>
      rw [value, FlatValue.content, FlatValue.layout, Json.Layout.text]
        at equal
      by_cases space : ' ' ∈ tail
      · obtain ⟨lines, more, tailSplit, noSpace⟩ :=
          List.eq_append_cons_of_mem space
        refine ⟨skipped, first, lines, more, literal, ?_, all, clear,
          noSpace, value, ?_⟩
        · rw [split, tailSplit]
        · rw [← equal, tailSplit, List.cons_append, List.append_assoc,
            List.cons_append, ← List.cons_append]
          rw [tailSplit] at shown
          exact takeWhile_line
            (lines_shown (line_ne line ' ' (by decide)) noSpace shown) _
      · exfalso
        apply broken_ne_value (List.cons_ne_nil first tail) _ literal _ equal
        intro c inside
        apply shown c inside
        intro isSpace
        subst isSpace
        cases inside with
        | head => exact line_ne line ' ' (by decide) rfl
        | tail _ later => exact space later

theorem readBehind_tail_iff (member : FlatMember) {c : Char}
    (stop : c = ',' ∨ c = '\x7d') (rest : Text) :
    readBehind (member.tail (c :: rest)) = member.value.content ↔
      member.Plain ∨ member.Breaks := by
  by_cases skipped : ∀ c ∈ member.colon.val, isSkipped c = true
  · rw [readBehind_plain_iff skipped stop]
    constructor
    · intro plain
      exact .inl plain
    · intro either
      rcases either with plain | breaks
      · exact plain
      · obtain ⟨front, first, tail, more, literal, split, -, clear, -⟩ :=
          breaks
        have holds := skipped first (by rw [split]; simp)
        rw [clear] at holds
        cases holds
  · constructor
    · intro equal
      right
      have rest' := List.takeWhile_append_dropWhile
        (p := isSkipped) (l := member.colon.val)
      cases behind : member.colon.val.dropWhile isSkipped with
      | nil =>
          exact absurd (List.dropWhile_eq_nil_iff.mp behind) skipped
      | cons first tail =>
          rw [behind] at rest'
          apply breaks_of_readBehind rest'.symm _ _ equal
          · intro d inside
            exact List.mem_takeWhile_imp inside
          · have head := List.head?_dropWhile_not isSkipped member.colon.val
            rw [behind] at head
            simpa using head
    · intro either
      rcases either with plain | breaks
      · exact absurd plain.1 skipped
      · exact readBehind_of_breaks breaks _

/-! ## The whole object -/

def FlatLayout.place (layout : FlatLayout) (key : Text)
    (member : FlatMember) : Nat :=
  (layout.front key).length + member.before.val.length

/-- When the first place of the pattern is the name of the member, the member
is written plainly; elsewhere the text shows the value by chance.  Without a
place there is nothing to read. -/
def FlatLayout.Readable (layout : FlatLayout) (key : Text) : Prop :=
  match find (Json.spelled key) layout.text, layout.named key with
  | none, none => True
  | none, some member => member.value.content = []
  | some place, none =>
      Shows (layout.text.drop (place + (Json.spelled key).length)) []
  | some place, some member =>
      if place = layout.place key member then member.Plain ∨ member.Breaks
      else
        Shows (layout.text.drop (place + (Json.spelled key).length))
          member.value.content

theorem FlatLayout.drop_place {layout : FlatLayout} {key : Text}
    {member : FlatMember} (named : layout.named key = some member)
    (stands : Json.spelled key <+:
      layout.text.drop (layout.place key member)) :
    ∃ c rest, (c = ',' ∨ c = '\x7d') ∧
      layout.text.drop (layout.place key member + (Json.spelled key).length) =
        member.tail (c :: rest) := by
  obtain ⟨same, c, rest, stop, split⟩ := layout.text_eq named
  refine ⟨c, rest, stop, ?_⟩
  have here : layout.text.drop (layout.place key member) =
      '"' :: (key ++ '"' :: (member.behind.val ++ ':' ::
        member.tail (c :: rest))) := by
    rw [FlatLayout.place, split, ← List.drop_drop, List.append_assoc,
      List.drop_left, Json.Member.text]
    simp only [FlatMember.toMember, List.append_assoc, List.drop_left,
      List.cons_append]
    rw [Json.Literal.text, plain_raw, ← same, FlatMember.key,
      FlatMember.tail]
    simp only [List.append_assoc, List.cons_append, List.nil_append]
  have empty : member.behind.val = [] := by
    rw [here, Json.spelled, List.cons_append, List.cons_prefix_cons] at stands
    have colon := (List.prefix_append_right_inj key).mp stands.2
    change '"' :: ':' :: [] <+: _ at colon
    have first := (List.cons_prefix_cons.mp colon).2
    cases blanks : member.behind.val with
    | nil => rfl
    | cons d more =>
        rw [blanks, List.cons_append] at first
        have equal := (List.cons_prefix_cons.mp first).1
        have legal := List.all_eq_true.mp member.behind.property d
          (by rw [blanks]; exact List.mem_cons_self)
        rw [← equal] at legal
        exact absurd legal (by decide)
  have split' : '"' :: (key ++ '"' :: ([] ++ ':' ::
      member.tail (c :: rest))) =
        Json.spelled key ++ member.tail (c :: rest) := by
    simp [Json.spelled]
  rw [← List.drop_drop, here, empty, split', List.drop_left]

/-- `json_get` returns the value of every key exactly when the key is
readable; `readable_ordinary_iff` reads that off the member's layout where the
pattern stands once. -/
theorem jsonGet_flat_iff (object : FlatObject) (key : Text) :
    jsonGet object.text key = .ok (object.get key) ↔
      object.Readable key := by
  rw [jsonGet_eq object.fits, Except.ok.injEq]
  unfold FlatLayout.Readable FlatLayout.get
  cases occurs : find (Json.spelled key) object.text with
  | none =>
      cases named : object.named key with
      | none => exact iff_of_true rfl trivial
      | some member => exact eq_comm
  | some place =>
      cases named : object.named key with
      | none => exact shows_iff.symm
      | some member =>
          rw [Option.elim_some, Option.elim_some]
          dsimp only
          by_cases here : place = object.place key member
          · obtain ⟨-, stands, -⟩ := find_eq_some_iff.mp occurs
            rw [here] at stands
            obtain ⟨c, rest, stop, behind⟩ :=
              FlatLayout.drop_place named stands
            rw [if_pos here, here, behind]
            exact readBehind_tail_iff member stop rest
          · rw [if_neg here]
            exact shows_iff.symm

/-! A space in front of the colon. -/

theorem space_legal : [' '].all Json.isBlank = true := rfl

theorem six_isInteger : isInteger ['6'] = true := by decide

def plainName (text : Text) : List Json.Unescaped :=
  text.filterMap fun c =>
    if legal : Json.isUnescaped c = true then some ⟨c, legal⟩ else none

def spacedLayout : FlatLayout where
  before := Json.noBlank
  blank := Json.noBlank
  members :=
    [{ before := Json.noBlank
       name := plainName "orientation".toList
       behind := ⟨[' '], space_legal⟩
       colon := ⟨[' '], space_legal⟩
       value := .integer ⟨['6'], six_isInteger⟩
       after := Json.noBlank }]
  after := Json.noBlank

theorem spaced_distinct :
    (spacedLayout.members.map FlatMember.key).Nodup := by
  decide +kernel

theorem spaced_text :
    spacedLayout.text = "\x7b\"orientation\" : 6\x7d".toList := by
  decide +kernel

theorem spaced_fits : spacedLayout.text.length < 2 ^ 64 := by
  rw [spaced_text]
  decide +kernel

def spacedObject : FlatObject where
  toFlatLayout := spacedLayout
  distinct := spaced_distinct
  fits := spaced_fits

/-- The body names an orientation, and nothing is read. -/
theorem jsonGet_spaced :
    spacedObject.get "orientation".toList = ['6'] ∧
      jsonGet spacedObject.text "orientation".toList = .ok [] := by
  decide +kernel

/-! ## Ordinary keys -/

theorem FlatMember.name_noQuote (member : FlatMember) :
    '"' ∉ member.toMember.name.raw := by
  apply Json.Literal.quote_not_mem_raw
  simp [FlatMember.toMember, Json.Piece.isPlain]

theorem FlatMember.silent {member : FlatMember} {key : Text}
    (other : ¬(member.key = key ∧ member.behind.val = [])) :
    member.toMember.Silent key := by
  refine ⟨⟨member.name_noQuote, ?_⟩, ?_⟩
  · intro both
    apply other
    refine ⟨?_, both.2⟩
    rw [← both.1, FlatMember.key]
    exact (plain_raw member.name).symm
  · change member.value.layout.Silent key
    cases member.value with
    | string literal => trivial
    | integer numeral => trivial

theorem FlatLayout.passed_front {layout : FlatLayout} {key : Text}
    (ordinary : Json.Ordinary key) (rest : Text) :
    Json.Passed key (layout.front key) rest := by
  unfold FlatLayout.front
  apply Json.Passed.append
  · exact Json.passed_blank layout.before _
  · apply Json.Passed.cons (by decide)
    apply Json.passed_members ordinary
    intro member inside
    obtain ⟨flat, listed, rfl⟩ := List.mem_map.mp inside
    apply flat.silent
    intro both
    have passed := List.mem_takeWhile_imp listed
    simp [both.1] at passed

theorem FlatLayout.find_eq_none {layout : FlatLayout} {key : Text}
    (ordinary : Json.Ordinary key)
    (others : ∀ member ∈ layout.members,
      ¬(member.key = key ∧ member.behind.val = [])) :
    find (Json.spelled key) layout.text = none := by
  apply Json.find_objectOf ordinary
  intro member inside
  obtain ⟨flat, listed, rfl⟩ := List.mem_map.mp inside
  exact flat.silent (others flat listed)

theorem FlatLayout.find_place {layout : FlatLayout} {key : Text}
    (ordinary : Json.Ordinary key) {member : FlatMember}
    (named : layout.named key = some member)
    (adjacent : member.behind.val = []) :
    find (Json.spelled key) layout.text =
      some (layout.place key member) := by
  obtain ⟨same, c, rest, -, split⟩ := layout.text_eq named
  rw [split, List.append_assoc, layout.passed_front ordinary]
  have text : member.toMember.text ++ c :: rest =
      member.before.val ++ (Json.spelled key ++ member.tail (c :: rest)) := by
    rw [Json.Member.text]
    simp only [FlatMember.toMember, Json.Literal.text, plain_raw, adjacent,
      FlatMember.tail, ← same, FlatMember.key, Json.spelled]
    simp
  rw [text, Json.passed_blank member.before,
    find_here (List.prefix_append _ _)]
  rfl

/-- For an ordinary key only the layout of the member matters: its colon stands
right behind the name and its value is plain, or its value is the empty
string. -/
theorem readable_ordinary_iff (object : FlatObject) {key : Text}
    (ordinary : Json.Ordinary key) :
    object.Readable key ↔
      ∀ member, object.named key = some member →
        (member.behind.val = [] ∧ (member.Plain ∨ member.Breaks)) ∨
          (member.behind.val ≠ [] ∧ member.value.content = []) := by
  unfold FlatLayout.Readable
  cases named : object.named key with
  | none =>
      have missing := List.find?_eq_none.mp named
      rw [object.find_eq_none ordinary]
      · simp
      · intro member inside both
        exact missing member inside (decide_eq_true both.1)
  | some member =>
      by_cases adjacent : member.behind.val = []
      · rw [object.find_place ordinary named adjacent]
        simp [adjacent]
      · have others : ∀ other ∈ object.members,
            ¬(other.key = key ∧ other.behind.val = []) := by
          intro other inside both
          have here := List.mem_of_find?_eq_some named
          have same : other = member := by
            apply List.inj_on_of_nodup_map object.distinct inside here
            rw [both.1]
            exact (object.text_eq named).1.symm
          exact adjacent (same ▸ both.2)
        rw [object.find_eq_none ordinary others]
        simp [adjacent]

end Api

end RawImport
