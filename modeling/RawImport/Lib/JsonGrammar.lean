import Mathlib.Data.List.TakeWhile
import Mathlib.Tactic.Common
import RawImport.Lib.Numeral

/-!
# The JSON grammar

Concrete syntax trees of RFC 8259: one constructor or field for everything the
grammar lets a writer choose, so that a tree stands for exactly one text.  A
text is a list of characters, one for each byte, and a number keeps its literal.
-/

namespace Json

abbrev Text := List Char

def isBlank (c : Char) : Bool :=
  c == ' ' || c == '\t' || c == '\n' || c == '\r'

/-- What a string may contain without an escape. -/
def isUnescaped (c : Char) : Bool :=
  0x20 ≤ c.toNat && c != '"' && c != '\\'

def isEscape (c : Char) : Bool :=
  ['"', '\\', '/', 'b', 'f', 'n', 'r', 't'].contains c

def isHexDigit (c : Char) : Bool :=
  c.isDigit || ('a' ≤ c && c ≤ 'f') || ('A' ≤ c && c ≤ 'F')

def isNumeralChar (c : Char) : Bool :=
  c.isDigit || c == '-' || c == '+' || c == '.' || c == 'e' || c == 'E'

abbrev Blank := { text : Text // text.all isBlank = true }

abbrev Unescaped := { c : Char // isUnescaped c = true }

abbrev Escape := { c : Char // isEscape c = true }

abbrev HexDigit := { c : Char // isHexDigit c = true }

theorem noBlank_legal : ([] : Text).all isBlank = true := rfl

def noBlank : Blank := ⟨[], noBlank_legal⟩

/-! ## Numbers -/

/-- `exp` or nothing. -/
def isExponent : Text → Bool
  | [] => true
  | letter :: rest =>
      let digits :=
        match rest with
        | '-' :: digits => digits
        | '+' :: digits => digits
        | digits => digits
      (letter == 'e' || letter == 'E') && digits != [] &&
        digits.all Char.isDigit

/-- `[ frac ] [ exp ]`. -/
def isFraction : Text → Bool
  | '.' :: rest =>
      rest.takeWhile Char.isDigit != [] &&
        isExponent (rest.dropWhile Char.isDigit)
  | rest => isExponent rest

/-- `int`. -/
def isWhole : Text → Bool
  | [] => false
  | first :: rest => first != '0' || rest == []

/-- `int [ frac ] [ exp ]`. -/
def isMagnitude (text : Text) : Bool :=
  isWhole (text.takeWhile Char.isDigit) &&
    isFraction (text.dropWhile Char.isDigit)

/-- `[ minus ] int [ frac ] [ exp ]`. -/
def isNumeral : Text → Bool
  | '-' :: rest => isMagnitude rest
  | rest => isMagnitude rest

abbrev Numeral := { text : Text // isNumeral text = true }

/-! ## Strings -/

/-- One character of a string as it is written. -/
inductive Piece where
  | plain (c : Unescaped)
  | escape (c : Escape)
  | unicode (first second third fourth : HexDigit)

abbrev Literal := List Piece

namespace Piece

def raw : Piece → Text
  | .plain c => [c.val]
  | .escape c => ['\\', c.val]
  | .unicode a b c d => ['\\', 'u', a.val, b.val, c.val, d.val]

end Piece

def hexValue (c : Char) : Nat :=
  if c.isDigit then c.toNat - '0'.toNat
  else if 'a' ≤ c then c.toNat - 'a'.toNat + 10
  else c.toNat - 'A'.toNat + 10

/-- The character a two-character escape stands for. -/
def escaped (c : Char) : Char :=
  if c = 'b' then '\x08'
  else if c = 'f' then '\x0c'
  else if c = 'n' then '\n'
  else if c = 'r' then '\r'
  else if c = 't' then '\t'
  else c

def utf8 (code : Nat) : Text :=
  if code < 0x80 then [Char.ofNat code]
  else if code < 0x800 then
    [Char.ofNat (0xc0 + code / 64), Char.ofNat (0x80 + code % 64)]
  else if code < 0x10000 then
    [Char.ofNat (0xe0 + code / 4096), Char.ofNat (0x80 + code / 64 % 64),
      Char.ofNat (0x80 + code % 64)]
  else
    [Char.ofNat (0xf0 + code / 262144), Char.ofNat (0x80 + code / 4096 % 64),
      Char.ofNat (0x80 + code / 64 % 64), Char.ofNat (0x80 + code % 64)]

def codeUnit (a b c d : HexDigit) : Nat :=
  hexValue a.val * 4096 + hexValue b.val * 256 + hexValue c.val * 16 +
    hexValue d.val

def isHighSurrogate (unit : Nat) : Bool := 0xd800 ≤ unit && unit < 0xdc00

def isLowSurrogate (unit : Nat) : Bool := 0xdc00 ≤ unit && unit < 0xe000

def surrogatePair (high low : Nat) : Nat :=
  0x10000 + (high - 0xd800) * 1024 + (low - 0xdc00)

namespace Literal

def raw (literal : Literal) : Text := literal.flatMap Piece.raw

def text (literal : Literal) : Text := '"' :: literal.raw ++ ['"']

/-- One code unit behind a pending high surrogate: the bytes that are known by
then, and the high surrogate that waits for its other half. -/
def decodeUnit : Option Nat → Nat → Text × Option Nat
  | some high, unit =>
      if isLowSurrogate unit then (utf8 (surrogatePair high unit), none)
      else if isHighSurrogate unit then (utf8 high, some unit)
      else (utf8 high ++ utf8 unit, none)
  | none, unit =>
      if isHighSurrogate unit then ([], some unit) else (utf8 unit, none)

def decodePiece (high : Option Nat) : Piece → Text × Option Nat
  | .plain c => (high.elim [] utf8 ++ [c.val], none)
  | .escape c => (high.elim [] utf8 ++ [escaped c.val], none)
  | .unicode a b c d => decodeUnit high (codeUnit a b c d)

def decodeFrom : Option Nat → Literal → Text
  | high, [] => high.elim [] utf8
  | high, piece :: rest =>
      (decodePiece high piece).1 ++ decodeFrom (decodePiece high piece).2 rest

/-- The string; two escapes of a surrogate pair are one character. -/
def value (literal : Literal) : Text := decodeFrom none literal

end Literal

/-! ## Values and their layouts -/

inductive Value where
  | null
  | bool (value : Bool)
  | number (literal : Text)
  | string (value : Text)
  | array (elements : List Value)
  | object (members : List (Text × Value))

mutual

inductive Layout where
  | null
  | bool (value : Bool)
  | number (numeral : Numeral)
  | string (literal : Literal)
  | emptyArray (blank : Blank)
  | array (elements : Elements)
  | emptyObject (blank : Blank)
  | object (members : Members)

inductive Elements where
  | last (before : Blank) (value : Layout) (after : Blank)
  | cons (before : Blank) (value : Layout) (after : Blank)
      (rest : Elements)

inductive Members where
  | last (before : Blank) (name : Literal) (behind : Blank)
      (colon : Blank) (value : Layout) (after : Blank)
  | cons (before : Blank) (name : Literal) (behind : Blank)
      (colon : Blank) (value : Layout) (after : Blank) (rest : Members)

end

mutual

def Layout.text : Layout → Text
  | .null => "null".toList
  | .bool value => if value then "true".toList else "false".toList
  | .number numeral => numeral.val
  | .string literal => literal.text
  | .emptyArray blank => '[' :: blank.val ++ [']']
  | .array elements => '[' :: elements.text ++ [']']
  | .emptyObject blank => '\x7b' :: blank.val ++ ['\x7d']
  | .object members => '\x7b' :: members.text ++ ['\x7d']

def Elements.text : Elements → Text
  | .last before value after => before.val ++ value.text ++ after.val
  | .cons before value after rest =>
      before.val ++ value.text ++ after.val ++ ',' :: rest.text

def Members.text : Members → Text
  | .last before name behind colon value after =>
      before.val ++ name.text ++ behind.val ++ ':' :: colon.val ++
        value.text ++ after.val
  | .cons before name behind colon value after rest =>
      before.val ++ name.text ++ behind.val ++ ':' :: colon.val ++
        value.text ++ after.val ++ ',' :: rest.text

end

mutual

def Layout.value : Layout → Value
  | .null => .null
  | .bool value => .bool value
  | .number numeral => .number numeral.val
  | .string literal => .string literal.value
  | .emptyArray _ => .array []
  | .array elements => .array elements.values
  | .emptyObject _ => .object []
  | .object members => .object members.values

def Elements.values : Elements → List Value
  | .last _ value _ => [value.value]
  | .cons _ value _ rest => value.value :: rest.values

def Members.values : Members → List (Text × Value)
  | .last _ name _ _ value _ => [(name.value, value.value)]
  | .cons _ name _ _ value _ rest =>
      (name.value, value.value) :: rest.values

end

/-- `JSON-text`. -/
structure Document where
  before : Blank
  layout : Layout
  after : Blank

namespace Document

def text (document : Document) : Text :=
  document.before.val ++ document.layout.text ++ document.after.val

def value (document : Document) : Value := document.layout.value

end Document

/-- The grammar derives the text, with this meaning. -/
def Denotes (text : Text) (value : Value) : Prop :=
  ∃ document : Document, document.text = text ∧ document.value = value

def Accepts (text : Text) : Prop :=
  ∃ document : Document, document.text = text

/-! ## Objects as lists of members -/

structure Member where
  before : Blank := noBlank
  name : Literal
  behind : Blank := noBlank
  colon : Blank := noBlank
  value : Layout
  after : Blank := noBlank

namespace Member

def text (member : Member) : Text :=
  member.before.val ++ member.name.text ++ member.behind.val ++
    ':' :: member.colon.val ++ member.value.text ++ member.after.val

def meaning (member : Member) : Text × Value :=
  (member.name.value, member.value.value)

end Member

def Members.of (member : Member) : List Member → Members
  | [] =>
      .last member.before member.name member.behind member.colon
        member.value member.after
  | next :: rest =>
      .cons member.before member.name member.behind member.colon
        member.value member.after (Members.of next rest)

theorem Members.text_of (member : Member) (rest : List Member) :
    (Members.of member rest).text =
      member.text ++ rest.flatMap fun next => ',' :: next.text := by
  induction rest generalizing member with
  | nil =>
      rw [List.flatMap_nil, List.append_nil]
      rfl
  | cons next rest ih =>
      rw [Members.of, Members.text, ih, List.flatMap_cons]
      simp only [Member.text, List.append_assoc, List.cons_append]

theorem Members.values_of (member : Member) (rest : List Member) :
    (Members.of member rest).values =
      (member :: rest).map Member.meaning := by
  induction rest generalizing member with
  | nil => rfl
  | cons next rest ih =>
      rw [Members.of, Members.values, ih]
      rfl

/-- An object; the whitespace is that of one without members. -/
def Layout.objectOf (blank : Blank) : List Member → Layout
  | [] => .emptyObject blank
  | member :: rest => .object (.of member rest)

theorem Layout.value_objectOf (blank : Blank) (members : List Member) :
    (Layout.objectOf blank members).value =
      .object (members.map Member.meaning) := by
  cases members with
  | nil => rfl
  | cons member rest =>
      rw [Layout.objectOf, Layout.value, Members.values_of]

theorem Layout.text_objectOf (blank : Blank) (front : List Member)
    (member : Member) (back : List Member) :
    (Layout.objectOf blank (front ++ member :: back)).text =
      '\x7b' :: front.flatMap (fun other => other.text ++ [',']) ++
        member.text ++ back.flatMap (fun other => ',' :: other.text) ++
          ['\x7d'] := by
  have joined (first : Member) (rest : List Member) :
      first.text ++ (rest ++ member :: back).flatMap
          (fun other => ',' :: other.text) =
        (first :: rest).flatMap (fun other => other.text ++ [',']) ++
          member.text ++ back.flatMap (fun other => ',' :: other.text) := by
    induction rest generalizing first with
    | nil => simp
    | cons next rest ih =>
        rw [List.cons_append, List.flatMap_cons, List.flatMap_cons,
          List.cons_append, ih next]
        simp
  cases front with
  | nil =>
      rw [List.nil_append, Layout.objectOf, Layout.text, Members.text_of]
      simp
  | cons first rest =>
      rw [List.cons_append, Layout.objectOf, Layout.text, Members.text_of,
        joined first rest]
      simp

/-! ## Characters of the tokens -/

theorem unescaped_ne (c : Unescaped) : c.val ≠ '"' ∧ c.val ≠ '\\' := by
  have legal := c.property
  unfold isUnescaped at legal
  simp only [Bool.and_eq_true, bne_iff_ne] at legal
  exact ⟨legal.1.2, legal.2⟩

theorem escape_ne (c : Escape) : c.val ≠ 'u' := by
  intro equal
  have legal := c.property
  rw [equal] at legal
  exact absurd legal (by decide)

theorem isNumeralChar_of_isDigit {c : Char} (digit : c.isDigit = true) :
    isNumeralChar c = true := by
  unfold isNumeralChar
  rw [digit]
  rfl

theorem numeralChars_of_digits {text : Text}
    (digits : text.all Char.isDigit = true) :
    text.all isNumeralChar = true := by
  apply List.all_eq_true.mpr
  intro c member
  exact isNumeralChar_of_isDigit (List.all_eq_true.mp digits c member)

theorem exponent_chars {text : Text} (legal : isExponent text = true) :
    text.all isNumeralChar = true := by
  cases text with
  | nil => rfl
  | cons letter rest =>
      unfold isExponent at legal
      simp only [Bool.and_eq_true, Bool.or_eq_true, beq_iff_eq] at legal
      obtain ⟨⟨mark, -⟩, digits⟩ := legal
      have markLegal : isNumeralChar letter = true := by
        rcases mark with lower | upper
        · rw [lower]
          rfl
        · rw [upper]
          rfl
      rw [List.all_cons, markLegal, Bool.true_and]
      split at digits
      · rw [List.all_cons, numeralChars_of_digits digits]
        rfl
      · rw [List.all_cons, numeralChars_of_digits digits]
        rfl
      · exact numeralChars_of_digits digits

theorem numeralChars_split {text : Text}
    (legal : (text.dropWhile Char.isDigit).all isNumeralChar = true) :
    text.all isNumeralChar = true := by
  rw [← List.takeWhile_append_dropWhile (p := Char.isDigit) (l := text),
    List.all_append, legal, Bool.and_true]
  exact numeralChars_of_digits List.all_takeWhile

theorem fraction_chars {text : Text} (legal : isFraction text = true) :
    text.all isNumeralChar = true := by
  unfold isFraction at legal
  split at legal
  · simp only [Bool.and_eq_true] at legal
    rw [List.all_cons, numeralChars_split (exponent_chars legal.2)]
    rfl
  · exact exponent_chars legal

theorem magnitude_chars {text : Text} (legal : isMagnitude text = true) :
    text.all isNumeralChar = true := by
  unfold isMagnitude at legal
  rw [Bool.and_eq_true] at legal
  exact numeralChars_split (fraction_chars legal.2)

theorem numeral_chars (numeral : Numeral) :
    numeral.val.all isNumeralChar = true := by
  obtain ⟨text, legal⟩ := numeral
  unfold isNumeral at legal
  change text.all isNumeralChar = true
  split at legal
  · rw [List.all_cons, magnitude_chars legal]
    rfl
  · exact magnitude_chars legal

theorem isMagnitude_toDigits (number : Nat) :
    isMagnitude (Nat.toDigits 10 number) = true := by
  have digits : ∀ c ∈ Nat.toDigits 10 number, c.isDigit = true := by
    intro c member
    exact Nat.isDigit_of_mem_toDigits (by decide) (by decide) member
  unfold isMagnitude
  rw [List.takeWhile_eq_self_iff.mpr digits,
    List.dropWhile_eq_nil_iff.mpr digits]
  cases Nat.eq_zero_or_pos number with
  | inl zero =>
      rw [zero]
      rfl
  | inr positive =>
      obtain ⟨c, rest, equal, other⟩ := Numeral.toDigits_eq_cons positive
      rw [equal, isWhole, bne_iff_ne.mpr other]
      rfl

theorem isNumeral_toString (number : Int) :
    isNumeral (toString number).toList = true := by
  cases number with
  | ofNat number =>
      change isNumeral (toString number).toList = true
      rw [Numeral.toList_toString_nat]
      unfold isNumeral
      split
      · rename_i rest equal
        have digit : '-'.isDigit = true :=
          Nat.isDigit_of_mem_toDigits (b := 10) (n := number) (by decide)
            (by decide) (by rw [equal]; exact List.mem_cons_self)
        exact absurd digit (by decide)
      · exact isMagnitude_toDigits number
  | negSucc number =>
      rw [Numeral.toString_negSucc, String.toList_append,
        Numeral.toList_toString_nat]
      exact isMagnitude_toDigits (number + 1)

theorem numeral_ne_nil (numeral : Numeral) : numeral.val ≠ [] := by
  obtain ⟨text, legal⟩ := numeral
  intro empty
  change text = [] at empty
  subst empty
  exact absurd legal (by decide)

/-! ## Characters that no text contains -/

def isLegal (c : Char) : Bool := isBlank c || 0x20 ≤ c.toNat

theorem legal_of_blank {c : Char} (blank : isBlank c = true) :
    isLegal c = true := by
  unfold isLegal
  rw [blank]
  rfl

theorem legal_of_not_control {c : Char} (printable : 0x20 ≤ c.toNat) :
    isLegal c = true := by
  unfold isLegal
  rw [decide_eq_true printable, Bool.or_true]

theorem blanks_legal (blank : Blank) : blank.val.all isLegal = true := by
  apply List.all_eq_true.mpr
  intro c member
  exact legal_of_blank (List.all_eq_true.mp blank.property c member)

theorem le_toNat {low c : Char} (le : low ≤ c) : low.toNat ≤ c.toNat :=
  UInt32.le_iff_toNat_le.mp le

theorem digit_legal {c : Char} (digit : c.isDigit = true) :
    isLegal c = true := by
  apply legal_of_not_control
  have low := (Bool.and_eq_true_iff.mp digit).1
  have bound := UInt32.le_iff_toNat_le.mp (of_decide_eq_true low)
  change 48 ≤ c.toNat at bound
  omega

theorem numeralChar_legal {c : Char} (numeral : isNumeralChar c = true) :
    isLegal c = true := by
  unfold isNumeralChar at numeral
  simp only [Bool.or_eq_true, beq_iff_eq] at numeral
  rcases numeral with ((((digit | equal) | equal) | equal) | equal) | equal
  · exact digit_legal digit
  all_goals
    rw [equal]
    rfl

theorem hexDigit_legal (digit : HexDigit) : isLegal digit.val = true := by
  obtain ⟨c, hex⟩ := digit
  unfold isHexDigit at hex
  simp only [Bool.or_eq_true, Bool.and_eq_true, decide_eq_true_eq] at hex
  rcases hex with (decimal | lower) | upper
  · exact digit_legal decimal
  · have bound : 97 ≤ c.toNat := le_toNat lower.1
    exact legal_of_not_control (Nat.le_trans (by decide) bound)
  · have bound : 65 ≤ c.toNat := le_toNat upper.1
    exact legal_of_not_control (Nat.le_trans (by decide) bound)

theorem escape_legal (c : Escape) : isLegal c.val = true := by
  obtain ⟨c, legal⟩ := c
  have listed : c ∈ ['"', '\\', '/', 'b', 'f', 'n', 'r', 't'] :=
    List.contains_iff_mem.mp legal
  have all : ['"', '\\', '/', 'b', 'f', 'n', 'r', 't'].all isLegal = true :=
    rfl
  exact List.all_eq_true.mp all c listed

theorem Piece.raw_legal (piece : Piece) : piece.raw.all isLegal = true := by
  cases piece with
  | plain c =>
      have legal := c.property
      unfold isUnescaped at legal
      simp only [Bool.and_eq_true, decide_eq_true_eq] at legal
      rw [Piece.raw, List.all_cons, legal_of_not_control legal.1.1]
      rfl
  | escape c =>
      rw [Piece.raw, List.all_cons, List.all_cons, escape_legal c]
      rfl
  | unicode first second third fourth =>
      simp only [Piece.raw, List.all_cons, hexDigit_legal]
      rfl

theorem Literal.text_legal (literal : Literal) :
    literal.text.all isLegal = true := by
  have inside : (Literal.raw literal).all isLegal = true := by
    apply List.all_eq_true.mpr
    intro c member
    obtain ⟨piece, -, here⟩ := List.mem_flatMap.mp member
    exact List.all_eq_true.mp piece.raw_legal c here
  rw [Literal.text, List.all_append, List.all_cons, inside]
  rfl

mutual

theorem Layout.text_legal (layout : Layout) :
    layout.text.all isLegal = true := by
  cases layout with
  | null => rfl
  | bool value => cases value <;> rfl
  | number numeral =>
      apply List.all_eq_true.mpr
      intro c member
      exact numeralChar_legal
        (List.all_eq_true.mp (numeral_chars numeral) c member)
  | string literal => exact literal.text_legal
  | emptyArray blank =>
      rw [Layout.text, List.all_append, List.all_cons, blanks_legal]
      rfl
  | array elements =>
      rw [Layout.text, List.all_append, List.all_cons, elements.text_legal]
      rfl
  | emptyObject blank =>
      rw [Layout.text, List.all_append, List.all_cons, blanks_legal]
      rfl
  | object members =>
      rw [Layout.text, List.all_append, List.all_cons, members.text_legal]
      rfl

theorem Elements.text_legal (elements : Elements) :
    elements.text.all isLegal = true := by
  cases elements with
  | last before value after =>
      simp only [Elements.text, List.all_append, blanks_legal,
        value.text_legal, Bool.and_self]
  | cons before value after rest =>
      simp only [Elements.text, List.all_append, List.all_cons, blanks_legal,
        value.text_legal, rest.text_legal, Bool.and_self]
      rfl

theorem Members.text_legal (members : Members) :
    members.text.all isLegal = true := by
  cases members with
  | last before name behind colon value after =>
      simp only [Members.text, List.all_append, List.all_cons, blanks_legal,
        name.text_legal, value.text_legal, Bool.and_self]
      rfl
  | cons before name behind colon value after rest =>
      simp only [Members.text, List.all_append, List.all_cons, blanks_legal,
        name.text_legal, value.text_legal, rest.text_legal, Bool.and_self]
      rfl

end

variable {text : Text}

/-- No control character but whitespace stands anywhere in a text of the
grammar. -/
theorem legal_of_accepts (accepts : Accepts text) {c : Char}
    (member : c ∈ text) : isLegal c = true := by
  obtain ⟨document, rfl⟩ := accepts
  have all : document.text.all isLegal = true := by
    simp only [Document.text, List.all_append, blanks_legal,
      document.layout.text_legal, Bool.and_self]
  exact List.all_eq_true.mp all c member

end Json
