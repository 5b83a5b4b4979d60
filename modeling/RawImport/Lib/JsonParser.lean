import RawImport.Lib.JsonGrammar

/-!
# A JSON parser

The parser returns the tree of a text, and so every text of the grammar has one
tree and one meaning.
-/

namespace Json

def parseBlank (text : Text) : Blank × Text :=
  (⟨text.takeWhile isBlank, List.all_takeWhile⟩, text.dropWhile isBlank)

def parseLiteral : Text → Option (Literal × Text)
  | [] => none
  | '"' :: rest => some ([], rest)
  | '\\' :: 'u' :: a :: b :: c :: d :: rest =>
      if legal : isHexDigit a = true ∧ isHexDigit b = true ∧
          isHexDigit c = true ∧ isHexDigit d = true then
        (parseLiteral rest).map fun (pieces, rest) =>
          (.unicode ⟨a, legal.1⟩ ⟨b, legal.2.1⟩ ⟨c, legal.2.2.1⟩
            ⟨d, legal.2.2.2⟩ :: pieces, rest)
      else none
  | '\\' :: c :: rest =>
      if legal : isEscape c = true then
        (parseLiteral rest).map fun (pieces, rest) =>
          (.escape ⟨c, legal⟩ :: pieces, rest)
      else none
  | c :: rest =>
      if legal : isUnescaped c = true then
        (parseLiteral rest).map fun (pieces, rest) =>
          (.plain ⟨c, legal⟩ :: pieces, rest)
      else none

def parseNumeral (text : Text) : Option (Numeral × Text) :=
  if legal : isNumeral (text.takeWhile isNumeralChar) = true then
    some (⟨text.takeWhile isNumeralChar, legal⟩,
      text.dropWhile isNumeralChar)
  else none

mutual

def parseValue : Nat → Text → Option (Layout × Text)
  | 0, _ => none
  | _ + 1, 'n' :: 'u' :: 'l' :: 'l' :: rest => some (.null, rest)
  | _ + 1, 't' :: 'r' :: 'u' :: 'e' :: rest => some (.bool true, rest)
  | _ + 1, 'f' :: 'a' :: 'l' :: 's' :: 'e' :: rest =>
      some (.bool false, rest)
  | _ + 1, '"' :: rest =>
      (parseLiteral rest).map fun (literal, rest) => (.string literal, rest)
  | fuel + 1, '[' :: rest =>
      match parseBlank rest with
      | (blank, ']' :: rest) => some (.emptyArray blank, rest)
      | (before, rest) =>
          match parseElements fuel before rest with
          | some (elements, rest) => some (.array elements, rest)
          | none => none
  | fuel + 1, '\x7b' :: rest =>
      match parseBlank rest with
      | (blank, '\x7d' :: rest) => some (.emptyObject blank, rest)
      | (before, rest) =>
          match parseMembers fuel before rest with
          | some (members, rest) => some (.object members, rest)
          | none => none
  | _ + 1, text =>
      (parseNumeral text).map fun (numeral, rest) => (.number numeral, rest)

/-- The elements behind the whitespace of the first one, up to the closing
bracket. -/
def parseElements : Nat → Blank → Text → Option (Elements × Text)
  | 0, _, _ => none
  | fuel + 1, before, text =>
      match parseValue fuel text with
      | none => none
      | some (value, rest) =>
          match parseBlank rest with
          | (after, ']' :: rest) => some (.last before value after, rest)
          | (after, ',' :: rest) =>
              match parseElements fuel (parseBlank rest).1
                  (parseBlank rest).2 with
              | none => none
              | some (elements, rest) =>
                  some (.cons before value after elements, rest)
          | _ => none

/-- The members behind the whitespace of the first one, up to the closing
brace. -/
def parseMembers : Nat → Blank → Text → Option (Members × Text)
  | 0, _, _ => none
  | fuel + 1, before, '"' :: text =>
      match parseLiteral text with
      | none => none
      | some (name, rest) =>
          match parseBlank rest with
          | (behind, ':' :: rest) =>
              let (colon, rest) := parseBlank rest
              match parseValue fuel rest with
              | none => none
              | some (value, rest) =>
                  match parseBlank rest with
                  | (after, '\x7d' :: rest) =>
                      some (.last before name behind colon value after, rest)
                  | (after, ',' :: rest) =>
                      match parseMembers fuel (parseBlank rest).1
                          (parseBlank rest).2 with
                      | none => none
                      | some (members, rest) =>
                          some (.cons before name behind colon value after
                            members, rest)
                  | _ => none
          | _ => none
  | _ + 1, _, _ => none

end

def parse (text : Text) : Option Document :=
  let (before, rest) := parseBlank text
  match parseValue (text.length + 1) rest with
  | none => none
  | some (layout, rest) =>
      match parseBlank rest with
      | (after, []) => some ⟨before, layout, after⟩
      | _ => none

def decode (text : Text) : Option Value := (parse text).map Document.value

theorem takeWhile_append {p : Char → Bool} {front rest : Text}
    (all : front.all p = true)
    (stops : ∀ c ∈ rest.head?, p c = false) :
    (front ++ rest).takeWhile p = front := by
  have each := List.all_eq_true.mp all
  rw [List.takeWhile_append_of_pos each]
  cases rest with
  | nil => simp
  | cons c rest =>
      have stop := stops c (by simp)
      simp [stop]

theorem dropWhile_append {p : Char → Bool} {front rest : Text}
    (all : front.all p = true)
    (stops : ∀ c ∈ rest.head?, p c = false) :
    (front ++ rest).dropWhile p = rest := by
  have each := List.all_eq_true.mp all
  rw [List.dropWhile_append_of_pos each]
  cases rest with
  | nil => simp
  | cons c rest =>
      have stop := stops c (by simp)
      simp [stop]

theorem parseBlank_append (blank : Blank) {rest : Text}
    (stops : ∀ c ∈ rest.head?, isBlank c = false) :
    parseBlank (blank.val ++ rest) = (blank, rest) := by
  unfold parseBlank
  apply Prod.ext
  · exact Subtype.ext (takeWhile_append blank.property stops)
  · exact dropWhile_append blank.property stops

theorem parseLiteral_raw (literal : Literal) (rest : Text) :
    parseLiteral (literal.raw ++ '"' :: rest) = some (literal, rest) := by
  induction literal with
  | nil => rfl
  | cons piece literal ih =>
      cases piece with
      | plain c =>
          have legal := unescaped_ne c
          change parseLiteral (c.val :: (Literal.raw literal ++ '"' :: rest)) = _
          rw [parseLiteral]
          · rw [dif_pos c.property, ih]
            rfl
          · exact legal.1
          · intro _ _ _ _ _ equal _
            exact legal.2 equal
          · intro _ _ equal _
            exact legal.2 equal
      | escape c =>
          have legal := escape_ne c
          change parseLiteral
            ('\\' :: c.val :: (Literal.raw literal ++ '"' :: rest)) = _
          rw [parseLiteral]
          · rw [dif_pos c.property, ih]
            rfl
          · intro _ _ _ _ _ equal _
            exact legal equal
      | unicode first second third fourth =>
          change parseLiteral
            ('\\' :: 'u' :: first.val :: second.val :: third.val ::
              fourth.val :: (Literal.raw literal ++ '"' :: rest)) = _
          rw [parseLiteral, dif_pos ⟨first.property, second.property,
            third.property, fourth.property⟩, ih]
          rfl

theorem parseNumeral_append (numeral : Numeral) {rest : Text}
    (stops : ∀ c ∈ rest.head?, isNumeralChar c = false) :
    parseNumeral (numeral.val ++ rest) = some (numeral, rest) := by
  unfold parseNumeral
  have front := takeWhile_append (numeral_chars numeral) stops
  have behind := dropWhile_append (numeral_chars numeral) stops
  rw [dif_pos (by rw [front]; exact numeral.property)]
  simp only [front, behind]

theorem numeralChar_ne {c other : Char} (numeral : isNumeralChar c = true)
    (different : isNumeralChar other = false) : c ≠ other := by
  intro equal
  rw [equal, different] at numeral
  cases numeral

theorem isBlank_eq_false {c : Char}
    (different : c ≠ ' ' ∧ c ≠ '\t' ∧ c ≠ '\n' ∧ c ≠ '\r') :
    isBlank c = false := by
  unfold isBlank
  simp [different]

/-- A value starts with a character that neither is whitespace nor closes an
array. -/
theorem Layout.text_head (layout : Layout) :
    ∃ c rest, layout.text = c :: rest ∧ isBlank c = false ∧ c ≠ ']' := by
  cases layout with
  | null => exact ⟨'n', _, rfl, rfl, by decide⟩
  | bool value =>
      cases value with
      | true => exact ⟨'t', _, rfl, rfl, by decide⟩
      | false => exact ⟨'f', _, rfl, rfl, by decide⟩
  | number numeral =>
      have some' := List.exists_cons_of_ne_nil (numeral_ne_nil numeral)
      obtain ⟨c, rest, split⟩ := some'
      have chars := numeral_chars numeral
      rw [split, List.all_cons, Bool.and_eq_true] at chars
      refine ⟨c, rest, by rw [Layout.text, split], ?_, ?_⟩
      · apply isBlank_eq_false
        exact ⟨numeralChar_ne chars.1 rfl, numeralChar_ne chars.1 rfl,
          numeralChar_ne chars.1 rfl, numeralChar_ne chars.1 rfl⟩
      · exact numeralChar_ne chars.1 rfl
  | string literal => exact ⟨'"', _, by rw [Layout.text]; rfl, rfl, by decide⟩
  | emptyArray blank => exact ⟨'[', _, by rw [Layout.text]; rfl, rfl, by decide⟩
  | array elements => exact ⟨'[', _, by rw [Layout.text]; rfl, rfl, by decide⟩
  | emptyObject blank =>
      exact ⟨'\x7b', _, by rw [Layout.text]; rfl, rfl, by decide⟩
  | object members =>
      exact ⟨'\x7b', _, by rw [Layout.text]; rfl, rfl, by decide⟩

/-- Neither whitespace nor a comma or a closing bracket continues a number. -/
theorem numeral_stops {blank : Blank} {rest : Text}
    (stops : ∀ c ∈ rest.head?, isNumeralChar c = false) :
    ∀ c ∈ (blank.val ++ rest).head?, isNumeralChar c = false := by
  intro c head
  obtain ⟨text, legal⟩ := blank
  cases text with
  | nil => exact stops c head
  | cons first text =>
      have blank := (Bool.and_eq_true_iff.mp legal).1
      have equal : first = c := by simpa using head
      subst equal
      apply Bool.eq_false_iff.mpr
      intro numeral
      rw [isBlank_eq_false ⟨numeralChar_ne numeral rfl,
        numeralChar_ne numeral rfl, numeralChar_ne numeral rfl,
        numeralChar_ne numeral rfl⟩] at blank
      cases blank

theorem stops_of_head {p : Char → Bool} {first : Char} {rest : Text}
    (stop : p first = false) : ∀ c ∈ (first :: rest).head?, p c = false := by
  intro c head
  have equal : first = c := by simpa using head
  rw [← equal]
  exact stop

theorem parseBlank_cons (blank : Blank) (c : Char) (rest : Text)
    (clear : isBlank c = false) :
    parseBlank (blank.val ++ c :: rest) = (blank, c :: rest) :=
  parseBlank_append blank (stops_of_head clear)

theorem blank_stops_value (layout : Layout) (rest : Text) :
    ∀ c ∈ (layout.text ++ rest).head?, isBlank c = false := by
  intro c head
  obtain ⟨first, text, starts, clear, -⟩ := layout.text_head
  rw [starts] at head
  have equal : first = c := by simpa using head
  rw [← equal]
  exact clear

theorem parseValue_number (numeral : Numeral) (fuel : Nat) {rest : Text}
    (stops : ∀ c ∈ rest.head?, isNumeralChar c = false) :
    parseValue (fuel + 1) (numeral.val ++ rest) =
      some (.number numeral, rest) := by
  have some' := List.exists_cons_of_ne_nil (numeral_ne_nil numeral)
  obtain ⟨first, tail, split⟩ := some'
  have chars := numeral_chars numeral
  rw [split, List.all_cons, Bool.and_eq_true] at chars
  have read := parseNumeral_append numeral stops
  rw [split, List.cons_append] at read ⊢
  rw [parseValue]
  · rw [read]
    rfl
  all_goals
    intro _ equal
    exact numeralChar_ne chars.1 rfl (List.cons.inj equal).1

theorem parseBlank_elements (elements : Elements) (more : Text) :
    ∃ before c tail,
      parseBlank (elements.text ++ more) = (before, c :: tail) ∧
        c ≠ ']' := by
  cases elements with
  | last before value after =>
      obtain ⟨c, tail, starts, -, other⟩ := value.text_head
      refine ⟨before, c, tail ++ after.val ++ more, ?_, other⟩
      rw [Elements.text, List.append_assoc, List.append_assoc,
        parseBlank_append before (blank_stops_value value _), starts]
      simp
  | cons before value after rest =>
      obtain ⟨c, tail, starts, -, other⟩ := value.text_head
      refine ⟨before, c, tail ++ after.val ++ ',' :: rest.text ++ more,
        ?_, other⟩
      rw [Elements.text, List.append_assoc, List.append_assoc,
        List.append_assoc,
        parseBlank_append before (blank_stops_value value _), starts]
      simp

theorem parseBlank_members (members : Members) (more : Text) :
    ∃ before tail,
      parseBlank (members.text ++ more) = (before, '"' :: tail) := by
  cases members with
  | last before name behind colon value after =>
      simp only [Members.text, Literal.text, List.append_assoc,
        List.cons_append]
      exact ⟨before, _, parseBlank_append before (stops_of_head rfl)⟩
  | cons before name behind colon value after rest =>
      simp only [Members.text, Literal.text, List.append_assoc,
        List.cons_append]
      exact ⟨before, _, parseBlank_append before (stops_of_head rfl)⟩

mutual

theorem parseValue_text (layout : Layout) (fuel : Nat) (rest : Text)
    (room : layout.text.length ≤ fuel)
    (stops : ∀ c ∈ rest.head?, isNumeralChar c = false) :
    parseValue fuel (layout.text ++ rest) = some (layout, rest) := by
  obtain ⟨c, tail, starts, -, -⟩ := layout.text_head
  cases fuel with
  | zero =>
      rw [starts] at room
      cases room
  | succ fuel =>
      cases layout with
      | null => rfl
      | bool value =>
          cases value with
          | true => rfl
          | false => rfl
      | number numeral => exact parseValue_number numeral fuel stops
      | string literal =>
          simp only [Layout.text, Literal.text, List.append_assoc,
            List.cons_append, List.nil_append]
          rw [parseValue, parseLiteral_raw]
          rfl
      | emptyArray blank =>
          simp only [Layout.text, List.append_assoc, List.cons_append,
            List.nil_append]
          rw [parseValue, parseBlank_append blank (stops_of_head rfl)]
          rfl
      | array elements =>
          have inner := parseElements_text elements fuel rest (by
            simp only [Layout.text, List.length_cons, List.length_append]
              at room
            omega)
          obtain ⟨before, first, behind, skipped, other⟩ :=
            parseBlank_elements elements (']' :: rest)
          simp only [Layout.text, List.append_assoc, List.cons_append,
            List.nil_append]
          rw [skipped] at inner
          rw [parseValue, skipped]
          split
          · rename_i closed
            cases closed
            exact absurd rfl other
          · rename_i read
            cases read
            rw [inner]
      | emptyObject blank =>
          simp only [Layout.text, List.append_assoc, List.cons_append,
            List.nil_append]
          rw [parseValue, parseBlank_append blank (stops_of_head rfl)]
          rfl
      | object members =>
          have inner := parseMembers_text members fuel rest (by
            simp only [Layout.text, List.length_cons, List.length_append]
              at room
            omega)
          obtain ⟨before, behind, skipped⟩ :=
            parseBlank_members members ('\x7d' :: rest)
          simp only [Layout.text, List.append_assoc, List.cons_append,
            List.nil_append]
          rw [skipped] at inner
          rw [parseValue, skipped]
          split
          · rename_i closed
            cases closed
          · rename_i read
            cases read
            rw [inner]

theorem parseElements_text (elements : Elements) (fuel : Nat) (rest : Text)
    (room : elements.text.length + 1 ≤ fuel) :
    parseElements fuel (parseBlank (elements.text ++ ']' :: rest)).1
      (parseBlank (elements.text ++ ']' :: rest)).2 =
        some (elements, rest) := by
  cases fuel with
  | zero => cases room
  | succ fuel =>
      cases elements with
      | last before value after =>
          have read := parseValue_text value fuel (after.val ++ ']' :: rest)
            (by
              simp only [Elements.text, List.length_append] at room
              omega)
            (numeral_stops (stops_of_head rfl))
          simp only [Elements.text, List.append_assoc]
          rw [parseBlank_append before (blank_stops_value value _)]
          rw [parseElements, read]
          simp only [parseBlank_cons after ']' _ rfl]
      | cons before value after more =>
          have read := parseValue_text value fuel
            (after.val ++ ',' :: (more.text ++ ']' :: rest))
            (by
              simp only [Elements.text, List.length_append] at room
              omega)
            (numeral_stops (stops_of_head rfl))
          have later := parseElements_text more fuel rest (by
            simp only [Elements.text, List.length_append, List.length_cons]
              at room
            omega)
          simp only [Elements.text, List.append_assoc, List.cons_append]
          rw [parseBlank_append before (blank_stops_value value _)]
          rw [parseElements, read]
          simp only [parseBlank_cons after ',' _ rfl, later]

theorem parseMembers_text (members : Members) (fuel : Nat) (rest : Text)
    (room : members.text.length + 1 ≤ fuel) :
    parseMembers fuel (parseBlank (members.text ++ '\x7d' :: rest)).1
      (parseBlank (members.text ++ '\x7d' :: rest)).2 =
        some (members, rest) := by
  cases fuel with
  | zero => cases room
  | succ fuel =>
      cases members with
      | last before name behind colon value after =>
          have read := parseValue_text value fuel
            (after.val ++ '\x7d' :: rest)
            (by
              simp only [Members.text, List.length_append,
                List.length_cons] at room
              omega)
            (numeral_stops (stops_of_head rfl))
          simp only [Members.text, Literal.text, List.append_assoc,
            List.cons_append, List.nil_append]
          rw [parseBlank_append before (stops_of_head rfl)]
          dsimp only
          rw [parseMembers, parseLiteral_raw]
          simp only [parseBlank_cons behind ':' _ rfl,
            parseBlank_append colon (blank_stops_value value _), read,
            parseBlank_cons after '\x7d' _ rfl]
      | cons before name behind colon value after more =>
          have read := parseValue_text value fuel
            (after.val ++ ',' :: (more.text ++ '\x7d' :: rest))
            (by
              simp only [Members.text, List.length_append,
                List.length_cons] at room
              omega)
            (numeral_stops (stops_of_head rfl))
          have later := parseMembers_text more fuel rest (by
            simp only [Members.text, List.length_append, List.length_cons]
              at room
            omega)
          simp only [Members.text, Literal.text, List.append_assoc,
            List.cons_append, List.nil_append]
          rw [parseBlank_append before (stops_of_head rfl)]
          dsimp only
          rw [parseMembers, parseLiteral_raw]
          simp only [parseBlank_cons behind ':' _ rfl,
            parseBlank_append colon (blank_stops_value value _), read,
            parseBlank_cons after ',' _ rfl, later]

end

theorem parse_text (document : Document) :
    parse document.text = some document := by
  have read := parseValue_text document.layout (document.text.length + 1)
    document.after.val
    (by
      simp only [Document.text, List.length_append]
      omega)
    (by
      have stops := @numeral_stops document.after [] (by simp)
      rw [List.append_nil] at stops
      exact stops)
  unfold parse
  have skipped : parseBlank document.text =
      (document.before, document.layout.text ++ document.after.val) := by
    rw [Document.text, List.append_assoc]
    exact parseBlank_append document.before (blank_stops_value _ _)
  have behind : parseBlank document.after.val = (document.after, []) := by
    have whole := @parseBlank_append document.after [] (by simp)
    rw [List.append_nil] at whole
    exact whole
  rw [skipped]
  dsimp only
  rw [read]
  dsimp only
  rw [behind]

variable {text : Text} {value : Value}

theorem Denotes.accepts (denotes : Denotes text value) : Accepts text := by
  obtain ⟨document, equal, -⟩ := denotes
  exact ⟨document, equal⟩

theorem Denotes.decode (denotes : Denotes text value) :
    decode text = some value := by
  obtain ⟨document, rfl, rfl⟩ := denotes
  unfold Json.decode
  rw [parse_text]
  rfl

theorem parseBlank_clear {c : Char} (clear : isBlank c = false)
    (rest : Text) : parseBlank (c :: rest) = (noBlank, c :: rest) :=
  parseBlank_cons noBlank c rest clear

theorem parse_brace {c : Char} (clear : isBlank c = false) (open' : c ≠ '\x7d')
    {rest : Text} {document : Document}
    (parsed : parse ('\x7b' :: c :: rest) = some document) :
    ∃ members after, parseMembers (rest.length + 2) noBlank (c :: rest) =
      some (members, after) := by
  unfold parse at parsed
  rw [parseBlank_clear rfl] at parsed
  dsimp only at parsed
  rw [List.length_cons, List.length_cons, parseValue,
    parseBlank_clear clear] at parsed
  cases read : parseMembers (rest.length + 2) noBlank (c :: rest) with
  | some result => exact ⟨result.1, result.2, rfl⟩
  | none =>
      split at parsed
      · cases parsed
      · rename_i value
        split at value
        · rename_i closed
          cases closed
          exact (open' rfl).elim
        · rename_i opened
          cases opened
          rw [read] at value
          cases value

/-- A member that is a string ends with whitespace, a comma or a brace. -/
theorem parseMembers_string {fuel : Nat} {name : Literal} {behind : Text}
    {result : Members × Text}
    (parsed : parseMembers (fuel + 2) noBlank
      ('"' :: (name.raw ++ '"' :: ':' :: '"' :: behind)) = some result) :
    ∃ literal c rest, parseLiteral behind = some (literal, c :: rest) ∧
      (isBlank c = true ∨ c = ',' ∨ c = '\x7d') := by
  have quote : parseBlank ('"' :: behind) = (noBlank, '"' :: behind) :=
    parseBlank_clear rfl behind
  have colon : parseBlank (':' :: '"' :: behind) =
      (noBlank, ':' :: '"' :: behind) := parseBlank_clear rfl _
  rw [parseMembers, parseLiteral_raw] at parsed
  simp only [colon, quote] at parsed
  rw [parseValue] at parsed
  cases read : parseLiteral behind with
  | none =>
      rw [read] at parsed
      cases parsed
  | some value =>
      obtain ⟨literal, rest⟩ := value
      simp only [read, Option.map_some] at parsed
      cases rest with
      | nil => cases parsed
      | cons c rest =>
          refine ⟨literal, c, rest, rfl, ?_⟩
          cases blank : isBlank c with
          | true => exact .inl rfl
          | false =>
              rw [parseBlank_clear blank] at parsed
              split at parsed
              · rename_i closed
                cases closed
                exact .inr (.inr rfl)
              · rename_i comma
                cases comma
                exact .inr (.inl rfl)
              · cases parsed

theorem Denotes.unique {other : Value} (denotes : Denotes text value)
    (again : Denotes text other) : value = other :=
  Option.some.inj (denotes.decode.symm.trans again.decode)

end Json
