import RawImport.Api.JsonReading
import RawImport.Lib.JsonParser
import RawImport.Store.Client

/-!
# The bound settings

The text that `InsertReconversion` binds to `conversion_settings`, read back as
JSON: which texts in the place of the compression keep it an object, and what
the object says then.
-/

namespace RawImport

namespace Api

open Cxx Search

def memberOf (members : List (Text × Json.Value)) (name : String) :
    Option Json.Value :=
  (members.find? fun member => member.1 = name.toList).map Prod.snd

def textMember (members : List (Text × Json.Value)) (name missing : String) :
    Option String :=
  match memberOf members name with
  | none => some missing
  | some (.string value) => some (String.ofList value)
  | some _ => none

def integerOf : Text → Option Int
  | '-' :: digits =>
      if digits.all Char.isDigit then some (-(Nat.ofDigitChars 10 digits 0))
      else none
  | digits =>
      if digits.all Char.isDigit then some (Nat.ofDigitChars 10 digits 0)
      else none

def intMember (members : List (Text × Json.Value)) (name : String)
    (missing : Int) : Option Int :=
  match memberOf members name with
  | none => some missing
  | some (.number literal) => integerOf literal
  | some _ => none

def boolMember (members : List (Text × Json.Value)) (name : String)
    (missing : Bool) : Option Bool :=
  match memberOf members name with
  | none => some missing
  | some (.bool value) => some value
  | some _ => none

/-- The settings an object gives; what is left out has its default. -/
def settingsOf (members : List (Text × Json.Value)) :
    Option ConversionSettings := do
  let defaults : ConversionSettings := {}
  let compression ← textMember members "compression" defaults.compression
  let previewMedium ←
    textMember members "preview_medium" defaults.previewMedium
  let previewFull ← textMember members "preview_full" defaults.previewFull
  let version ← textMember members "version" defaults.version
  let jpegQuality ← intMember members "jpeg_quality" defaults.jpegQuality
  let linear ← boolMember members "linear" defaults.linear
  return { compression, previewMedium, previewFull, version, jpegQuality,
           linear }

def Gives (text : String) (settings : ConversionSettings) : Prop :=
  ∃ members, Json.Denotes text.toList (.object members) ∧
    settingsOf members = some settings

theorem Gives.unique {text : String} {settings other : ConversionSettings}
    (gives : Gives text settings) (again : Gives text other) :
    settings = other := by
  obtain ⟨members, denotes, read⟩ := gives
  obtain ⟨members', denotes', read'⟩ := again
  cases denotes.unique denotes'
  rw [read] at read'
  exact Option.some.inj read'

/-- What is bound with a text in the place of the compression. -/
def boundText (compression : Text) : Text :=
  (Store.settingsJson { compression := String.ofList compression }).toList

def settingsTail : Text :=
  "\",\"preview_medium\":\"1024x1024\",\"preview_full\":\"4000x3000\",\"version\":\"1.4\",\"jpeg_quality\":92,\"linear\":false\x7d".toList

theorem boundText_eq (compression : Text) :
    boundText compression =
      "\x7b\"compression\":\"".toList ++ (compression ++ settingsTail) := by
  unfold boundText Store.settingsJson settingsTail
  simp only [String.toList_append, String.toList_ofList, List.append_assoc,
    Bool.false_eq_true, if_false]
  apply congrArg ("\x7b\"compression\":\"".toList ++ ·)
  apply congrArg (compression ++ ·)
  decide +kernel

def boundMembers (literal : Json.Literal) : List Json.Member :=
  [{ name := .plain "compression".toList, value := .string literal },
    { name := .plain "preview_medium".toList
      value := .string (.plain "1024x1024".toList) },
    { name := .plain "preview_full".toList
      value := .string (.plain "4000x3000".toList) },
    { name := .plain "version".toList
      value := .string (.plain "1.4".toList) },
    { name := .plain "jpeg_quality".toList
      value :=
        .number ⟨(toString (92 : Int)).toList, Json.isNumeral_toString 92⟩ },
    { name := .plain "linear".toList, value := .bool false }]

theorem settingsTail_eq (literal : Json.Literal) :
    settingsTail =
      '"' :: ((boundMembers literal).tail.flatMap
        (fun other => ',' :: other.text) ++ ['\x7d']) := by
  have same : (boundMembers literal).tail = (boundMembers []).tail := rfl
  rw [same]
  decide +kernel

theorem boundText_raw (literal : Json.Literal) :
    (Json.Layout.objectOf Json.noBlank (boundMembers literal)).text =
      boundText literal.raw := by
  have name : Json.Literal.raw (.plain "compression".toList) =
      "compression".toList := Json.Literal.raw_plain (by decide +kernel)
  have first : (boundMembers literal) =
      [] ++ { name := .plain "compression".toList,
              value := .string literal } :: (boundMembers literal).tail := rfl
  rw [boundText_eq, settingsTail_eq literal, first, Json.Layout.text_objectOf]
  generalize (boundMembers literal).tail = others
  rw [Json.Member.text, Json.Layout.text, Json.Literal.text,
    Json.Literal.text, name]
  simp [Json.noBlank]

theorem memberOf_cons_of_ne {first : Text × Json.Value} {name : String}
    (other : first.1 ≠ name.toList) (members : List (Text × Json.Value)) :
    memberOf (first :: members) name = memberOf members name := by
  unfold memberOf
  rw [List.find?_cons_of_neg (by simpa using other)]

theorem memberOf_cons_self (name : String) (value : Json.Value)
    (members : List (Text × Json.Value)) :
    memberOf ((name.toList, value) :: members) name = some value := by
  unfold memberOf
  rw [List.find?_cons_of_pos (by simp)]
  rfl

theorem member_cons_of_ne {first : Text × Json.Value} {name : String}
    (other : first.1 ≠ name.toList) (members : List (Text × Json.Value)) :
    (∀ missing, textMember (first :: members) name missing =
        textMember members name missing) ∧
      (∀ missing, intMember (first :: members) name missing =
        intMember members name missing) ∧
      ∀ missing, boolMember (first :: members) name missing =
        boolMember members name missing := by
  unfold textMember intMember boolMember
  rw [memberOf_cons_of_ne other]
  exact ⟨fun _ => rfl, fun _ => rfl, fun _ => rfl⟩

theorem settingsOf_bound (literal : Json.Literal) :
    settingsOf ((boundMembers literal).map Json.Member.meaning) =
      some { compression := String.ofList literal.value } := by
  have name : Json.Literal.value (.plain "compression".toList) =
      "compression".toList := Json.Literal.value_plain (by decide +kernel)
  have meanings : (boundMembers literal).map Json.Member.meaning =
      ("compression".toList, .string literal.value) ::
        (boundMembers []).tail.map Json.Member.meaning := by
    rw [boundMembers, List.map_cons, Json.Member.meaning, name]
    rfl
  have compression : textMember
      (("compression".toList, .string literal.value) ::
        (boundMembers []).tail.map Json.Member.meaning) "compression"
          "lossless" = some (String.ofList literal.value) := by
    unfold textMember
    rw [memberOf_cons_self]
  have others (other : String)
      (different : "compression".toList ≠ other.toList) :=
    @member_cons_of_ne ("compression".toList, .string literal.value) other
      different ((boundMembers []).tail.map Json.Member.meaning)
  have previewMedium : textMember
      ((boundMembers []).tail.map Json.Member.meaning) "preview_medium"
        "1024x1024" = some "1024x1024" := by decide +kernel
  have previewFull : textMember
      ((boundMembers []).tail.map Json.Member.meaning) "preview_full"
        "4000x3000" = some "4000x3000" := by decide +kernel
  have version : textMember
      ((boundMembers []).tail.map Json.Member.meaning) "version"
        "1.4" = some "1.4" := by decide +kernel
  have jpegQuality : intMember
      ((boundMembers []).tail.map Json.Member.meaning) "jpeg_quality"
        92 = some 92 := by decide +kernel
  have linear : boolMember
      ((boundMembers []).tail.map Json.Member.meaning) "linear"
        false = some false := by decide +kernel
  rw [meanings]
  unfold settingsOf
  dsimp only
  rw [compression, (others "preview_medium" (by decide +kernel)).1,
    previewMedium, (others "preview_full" (by decide +kernel)).1,
    previewFull, (others "version" (by decide +kernel)).1, version,
    (others "jpeg_quality" (by decide +kernel)).2.1, jpegQuality,
    (others "linear" (by decide +kernel)).2.2, linear]
  rfl

/-- A literal in the place of the compression is what the text gives. -/
theorem gives_boundText (literal : Json.Literal) :
    Gives (String.ofList (boundText literal.raw))
      { compression := String.ofList literal.value } := by
  refine ⟨(boundMembers literal).map Json.Member.meaning, ?_,
    settingsOf_bound literal⟩
  refine ⟨⟨Json.noBlank, .objectOf Json.noBlank (boundMembers literal),
    Json.noBlank⟩, ?_, ?_⟩
  · rw [String.toList_ofList, ← boundText_raw]
    simp [Json.Document.text, Json.noBlank]
  · rw [Json.Document.value, Json.Layout.value_objectOf]

/-- The compression of a JSON text is a literal, with whitespace, a comma or a
brace behind it. -/
theorem literal_of_accepts {behind : Text}
    (accepts : Json.Accepts ("\x7b\"compression\":\"".toList ++ behind)) :
    ∃ literal c rest, Json.parseLiteral behind = some (literal, c :: rest) ∧
      (Json.isBlank c = true ∨ c = ',' ∨ c = '\x7d') := by
  have name : Json.Literal.raw (.plain "compression".toList) =
      "compression".toList := Json.Literal.raw_plain (by decide +kernel)
  have split : "\x7b\"compression\":\"".toList ++ behind =
      '\x7b' :: '"' :: (Json.Literal.raw (.plain "compression".toList) ++
        '"' :: ':' :: '"' :: behind) := by
    rw [name]
    simp
  obtain ⟨document, text⟩ := accepts
  have parsed := Json.parse_text document
  rw [text, split] at parsed
  obtain ⟨members, after, read⟩ := Json.parse_brace rfl (by decide) parsed
  exact Json.parseMembers_string read

theorem not_gives_boundText {compression : Text}
    {settings : ConversionSettings}
    (broken : ∀ literal c rest,
      Json.parseLiteral (compression ++ settingsTail) =
        some (literal, c :: rest) →
      ¬(Json.isBlank c = true ∨ c = ',' ∨ c = '\x7d')) :
    ¬Gives (String.ofList (boundText compression)) settings := by
  intro gives
  obtain ⟨members, denotes, -⟩ := gives
  have accepts := denotes.accepts
  rw [String.toList_ofList, boundText_eq] at accepts
  obtain ⟨literal, c, rest, read, ends⟩ := literal_of_accepts accepts
  exact broken literal c rest read ends

theorem not_gives_line {c : Char} (line : c = '\n' ∨ c = '\r') (rest : Text)
    (settings : ConversionSettings) :
    ¬Gives (String.ofList (boundText (c :: rest))) settings := by
  apply not_gives_boundText
  intro literal d behind read
  rw [List.cons_append] at read
  rcases line with equal | equal
  · subst equal
    cases read
  · subst equal
    cases read

theorem quoteMark_isEscape : Json.isEscape '"' = true := by decide

theorem comma_isUnescaped : Json.isUnescaped ',' = true := by decide

/-- Cut behind the backslash of an escaped quote, the text runs into the next
member. -/
theorem not_gives_cut (literal : Json.Literal)
    (settings : ConversionSettings) :
    ¬Gives (String.ofList (boundText (literal.raw ++ ['\\']))) settings := by
  apply not_gives_boundText
  intro other c rest read
  have tail : settingsTail = '"' :: ',' :: '"' :: 'p' ::
      settingsTail.drop 4 := by decide +kernel
  have longer : literal.raw ++ ['\\'] ++ settingsTail =
      Json.Literal.raw (literal ++
        [.escape ⟨'"', quoteMark_isEscape⟩,
          .plain ⟨',', comma_isUnescaped⟩]) ++
        '"' :: 'p' :: settingsTail.drop 4 := by
    rw [tail, Json.Literal.raw, Json.Literal.raw, List.flatMap_append]
    simp [Json.Piece.raw]
  rw [longer, Json.parseLiteral_raw] at read
  cases read
  decide

theorem cut_at_quote {literal : Json.Literal} (quote : '"' ∈ literal.raw)
    (rest : Text) :
    ∃ front : Json.Literal,
      (literal.raw ++ rest).takeWhile (· != '"') = front.raw ++ ['\\'] := by
  induction literal with
  | nil => cases quote
  | cons piece literal ih =>
      rw [Json.Literal.raw_cons] at quote ⊢
      rw [List.append_assoc]
      by_cases here : '"' ∈ piece.raw
      · obtain ⟨c, equal, mark⟩ := Json.Piece.quote_mem_raw here
        refine ⟨[], ?_⟩
        rw [equal, Json.Piece.raw, mark]
        rfl
      · have later : '"' ∈ Json.Literal.raw literal := by
          rcases List.mem_append.mp quote with inside | behind
          · exact (here inside).elim
          · exact behind
        have passed : ∀ c ∈ piece.raw, (c != '"') = true := by
          intro c member
          apply bne_iff_ne.mpr
          intro equal
          exact here (equal ▸ member)
        obtain ⟨front, cut⟩ := ih later
        refine ⟨piece :: front, ?_⟩
        rw [List.takeWhile_append_of_pos passed, cut,
          Json.Literal.raw_cons, List.append_assoc]

end Api

end RawImport
