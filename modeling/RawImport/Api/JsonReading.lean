import RawImport.Api.Json
import RawImport.Lib.JsonSearch

/-!
# What `json_get` reads

The extractor as a function of the text behind the first place of the name in
quotes with its colon, and the same reading as a relation.
-/

namespace RawImport

namespace Api

open Cxx Search

def isSkipped (c : Char) : Bool := c == ' ' || c == '\t'

def isStop (c : Char) : Bool := c == ',' || c == '\x7d' || c == ' '

/-- What is read behind the skipped whitespace. -/
def readBare : Text → Text
  | '"' :: rest => if '"' ∈ rest then rest.takeWhile (· != '"') else []
  | text => text.takeWhile (!isStop ·)

def readBehind (behind : Text) : Text := readBare (behind.dropWhile isSkipped)

theorem dropWhile_eq_drop {p : Char → Bool} (text : Text) :
    text.dropWhile p = text.drop (text.takeWhile p).length := by
  induction text with
  | nil => rfl
  | cons c text ih =>
      cases holds : p c with
      | true => simp [holds, ih]
      | false => simp [holds]

theorem take_length_takeWhile {p : Char → Bool} (text : Text) :
    text.take (text.takeWhile p).length = text.takeWhile p :=
  (List.prefix_iff_eq_take.mp (List.takeWhile_prefix p)).symm

theorem find_char (c : Char) (text : Text) :
    find [c] text =
      if c ∈ text then some (text.takeWhile (· != c)).length else none := by
  induction text with
  | nil => rfl
  | cons d text ih =>
      unfold find
      by_cases equal : c = d
      · subst equal
        rw [if_pos (List.cons_prefix_cons.mpr ⟨rfl, List.nil_prefix⟩),
          if_pos List.mem_cons_self]
        simp
      · have other : ¬[c] <+: d :: text := fun stands =>
          equal (List.cons_prefix_cons.mp stands).1
        have differs : (d != c) = true := bne_iff_ne.mpr (Ne.symm equal)
        rw [if_neg other, ih]
        by_cases member : c ∈ text
        · rw [if_pos member, if_pos (List.mem_cons_of_mem d member)]
          simp [differs]
        · rw [if_neg member, if_neg]
          · rfl
          · intro inside
            cases inside with
            | head => exact equal rfl
            | tail _ later => exact member later

theorem substr_quoted {body rest : Text} {pos : Nat}
    (here : body.drop pos = '"' :: rest) (fits : body.length < 2 ^ 64) :
    (match findFrom ['"'] body (pos + 1) with
      | none => .ok []
      | some end' => substr body (pos + 1) (sizeSub (sizeSub end' pos) 1)) =
      (.ok (readBare ('"' :: rest)) : Except StdException Text) := by
  have length := congrArg List.length here
  rw [List.length_drop, List.length_cons] at length
  have behind : body.drop (pos + 1) = rest := by
    rw [← List.drop_drop, here]
    rfl
  have inside : pos + 1 ≤ body.length := by omega
  have search : findFrom ['"'] body (pos + 1) =
      (find ['"'] rest).map (pos + 1 + ·) := by
    unfold findFrom
    rw [if_pos inside, behind]
  rw [search, find_char, readBare]
  by_cases member : '"' ∈ rest
  · rw [if_pos member, if_pos member]
    have short : (rest.takeWhile (· != '"')).length ≤ rest.length :=
      (List.takeWhile_prefix _).length_le
    have inner : sizeSub (pos + 1 + (rest.takeWhile (· != '"')).length) pos =
        (rest.takeWhile (· != '"')).length + 1 := by
      rw [sizeSub_of_le (by omega) (by omega)]
      omega
    have count : sizeSub ((rest.takeWhile (· != '"')).length + 1) 1 =
        (rest.takeWhile (· != '"')).length :=
      sizeSub_of_le (by omega) (by omega)
    rw [Option.map_some]
    dsimp only
    rw [inner, count, substr_ok inside, behind, take_length_takeWhile]
  · rw [if_neg member, if_neg member]
    rfl

theorem jsonGet_eq {body : Text} (fits : body.length < 2 ^ 64) (key : Text) :
    jsonGet body key = .ok ((find (Json.spelled key) body).elim []
      fun found =>
        readBehind (body.drop (found + (Json.spelled key).length))) := by
  have skipped : (fun c : Char => c == ' ' || c == '\t') = isSkipped := rfl
  have stops : (fun c : Char => c != ',' && c != '\x7d' && c != ' ') =
      (!isStop ·) := by
    funext c
    simp [isStop, bne]
  have pattern : '"' :: key ++ "\":".toList = Json.spelled key := rfl
  unfold jsonGet
  dsimp only
  rw [skipped, stops, pattern]
  cases occurs : find (Json.spelled key) body with
  | none => rfl
  | some found =>
      have place : body.drop (skipWhile isSkipped body
          (found + (Json.spelled key).length)) =
            (body.drop (found + (Json.spelled key).length)).dropWhile
              isSkipped := by
        rw [dropWhile_eq_drop, List.drop_drop]
        rfl
      rw [Option.elim_some, readBehind, ← place]
      dsimp only
      generalize skipWhile isSkipped body
        (found + (Json.spelled key).length) = pos
      split
      · rename_i nothing
        have empty : body.drop pos = [] :=
          List.drop_eq_nil_of_le (List.getElem?_eq_none_iff.mp nothing)
        rw [empty]
        rfl
      · rename_i quote
        obtain ⟨inside, equal⟩ := List.getElem?_eq_some_iff.mp quote
        have here : body.drop pos = '"' :: body.drop (pos + 1) := by
          rw [List.drop_eq_getElem_cons inside, equal]
        rw [here]
        exact substr_quoted here fits
      · rename_i c other here
        obtain ⟨inside, equal⟩ := List.getElem?_eq_some_iff.mp here
        have starts : body.drop pos = c :: body.drop (pos + 1) := by
          rw [List.drop_eq_getElem_cons inside, equal]
        have bare : readBare (body.drop pos) =
            (body.drop pos).takeWhile (!isStop ·) := by
          rw [starts]
          unfold readBare
          split
          · rename_i quoted
            cases quoted
            exact (other rfl).elim
          · rfl
        have short :=
          (List.takeWhile_prefix (l := body.drop pos) (!isStop ·)).length_le
        rw [List.length_drop] at short
        have count : sizeSub (skipWhile (!isStop ·) body pos) pos =
            ((body.drop pos).takeWhile (!isStop ·)).length := by
          unfold skipWhile
          rw [sizeSub_of_le (by omega) (by omega)]
          omega
        rw [bare, count, substr_ok (Nat.le_of_lt inside),
          take_length_takeWhile]

/-- Up to the first quote a literal shows its string when nothing is
escaped. -/
theorem takeWhile_raw_iff (literal : Json.Literal) (rest : Text) :
    (literal.raw ++ '"' :: rest).takeWhile (· != '"') = literal.value ↔
      literal.all Json.Piece.isPlain = true := by
  by_cases quote : '"' ∈ literal.raw
  · constructor
    · intro equal
      have member : '"' ∈
          (literal.raw ++ '"' :: rest).takeWhile (· != '"') := by
        rw [equal]
        exact Json.Literal.quote_mem_value quote
      have other := List.mem_takeWhile_imp member
      simp at other
    · intro plain
      exact absurd quote (Json.Literal.quote_not_mem_raw plain)
  · have unquoted : ∀ c ∈ literal.raw, (c != '"') = true := by
      intro c member
      apply bne_iff_ne.mpr
      intro equal
      exact quote (equal ▸ member)
    rw [List.takeWhile_append_of_pos unquoted,
      List.takeWhile_cons_of_neg (by simp), List.append_nil]
    constructor
    · intro equal
      cases plain : literal.all Json.Piece.isPlain with
      | true => rfl
      | false =>
          have longer := Json.Literal.length_value_lt plain
          rw [equal] at longer
          exact absurd longer (Nat.lt_irrefl _)
    · intro plain
      exact (Json.Literal.value_eq_raw plain).symm

theorem readBehind_append {skipped : Text}
    (all : ∀ c ∈ skipped, isSkipped c = true) (rest : Text) :
    readBehind (skipped ++ rest) = readBehind rest := by
  unfold readBehind
  rw [List.dropWhile_append_of_pos all]

theorem readBehind_cons {c : Char} (clear : isSkipped c = false)
    (rest : Text) : readBehind (c :: rest) = readBare (c :: rest) := by
  unfold readBehind
  rw [List.dropWhile_cons_of_neg (by simp [clear])]

theorem readBare_cons {c : Char} (other : c ≠ '"') (rest : Text) :
    readBare (c :: rest) = (c :: rest).takeWhile (!isStop ·) := by
  unfold readBare
  split
  · rename_i quoted
    cases quoted
    exact (other rfl).elim
  · rfl

theorem readBehind_string (literal : Json.Literal) (rest : Text) :
    readBehind (literal.text ++ rest) =
      (literal.raw ++ '"' :: rest).takeWhile (· != '"') := by
  rw [Json.Literal.text, List.cons_append, List.cons_append,
    readBehind_cons rfl, List.append_assoc, List.singleton_append, readBare,
    if_pos]
  exact List.mem_append_right _ List.mem_cons_self

/-- What a text behind a colon shows, whatever it is there for. -/
inductive Shows : Text → Text → Prop where
  | skipped {c : Char} {behind value : Text} :
      isSkipped c = true → Shows behind value → Shows (c :: behind) value
  | quoted {value : Text} (rest : Text) :
      '"' ∉ value → Shows ('"' :: (value ++ '"' :: rest)) value
  | unclosed {rest : Text} : '"' ∉ rest → Shows ('"' :: rest) []
  | bare {value rest : Text} :
      (∀ c ∈ (value ++ rest).head?, isSkipped c = false ∧ c ≠ '"') →
      (∀ c ∈ value, isStop c = false) →
      (∀ c ∈ rest.head?, isStop c = true) → Shows (value ++ rest) value

theorem readBehind_of_shows {behind value : Text}
    (shows' : Shows behind value) : readBehind behind = value := by
  induction shows' with
  | skipped skipped _ ih =>
      rw [← List.singleton_append, readBehind_append (by simpa), ih]
  | @quoted value rest absent =>
      rw [readBehind_cons rfl, readBare,
        if_pos (List.mem_append_right _ List.mem_cons_self)]
      have passed : ∀ c ∈ value, (c != '"') = true := by
        intro c member
        apply bne_iff_ne.mpr
        intro equal
        exact absent (equal ▸ member)
      rw [List.takeWhile_append_of_pos passed,
        List.takeWhile_cons_of_neg (by decide), List.append_nil]
  | unclosed absent => rw [readBehind_cons rfl, readBare, if_neg absent]
  | @bare value rest starts shown stops =>
      have read : readBehind (value ++ rest) =
          (value ++ rest).takeWhile (!isStop ·) := by
        cases text : value ++ rest with
        | nil => rfl
        | cons c more =>
            rw [text] at starts
            have first := starts c rfl
            rw [readBehind_cons first.1, readBare_cons first.2]
      have passed : ∀ c ∈ value, (!isStop c) = true := by
        intro c member
        rw [shown c member]
        rfl
      rw [read, List.takeWhile_append_of_pos passed]
      cases rest with
      | nil => simp
      | cons c rest => simp [stops c rfl]

theorem shows_readBare {text : Text}
    (clear : ∀ c ∈ text.head?, isSkipped c = false) :
    Shows text (readBare text) := by
  by_cases quoted : ∃ rest, text = '"' :: rest
  · obtain ⟨rest, rfl⟩ := quoted
    rw [readBare]
    by_cases member : '"' ∈ rest
    · rw [if_pos member]
      obtain ⟨value, more, split, absent⟩ :=
        List.eq_append_cons_of_mem member
      have passed : ∀ c ∈ value, (c != '"') = true := by
        intro c inside
        apply bne_iff_ne.mpr
        intro equal
        exact absent (equal ▸ inside)
      rw [split, List.takeWhile_append_of_pos passed,
        List.takeWhile_cons_of_neg (by decide), List.append_nil]
      exact .quoted more absent
    · rw [if_neg member]
      exact .unclosed member
  · have bare : readBare text = text.takeWhile (!isStop ·) := by
      cases text with
      | nil => rfl
      | cons c rest =>
          exact readBare_cons (fun equal => quoted ⟨rest, by rw [equal]⟩) rest
    rw [bare]
    have whole := List.takeWhile_append_dropWhile
      (p := fun c => !isStop c) (l := text)
    have shown := @Shows.bare (text.takeWhile (!isStop ·))
      (text.dropWhile (!isStop ·))
    rw [whole] at shown
    apply shown
    · intro c head
      refine ⟨clear c head, ?_⟩
      intro equal
      subst equal
      cases text with
      | nil => cases head
      | cons d rest =>
          have same : d = '"' := by simpa using head
          exact quoted ⟨rest, by rw [same]⟩
    · intro c inside
      have passed := List.mem_takeWhile_imp inside
      simpa using passed
    · intro c head
      have stops := List.head?_dropWhile_not (fun c => !isStop c) text
      rw [head] at stops
      simpa using stops

theorem shows_iff {behind value : Text} :
    Shows behind value ↔ readBehind behind = value := by
  constructor
  · exact readBehind_of_shows
  · intro equal
    rw [← equal, readBehind]
    induction behind generalizing value with
    | nil => exact shows_readBare (by simp)
    | cons c behind ih =>
        cases skipped : isSkipped c with
        | true =>
            rw [List.dropWhile_cons_of_pos skipped]
            exact .skipped skipped (ih rfl)
        | false =>
            rw [List.dropWhile_cons_of_neg (by simp [skipped])]
            apply shows_readBare
            intro d head
            have same : c = d := by simpa using head
            rw [← same]
            exact skipped

theorem break_of_not_skipped {blank : Json.Blank} {c : Char}
    (member : c ∈ blank.val) (clear : isSkipped c = false) :
    c = '\n' ∨ c = '\r' := by
  have legal := List.all_eq_true.mp blank.property c member
  unfold Json.isBlank at legal
  unfold isSkipped at clear
  simp only [Bool.or_eq_true, beq_iff_eq] at legal
  simp only [Bool.or_eq_false_iff, beq_eq_false_iff_ne] at clear
  rcases legal with ((equal | equal) | equal) | equal
  · exact (clear.1 equal).elim
  · exact (clear.2 equal).elim
  · exact .inl equal
  · exact .inr equal

theorem line_ne {c : Char} (line : c = '\n' ∨ c = '\r') (other : Char)
    (different : other ≠ '\n' ∧ other ≠ '\r') : c ≠ other := by
  intro equal
  rcases line with break' | return'
  · exact different.1 (equal.symm.trans break')
  · exact different.2 (equal.symm.trans return')

/-- A line break behind the colon is read as the start of the value. -/
theorem readBehind_blank (blank : Json.Blank) (rest : Text) :
    ((∀ c ∈ blank.val, isSkipped c = true) ∧
        readBehind (blank.val ++ rest) = readBehind rest) ∨
      ((∃ c ∈ blank.val, isSkipped c = false) ∧
        ∃ c more, (c = '\n' ∨ c = '\r') ∧
          readBehind (blank.val ++ rest) = c :: more) := by
  by_cases skipped : ∀ c ∈ blank.val, isSkipped c = true
  · exact .inl ⟨skipped, readBehind_append skipped rest⟩
  · right
    have whole := List.takeWhile_append_dropWhile
      (p := isSkipped) (l := blank.val)
    cases behind : blank.val.dropWhile isSkipped with
    | nil => exact absurd (List.dropWhile_eq_nil_iff.mp behind) skipped
    | cons first tail =>
        rw [behind] at whole
        have clear : isSkipped first = false := by
          have head := List.head?_dropWhile_not isSkipped blank.val
          rw [behind] at head
          simpa using head
        have inside : first ∈ blank.val := by
          rw [← whole]
          exact List.mem_append_right _ List.mem_cons_self
        have line := break_of_not_skipped inside clear
        have shown : isStop first = false := by
          rcases line with equal | equal <;> rw [equal] <;> decide
        have front : ∀ c ∈ blank.val.takeWhile isSkipped,
            isSkipped c = true := fun c member => List.mem_takeWhile_imp member
        refine ⟨⟨first, inside, clear⟩, first,
          (tail ++ rest).takeWhile (!isStop ·), line, ?_⟩
        rw [← whole, List.append_assoc, readBehind_append front,
          List.cons_append, readBehind_cons clear,
          readBare_cons (line_ne line '"' (by decide)),
          List.takeWhile_cons_of_pos (by rw [shown]; rfl)]

end Api

end RawImport
