import RawImport.Store.SplitSql

/-!
# `split_sql` and the comments of a script

The server reads `-- ` and `/* */` comments apart from the statements;
`split_sql` reads them like the rest of the text.  Its entries are the
statements exactly when this makes no difference to any `;` and no piece of the
script consists of comments alone.
-/

namespace RawImport

namespace Migrations

open Cutting Trim
open Cxx (isSpace)

/-- Where the lexer stands. -/
inductive Lexis where
  | code
  | literal (quote : Char)
  | escape (quote : Char)
  | identifier
  | line
  | opening
  | block
  | closing
  deriving DecidableEq

/-- What a character is part of. -/
inductive Mark where
  | code | comment | separator | foreign
  deriving DecidableEq

/-- The rest of the two hyphens and the blank or control character that begin a
line comment; the end of the text will do as well. -/
def startsLine : Text → Bool
  | '-' :: c :: _ => isSpace c || decide (c.toNat < 32) || c == '\x7f'
  | ['-'] => true
  | _ => false

/-- The rest of the opening of a comment that the server executes. -/
def executable : Text → Bool
  | '*' :: '!' :: _ => true
  | '*' :: 'M' :: '!' :: _ => true
  | _ => false

def Lexis.next (lexis : Lexis) (c : Char) (rest : Text) : Lexis :=
  match lexis with
  | .code =>
      if c = '\'' ∨ c = '"' then .literal c
      else if c = '\x60' then .identifier
      else if c = '-' ∧ startsLine rest = true then .line
      else if c = '/' ∧ rest.head? = some '*' then .opening
      else .code
  | .literal quote =>
      if c = '\\' then .escape quote
      else if c = quote then .code
      else .literal quote
  | .escape quote => .literal quote
  | .identifier => if c = '\x60' then .code else .identifier
  | .line => if c = '\n' then .code else .line
  | .opening => .block
  | .block =>
      if c = '*' ∧ rest.head? = some '/' then .closing else .block
  | .closing => .code

def Lexis.mark (lexis : Lexis) (c : Char) (rest : Text) : Mark :=
  match lexis with
  | .code =>
      if c = ';' then .separator
      else if c = '-' ∧ startsLine rest = true then .comment
      else if c = '/' ∧ executable rest = true then .foreign
      else if c = '/' ∧ rest.head? = some '*' then .comment
      else if c = '#' then .foreign
      else .code
  | .literal _ | .escape _ | .identifier => .code
  | .line | .opening | .block | .closing => .comment

def lex (lexis : Lexis) : Text → List (Char × Mark)
  | [] => []
  | c :: rest => (c, lexis.mark c rest) :: lex (lexis.next c rest) rest

/-- Where the lexer stands at the end of a text. -/
def lexEnd (lexis : Lexis) : Text → Lexis
  | [] => lexis
  | c :: rest => lexEnd (lexis.next c rest) rest

/-- A script of statements and of line and block comments: every literal,
identifier and block comment is closed, and there are no comments of another
kind. -/
structure Script where
  text : Text
  complete : lexEnd .code text = .code ∨ lexEnd .code text = .line
  plain : ∀ entry ∈ lex .code text, entry.2 ≠ .foreign

def lexPieces (text : Text) : List (List (Char × Mark)) :=
  (lex .code text).splitOnP fun entry => entry.2 == .separator

def pieceText (piece : List (Char × Mark)) : Text :=
  piece.map Prod.fst

/-- Something that is neither blank nor a comment. -/
def holdsStatement (piece : List (Char × Mark)) : Bool :=
  piece.any fun entry => entry.2 == .code && !isSpace entry.1

/-- The statements of a script, each with its whole text up to its `;` or the
end, as far as it is not blank. -/
def statements (text : Text) : List Text :=
  ((lexPieces text).filter holdsStatement).map fun piece =>
    trim (pieceText piece)

/-- What may stand between two quotes. -/
inductive Quoted (quote : Char) : Text → Prop where
  | nil : Quoted quote []
  | plain {c : Char} {rest : Text} : c ≠ quote → c ≠ '\\' →
      Quoted quote rest → Quoted quote (c :: rest)
  | escaped {c : Char} {rest : Text} :
      Quoted quote rest → Quoted quote ('\\' :: c :: rest)

def IsQuote (c : Char) : Prop :=
  c = '\'' ∨ c = '"' ∨ c = '\x60'

instance (c : Char) : Decidable (IsQuote c) :=
  inferInstanceAs (Decidable (_ ∨ _))

/-- A text whose quotes pair up and whose escapes are complete, comments read
like the rest. -/
inductive Paired : Text → Prop where
  | nil : Paired []
  | plain {c : Char} {rest : Text} : ¬IsQuote c → c ≠ '\\' →
      Paired rest → Paired (c :: rest)
  | escaped {c : Char} {rest : Text} :
      Paired rest → Paired ('\\' :: c :: rest)
  | quoted {quote : Char} {body rest : Text} : IsQuote quote →
      Quoted quote body → Paired rest → Paired (quote :: (body ++ quote :: rest))

/-- A `;` separates statements exactly where the quotes and escapes in front of
it pair up. -/
def SeparatorsPaired (text : Text) : Prop :=
  ∀ front back, text = front ++ ';' :: back →
    (Paired front ↔
      (lex .code text)[front.length]? = some (';', .separator))

/-- Between two separators there are not comments alone. -/
def CommentsAttached (text : Text) : Prop :=
  ∀ piece ∈ lexPieces text, trim (pieceText piece) ≠ [] →
    holdsStatement piece = true

theorem Quoted.foldl_read {quote : Char} {body : Text}
    (quoted : Quoted quote body) :
    body.foldl Reading.read ⟨some quote, false⟩ = ⟨some quote, false⟩ := by
  induction quoted with
  | nil => rfl
  | plain different notEscape _ ih =>
      rw [List.foldl_cons]
      simpa [Reading.read, different, notEscape] using ih
  | escaped _ ih =>
      rw [List.foldl_cons, List.foldl_cons]
      simpa [Reading.read] using ih

theorem read_plain {c : Char} (notQuote : ¬IsQuote c)
    (notEscape : c ≠ '\\') : Reading.read {} c = {} := by
  unfold IsQuote at notQuote
  simp [Reading.read, notEscape, notQuote]

theorem read_quote {c : Char} (quote : IsQuote c) :
    Reading.read {} c = ⟨some c, false⟩ ∧
      Reading.read ⟨some c, false⟩ c = {} := by
  have notEscape : c ≠ '\\' := by
    rintro rfl
    exact absurd quote (by decide)
  constructor
  · unfold IsQuote at quote
    simp [Reading.read, notEscape, quote]
  · simp [Reading.read, notEscape]

theorem Paired.foldl_read {text : Text} (paired : Paired text) :
    text.foldl Reading.read {} = {} := by
  induction paired with
  | nil => rfl
  | plain notQuote notEscape _ ih =>
      rw [List.foldl_cons, read_plain notQuote notEscape]
      exact ih
  | escaped _ ih =>
      rw [List.foldl_cons, List.foldl_cons]
      exact ih
  | quoted quote body _ ih =>
      obtain ⟨opens, closes⟩ := read_quote quote
      rw [List.foldl_cons, opens, List.foldl_append, body.foldl_read,
        List.foldl_cons, closes]
      exact ih

/-- A quote that is closed at the end of a text is closed somewhere. -/
theorem quoted_of_foldl {quote : Char} (size : Nat) {text : Text}
    (small : text.length ≤ size)
    (closed : text.foldl Reading.read ⟨some quote, false⟩ = {}) :
    ∃ body rest, text = body ++ quote :: rest ∧ Quoted quote body ∧
      rest.foldl Reading.read {} = {} := by
  induction size generalizing text with
  | zero =>
      rw [List.length_eq_zero_iff.mp (Nat.le_zero.mp small)] at closed
      cases closed
  | succ size ih =>
      cases text with
      | nil => cases closed
      | cons c text =>
          by_cases escape : c = '\\'
          · subst escape
            cases text with
            | nil => cases closed
            | cons d text =>
                have later : text.foldl Reading.read ⟨some quote, false⟩ =
                    {} := closed
                obtain ⟨body, rest, rfl, quoted, ends⟩ := ih (by
                  rw [List.length_cons, List.length_cons] at small
                  omega) later
                exact ⟨_, rest, rfl, .escaped quoted, ends⟩
          · rw [List.foldl_cons] at closed
            by_cases here : c = quote
            · subst here
              have outside : Reading.read ⟨some c, false⟩ c = {} := by
                simp [Reading.read, escape]
              rw [outside] at closed
              exact ⟨[], text, rfl, .nil, closed⟩
            · have inside : Reading.read ⟨some quote, false⟩ c =
                  ⟨some quote, false⟩ := by
                simp [Reading.read, escape, here]
              rw [inside] at closed
              obtain ⟨body, rest, rfl, quoted, ends⟩ :=
                ih (Nat.le_of_succ_le_succ small) closed
              exact ⟨_, rest, rfl, .plain here escape quoted, ends⟩

theorem paired_of_foldl (size : Nat) {text : Text}
    (small : text.length ≤ size)
    (closed : text.foldl Reading.read {} = {}) : Paired text := by
  induction size generalizing text with
  | zero =>
      rw [List.length_eq_zero_iff.mp (Nat.le_zero.mp small)]
      exact .nil
  | succ size ih =>
      cases text with
      | nil => exact .nil
      | cons c text =>
          have shorter : text.length ≤ size := Nat.le_of_succ_le_succ small
          by_cases escape : c = '\\'
          · subst escape
            cases text with
            | nil => cases closed
            | cons d text =>
                have later : text.foldl Reading.read {} = {} := closed
                exact .escaped (ih ((Nat.le_succ _).trans shorter) later)
          · rw [List.foldl_cons] at closed
            by_cases quote : IsQuote c
            · rw [(read_quote quote).1] at closed
              obtain ⟨body, rest, rfl, quoted, ends⟩ :=
                quoted_of_foldl size shorter closed
              refine .quoted quote quoted (ih ?_ ends)
              rw [List.length_append, List.length_cons] at shorter
              omega
            · rw [read_plain quote escape] at closed
              exact .plain quote escape (ih shorter closed)

/-- The automaton is back in its first state exactly behind a text whose quotes
and escapes pair up. -/
theorem paired_iff {text : Text} :
    Paired text ↔ text.foldl Reading.read {} = {} :=
  ⟨Paired.foldl_read, paired_of_foldl text.length (Nat.le_refl _)⟩

def lexMarks (text : Text) : List (Char × Bool) :=
  scan Lexis.next (fun lexis c rest => lexis.mark c rest == .separator) .code
    text

theorem marks_eq_scan (reading : Reading) (text : Text) :
    marks reading text =
      scan (fun reading c _ => reading.read c)
        (fun reading c _ => decide (reading = {} ∧ c = ';')) reading text := by
  induction text generalizing reading with
  | nil => rfl
  | cons c text ih => exact congrArg (List.cons _) (ih (reading.read c))

theorem lexMarks_eq (text : Text) :
    lexMarks text =
      (lex .code text).map fun entry => (entry.1, entry.2 == .separator) := by
  have from' : ∀ lexis, scan Lexis.next
      (fun lexis c rest => lexis.mark c rest == .separator) lexis text =
        (lex lexis text).map
          fun entry => (entry.1, entry.2 == .separator) := by
    induction text with
    | nil => exact fun _ => rfl
    | cons c text ih =>
        intro lexis
        exact congrArg (List.cons _) (ih (lexis.next c text))
  exact from' .code

theorem mark_separator {lexis : Lexis} {c : Char} {rest : Text}
    (separates : (lexis.mark c rest == .separator) = true) :
    lexis = .code ∧ c = ';' := by
  rw [beq_iff_eq] at separates
  cases lexis with
  | code =>
      refine ⟨rfl, ?_⟩
      unfold Lexis.mark at separates
      dsimp only at separates
      split at separates
      · assumption
      · split at separates
        · cases separates
        · split at separates
          · cases separates
          · split at separates
            · cases separates
            · split at separates <;> cases separates
  | _ => cases separates

theorem lexMarks_separator (text : Text) :
    ∀ entry ∈ lexMarks text, entry.2 = true → entry.1 = ';' :=
  scan_separator Lexis.next
    (fun lexis c rest => lexis.mark c rest == .separator)
    (fun _ _ _ separates => (mark_separator separates).2) Lexis.code text

theorem marks_separator (text : Text) :
    ∀ entry ∈ marks {} text, entry.2 = true → entry.1 = ';' := by
  rw [marks_eq_scan]
  refine scan_separator _ _ ?_ _ text
  intro reading c rest separates
  exact (of_decide_eq_true separates).2

theorem prompt_marks (text : Text) :
    Prompt isSpace ';' [] (marks {} text) := by
  rw [marks_eq_scan]
  refine prompt_scan _ _ ?_ ?_ ?_ (fun _ => rfl) (by simp) text
  · intro c rest blank
    exact (read_blank blank).1
  · intro c rest unmarked separator
    exact of_decide_eq_false unmarked ⟨rfl, separator⟩
  · intro reading c rest separates
    obtain ⟨rfl, rfl⟩ := of_decide_eq_true separates
    rfl

theorem prompt_lexMarks (text : Text) :
    Prompt isSpace ';' [] (lexMarks text) := by
  refine prompt_scan _ _ ?_ ?_ ?_ (fun _ => rfl) (by simp) text
  · intro c rest blank
    simp only [isSpace, Bool.or_eq_true, beq_iff_eq] at blank
    rcases blank with ((((rfl | rfl) | rfl) | rfl) | rfl) | rfl <;>
      simp [Lexis.next]
  · rintro c rest unmarked rfl
    simp [Lexis.mark] at unmarked
  · intro lexis c rest separates
    obtain ⟨rfl, rfl⟩ := mark_separator separates
    simp [Lexis.next]

theorem pieces_lexMarks (text : Text) :
    pieces (lexMarks text) = (lexPieces text).map pieceText := by
  rw [lexMarks_eq, pieces, splitOnP_map, List.map_map]
  apply List.map_congr_left
  intro piece _
  simp [pieceText]

theorem getElem?_marks (front back : Text) :
    (marks {} (front ++ ';' :: back))[front.length]? =
      some (';', decide (front.foldl Reading.read {} = {})) := by
  have size : (marks {} front).length = front.length := by
    rw [← List.length_map Prod.fst, marks_fst]
  rw [marks_append, List.getElem?_append_right (Nat.le_of_eq size), size,
    Nat.sub_self]
  simp [marks]

theorem getElem?_lexMarks {text : Text} {index : Nat} :
    (lexMarks text)[index]? = some (';', true) ↔
      (lex .code text)[index]? = some (';', .separator) := by
  rw [lexMarks_eq, List.getElem?_map]
  cases (lex .code text)[index]? with
  | none => simp
  | some entry =>
      obtain ⟨c, mark⟩ := entry
      simp

/-- The two readings mark the same separators exactly when these pair up. -/
theorem marks_eq_iff (text : Text) :
    marks {} text = lexMarks text ↔ SeparatorsPaired text := by
  have pairs : ∀ front back, (marks {} (front ++ ';' :: back))[front.length]? =
      some (';', true) ↔ Paired front := by
    intro front back
    rw [getElem?_marks, paired_iff]
    simp
  constructor
  · rintro same front back rfl
    rw [← pairs front back, same]
    exact getElem?_lexMarks
  · intro paired
    have sameText : (lexMarks text).map Prod.fst = text :=
      scan_fst _ _ _ text
    refine marked_ext (by rw [marks_fst, sameText]) (marks_separator text)
      (lexMarks_separator text) ?_
    intro index
    by_cases here : text[index]? = some ';'
    · obtain ⟨inside, at_⟩ := List.getElem?_eq_some_iff.mp here
      have split : text = text.take index ++ ';' :: text.drop (index + 1) := by
        rw [← at_, ← List.drop_eq_getElem_cons inside, List.take_append_drop]
      have length : (text.take index).length = index := by
        rw [List.length_take]
        omega
      have marked := pairs (text.take index) (text.drop (index + 1))
      rw [← split, length] at marked
      have agreed := paired _ _ split
      rw [length] at agreed
      rw [marked, agreed, getElem?_lexMarks]
    · have elsewhere : ∀ {marked : List (Char × Bool)},
          marked.map Prod.fst = text → marked[index]? ≠ some (';', true) := by
        intro marked whole found
        apply here
        rw [← whole, List.getElem?_map, found]
        rfl
      exact iff_of_false (elsewhere (marks_fst _ _)) (elsewhere sameText)

/-- The entries of the lexer's reading are its pieces that are not blank. -/
theorem entries_lexMarks (text : Text) :
    entries isSpace (lexMarks text) =
      ((lexPieces text).filter fun piece =>
        !(trim (pieceText piece)).isEmpty).map
          fun piece => trim (pieceText piece) := by
  rw [entries, pieces_lexMarks, List.map_map, List.filter_map]
  rfl

theorem trim_ne_nil_of_holds {piece : List (Char × Mark)}
    (holds : holdsStatement piece = true) : trim (pieceText piece) ≠ [] := by
  intro empty
  obtain ⟨entry, member, both⟩ := List.any_eq_true.mp holds
  obtain ⟨-, present⟩ := Bool.and_eq_true_iff.mp both
  have nothing : solid isSpace (pieceText piece) = [] :=
    trim_eq_nil_iff.mp empty
  exact List.filter_eq_nil_iff.mp nothing entry.1
    (List.mem_map_of_mem member) present

/-- The statements are selected from the pieces that are not blank. -/
theorem statements_eq (text : Text) :
    statements text =
      (((lexPieces text).filter fun piece =>
        !(trim (pieceText piece)).isEmpty).filter holdsStatement).map
          fun piece => trim (pieceText piece) := by
  unfold statements
  rw [List.filter_filter]
  congr 1
  apply List.filter_congr
  intro piece _
  cases holds : holdsStatement piece with
  | false => rfl
  | true => simp [trim_ne_nil_of_holds holds]

/-- Where no comment stands alone, the statements are the entries of the
lexer's reading. -/
theorem statements_of_attached {text : Text}
    (attached : CommentsAttached text) :
    statements text = entries isSpace (lexMarks text) := by
  rw [statements_eq, entries_lexMarks]
  congr 1
  apply List.filter_eq_self.mpr
  intro piece member
  obtain ⟨listed, present⟩ := List.mem_filter.mp member
  exact attached piece listed (by simpa using present)

/-- Whatever the separators are, the entries weigh as much as the text. -/
theorem weight_entries {marked : List (Char × Bool)} {text : Text}
    (whole : marked.map Prod.fst = text)
    (separators : ∀ entry ∈ marked, entry.2 = true → entry.1 = ';') :
    ((entries isSpace marked).map (weight isSpace ';')).sum =
      weight isSpace ';' text := by
  rw [← weight_flatten, weight_congr (solid_entries marked),
    weight_unmarked separators, whole]

/-- Where the entries are the statements, no comment stands alone: it would be
part of an entry and of no statement. -/
theorem attached_of_splitSql {text : Text}
    (same : splitSql text = statements text) : CommentsAttached text := by
  have wholeMarks : (marks {} text).map Prod.fst = text := marks_fst {} text
  have wholeLex : (lexMarks text).map Prod.fst = text := scan_fst _ _ _ text
  have split := weight_entries wholeMarks (marks_separator text)
  have lexed := weight_entries wholeLex (lexMarks_separator text)
  rw [← splitSql_eq_entries, same, statements_eq, List.map_map] at split
  rw [entries_lexMarks, List.map_map] at lexed
  have kept := keep_of_sum_filter ?_ (split.trans lexed.symm)
  · intro piece listed present
    apply kept piece
    exact List.mem_filter.mpr ⟨listed, by simpa using present⟩
  · intro piece member
    obtain ⟨listed, present⟩ := List.mem_filter.mp member
    have solidTrim : solid isSpace (trim (pieceText piece)) =
        solid isSpace (pieceText piece) := solid_trim _
    apply weight_pos
    · intro empty
      rw [solidTrim] at empty
      have blank : trim (pieceText piece) = [] := trim_eq_nil_iff.mpr empty
      simp [blank] at present
    · rw [solidTrim]
      apply prompt_lexMarks text
      obtain ⟨first, others, pieces'⟩ :=
        List.exists_cons_of_ne_nil (pieces_ne_nil (lexMarks text))
      have inPieces : pieceText piece ∈ pieces (lexMarks text) := by
        rw [pieces_lexMarks]
        exact List.mem_map_of_mem listed
      rw [pieces'] at inPieces ⊢
      exact inPieces

/-- The entries of `split_sql` are the statements of a script exactly when every
`;` separates statements where the quotes and escapes in front of it pair up,
comments read like the rest, and no comment stands alone between two
separators. -/
theorem splitSql_statements_iff (script : Script) :
    splitSql script.text = statements script.text ↔
      SeparatorsPaired script.text ∧ CommentsAttached script.text := by
  have sameText : (marks {} script.text).map Prod.fst =
      (lexMarks script.text).map Prod.fst := by
    rw [marks_fst]
    exact (scan_fst _ _ _ _).symm
  constructor
  · intro same
    have attached := attached_of_splitSql same
    refine ⟨?_, attached⟩
    rw [splitSql_eq_entries, statements_of_attached attached,
      ← entriesFrom_nil, ← entriesFrom_nil] at same
    apply (marks_eq_iff script.text).mp
    exact marks_of_entries (by decide) sameText (marks_separator _)
      (lexMarks_separator _) (prompt_marks _) (prompt_lexMarks _) same
  · intro both
    obtain ⟨paired, attached⟩ := both
    rw [splitSql_eq_entries, (marks_eq_iff script.text).mpr paired,
      statements_of_attached attached]

/-- A script with an apostrophe in its first comment. -/
def apostrophe : Script where
  text := "-- it's new\nCREATE TABLE a (b INT);\nDROP TABLE c;".toList
  complete := by decide +kernel
  plain := by decide +kernel

/-- The apostrophe swallows the separators behind it. -/
theorem apostrophe_not_split :
    ¬∀ script : Script, splitSql script.text = statements script.text := by
  intro splits
  exact absurd (splits apostrophe) (by decide +kernel)

end Migrations

end RawImport
