import RawImport.Lib.HttpMessage
import RawImport.Lib.Numeral

/-!
# Messages cut short

A message whose header section announces the length of its body is put back
together from its text, and no proper prefix of it announces its own length.
-/

namespace Http

open Search

/-- `"\r\n\r\n"`. -/
def blank : List Char := "\r\n\r\n".toList

theorem assemble_cons (line : List Char) (headers : List (List Char))
    (body : List Char) :
    assemble (line :: headers) body =
      line ++ '\r' :: '\n' :: assemble headers body := by
  simp [assemble]

/-- The empty line does not stand at the end of a line with another one
behind it. -/
theorem find_blank_line {line : List Char} (clean : Clean line)
    (rest : List Char) :
    find blank ('\r' :: '\n' :: (line ++ rest)) =
      (find blank (line ++ rest)).map (· + 2) := by
  obtain ⟨nonempty, plain⟩ := clean
  cases line with
  | nil => exact (nonempty rfl).elim
  | cons c line =>
      have first : ¬blank <+: '\r' :: '\n' :: (c :: line ++ rest) := by
        intro stands
        apply plain
        have third := (List.cons_prefix_cons.mp stands).2
        have second := (List.cons_prefix_cons.mp third).2
        rw [← (List.cons_prefix_cons.mp second).1]
        exact List.mem_cons_self
      have second : ¬blank <+: '\n' :: (c :: line ++ rest) := by
        intro stands
        exact absurd (List.cons_prefix_cons.mp stands).1 (by decide)
      rw [find_cons first, find_cons second, Option.map_map]
      rfl

theorem exists_blank {line : List Char} {headers : List (List Char)}
    (clean : ∀ line' ∈ line :: headers, Clean line') (body : List Char) :
    ∃ front, assemble (line :: headers) body = front ++ (blank ++ body) ∧
      find blank (assemble (line :: headers) body) = some front.length := by
  induction headers generalizing line with
  | nil =>
      have own := clean line List.mem_cons_self
      have text : assemble [line] body = line ++ (blank ++ body) := by
        simp [assemble, blank]
      refine ⟨line, text, ?_⟩
      rw [text]
      exact find_of_not_mem body own.2
  | cons next headers ih =>
      have own := clean line List.mem_cons_self
      have others := fun line' member =>
        clean line' (List.mem_cons_of_mem line member)
      have second := others next List.mem_cons_self
      obtain ⟨front, text, found⟩ := ih others
      refine ⟨line ++ '\r' :: '\n' :: front, ?_, ?_⟩
      · rw [assemble_cons, text]
        simp
      · have passed : find blank (line ++ '\r' :: '\n' ::
            assemble (next :: headers) body) =
            (find blank ('\r' :: '\n' :: assemble (next :: headers)
              body)).map (line.length + ·) := find_pass own.2 _
        rw [assemble_cons, passed]
        rw [assemble_cons] at found ⊢
        rw [find_blank_line second, found]
        simp only [Option.map_some, List.length_append, List.length_cons]

theorem body_assemble {line : List Char} {headers : List (List Char)}
    (clean : ∀ line' ∈ line :: headers, Clean line') (content : List Char) :
    body (assemble (line :: headers) content) = content := by
  obtain ⟨front, text, found⟩ := exists_blank clean content
  have here : find "\r\n\r\n".toList (assemble (line :: headers) content) =
      some front.length := found
  unfold body
  rw [here, text]
  simp only
  rw [← List.append_assoc, List.drop_left']
  rw [List.length_append]
  rfl

theorem number_toString (n : Nat) : number (toString n).toList = some n := by
  have digits : (toString n).toList.all Char.isDigit = true :=
    List.all_eq_true.mpr fun c => Numeral.isDigit_of_mem_nat
  have nonempty : (toString n).toList ≠ [] := by
    rw [Numeral.toList_toString_nat]
    exact Nat.toDigits_ne_nil
  unfold number
  rw [if_pos ⟨nonempty, digits⟩, Numeral.toList_toString_nat,
    Nat.ofDigitChars_ten_toDigits]

/-- A message with one length field that tells the length of its body. -/
theorem sized_assemble {start line : List Char}
    {before after : List (List Char)} {f : Field}
    (clean : ∀ line' ∈ start :: (before ++ line :: after), Clean line')
    (parsed : field line = some f)
    (named : lower f.name = lower "Content-Length".toList)
    (other : ∀ line' ∈ before ++ after, ∀ f, field line' = some f →
      lower f.name ≠ lower "Content-Length".toList)
    {content : List Char}
    (announced : f.value = (toString content.length).toList) :
    Sized (assemble (start :: (before ++ line :: after)) content) := by
  obtain ⟨front, -, found⟩ := exists_blank clean content
  constructor
  · intro missing
    have here : find "\r\n\r\n".toList _ = some front.length := found
    rw [missing] at here
    cases here
  · rw [values_assemble clean parsed named other, body_assemble clean,
      announced, List.map_singleton, number_toString]

/-- Not at the front of a text, the empty line stands behind it. -/
theorem infix_tail {c : Char} {text : List Char}
    (stands : blank <:+: c :: text) (not : ¬blank <+: c :: text) :
    blank <:+: text :=
  (List.infix_cons_iff.mp stands).resolve_left not

/-- Behind an empty line further text starts no new header line. -/
theorem lines_append_of_blank {text : List Char} (stands : blank <:+: text)
    (more : List Char) :
    ∃ first rest rest', lines text = first :: rest ∧
      lines (text ++ more) = first :: rest' ∧
      rest.takeWhile (· ≠ []) = rest'.takeWhile (· ≠ []) := by
  induction text using lines.induct with
  | case1 =>
      have empty := List.infix_nil.mp stands
      exact absurd empty (by decide)
  | case2 rest ih =>
      refine ⟨[], lines rest, lines (rest ++ more), rfl, rfl, ?_⟩
      by_cases first : blank <+: '\r' :: '\n' :: rest
      · obtain ⟨behind, text⟩ := first
        have next : rest = '\r' :: '\n' :: behind := by
          have tails := congrArg (List.drop 2) text
          exact tails.symm
        rw [next]
        rfl
      · have second : ¬blank <+: '\n' :: rest := by
          intro here
          exact absurd (List.cons_prefix_cons.mp here).1 (by decide)
        obtain ⟨line, others, others', here, there, same⟩ :=
          ih (infix_tail (infix_tail stands first) second)
        rw [here, there, List.takeWhile_cons, List.takeWhile_cons, same]
  | case3 c rest plain none ih =>
      have first : ¬blank <+: c :: rest := by
        intro here
        obtain ⟨behind, text⟩ := here
        cases text
        exact plain _ rfl rfl
      obtain ⟨line, others, -, here, -⟩ :=
        ih (infix_tail stands first)
      rw [none] at here
      cases here
  | case4 c rest plain line others here ih =>
      have first : ¬blank <+: c :: rest := by
        intro stands
        obtain ⟨behind, text⟩ := stands
        cases text
        exact plain _ rfl rfl
      have inside := infix_tail stands first
      obtain ⟨line', tail, tail', head, head', same⟩ := ih inside
      have longer : ∀ rest', c = '\r' → rest ++ more = '\n' :: rest' →
          False := by
        intro rest' carriage starts
        cases rest with
        | nil => exact absurd (List.infix_nil.mp inside) (by decide)
        | cons d rest =>
            cases starts
            exact plain rest carriage rfl
      refine ⟨c :: line', tail, tail', ?_, ?_, same⟩
      · rw [lines.eq_3 c rest plain, head]
      · rw [List.cons_append, lines.eq_3 c (rest ++ more) longer, head']

theorem headerSection_append {text : List Char} (stands : blank <:+: text)
    (more : List Char) :
    headerSection (text ++ more) = headerSection text := by
  obtain ⟨first, rest, rest', here, there, same⟩ :=
    lines_append_of_blank stands more
  unfold headerSection
  rw [here, there, List.takeWhile_cons, List.takeWhile_cons, same]

theorem not_sized_prefix {text more : List Char} (cut : more ≠ [])
    (whole : Sized (text ++ more)) : ¬Sized text := by
  intro short
  obtain ⟨complete, announced⟩ := short
  obtain ⟨place, found⟩ := Option.ne_none_iff_exists'.mp complete
  obtain ⟨bound, stands, -⟩ := Iff.mp find_eq_some_iff found
  have inside : blank <:+: text :=
    stands.isInfix.trans (List.drop_suffix _ _).isInfix
  have sameValues : values "Content-Length".toList (text ++ more) =
      values "Content-Length".toList text := by
    unfold values fields
    rw [headerSection_append inside]
  have room : place + 4 ≤ text.length := find_bound found
  have longer : body (text ++ more) = body text ++ more := by
    unfold body
    rw [find_append found, found]
    exact List.drop_append_of_le_length room
  have told := whole.2
  rw [sameValues, announced, longer] at told
  simp only [List.cons.injEq, Option.some.injEq, and_true,
    List.length_append] at told
  have positive := List.length_pos_iff.mpr cut
  omega

end Http
