import RawImport.Lib.JsonLiteral
import RawImport.Lib.Search

/-!
# Names in a JSON text

Where a text search finds `"name":` in a JSON text.  A quote inside a string is
escaped, so an ordinary name is found nowhere but at a member of that name.
-/

namespace Json

open Search

def spelled (name : Text) : Text := '"' :: name ++ "\":".toList

def isDelimiter (c : Char) : Bool :=
  isBlank c || c == ',' || c == ':' || c == ']' || c == '\x7d'

/-- Neither a quote nor a backslash is in the name, and it does not start as
the text behind a string does. -/
structure Ordinary (name : Text) : Prop where
  noQuote : '"' ∉ name
  noBackslash : '\\' ∉ name
  head : ∀ c ∈ name.head?, isDelimiter c = false

variable {name : Text}

theorem Ordinary.not_at_close (ordinary : Ordinary name) {c : Char}
    (delimiter : isDelimiter c = true) (rest : Text) :
    ¬spelled name <+: '"' :: c :: rest := by
  intro stands
  have tail := (List.cons_prefix_cons.mp stands).2
  cases name with
  | nil =>
      have equal := (List.cons_prefix_cons.mp tail).1
      rw [← equal] at delimiter
      exact absurd delimiter (by decide)
  | cons first others =>
      have equal := (List.cons_prefix_cons.mp tail).1
      have clear := ordinary.head first rfl
      rw [equal, delimiter] at clear
      cases clear

/-- A name without a backslash in front of the next quote is all that stands
there. -/
theorem raw_eq_of_leading {literal : Literal} (noQuote : '"' ∉ name)
    (noBackslash : '\\' ∉ name) {c : Char} {rest : Text}
    (stands : name ++ "\":".toList <+: literal.raw ++ '"' :: c :: rest) :
    literal.raw = name ∧ c = ':' := by
  induction literal generalizing name with
  | nil =>
      cases name with
      | nil =>
          have tail := (List.cons_prefix_cons.mp stands).2
          exact ⟨rfl, (List.cons_prefix_cons.mp tail).1.symm⟩
      | cons first others =>
          have equal := (List.cons_prefix_cons.mp stands).1
          exact (noQuote (equal ▸ List.mem_cons_self)).elim
  | cons piece literal ih =>
      rw [Literal.raw_cons]
      have escaped (tail : Text)
          (starts : name ++ "\":".toList <+: '\\' :: tail) : False := by
        cases name with
        | nil => exact absurd (List.cons_prefix_cons.mp starts).1 (by decide)
        | cons first others =>
            have equal := (List.cons_prefix_cons.mp starts).1
            exact noBackslash (equal ▸ List.mem_cons_self)
      rw [Literal.raw_cons, List.append_assoc] at stands
      cases piece with
      | plain d =>
          cases name with
          | nil =>
              have equal := (List.cons_prefix_cons.mp stands).1
              exact ((unescaped_ne d).1 equal.symm).elim
          | cons first others =>
              obtain ⟨equal, tail⟩ := List.cons_prefix_cons.mp stands
              obtain ⟨same, colon⟩ := ih
                (fun member => noQuote (List.mem_cons_of_mem first member))
                (fun member =>
                  noBackslash (List.mem_cons_of_mem first member)) tail
              rw [same, equal]
              exact ⟨rfl, colon⟩
      | escape d => exact (escaped _ stands).elim
      | unicode first second third fourth => exact (escaped _ stands).elim

theorem find_raw (ordinary : Ordinary name) (literal : Literal) {c : Char}
    (delimiter : isDelimiter c = true) (value : c ≠ ':') (rest : Text) :
    find (spelled name) (literal.raw ++ '"' :: c :: rest) =
      (find (spelled name) (c :: rest)).map
        (literal.raw.length + 1 + ·) := by
  induction literal with
  | nil =>
      change find (spelled name) ('"' :: c :: rest) = _
      rw [find_cons (ordinary.not_at_close delimiter rest)]
      congr 1
      funext place
      exact Nat.add_comm place 1
  | cons piece literal ih =>
      have inside : find (spelled name)
          (piece.raw ++ (Literal.raw literal ++ '"' :: c :: rest)) =
            (find (spelled name)
              (Literal.raw literal ++ '"' :: c :: rest)).map
                (piece.raw.length + ·) := by
        by_cases quote : '"' ∈ piece.raw
        · obtain ⟨d, equal, -⟩ := Piece.quote_mem_raw quote
          rw [equal]
          have start : ¬spelled name <+: '\\' :: d.val ::
              (Literal.raw literal ++ '"' :: c :: rest) := by
            intro stands
            have same := (List.cons_prefix_cons.mp stands).1
            exact absurd same (by decide)
          have other : ¬spelled name <+: d.val ::
              (Literal.raw literal ++ '"' :: c :: rest) := by
            intro stands
            have tail := (List.cons_prefix_cons.mp stands).2
            exact value (raw_eq_of_leading ordinary.noQuote
              ordinary.noBackslash tail).2
          change find (spelled name) ('\\' :: d.val ::
            (Literal.raw literal ++ '"' :: c :: rest)) = _
          rw [find_cons start, find_cons other, Option.map_map]
          congr 1
          funext place
          change place + 1 + 1 = 2 + place
          omega
        · exact find_pass quote _
      rw [Literal.raw_cons, List.append_assoc, inside, ih, Option.map_map]
      congr 1
      funext place
      simp only [Function.comp_apply, List.length_append]
      omega

theorem find_literal (ordinary : Ordinary name) (literal : Literal)
    {c : Char} (delimiter : isDelimiter c = true) (value : c ≠ ':')
    (rest : Text) :
    find (spelled name) (literal.text ++ c :: rest) =
      (find (spelled name) (c :: rest)).map (literal.text.length + ·) := by
  have start : ¬spelled name <+: '"' ::
      (literal.raw ++ '"' :: c :: rest) := by
    intro stands
    have tail := (List.cons_prefix_cons.mp stands).2
    exact value (raw_eq_of_leading ordinary.noQuote
      ordinary.noBackslash tail).2
  rw [Literal.text, List.cons_append, List.cons_append, List.append_assoc,
    List.singleton_append, find_cons start,
    find_raw ordinary literal delimiter value, Option.map_map]
  congr 1
  funext place
  simp only [Function.comp_apply, List.length_cons, List.length_append,
    List.length_nil]
  omega

theorem find_name (ordinary : Ordinary name) {literal : Literal}
    (noQuote : '"' ∉ literal.raw) {c : Char}
    (delimiter : isDelimiter c = true)
    (other : ¬(literal.raw = name ∧ c = ':')) (rest : Text) :
    find (spelled name) (literal.text ++ c :: rest) =
      (find (spelled name) (c :: rest)).map (literal.text.length + ·) := by
  have start : ¬spelled name <+: '"' ::
      (literal.raw ++ '"' :: c :: rest) := by
    intro stands
    have tail := (List.cons_prefix_cons.mp stands).2
    exact other (raw_eq_of_leading ordinary.noQuote
      ordinary.noBackslash tail)
  rw [Literal.text, List.cons_append, List.cons_append, List.append_assoc,
    List.singleton_append, find_cons start]
  change (find ('"' :: (name ++ "\":".toList)) _).map _ = _
  rw [find_pass noQuote]
  change ((find (spelled name) ('"' :: c :: rest)).map _).map _ = _
  rw [find_cons (ordinary.not_at_close delimiter rest), Option.map_map,
    Option.map_map]
  congr 1
  funext place
  simp only [Function.comp_apply, List.length_cons, List.length_append,
    List.length_nil]
  omega

/-- The search goes on behind the text in front. -/
def Passed (name front rest : Text) : Prop :=
  find (spelled name) (front ++ rest) =
    (find (spelled name) rest).map (front.length + ·)

theorem Passed.append {front middle rest : Text}
    (first : Passed name front (middle ++ rest))
    (second : Passed name middle rest) :
    Passed name (front ++ middle) rest := by
  unfold Passed at *
  rw [List.append_assoc, first, second, Option.map_map]
  congr 1
  funext place
  simp only [Function.comp_apply, List.length_append]
  omega

theorem passed_of_not_mem {front : Text} (absent : '"' ∉ front)
    (rest : Text) : Passed name front rest :=
  find_pass absent rest

theorem not_mem_blank (blank : Blank) : '"' ∉ blank.val := by
  intro member
  have legal := List.all_eq_true.mp blank.property _ member
  exact absurd legal (by decide)

theorem passed_blank (blank : Blank) (rest : Text) :
    Passed name blank.val rest :=
  passed_of_not_mem (not_mem_blank blank) rest

theorem passed_char {c : Char} (other : c ≠ '"') (rest : Text) :
    Passed name [c] rest := by
  apply passed_of_not_mem
  intro member
  exact other (List.mem_singleton.mp member).symm

theorem blank_delimits {blank : Blank} {c d : Char} {rest more : Text}
    (delimiter : isDelimiter c = true)
    (starts : blank.val ++ c :: rest = d :: more) :
    isDelimiter d = true ∧ (c ≠ ':' → d ≠ ':') ∧
      (blank.val = [] ∨ d ≠ ':') := by
  cases blanks : blank.val with
  | nil =>
      rw [blanks] at starts
      cases starts
      exact ⟨delimiter, id, .inl rfl⟩
  | cons first others =>
      rw [blanks] at starts
      cases starts
      have legal := List.all_eq_true.mp blank.property d
        (by rw [blanks]; exact List.mem_cons_self)
      have noColon : d ≠ ':' := by
        intro equal
        rw [equal] at legal
        exact absurd legal (by decide)
      refine ⟨?_, fun _ => noColon, .inr noColon⟩
      unfold isDelimiter
      rw [legal]
      rfl

/-- A member name that is not the one searched for. -/
def Silent (name : Text) (literal : Literal) (behind : Blank) : Prop :=
  '"' ∉ literal.raw ∧ ¬(literal.raw = name ∧ behind.val = [])

mutual

def Layout.Silent (name : Text) : Layout → Prop
  | .array elements => elements.Silent name
  | .object members => members.Silent name
  | _ => True

def Elements.Silent (name : Text) : Elements → Prop
  | .last _ value _ => value.Silent name
  | .cons _ value _ rest => value.Silent name ∧ rest.Silent name

def Members.Silent (name : Text) : Members → Prop
  | .last _ literal behind _ value _ =>
      Json.Silent name literal behind ∧ value.Silent name
  | .cons _ literal behind _ value _ rest =>
      Json.Silent name literal behind ∧ value.Silent name ∧
        rest.Silent name

end

theorem Passed.cons {c : Char} {front rest : Text} (other : c ≠ '"')
    (passed : Passed name front rest) : Passed name (c :: front) rest :=
  Passed.append (passed_char other (front ++ rest)) passed

/-- What follows whitespace and a delimiter, as one character and the rest. -/
theorem blank_cons (blank : Blank) {c : Char} (rest : Text)
    (delimiter : isDelimiter c = true) :
    ∃ d more, blank.val ++ c :: rest = d :: more ∧ isDelimiter d = true ∧
      (c ≠ ':' → d ≠ ':') ∧ (blank.val = [] ∨ d ≠ ':') := by
  cases starts : blank.val ++ c :: rest with
  | nil => simp at starts
  | cons d more => exact ⟨d, more, rfl, blank_delimits delimiter starts⟩

theorem passed_name (ordinary : Ordinary name) {literal : Literal}
    {behind : Blank} (silent : Silent name literal behind) (rest : Text) :
    Passed name literal.text (behind.val ++ ':' :: rest) := by
  obtain ⟨d, more, starts, delimiter, -, colon⟩ :=
    blank_cons behind rest (c := ':') (by decide)
  rw [starts]
  apply find_name ordinary silent.1 delimiter
  intro both
  rcases colon with empty | other
  · exact silent.2 ⟨both.1, empty⟩
  · exact other both.2

theorem passed_member (ordinary : Ordinary name) {member : Member}
    (silent : Silent name member.name member.behind) {rest : Text}
    (value : Passed name member.value.text (member.after.val ++ rest)) :
    Passed name member.text rest := by
  apply Passed.append
  · apply Passed.append
    · apply Passed.append
      · apply Passed.append
        · exact Passed.append (passed_blank member.before _)
            (passed_name ordinary silent _)
        · exact passed_blank member.behind _
      · exact Passed.cons (by decide) (passed_blank member.colon _)
    · exact value
  · exact passed_blank member.after _

theorem numeral_no_quote (numeral : Numeral) : '"' ∉ numeral.val := by
  intro member
  have legal := List.all_eq_true.mp (numeral_chars numeral) _ member
  exact absurd legal (by decide)

mutual

theorem Layout.passed (ordinary : Ordinary name) (layout : Layout)
    (silent : layout.Silent name) {c : Char}
    (delimiter : isDelimiter c = true) (value : c ≠ ':') (rest : Text) :
    Passed name layout.text (c :: rest) := by
  cases layout with
  | null => exact passed_of_not_mem (by decide) _
  | bool truth =>
      cases truth with
      | true => exact passed_of_not_mem (by decide) _
      | false => exact passed_of_not_mem (by decide) _
  | number numeral => exact passed_of_not_mem (numeral_no_quote numeral) _
  | string literal => exact find_literal ordinary literal delimiter value rest
  | emptyArray blank =>
      apply Passed.append
      · exact Passed.cons (by decide) (passed_blank blank _)
      · exact passed_char (by decide) _
  | array elements =>
      apply Passed.append
      · exact Passed.cons (by decide)
          (elements.passed ordinary silent (by decide) (by decide) _)
      · exact passed_char (by decide) _
  | emptyObject blank =>
      apply Passed.append
      · exact Passed.cons (by decide) (passed_blank blank _)
      · exact passed_char (by decide) _
  | object members =>
      apply Passed.append
      · exact Passed.cons (by decide)
          (members.passed ordinary silent (by decide) (by decide) _)
      · exact passed_char (by decide) _

theorem Elements.passed (ordinary : Ordinary name) (elements : Elements)
    (silent : elements.Silent name) {c : Char}
    (delimiter : isDelimiter c = true) (value : c ≠ ':') (rest : Text) :
    Passed name elements.text (c :: rest) := by
  cases elements with
  | last before layout after =>
      obtain ⟨d, more, starts, delimits, other, -⟩ :=
        blank_cons after rest delimiter
      apply Passed.append
      · apply Passed.append
        · exact passed_blank before _
        · rw [starts]
          exact layout.passed ordinary silent delimits (other value) more
      · exact passed_blank after _
  | cons before layout after others =>
      obtain ⟨d, more, starts, delimits, other, -⟩ :=
        blank_cons after (others.text ++ c :: rest) (c := ',') (by decide)
      apply Passed.append
      · apply Passed.append
        · apply Passed.append
          · exact passed_blank before _
          · rw [List.cons_append, starts]
            exact layout.passed ordinary silent.1 delimits
              (other (by decide)) more
        · exact passed_blank after _
      · exact Passed.cons (by decide)
          (others.passed ordinary silent.2 delimiter value rest)

theorem Members.passed (ordinary : Ordinary name) (members : Members)
    (silent : members.Silent name) {c : Char}
    (delimiter : isDelimiter c = true) (value : c ≠ ':') (rest : Text) :
    Passed name members.text (c :: rest) := by
  cases members with
  | last before literal behind colon layout after =>
      obtain ⟨d, more, starts, delimits, other, -⟩ :=
        blank_cons after rest delimiter
      have passed := layout.passed ordinary silent.2 delimits (other value)
        more
      rw [← starts] at passed
      exact @passed_member _ ordinary
        ⟨before, literal, behind, colon, layout, after⟩ silent.1 _ passed
  | cons before literal behind colon layout after others =>
      obtain ⟨d, more, starts, delimits, other, -⟩ :=
        blank_cons after (others.text ++ c :: rest) (c := ',') (by decide)
      have passed := layout.passed ordinary silent.2.1 delimits
        (other (by decide)) more
      rw [← starts] at passed
      apply Passed.append
      · exact @passed_member _ ordinary
          ⟨before, literal, behind, colon, layout, after⟩ silent.1 _ passed
      · exact Passed.cons (by decide)
          (others.passed ordinary silent.2.2 delimiter value rest)

end

/-- A member without the name, at its own level and inside. -/
def Member.Silent (name : Text) (member : Member) : Prop :=
  Json.Silent name member.name member.behind ∧ member.value.Silent name

theorem Member.passed (ordinary : Ordinary name) {member : Member}
    (silent : member.Silent name) {c : Char}
    (delimiter : isDelimiter c = true) (value : c ≠ ':') (rest : Text) :
    Passed name member.text (c :: rest) := by
  obtain ⟨d, more, starts, delimits, other, -⟩ :=
    blank_cons member.after rest delimiter
  apply passed_member ordinary silent.1
  rw [starts]
  exact member.value.passed ordinary silent.2 delimits (other value) more

theorem passed_members (ordinary : Ordinary name) {members : List Member}
    (silent : ∀ member ∈ members, member.Silent name) (rest : Text) :
    Passed name (members.flatMap fun member => member.text ++ [',']) rest := by
  induction members with
  | nil => exact passed_of_not_mem List.not_mem_nil rest
  | cons member members ih =>
      rw [List.flatMap_cons, List.append_assoc, List.singleton_append]
      apply Passed.append
      · exact member.passed ordinary (silent member List.mem_cons_self)
          (by decide) (by decide) _
      · apply Passed.cons (by decide)
        apply ih
        intro other inside
        exact silent other (List.mem_cons_of_mem member inside)

theorem passed_objectOf (ordinary : Ordinary name) (blank : Blank)
    {members : List Member} (silent : ∀ member ∈ members, member.Silent name)
    (rest : Text) :
    Passed name (Layout.objectOf blank members).text rest := by
  rcases List.eq_nil_or_concat members with empty | ⟨init, last, split⟩
  · rw [empty]
    apply Passed.cons (by decide)
    exact Passed.append (passed_blank blank _) (passed_char (by decide) _)
  · rw [List.concat_eq_append] at split
    rw [split] at silent ⊢
    rw [Layout.text_objectOf, List.flatMap_nil, List.append_nil]
    apply Passed.append
    · apply Passed.append
      · apply Passed.cons (by decide)
        apply passed_members ordinary
        intro member inside
        exact silent member (List.mem_append_left _ inside)
      · exact last.passed ordinary
          (silent last (List.mem_append_right _ (by simp))) (by decide)
          (by decide) _
    · exact passed_char (by decide) _

theorem silent_of {name : Text} (member : Member) (rest : List Member) :
    (Members.of member rest).Silent name ↔
      ∀ other ∈ member :: rest, other.Silent name := by
  induction rest generalizing member with
  | nil =>
      rw [Members.of, Members.Silent]
      simp [Member.Silent]
  | cons next rest ih =>
      rw [Members.of, Members.Silent, ih, List.forall_mem_cons (a := member)]
      simp [Member.Silent, and_assoc]

theorem silent_objectOf {name : Text} {blank : Blank}
    {members : List Member}
    (silent : ∀ member ∈ members, member.Silent name) :
    (Layout.objectOf blank members).Silent name := by
  cases members with
  | nil => trivial
  | cons member rest => exact (silent_of member rest).mpr silent

/-- A text of whitespace, an object and whitespace has no place of a name that
no member has. -/
theorem find_objectOf (ordinary : Ordinary name) (before blank after : Blank)
    {members : List Member}
    (silent : ∀ member ∈ members, member.Silent name) :
    find (spelled name) (before.val ++
      (Layout.objectOf blank members).text ++ after.val) = none := by
  have nothing : find (spelled name) after.val = none :=
    find_eq_none (not_mem_blank after)
  have passed : Passed name
      (before.val ++ (Layout.objectOf blank members).text) after.val :=
    Passed.append (passed_blank before _)
      (passed_objectOf ordinary blank silent _)
  rw [passed, nothing]
  rfl

/-- The name is found, and this is what stands behind its colon. -/
def Found (name text behind : Text) : Prop :=
  ∃ place, find (spelled name) text = some place ∧
    text.drop (place + (spelled name).length) = behind

theorem Found.passed {front rest behind : Text}
    (passed : Passed name front rest) (found : Found name rest behind) :
    Found name (front ++ rest) behind := by
  obtain ⟨place, here, after⟩ := found
  refine ⟨front.length + place, ?_, ?_⟩
  · rw [passed, here]
    rfl
  · rw [Nat.add_assoc, ← List.drop_drop, List.drop_left, after]

/-- What stands in front of the name of one of an object's members. -/
def memberFront (front : List Member) (member : Member) : Text :=
  '\x7b' :: front.flatMap (fun other => other.text ++ [',']) ++
    member.before.val

/-- What stands behind the colon of one of an object's members. -/
def memberBehind (member : Member) (back : List Member) (rest : Text) :
    Text :=
  member.colon.val ++ (member.value.text ++ (member.after.val ++
    (back.flatMap (fun other => ',' :: other.text) ++ '\x7d' :: rest)))

theorem objectOf_append (blank : Blank) (front : List Member)
    (member : Member) (back : List Member) (rest : Text) :
    (Layout.objectOf blank (front ++ member :: back)).text ++ rest =
      memberFront front member ++ (member.name.text ++ (member.behind.val ++
        ':' :: memberBehind member back rest)) := by
  rw [Layout.text_objectOf, memberFront, memberBehind, Member.text]
  simp only [List.append_assoc, List.cons_append, List.nil_append]

theorem passed_memberFront (ordinary : Ordinary name) {front : List Member}
    (silent : ∀ member ∈ front, member.Silent name) (member : Member)
    (rest : Text) : Passed name (memberFront front member) rest := by
  apply Passed.append
  · apply Passed.cons (by decide)
    exact passed_members ordinary silent _
  · exact passed_blank member.before rest

/-- A member that spells the name, behind members that do not have it. -/
theorem found_member (ordinary : Ordinary name) (blank : Blank)
    {front : List Member} {member : Member} (back : List Member)
    (silent : ∀ other ∈ front, other.Silent name)
    (spells : member.name.raw = name ∧ member.behind.val = [])
    (rest : Text) :
    Found name ((Layout.objectOf blank (front ++ member :: back)).text ++ rest)
      (memberBehind member back rest) := by
  rw [objectOf_append]
  apply Found.passed (passed_memberFront ordinary silent member _)
  have split : member.name.text ++ (member.behind.val ++
      ':' :: memberBehind member back rest) =
        spelled name ++ memberBehind member back rest := by
    rw [Literal.text, spells.1, spells.2, spelled]
    simp
  rw [split]
  refine ⟨0, find_here (List.prefix_append _ _), ?_⟩
  rw [Nat.zero_add, List.drop_left]

theorem found_inside (ordinary : Ordinary name) (blank : Blank)
    {front : List Member} {member : Member} (back : List Member)
    (silent : ∀ other ∈ front, other.Silent name)
    (other : Json.Silent name member.name member.behind)
    (rest : Text) {behind : Text}
    (found : Found name (member.value.text ++ (member.after.val ++
      (back.flatMap (fun other => ',' :: other.text) ++ '\x7d' :: rest)))
      behind) :
    Found name ((Layout.objectOf blank (front ++ member :: back)).text ++ rest)
      behind := by
  rw [objectOf_append]
  apply Found.passed (passed_memberFront ordinary silent member _)
  apply Found.passed (passed_name ordinary other _)
  apply Found.passed (passed_blank member.behind _)
  have colon : ':' :: memberBehind member back rest =
      (':' :: member.colon.val) ++ (member.value.text ++
        (member.after.val ++ (back.flatMap (fun other => ',' :: other.text) ++
          '\x7d' :: rest))) := rfl
  rw [colon]
  apply Found.passed _ found
  exact Passed.cons (by decide) (passed_blank member.colon _)

end Json
