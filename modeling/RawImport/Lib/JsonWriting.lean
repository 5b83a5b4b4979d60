import RawImport.Lib.JsonParser

/-!
# Writing JSON

Values put together from texts of values, with a comma between two of them and
no whitespace.
-/

namespace Json

def Stands (text : Text) : Prop := ∃ layout : Layout, layout.text = text

def Elements.of (first : Layout) : List Layout → Elements
  | [] => .last noBlank first noBlank
  | next :: rest => .cons noBlank first noBlank (Elements.of next rest)

def memberText (member : Text × Text) : Text :=
  '"' :: member.1 ++ '"' :: ':' :: member.2

def arrayText (elements : List Text) : Text :=
  '[' :: [','].intercalate elements ++ [']']

def objectText (members : List (Text × Text)) : Text :=
  '\x7b' :: [','].intercalate (members.map memberText) ++ ['\x7d']

theorem intercalate_cons (first : Text) (rest : List Text) :
    [','].intercalate (first :: rest) =
      first ++ rest.flatMap fun next => ',' :: next := by
  induction rest generalizing first with
  | nil =>
      rw [List.intercalate_singleton, List.flatMap_nil, List.append_nil]
  | cons next rest ih =>
      rw [List.intercalate_cons_cons, ih, List.flatMap_cons]
      simp only [List.append_assoc, List.cons_append, List.nil_append]

theorem intercalate_concat (front : List Text) (last : Text) :
    [','].intercalate (front ++ [last]) =
      (front.flatMap fun text => text ++ [',']) ++ last := by
  induction front with
  | nil => rw [List.nil_append, List.intercalate_singleton]; rfl
  | cons text front ih =>
      rw [List.flatMap_cons, List.append_assoc, ← ih]
      cases front with
      | nil => rw [List.cons_append, List.nil_append,
          List.intercalate_cons_cons]
      | cons next rest => rw [List.cons_append, List.cons_append,
          List.intercalate_cons_cons]

theorem mem_intercalate {texts : List Text} {text : Text} {c : Char}
    (listed : text ∈ texts) (member : c ∈ text) :
    c ∈ [','].intercalate texts := by
  cases texts with
  | nil => cases listed
  | cons first rest =>
      rw [intercalate_cons]
      rcases List.mem_cons.mp listed with same | later
      · rw [← same]
        exact List.mem_append_left _ member
      · apply List.mem_append_right
        exact List.mem_flatMap.mpr
          ⟨text, later, List.mem_cons_of_mem _ member⟩

theorem exists_plain {name : Text} (plain : name.all isUnescaped = true) :
    ∃ literal : Literal, literal.raw = name := by
  induction name with
  | nil => exact ⟨[], rfl⟩
  | cons c name ih =>
      rw [List.all_cons, Bool.and_eq_true] at plain
      obtain ⟨literal, raw⟩ := ih plain.2
      have legal := plain.1
      refine ⟨.plain ⟨c, legal⟩ :: literal, ?_⟩
      rw [Literal.raw, List.flatMap_cons]
      exact congrArg (c :: ·) raw

theorem Elements.text_of (first : Layout) (rest : List Layout) :
    (Elements.of first rest).text =
      first.text ++ rest.flatMap fun next => ',' :: next.text := by
  induction rest generalizing first with
  | nil =>
      rw [Elements.of, Elements.text, List.flatMap_nil]
      simp only [noBlank, List.nil_append, List.append_nil]
  | cons next rest ih =>
      rw [Elements.of, Elements.text, ih, List.flatMap_cons]
      simp only [noBlank, List.nil_append, List.append_nil,
        List.cons_append]

theorem exists_layouts {texts : List Text}
    (each : ∀ text ∈ texts, Stands text) :
    ∃ layouts : List Layout, layouts.map Layout.text = texts := by
  induction texts with
  | nil => exact ⟨[], rfl⟩
  | cons text texts ih =>
      obtain ⟨layout, written⟩ := each text List.mem_cons_self
      obtain ⟨layouts, rest⟩ := ih fun other member =>
        each other (List.mem_cons_of_mem text member)
      exact ⟨layout :: layouts, by rw [List.map_cons, written, rest]⟩

theorem exists_members_of {members : List (Text × Text)}
    (names : ∀ member ∈ members, member.1.all isUnescaped = true)
    (each : ∀ member ∈ members, Stands member.2) :
    ∃ written : List Member,
      written.map Member.text = members.map memberText := by
  induction members with
  | nil => exact ⟨[], rfl⟩
  | cons member members ih =>
      obtain ⟨name, raw⟩ := exists_plain (names member List.mem_cons_self)
      obtain ⟨layout, text⟩ := each member List.mem_cons_self
      obtain ⟨written, rest⟩ := ih
        (fun other later => names other (List.mem_cons_of_mem member later))
        (fun other later => each other (List.mem_cons_of_mem member later))
      refine ⟨{ name := name, value := layout } :: written, ?_⟩
      rw [List.map_cons, List.map_cons, rest]
      congr 1
      simp only [Member.text, Literal.text, memberText, raw, text, noBlank,
        List.nil_append, List.append_nil, List.append_assoc,
        List.cons_append]

theorem stands_number (number : Int) : Stands (toString number).toList :=
  ⟨.number ⟨_, isNumeral_toString number⟩, rfl⟩

theorem stands_string (literal : Literal) : Stands literal.text :=
  ⟨.string literal, rfl⟩

theorem stands_array {elements : List Text}
    (each : ∀ element ∈ elements, Stands element) :
    Stands (arrayText elements) := by
  obtain ⟨layouts, rfl⟩ := exists_layouts each
  cases layouts with
  | nil => exact ⟨.emptyArray noBlank, rfl⟩
  | cons first rest =>
      refine ⟨.array (.of first rest), ?_⟩
      rw [Layout.text, Elements.text_of, arrayText, List.map_cons,
        intercalate_cons, List.flatMap_map]

theorem stands_object {members : List (Text × Text)}
    (names : ∀ member ∈ members, member.1.all isUnescaped = true)
    (each : ∀ member ∈ members, Stands member.2) :
    Stands (objectText members) := by
  obtain ⟨written, texts⟩ := exists_members_of names each
  unfold objectText
  rw [← texts]
  cases written with
  | nil => exact ⟨.emptyObject noBlank, rfl⟩
  | cons first rest =>
      refine ⟨.object (.of first rest), ?_⟩
      rw [Layout.text, Members.text_of, List.map_cons, intercalate_cons,
        List.flatMap_map]

theorem Stands.accepts {text : Text} (stands : Stands text) :
    Accepts text := by
  obtain ⟨layout, rfl⟩ := stands
  refine ⟨⟨noBlank, layout, noBlank⟩, ?_⟩
  rw [Document.text, noBlank, List.nil_append, List.append_nil]

end Json
