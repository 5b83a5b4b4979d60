import RawImport.Api.Query
import RawImport.Lib.Cutting

/-!
# What a query says of a key

The plain reading of a query: it is cut at every `&`, and a segment with an `=`
gives the text behind its first `=` to the text before it.  The map of
`parse_query` is this reading for every key that has neither character.
-/

namespace RawImport

namespace Api

open Cxx Search

/-- What one segment says: nothing without an `=`. -/
def assignment (segment : Text) : Option (Text × Text) :=
  if '=' ∈ segment then
    some (segment.takeWhile (· != '='),
      (segment.dropWhile (· != '=')).drop 1)
  else none

/-- The value of a key: the last segment with the key counts. -/
def queryValue (q k : Text) : Option Text :=
  ((q.splitOn '&').filterMap assignment).reverse.lookup k

theorem assignment_of_not_mem {segment : Text} (absent : '=' ∉ segment) :
    assignment segment = none :=
  if_neg absent

theorem assignment_append {key : Text} (plain : '=' ∉ key) (value : Text) :
    assignment (key ++ '=' :: value) = some (key, value) := by
  have before : ∀ c ∈ key, (c != '=') = true := by
    intro c member
    have different : c ≠ '=' := fun same => plain (same ▸ member)
    simpa using different
  have member : '=' ∈ key ++ '=' :: value := by simp
  unfold assignment
  rw [if_pos member, List.takeWhile_append_of_pos before,
    List.dropWhile_append_of_pos before]
  simp

theorem lookup_assignments (segment : Text) (segments : List Text)
    (m : Params) (k : Text) :
    (((segment :: segments).filterMap assignment).reverse ++ m).lookup k =
      ((segments.filterMap assignment).reverse ++
        ((assignment segment).toList ++ m)).lookup k := by
  cases said : assignment segment with
  | none => simp [said]
  | some pair => simp [said]

theorem lookup_append_congr (front : Params) {m other : Params} {k : Text}
    (same : m.lookup k = other.lookup k) :
    (front ++ m).lookup k = (front ++ other).lookup k := by
  rw [List.lookup_append, List.lookup_append, same]

/-- The first `=` and the first `&` of a text: the segment up to the `&` has
the `=` and is read as it stands, or the text before the `=` runs over the
`&`. -/
theorem segment_cases {key rest segment more : Text} (plain : '=' ∉ key)
    (cut : key ++ '=' :: rest = segment ++ '&' :: more) :
    (key.length < segment.length ∧ assignment segment =
      some (key, rest.take (segment.length - key.length - 1))) ∨
    ('&' ∈ key ∧ assignment segment = none) := by
  rcases List.append_eq_append_iff.mp cut with ⟨middle, whole, back⟩ |
    ⟨middle, whole, back⟩
  · cases middle with
    | nil => cases back
    | cons c value =>
        cases back
        left
        subst whole
        have size : (key ++ '=' :: value).length - key.length - 1 =
            value.length := by
          rw [List.length_append, List.length_cons]
          omega
        constructor
        · rw [List.length_append, List.length_cons]
          omega
        · rw [assignment_append plain, size]
          have front : (value ++ '&' :: more).take value.length = value :=
            List.take_left
          exact congrArg (fun text => some (key, text)) front.symm
  · cases middle with
    | nil => cases back
    | cons c tail =>
        cases back
        right
        subst whole
        constructor
        · simp
        · apply assignment_of_not_mem
          intro member
          exact plain (List.mem_append_left _ member)

/-- Induction over the rounds of the loop.  A key with an `&` comes up when the
next `=` stands behind the next `&`; it is no key that is asked for. -/
theorem parseQueryFrom_get {q : Text} {i : Nat} {m result : Params}
    {k : Text} (small : q.length < 2 ^ 64) (noAmp : '&' ∉ k)
    (parsed : parseQueryFrom q i m = .ok result) :
    result.get k =
      ((((q.drop i).splitOn '&').filterMap assignment).reverse ++
        m).lookup k := by
  fun_induction parseQueryFrom q i m with
  | case1 i m inside missing =>
      cases parsed
      have absent := findFrom_char_none (Nat.le_of_lt inside) missing
      have silent : ((q.drop i).splitOn '&').filterMap assignment = [] := by
        apply List.filterMap_eq_nil_iff.mpr
        intro segment member
        apply assignment_of_not_mem
        intro inSegment
        exact absent ((Cutting.sublist_of_mem_splitOn member).subset inSegment)
      rw [silent]
      rfl
  | case2 i m inside eq found ih =>
      obtain ⟨le, before, key, plain, keyLength, split⟩ :=
        findFrom_char_some found
      rw [substr_ok (Nat.le_of_lt inside)] at parsed
      simp only [ok_bind] at parsed
      have key_eq : (q.drop i).take (sizeSub eq i) = key := by
        rw [sizeSub_of_le le (Nat.lt_trans before small), ← keyLength, split,
          List.take_left]
      rw [key_eq] at parsed
      have behind : eq + 1 ≤ q.length := before
      split at parsed
      · rename_i missing
        rw [substrFrom_ok behind] at parsed
        cases parsed
        have whole := findFrom_char_none (Nat.le_of_lt inside) missing
        rw [List.splitOn_eq_singleton whole, split]
        simp [assignment_append plain, Params.set, Params.get]
      · rename_i amp separated
        rw [substr_ok behind] at parsed
        simp only [ok_bind] at parsed
        rw [ih _ amp separated _ parsed]
        obtain ⟨-, ampInside, segment, whole, segmentLength, cut⟩ :=
          findFrom_char_some separated
        rw [cut, List.splitOn_append_cons_self_of_not_mem whole,
          lookup_assignments]
        apply lookup_append_congr
        have size : segment.length - key.length = amp - eq := by omega
        rcases segment_cases plain (split.symm.trans cut) with
          ⟨longer, said⟩ | ⟨spans, said⟩
        · have length : sizeSub (sizeSub amp eq) 1 = amp - eq - 1 := by
            have behindEq : eq < amp := by omega
            rw [sizeSub_of_le behindEq.le (Nat.lt_trans ampInside small),
              sizeSub_of_le (by omega) (by omega)]
          rw [said, size, length]
          rfl
        · have other : (k == key) = false := by
            have different : k ≠ key := fun same => noAmp (same ▸ spans)
            simpa using different
          rw [said]
          simp [Params.set, List.lookup_cons, other]
  | case3 i m outside =>
      cases parsed
      rw [List.drop_eq_nil_of_le (Nat.le_of_not_lt outside)]
      rfl

/-- The lookup in the map of `parse_query`, for every query and every key
without `&` and `=`: the segments without an `=` disturb nothing, whatever
their keys and wrapped lengths are.  A `std::string` is shorter than
`2 ^ 64`. -/
theorem parseQuery_get (q : Text) (small : q.length < 2 ^ 64) :
    ∃ params, parseQuery q = .ok params ∧
      ∀ k : Text, '&' ∉ k → '=' ∉ k → params.get k = queryValue q k := by
  obtain ⟨params, parsed⟩ := parseQuery_ok q
  refine ⟨params, parsed, ?_⟩
  intro k noAmp _
  have value := parseQueryFrom_get small noAmp parsed
  rw [List.append_nil] at value
  exact value

/-- A segment without `=` in front of a parameter that is given twice. -/
theorem parseQuery_get_repeated :
    ∃ params, parseQuery "flag&page=2&page=3".toList = .ok params ∧
      params.get "page".toList = some "3".toList ∧
      params.get "flag".toList = none := by
  obtain ⟨params, parsed, value⟩ :=
    parseQuery_get "flag&page=2&page=3".toList (by decide +kernel)
  refine ⟨params, parsed, ?_, ?_⟩
  · rw [value _ (by decide +kernel) (by decide +kernel)]
    decide +kernel
  · rw [value _ (by decide +kernel) (by decide +kernel)]
    decide +kernel

end Api

end RawImport
