import RawImport.Lib.Cxx

/-!
# Query parameters

`parse_query` with its index arithmetic.  The value of a parameter whose `=`
stands behind the next `&` gets a length that wraps around.
-/

namespace RawImport

namespace Api

open Cxx Search

/-- The parameter map; the first entry of a key counts. -/
abbrev Params := List (Text × Text)

/-- `m[k] = v`. -/
def Params.set (m : Params) (k v : Text) : Params :=
  (k, v) :: m

/-- `q.count(k) ? q[k] : ...`. -/
def Params.get (m : Params) (k : Text) : Option Text :=
  m.lookup k

/-- The loop of `parse_query` from index `i` on. -/
def parseQueryFrom (q : Text) (i : Nat) (m : Params) :
    Except StdException Params :=
  if i < q.length then
    match findFrom ['='] q i with
    | none => .ok m
    | some eq => do
        let k ← substr q i (sizeSub eq i)
        match found : findFrom ['&'] q i with
        | none =>
            let v ← substrFrom q (eq + 1)
            return m.set k v
        | some amp =>
            let v ← substr q (eq + 1) (sizeSub (sizeSub amp eq) 1)
            parseQueryFrom q (amp + 1) (m.set k v)
  else .ok m
termination_by q.length - i
decreasing_by
  have bound := findFrom_eq_some found
  omega

def parseQuery (q : Text) : Except StdException Params :=
  parseQueryFrom q 0 []

theorem parseQueryFrom_ok (q : Text) (i : Nat) (m : Params) :
    ∃ result, parseQueryFrom q i m = .ok result := by
  fun_induction parseQueryFrom q i m with
  | case1 i m inside missing => exact ⟨m, rfl⟩
  | case2 i m inside eq found ih =>
      obtain ⟨-, -, room⟩ := findFrom_eq_some found
      have behind : eq + 1 ≤ q.length := room
      rw [substr_ok (Nat.le_of_lt inside)]
      simp only [bind, Except.bind]
      split
      · rw [substrFrom_ok behind]
        exact ⟨_, rfl⟩
      · rename_i amp separated
        rw [substr_ok behind]
        exact ih _ amp separated _
  | case3 i m outside => exact ⟨m, rfl⟩

theorem parseQuery_ok (q : Text) : ∃ params, parseQuery q = .ok params :=
  parseQueryFrom_ok q 0 []

/-- A query of one parameter, whatever characters but `&` its value has. -/
theorem parseQuery_single {key value : Text} (plain : '=' ∉ key)
    (keyWhole : '&' ∉ key) (valueWhole : '&' ∉ value)
    (small : key.length < 2 ^ 64) :
    parseQuery (key ++ '=' :: value) = .ok [(key, value)] := by
  have eq : find ['='] (key ++ '=' :: value) = some key.length :=
    find_of_not_mem value plain
  have amp : find ['&'] (key ++ '=' :: value) = none := by
    apply find_eq_none
    intro member
    rcases List.mem_append.mp member with inKey | inValue
    · exact keyWhole inKey
    · rcases List.mem_cons.mp inValue with same | inValue
      · cases same
      · exact valueWhole inValue
  have inside : 0 < (key ++ '=' :: value).length := by
    rw [List.length_append, List.length_cons]
    omega
  have size : sizeSub key.length 0 = key.length := sizeSub_of_le
    (Nat.zero_le _) small
  unfold parseQuery
  rw [parseQueryFrom, if_pos inside]
  simp only [findFrom, Nat.zero_le, if_true, List.drop_zero, eq,
    Option.map_some, Nat.zero_add, size, substr_ok, ok_bind]
  split
  · rw [substrFrom_ok (by rw [List.length_append, List.length_cons]; omega)]
    simp [Params.set]
  · rename_i amp' found
    rw [if_pos (Nat.zero_le _), List.drop_zero, amp] at found
    cases found

end Api

end RawImport
