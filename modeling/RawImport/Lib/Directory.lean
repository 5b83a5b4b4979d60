import Mathlib.Data.List.Induction
import RawImport.Lib.Cutting

/-!
# Resolved directories

A path is resolved component by component: empty and `.` components stay, `..`
goes up and any other name goes down.  What is appended to a directory resolves
to a place inside of every directory exactly when its moves never go above
their start.
-/

namespace Directory

/-- What one component of a path does. -/
inductive Move where
  | stay | up | down
  deriving DecidableEq

def moveOf (component : List Char) : Move :=
  if component = [] ∨ component = ['.'] then .stay
  else if component = ['.', '.'] then .up
  else .down

/-- The names of a directory after one more component. -/
def enter (directory : List (List Char)) (component : List Char) :
    List (List Char) :=
  match moveOf component with
  | .stay => directory
  | .up => directory.dropLast
  | .down => directory ++ [component]

/-- The names of the directory that a path denotes. -/
def resolve (cwd : List (List Char)) (path : List Char) : List (List Char) :=
  (path.splitOn '/').foldl enter (if path.head? = some '/' then [] else cwd)

/-- Moves from so far below a start that never go above it. -/
def Confined : Nat → List Move → Prop
  | _, [] => True
  | depth, .stay :: moves => Confined depth moves
  | depth, .down :: moves => Confined (depth + 1) moves
  | 0, .up :: _ => False
  | depth + 1, .up :: moves => Confined depth moves

instance decidableConfined : (depth : Nat) → (moves : List Move) →
    Decidable (Confined depth moves)
  | _, [] => inferInstanceAs (Decidable True)
  | depth, .stay :: moves => decidableConfined depth moves
  | depth, .down :: moves => decidableConfined (depth + 1) moves
  | 0, .up :: _ => inferInstanceAs (Decidable False)
  | depth + 1, .up :: moves => decidableConfined depth moves

/-- Where moves that are confined lead, they lead inside of the start. -/
theorem prefix_of_confined {components base below : List (List Char)}
    (confined : Confined below.length (components.map moveOf)) :
    base <+: components.foldl enter (base ++ below) := by
  induction components generalizing below with
  | nil => exact List.prefix_append _ _
  | cons component components ih =>
      rw [List.map_cons] at confined
      rw [List.foldl_cons]
      cases move : moveOf component with
      | stay =>
          rw [move] at confined
          have stays : enter (base ++ below) component = base ++ below := by
            simp [enter, move]
          rw [stays]
          exact ih confined
      | down =>
          rw [move] at confined
          have enters : enter (base ++ below) component =
              base ++ (below ++ [component]) := by
            simp [enter, move]
          rw [enters]
          apply ih
          rw [List.length_append]
          exact confined
      | up =>
          rw [move] at confined
          cases below using List.reverseRecOn with
          | nil => exact confined.elim
          | append_singleton front name _ =>
              have leaves : enter (base ++ (front ++ [name])) component =
                  base ++ front := by
                simp [enter, move, ← List.append_assoc]
              rw [leaves]
              apply ih
              rw [List.length_append] at confined
              exact confined

theorem mem_foldl_enter {components directory : List (List Char)}
    {name : List Char}
    (member : name ∈ components.foldl enter directory) :
    name ∈ directory ∨ name ∈ components := by
  induction components generalizing directory with
  | nil => exact .inl member
  | cons component components ih =>
      rw [List.foldl_cons] at member
      rcases ih member with before | later
      · unfold enter at before
        split at before
        · exact .inl before
        · exact .inl (List.dropLast_subset _ before)
        · rcases List.mem_append.mp before with old | new
          · exact .inl old
          · rw [List.mem_singleton.mp new]
            exact .inr List.mem_cons_self
      · exact .inr (List.mem_cons_of_mem _ later)

/-- Moves that leave a directory do not come back to it when none of them
enters its name. -/
theorem confined_of_prefix {components below : List (List Char)}
    {name : List Char}
    (fresh : name ∉ components)
    (inside : [name] <+: components.foldl enter (name :: below)) :
    Confined below.length (components.map moveOf) := by
  induction components generalizing below with
  | nil => exact True.intro
  | cons component components ih =>
      rw [List.mem_cons, not_or] at fresh
      rw [List.foldl_cons] at inside
      rw [List.map_cons]
      cases move : moveOf component with
      | stay =>
          have stays : enter (name :: below) component = name :: below := by
            simp [enter, move]
          rw [stays] at inside
          exact ih fresh.2 inside
      | down =>
          have enters : enter (name :: below) component =
              name :: (below ++ [component]) := by
            simp [enter, move]
          rw [enters] at inside
          have deeper := ih fresh.2 inside
          rw [List.length_append] at deeper
          exact deeper
      | up =>
          cases below using List.reverseRecOn with
          | nil =>
              have left : enter [name] component = [] := by
                simp [enter, move]
              rw [left] at inside
              have member := inside.subset List.mem_cons_self
              rcases mem_foldl_enter member with never | again
              · cases never
              · exact (fresh.2 again).elim
          | append_singleton front last _ =>
              have dropped : ((name :: front) ++ [last]).dropLast =
                  name :: front := List.dropLast_concat
              have leaves : enter (name :: (front ++ [last])) component =
                  name :: front := by
                unfold enter
                rw [move]
                exact dropped
              rw [leaves] at inside
              rw [List.length_append]
              exact ih fresh.2 inside

theorem resolve_append (cwd : List (List Char)) {directory : List Char}
    (present : directory ≠ []) (rest : List Char) :
    resolve cwd (directory ++ '/' :: rest) =
      (rest.splitOn '/').foldl enter (resolve cwd directory) := by
  have head : (directory ++ '/' :: rest).head? = directory.head? := by
    obtain ⟨c, others, rfl⟩ := List.exists_cons_of_ne_nil present
    rfl
  unfold resolve
  rw [head, List.splitOn_append_cons_self, List.foldl_append]

/-- A text below every directory stays inside of it exactly when its moves are
confined. -/
theorem inside_iff_confined (rest : List Char) :
    (∀ (cwd : List (List Char)) (directory : List Char), directory ≠ [] →
      resolve cwd directory <+: resolve cwd (directory ++ '/' :: rest)) ↔
      Confined 0 ((rest.splitOn '/').map moveOf) := by
  constructor
  · intro inside
    let name : List Char := List.replicate (rest.length + 3) 'a'
    have plain : '/' ∉ name := by
      intro member
      exact absurd (List.eq_of_mem_replicate member) (by decide)
    have fresh : name ∉ rest.splitOn '/' := by
      intro member
      have short := (Cutting.sublist_of_mem_splitOn member).length_le
      simp only [name, List.length_replicate] at short
      omega
    have down : moveOf name = .down := by
      have long : 3 ≤ name.length := by
        simp only [name, List.length_replicate]
        omega
      unfold moveOf
      rw [if_neg, if_neg]
      · intro dots
        rw [dots] at long
        exact absurd long (by decide)
      · rintro (empty | dot)
        · rw [empty] at long
          exact absurd long (by decide)
        · rw [dot] at long
          exact absurd long (by decide)
    have start : resolve [] ('/' :: name) = [name] := by
      have split : ('/' :: name).splitOn '/' = [[], name] := by
        have cut := List.splitOn_append_cons_self (a := '/') [] name
        rw [List.splitOn_eq_singleton plain] at cut
        exact cut
      have stays : moveOf [] = .stay := rfl
      simp [resolve, split, enter, down, stays]
    have below := inside [] ('/' :: name) (List.cons_ne_nil _ _)
    rw [resolve_append [] (List.cons_ne_nil _ _), start] at below
    exact confined_of_prefix fresh below
  · intro confined cwd directory present
    rw [resolve_append cwd present]
    have below : resolve cwd directory <+:
        (rest.splitOn '/').foldl enter (resolve cwd directory ++ []) :=
      prefix_of_confined confined
    rwa [List.append_nil] at below

end Directory
