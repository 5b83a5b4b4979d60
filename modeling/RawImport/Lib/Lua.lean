import Mathlib.Data.List.Basic

/-!
# Text functions of Lua

`gsub` with a pattern of one literal character, and the tests of how a text
begins and ends.
-/

namespace Lua

abbrev Text := List Char

/-- `text:gsub(c, replacement)`, its first value. -/
def gsub (c : Char) (replacement text : Text) : Text :=
  text.flatMap fun d => if d = c then replacement else [d]

/-- `text:lower()` in the C locale. -/
def lower (text : Text) : Text :=
  text.map Char.toLower

/-- `text:sub(1, #start) == start`. -/
def startsWith (start text : Text) : Bool :=
  text.take start.length == start

/-- `text:match(ending .. "$")` of a literal ending. -/
def endsWith (ending text : Text) : Bool :=
  text.drop (text.length - ending.length) == ending

/-- `%s`. -/
def isSpace (c : Char) : Bool :=
  [' ', '\t', '\n', '\x0b', '\x0c', '\r'].contains c

variable {c : Char} {replacement text : Text}

theorem mem_gsub {d : Char} (member : d ∈ gsub c replacement text) :
    d ∈ text ∧ d ≠ c ∨ d ∈ replacement := by
  obtain ⟨e, present, image⟩ := List.mem_flatMap.mp member
  split at image
  · exact .inr image
  · rename_i different
    rw [List.mem_singleton.mp image]
    exact .inl ⟨present, different⟩

theorem gsub_of_not_mem (absent : c ∉ text) :
    gsub c replacement text = text := by
  induction text with
  | nil => rfl
  | cons d text ih =>
      have different : d ≠ c := fun same =>
        absent (same ▸ List.mem_cons_self)
      have later : c ∉ text := fun member =>
        absent (List.mem_cons_of_mem d member)
      unfold gsub at ih ⊢
      rw [List.flatMap_cons, ih later, if_neg different]
      rfl

/-- A replacement without the character leaves the texts without it alone and
no other. -/
theorem gsub_eq_self_iff (fresh : c ∉ replacement) :
    gsub c replacement text = text ↔ c ∉ text := by
  constructor
  · intro same member
    rw [← same] at member
    rcases mem_gsub member with kept | replaced
    · exact kept.2 rfl
    · exact fresh replaced
  · exact gsub_of_not_mem

theorem lower_append (front back : Text) :
    lower (front ++ back) = lower front ++ lower back :=
  List.map_append

theorem endsWith_append {front back ending : Text}
    (same : back.length = ending.length) :
    endsWith ending (front ++ back) = (back == ending) := by
  have position : (front ++ back).length - ending.length = front.length := by
    rw [List.length_append, same, Nat.add_sub_cancel]
  rw [endsWith, position, List.drop_left]

end Lua
