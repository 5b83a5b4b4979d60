import RawImport.Lib.JsonGrammar

/-!
# String literals and their strings

A literal is at least as long as the string it stands for, and exactly as long
when nothing is escaped.
-/

namespace Json

def Piece.isPlain : Piece → Bool
  | .plain _ => true
  | _ => false

/-- The character of a piece that is one on its own. -/
def Piece.single : Piece → Option Char
  | .plain c => some c.val
  | .escape c => some (escaped c.val)
  | .unicode _ _ _ _ => none

namespace Literal

theorem raw_cons (piece : Piece) (rest : Literal) :
    raw (piece :: rest) = piece.raw ++ raw rest :=
  List.flatMap_cons

theorem length_utf8_le (code : Nat) : (utf8 code).length ≤ 4 := by
  unfold utf8
  split
  · simp
  · split
    · simp
    · split
      · simp
      · simp

/-- The bytes that a pending code unit may still become. -/
def pending (high : Option Nat) : Nat := high.elim 0 fun _ => 4

@[simp] theorem pending_none : pending none = 0 := rfl

@[simp] theorem pending_some (high : Nat) : pending (some high) = 4 := rfl

theorem length_elim_utf8_le (high : Option Nat) :
    (high.elim [] utf8).length ≤ pending high := by
  cases high with
  | none => exact Nat.le_refl 0
  | some high => exact length_utf8_le high

theorem length_decodeUnit_le (high : Option Nat) (unit : Nat) :
    (decodeUnit high unit).1.length + pending (decodeUnit high unit).2 ≤
      pending high + 4 := by
  have short := length_utf8_le unit
  cases high with
  | none =>
      rw [decodeUnit]
      split
      · exact Nat.le_refl 4
      · simpa using short
  | some high =>
      have before := length_utf8_le high
      have pair := length_utf8_le (surrogatePair high unit)
      rw [decodeUnit]
      generalize utf8 (surrogatePair high unit) = both at pair ⊢
      generalize utf8 high = first at before ⊢
      generalize utf8 unit = second at short ⊢
      split
      · dsimp only [pending_some, pending_none]
        omega
      · split
        · dsimp only [pending_some]
          omega
        · rw [List.length_append]
          dsimp only [pending_some, pending_none]
          omega

/-- A piece is as long as what it adds to the string, and longer when it is an
escape. -/
theorem length_decodePiece_le (high : Option Nat) (piece : Piece) :
    (decodePiece high piece).1.length + pending (decodePiece high piece).2 +
        (if piece.isPlain then 0 else 1) ≤
      piece.raw.length + pending high := by
  have bound := length_elim_utf8_le high
  cases piece with
  | plain c =>
      simp [decodePiece, Piece.raw, Piece.isPlain] at bound ⊢
      omega
  | escape c =>
      simp [decodePiece, Piece.raw, Piece.isPlain] at bound ⊢
      omega
  | unicode first second third fourth =>
      have unit :=
        length_decodeUnit_le high (codeUnit first second third fourth)
      calc
        _ ≤ pending high + 4 + 1 := Nat.add_le_add_right unit 1
        _ ≤ 6 + pending high := by omega

theorem length_decodeFrom_le (high : Option Nat) (literal : Literal) :
    (decodeFrom high literal).length +
        (if literal.all Piece.isPlain then 0 else 1) ≤
      (raw literal).length + pending high := by
  induction literal generalizing high with
  | nil =>
      cases high with
      | none => exact Nat.le_refl 0
      | some high =>
          have short := length_utf8_le high
          simpa [decodeFrom, raw] using short
  | cons piece rest ih =>
      have bound := length_decodePiece_le high piece
      have later := ih (decodePiece high piece).2
      rw [decodeFrom, raw_cons, List.length_append, List.length_append,
        List.all_cons]
      cases plain : piece.isPlain with
      | true =>
          rw [plain] at bound
          simp only [Bool.true_and, if_true] at bound ⊢
          omega
      | false =>
          rw [plain] at bound
          simp only [Bool.false_and, Bool.false_eq_true, if_false]
            at bound ⊢
          omega

theorem length_value_le (literal : Literal) :
    literal.value.length ≤ literal.raw.length :=
  Nat.le_trans (Nat.le_add_right _ _) (length_decodeFrom_le none literal)

theorem length_value_lt {literal : Literal}
    (escapes : literal.all Piece.isPlain = false) :
    literal.value.length < literal.raw.length := by
  have bound := length_decodeFrom_le none literal
  rw [escapes] at bound
  exact bound

theorem mem_decodePiece {piece : Piece} {c : Char}
    (single : c ∈ piece.single) (high : Option Nat) :
    c ∈ (decodePiece high piece).1 := by
  cases piece with
  | plain d =>
      cases single
      exact List.mem_append_right _ (List.mem_singleton_self _)
  | escape d =>
      cases single
      exact List.mem_append_right _ (List.mem_singleton_self _)
  | unicode first second third fourth => cases single

theorem mem_decodeFrom {piece : Piece} {literal : Literal} {c : Char}
    (member : piece ∈ literal) (single : c ∈ piece.single)
    (high : Option Nat) : c ∈ decodeFrom high literal := by
  induction literal generalizing high with
  | nil => cases member
  | cons first rest ih =>
      rw [decodeFrom]
      cases member with
      | head => exact List.mem_append_left _ (mem_decodePiece single high)
      | tail _ later => exact List.mem_append_right _ (ih later _)

theorem value_eq_raw {literal : Literal}
    (plain : literal.all Piece.isPlain = true) :
    literal.value = literal.raw := by
  induction literal with
  | nil => rfl
  | cons piece rest ih =>
      rw [List.all_cons, Bool.and_eq_true] at plain
      cases piece with
      | plain c =>
          have tail := ih plain.2
          change c.val :: value rest = _
          rw [tail]
          rfl
      | escape c => exact absurd plain.1 (by simp [Piece.isPlain])
      | unicode first second third fourth =>
          exact absurd plain.1 (by simp [Piece.isPlain])

theorem value_of_raw {literal : Literal} (noBackslash : '\\' ∉ literal.raw) :
    literal.value = literal.raw := by
  apply value_eq_raw
  apply List.all_eq_true.mpr
  intro piece inside
  have here : ∀ c ∈ piece.raw, c ∈ literal.raw := fun c member =>
    List.mem_flatMap.mpr ⟨piece, inside, member⟩
  cases piece with
  | plain c => rfl
  | escape c => exact (noBackslash (here _ List.mem_cons_self)).elim
  | unicode first second third fourth =>
      exact (noBackslash (here _ List.mem_cons_self)).elim

def plain (text : Text) : Literal :=
  text.filterMap fun c =>
    if legal : isUnescaped c = true then some (.plain ⟨c, legal⟩) else none

theorem raw_plain {text : Text} (legal : text.all isUnescaped = true) :
    (plain text).raw = text := by
  induction text with
  | nil => rfl
  | cons c text ih =>
      rw [List.all_cons, Bool.and_eq_true] at legal
      have split : plain (c :: text) = .plain ⟨c, legal.1⟩ :: plain text := by
        simp [plain, legal.1]
      rw [split, raw_cons, ih legal.2]
      rfl

theorem all_isPlain (text : Text) :
    (plain text).all Piece.isPlain = true := by
  apply List.all_eq_true.mpr
  intro piece inside
  obtain ⟨c, -, equal⟩ := List.mem_filterMap.mp inside
  split at equal
  · cases equal
    rfl
  · cases equal

theorem value_plain {text : Text} (legal : text.all isUnescaped = true) :
    (plain text).value = text := by
  rw [value_eq_raw (all_isPlain text), raw_plain legal]

/-- A character that no escape is written with stands for itself. -/
theorem mem_value {literal : Literal} {c : Char} (member : c ∈ literal.raw)
    (other : c ≠ '\\' ∧ c ≠ 'u' ∧ isEscape c = false ∧ isHexDigit c = false) :
    c ∈ literal.value := by
  obtain ⟨piece, inside, here⟩ := List.mem_flatMap.mp member
  apply mem_decodeFrom inside
  cases piece with
  | plain d =>
      rw [List.mem_singleton.mp here]
      rfl
  | escape d =>
      have listed : c = '\\' ∨ c = d.val := by
        simpa [Piece.raw] using here
      rcases listed with equal | equal
      · exact absurd equal other.1
      · have legal := d.property
        rw [← equal, other.2.2.1] at legal
        cases legal
  | unicode first second third fourth =>
      have listed : c = '\\' ∨ c = 'u' ∨ c = first.val ∨ c = second.val ∨
          c = third.val ∨ c = fourth.val := by
        simpa [Piece.raw] using here
      have digit (d : HexDigit) : c ≠ d.val := by
        intro equal
        have legal := d.property
        rw [← equal, other.2.2.2] at legal
        cases legal
      rcases listed with equal | equal | equal | equal | equal | equal
      · exact absurd equal other.1
      · exact absurd equal other.2.1
      · exact absurd equal (digit first)
      · exact absurd equal (digit second)
      · exact absurd equal (digit third)
      · exact absurd equal (digit fourth)

end Literal

theorem Piece.quote_mem_raw {piece : Piece} (member : '"' ∈ piece.raw) :
    ∃ c : Escape, piece = .escape c ∧ c.val = '"' := by
  cases piece with
  | plain c =>
      exact ((unescaped_ne c).1 (List.mem_singleton.mp member).symm).elim
  | escape c =>
      have equal : '"' = c.val := by simpa [Piece.raw] using member
      exact ⟨c, rfl, equal.symm⟩
  | unicode first second third fourth =>
      have listed : '"' = first.val ∨ '"' = second.val ∨
          '"' = third.val ∨ '"' = fourth.val := by
        simpa [Piece.raw] using member
      have digit (d : HexDigit) : '"' ≠ d.val := by
        intro equal
        have legal := d.property
        rw [← equal] at legal
        exact absurd legal (by decide)
      rcases listed with equal | equal | equal | equal
      · exact (digit first equal).elim
      · exact (digit second equal).elim
      · exact (digit third equal).elim
      · exact (digit fourth equal).elim

namespace Literal

theorem quote_mem_value {literal : Literal} (member : '"' ∈ literal.raw) :
    '"' ∈ literal.value := by
  obtain ⟨piece, inside, here⟩ := List.mem_flatMap.mp member
  apply mem_decodeFrom inside
  obtain ⟨c, equal, quote⟩ := Piece.quote_mem_raw here
  rw [equal, Piece.single, quote]
  rfl

theorem quote_not_mem_raw {literal : Literal}
    (plain : literal.all Piece.isPlain = true) : '"' ∉ literal.raw := by
  intro member
  obtain ⟨piece, inside, here⟩ := List.mem_flatMap.mp member
  have legal := List.all_eq_true.mp plain piece inside
  obtain ⟨c, equal, -⟩ := Piece.quote_mem_raw here
  rw [equal] at legal
  cases legal

end Literal

end Json
