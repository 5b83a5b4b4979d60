import RawImport.Lib.Raster
import RawImport.Plugin.Targets

/-!
# Presses of the rotation button

`sync_rotation_all` gives every selected image the orientation behind its own
in the cycle of `rotate_cw` and posts it.  The numbers are those of EXIF: what
they say about an image is how it is displayed.
-/

namespace RawImport

namespace Plugin

variable {α : Type*}

/-- `rotate_cw`. -/
def rotateCw (orient : Int) : Int :=
  if orient = 1 then 6
  else if orient = 2 then 5
  else if orient = 3 then 8
  else if orient = 4 then 7
  else if orient = 5 then 4
  else if orient = 6 then 3
  else if orient = 7 then 2
  else if orient = 8 then 1
  else 1

/-- The body of `notify_rotation_updated`. -/
def rotationBody (sourcePath : Text) (orientation : Int) : Text :=
  "\x7b\"source_path\":\"".toList ++
    (Lua.gsub '"' "\\\"".toList sourcePath ++ "\",\"orientation\":".toList ++
      (toString orientation).toList ++
      ",\"client_id\":\"darktable-lua\"\x7d".toList)

def rotationTarget : Text :=
  "/api/v1/imports/by-source/rotation-updated".toList

/-- The command of `notify_rotation_updated`, if an address is set. -/
def notifyRotationUpdated (base token sourcePath : Text)
    (orientation : Int) : Option Text :=
  if base = [] then none
  else some (postCommand (authHdr token) (base ++ rotationTarget)
    (rotationBody sourcePath orientation))

/-- The orientations that Darktable has, and the commands given so far. -/
structure Session where
  orientation : Image → Option Int
  commands : List Text := []

/-- One round of the loop in `sync_rotation_all`; `assigned` is false where
the assignment raises an error, which `pcall` catches. -/
def syncImage (base token : Text) (session : Session)
    (entry : Image × Bool) : Session :=
  let (image, assigned) := entry
  let next := rotateCw ((session.orientation image).getD 1)
  { orientation :=
      if assigned then Function.update session.orientation image (some next)
      else session.orientation
    commands := session.commands ++
      (notifyRotationUpdated base token image.file next).toList }

/-- `sync_rotation_all()` with the selected images. -/
def syncRotationAll (base token : Text) (session : Session)
    (images : List (Image × Bool)) : Session :=
  images.foldl (syncImage base token) session

/-- How an image is displayed: where EXIF puts row 0 and column 0. -/
def displayed (orientation : Int) (raster : Raster α) : Raster α :=
  match orientation with
  | 2 => raster.mirror
  | 3 => raster.turnRight.turnRight
  | 4 => raster.turnRight.turnRight.mirror
  | 5 => raster.turnRight.mirror
  | 6 => raster.turnRight
  | 7 => raster.turnLeft.mirror
  | 8 => raster.turnLeft
  | _ => raster

def Oriented (orientation : Int) : Prop :=
  1 ≤ orientation ∧ orientation ≤ 8

def mirrored (orientation : Int) : Bool :=
  [2, 4, 5, 7].contains orientation

def pressTurn (orientation : Int) (raster : Raster α) : Raster α :=
  if mirrored orientation then raster.turnLeft else raster.turnRight

theorem Oriented.cases {orientation : Int} (oriented : Oriented orientation) :
    orientation ∈ [1, 2, 3, 4, 5, 6, 7, 8] := by
  obtain ⟨low, high⟩ := oriented
  simp only [List.mem_cons, List.not_mem_nil, or_false]
  omega

theorem oriented_rotateCw {orientation : Int}
    (oriented : Oriented orientation) : Oriented (rotateCw orientation) := by
  have each : ∀ orientation ∈ [1, 2, 3, 4, 5, 6, 7, 8],
      1 ≤ rotateCw orientation ∧ rotateCw orientation ≤ 8 := by
    decide
  exact each orientation oriented.cases

theorem mirrored_rotateCw {orientation : Int}
    (oriented : Oriented orientation) :
    mirrored (rotateCw orientation) = mirrored orientation := by
  have each : ∀ orientation ∈ [1, 2, 3, 4, 5, 6, 7, 8],
      mirrored (rotateCw orientation) = mirrored orientation := by
    decide
  exact each orientation oriented.cases

/-- One press turns the image, a mirrored one against the clock. -/
theorem displayed_rotateCw {orientation : Int}
    (oriented : Oriented orientation) (raster : Raster α) :
    displayed (rotateCw orientation) raster =
      pressTurn orientation (displayed orientation raster) := by
  have cases := oriented.cases
  simp only [List.mem_cons, List.not_mem_nil, or_false] at cases
  rcases cases with rfl | rfl | rfl | rfl | rfl | rfl | rfl | rfl
  · rfl
  · exact (raster.turnLeft_mirror).symm
  · exact raster.turnRight_thrice.symm
  · change raster.turnLeft.mirror =
      raster.turnRight.turnRight.mirror.turnLeft
    rw [Raster.turnLeft_mirror, raster.turnRight_thrice]
  · exact (raster.turnRight.turnLeft_mirror).symm
  · rfl
  · change raster.mirror = raster.turnLeft.mirror.turnLeft
    rw [Raster.turnLeft_mirror, raster.turnRight_turnLeft]
  · exact raster.turnRight_turnLeft.symm

/-- How often the orientation of an image is set. -/
def assignments (image : Image) (entries : List (Image × Bool)) : Nat :=
  entries.countP fun entry => decide (entry.1 = image) && entry.2

theorem syncImage_orientation (base token : Text) (session : Session)
    (entry : Image × Bool) (image : Image) :
    (syncImage base token session entry).orientation image =
      if entry.1 = image ∧ entry.2 = true then
        some (rotateCw ((session.orientation image).getD 1))
      else session.orientation image := by
  obtain ⟨other, assigned⟩ := entry
  cases assigned with
  | false => simp [syncImage]
  | true =>
      by_cases same : other = image
      · subst same
        simp [syncImage]
      · simp [syncImage, same, Function.update_of_ne (Ne.symm same)]

def shown (session : Session) (image : Image) (raster : Raster α) :
    Raster α :=
  displayed ((session.orientation image).getD 1) raster

/-- The state of an image that has an EXIF orientation of one kind. -/
structure Kind (session : Session) (image : Image) (mirror : Bool) :
    Prop where
  oriented : Oriented ((session.orientation image).getD 1)
  mirrored : mirrored ((session.orientation image).getD 1) = mirror

theorem syncImage_shown {session : Session} {image : Image} {mirror : Bool}
    (kind : Kind session image mirror) (base token : Text)
    (entry : Image × Bool) (raster : Raster α) :
    Kind (syncImage base token session entry) image mirror ∧
    shown (syncImage base token session entry) image raster =
      if entry.1 = image ∧ entry.2 = true then
        if mirror then (shown session image raster).turnLeft
        else (shown session image raster).turnRight
      else shown session image raster := by
  have after := syncImage_orientation base token session entry image
  by_cases here : entry.1 = image ∧ entry.2 = true
  · rw [if_pos here] at after ⊢
    refine ⟨⟨?_, ?_⟩, ?_⟩
    · rw [after]
      exact oriented_rotateCw kind.oriented
    · rw [after]
      exact (mirrored_rotateCw kind.oriented).trans kind.mirrored
    · unfold shown
      rw [after]
      refine (displayed_rotateCw kind.oriented raster).trans ?_
      rw [pressTurn, kind.mirrored]
  · rw [if_neg here] at after ⊢
    refine ⟨⟨?_, ?_⟩, ?_⟩
    · rw [after]
      exact kind.oriented
    · rw [after]
      exact kind.mirrored
    · unfold shown
      rw [after]

/-- The turn of an image that is mirrored or not. -/
def turn (mirror : Bool) : Raster α → Raster α :=
  if mirror then Raster.turnLeft else Raster.turnRight

theorem turn_iterate_four (mirror : Bool) :
    (turn mirror : Raster α → Raster α)^[4] = id := by
  cases mirror with
  | true => exact Raster.turnLeft_iterate_four
  | false => exact Raster.turnRight_iterate_four

theorem syncRotationAll_shown {mirror : Bool} (base token : Text)
    (image : Image) (entries : List (Image × Bool)) (session : Session)
    (kind : Kind session image mirror) (raster : Raster α) :
    shown (syncRotationAll base token session entries) image raster =
      (turn mirror)^[assignments image entries]
        (shown session image raster) := by
  induction entries generalizing session with
  | nil => rfl
  | cons entry entries ih =>
      obtain ⟨kept, turned⟩ := syncImage_shown kind base token entry raster
      have rest := ih _ kept
      unfold syncRotationAll assignments at rest ⊢
      rw [List.foldl_cons, rest, turned, List.countP_cons]
      by_cases here : entry.1 = image ∧ entry.2 = true
      · have counted : (decide (entry.1 = image) && entry.2) = true := by
          rw [here.2, Bool.and_true, decide_eq_true here.1]
        rw [if_pos here, if_pos counted, Function.iterate_succ_apply]
        cases mirror with
        | true => rfl
        | false => rfl
      · have skipped : ¬(decide (entry.1 = image) && entry.2) = true := by
          simpa using here
        rw [if_neg here, if_neg skipped, Nat.add_zero]

/-- Over any presses and selections: an image is turned by a quarter for each
time that its orientation was set, clockwise unless it is mirrored and then
the other way; four of these change nothing. -/
theorem presses_turn (base token : Text) (session : Session) (image : Image)
    (entries : List (Image × Bool))
    (oriented : Oriented ((session.orientation image).getD 1))
    (raster : Raster α) :
    shown (syncRotationAll base token session entries) image raster =
        (turn (mirrored ((session.orientation image).getD 1)))^[assignments
          image entries] (shown session image raster) ∧
      (4 ∣ assignments image entries →
        shown (syncRotationAll base token session entries) image raster =
          shown session image raster) := by
  have turned := syncRotationAll_shown base token image entries session
    ⟨oriented, rfl⟩ raster
  refine ⟨turned, ?_⟩
  rintro ⟨rounds, whole⟩
  rw [turned, whole, Function.iterate_mul, turn_iterate_four,
    Function.iterate_id]
  rfl

/-- A scan of a slide, mirrored, at the first press. -/
def slide : Image :=
  { path := "/scans".toList, filename := "slide.tif".toList, film := none }

def negative : Image :=
  { path := "/scans".toList, filename := "negative.tif".toList, film := none }

/-- The slide is selected three times, once without effect, and the negative
once. -/
def slidePresses : List (Image × Bool) :=
  [(slide, true), (negative, true), (slide, false), (slide, true)]

theorem presses_turn_slide :
    let session : Session := { orientation := fun _ => some 2 }
    let raster : Raster Nat := ⟨2, 1, fun column _ => column.val⟩
    shown (syncRotationAll [] [] session slidePresses) slide raster =
        (shown session slide raster).turnLeft.turnLeft ∧
      shown (syncRotationAll [] [] session slidePresses) negative raster =
        (shown session negative raster).turnLeft := by
  intro session raster
  exact ⟨(presses_turn [] [] session slide slidePresses
    ⟨by decide, by decide⟩ raster).1.trans rfl,
    (presses_turn [] [] session negative slidePresses
      ⟨by decide, by decide⟩ raster).1.trans rfl⟩

end Plugin

end RawImport
