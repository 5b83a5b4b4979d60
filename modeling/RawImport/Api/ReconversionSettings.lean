import Mathlib.Data.List.Nodup
import RawImport.Api.BoundSettings
import RawImport.Api.Handle

/-!
# Settings of a reconversion

From the body of a request to the text that `InsertReconversion` binds, for
every body with settings and a reason in any layout.
-/

namespace RawImport

namespace Api

open Cxx Effect Search

/-! ## Bodies -/

def settingNames : List Text :=
  ["compression".toList, "version".toList, "preview_medium".toList,
    "preview_full".toList, "jpeg_quality".toList, "linear".toList]

/-- The object of the settings, with what it gives. -/
structure SettingsObject where
  blank : Json.Blank
  members : List Json.Member
  known : ∀ member ∈ members, member.name.value ∈ settingNames
  distinct : (members.map fun member => member.name.value).Nodup
  settings : ConversionSettings
  given : settingsOf (members.map Json.Member.meaning) = some settings

inductive BodyValue where
  | settings (object : SettingsObject)
  | reason (literal : Json.Literal)

namespace BodyValue

def name : BodyValue → Text
  | .settings _ => "conversion_settings".toList
  | .reason _ => "reason".toList

def layout : BodyValue → Json.Layout
  | .settings object => .objectOf object.blank object.members
  | .reason literal => .string literal

end BodyValue

structure BodyMember where
  before : Json.Blank
  name : Json.Literal
  behind : Json.Blank
  colon : Json.Blank
  value : BodyValue
  after : Json.Blank
  named : name.value = value.name

def BodyMember.toMember (member : BodyMember) : Json.Member where
  before := member.before
  name := member.name
  behind := member.behind
  colon := member.colon
  value := member.value.layout
  after := member.after

structure BodyLayout where
  before : Json.Blank
  blank : Json.Blank
  members : List BodyMember
  after : Json.Blank

namespace BodyLayout

def document (layout : BodyLayout) : Json.Document where
  before := layout.before
  layout := .objectOf layout.blank (layout.members.map BodyMember.toMember)
  after := layout.after

def text (layout : BodyLayout) : Text := layout.document.text

/-- The settings object, when the body has one. -/
def object (layout : BodyLayout) : Option SettingsObject :=
  layout.members.findSome? fun member =>
    match member.value with
    | .settings object => some object
    | .reason _ => none

def settings (layout : BodyLayout) : ConversionSettings :=
  layout.object.elim {} fun object => object.settings

def compression (layout : BodyLayout) : Option Json.Member :=
  layout.object.bind fun object =>
    object.members.find? fun member =>
      member.name.value = "compression".toList

end BodyLayout

/-- A body of a reconvert request. -/
structure ReconvertBody extends BodyLayout where
  distinct : (members.map fun member => member.value.name).Nodup
  fits : toBodyLayout.text.length < 2 ^ 64

/-! ## What is bound -/

/-- The client with the statements it has been given. -/
def recording {σ : Type} (client : Client σ) : Client (σ × List Statement) where
  execute statement state :=
    let (reply, world) := client.execute statement state.1
    (reply, (world, state.2 ++ [statement]))
  ping state :=
    let (alive, world) := client.ping state.1
    (alive, (world, state.2))

variable {σ : Type}

def Impl.recorded (impl : Impl σ) : Impl (σ × List Statement) where
  config := impl.config
  client := recording impl.client
  sha256File path state :=
    let (hash, world) := impl.sha256File path state.1
    (hash, (world, state.2))
  render state := impl.render state.1
  queue := impl.queue.map fun queue importId path orientation clientId state =>
    (queue importId path orientation clientId state.1, state.2)

def Statement.conversionSettings : Statement → Option String
  | .insertReconversion _ _ settings _ => some settings
  | _ => none

/-- The texts bound to `conversion_settings` while a request is answered. -/
def boundSettings (impl : Impl σ) (req path : Text) (world : σ) :
    List String :=
  (Effect.run (reconvert impl.recorded req path)
    { world := (world, []) }).2.world.2.filterMap
      Statement.conversionSettings

def jobCompression (extracted : Text) : Text :=
  if extracted = [] then "lossless".toList else extracted

theorem ofList_jobCompression (extracted : Text) :
    String.ofList (jobCompression extracted) =
      if extracted = [] then "lossless" else String.ofList extracted := by
  unfold jobCompression
  split
  · rw [String.ofList_toList]
  · rfl

/-- Every text bound so far has the extracted compression in it. -/
def BindsOnly (extracted : Text) (session : Session (σ × List Statement)) :
    Prop :=
  ∀ text ∈ session.world.2.filterMap Statement.conversionSettings,
    text.toList = boundText (jobCompression extracted)

theorem boundSettings_eq (impl : Impl σ) {req path body extracted : Text}
    (carries : bodyOf req = .ok body)
    (extracts : jsonGet body "compression".toList = .ok extracted)
    (world : σ) {text : String}
    (bound : text ∈ boundSettings impl req path world) :
    text.toList = boundText (jobCompression extracted) := by
  have ends : Ends (reconvert impl.recorded req path)
      { world := (world, []) } (fun _ => BindsOnly extracted)
      fun _ => BindsOnly extracted := by
    have start : BindsOnly extracted { world := (world, []) } := by
      intro text member
      cases member
    unfold reconvert
    apply ends_bind.mpr
    cases substrFrom path "/api/v1/imports/".length with
    | error exception => exact start
    | ok seq =>
        apply ends_bind.mpr
        cases substr seq 0 ((find "/reconvert".toList seq).getD seq.length) with
        | error exception => exact start
        | ok seq =>
            apply ends_bind.mpr
            have looked : ∃ record after,
                Store.getImportBySequence impl.recorded.client
                  (String.ofList seq) (world, []) =
                    (record, (after,
                      [.importBySequence (String.ofList seq)])) :=
              ⟨_, _, rfl⟩
            obtain ⟨record, after, looked⟩ := looked
            rw [callStore, ends_act]
            dsimp only
            rw [looked]
            have first : ∀ calls sent, BindsOnly extracted
                { world := (after, [.importBySequence (String.ofList seq)])
                  calls := calls
                  sent := sent } := by
              intro calls sent text member
              cases member
            cases record with
            | none => exact first _ _
            | some r =>
                dsimp only
                rw [carries]
                apply ends_bind.mpr
                rw [ends_check_ok, extracts]
                apply ends_bind.mpr
                rw [ends_check_ok]
                obtain ⟨reason, read⟩ := jsonGet_ok body "reason".toList
                rw [read]
                apply ends_bind.mpr
                rw [ends_check_ok]
                apply ends_bind.mpr
                intro text member
                have listed : text ∈ [Store.settingsJson
                    { compression :=
                        if extracted = [] then "lossless"
                        else String.ofList extracted }] := member
                rw [List.mem_singleton.mp listed, boundText,
                  ofList_jobCompression]
  exact ends.final text bound

/-! ## What is extracted -/

/-- The name stands without escapes and right in front of the colon. -/
def Spells (member : Json.Member) : Prop :=
  member.name.raw = "compression".toList ∧ member.behind.val = []

instance (member : Json.Member) : Decidable (Spells member) :=
  inferInstanceAs (Decidable (_ ∧ _))

/-- The other settings are the defaults.  The compression is left out; or its
member can be found and shows a string that is not empty and has no escaped
quote; or it cannot be found and is the default as well. -/
def BodyLayout.Kept (layout : BodyLayout) : Prop :=
  layout.settings = { compression := layout.settings.compression } ∧
    ∀ member, layout.compression = some member →
      if Spells member then
        (∀ c ∈ member.colon.val, isSkipped c = true) ∧
          ∀ literal, member.value = .string literal →
            literal.raw ≠ [] ∧ '"' ∉ literal.raw
      else layout.settings.compression = "lossless"

theorem compression_ordinary : Json.Ordinary "compression".toList where
  noQuote := by decide +kernel
  noBackslash := by decide +kernel
  head := by
    intro c head
    have equal : 'c' = c := by simpa using head
    rw [← equal]
    rfl

theorem quote_not_mem_name {literal : Json.Literal}
    (clean : '"' ∉ literal.value) : '"' ∉ literal.raw :=
  fun member => clean (Json.Literal.quote_mem_value member)

theorem settingNames_noQuote {name : Text} (known : name ∈ settingNames) :
    '"' ∉ name := by
  revert known name
  decide +kernel

theorem reads_of_settingsOf {members : List (Text × Json.Value)}
    {settings : ConversionSettings}
    (given : settingsOf members = some settings) :
    textMember members "compression" "lossless" =
        some settings.compression ∧
      (textMember members "preview_medium" "1024x1024").isSome ∧
      (textMember members "preview_full" "4000x3000").isSome ∧
      (textMember members "version" "1.4").isSome ∧
      (intMember members "jpeg_quality" 92).isSome ∧
      (boolMember members "linear" false).isSome := by
  unfold settingsOf at given
  simp only [Option.bind_eq_bind, Option.bind_eq_some_iff,
    Option.pure_def, Option.some.injEq] at given
  obtain ⟨compression, first, medium, second, full, third, version, fourth,
    quality, fifth, linear, sixth, rfl⟩ := given
  rw [first, second, third, fourth, fifth, sixth]
  exact ⟨rfl, rfl, rfl, rfl, rfl, rfl⟩

theorem memberOf_of_mem {members : List Json.Member}
    (distinct : (members.map fun member => member.name.value).Nodup)
    {member : Json.Member} (inside : member ∈ members) {name : String}
    (named : member.name.value = name.toList) :
    memberOf (members.map Json.Member.meaning) name =
      some member.value.value := by
  induction members with
  | nil => cases inside
  | cons first members ih =>
      rw [List.map_cons, List.nodup_cons] at distinct
      rw [List.map_cons]
      by_cases here : first.name.value = name.toList
      · have equal : member = first := by
          cases inside with
          | head => rfl
          | tail _ later =>
              exfalso
              apply distinct.1
              rw [here, ← named]
              exact List.mem_map.mpr ⟨member, later, rfl⟩
        rw [equal, Json.Member.meaning, here]
        exact memberOf_cons_self name _ _
      · rw [memberOf_cons_of_ne here]
        cases inside with
        | head => exact (here named).elim
        | tail _ later => exact ih distinct.2 later

theorem no_read {members : List (Text × Json.Value)} {name : String}
    {value : Json.Value} (found : memberOf members name = some value)
    (nested : (∃ elements, value = .array elements) ∨
      ∃ members, value = .object members) :
    (∀ missing, textMember members name missing = none) ∧
      (∀ missing, intMember members name missing = none) ∧
      ∀ missing, boolMember members name missing = none := by
  unfold textMember intMember boolMember
  rw [found]
  rcases nested with ⟨elements, rfl⟩ | ⟨members, rfl⟩
  · exact ⟨fun _ => rfl, fun _ => rfl, fun _ => rfl⟩
  · exact ⟨fun _ => rfl, fun _ => rfl, fun _ => rfl⟩

theorem key_ne_of_front {α β : Type*} {key : α → β} {front back : List α}
    {here other : α} (distinct : ((front ++ here :: back).map key).Nodup)
    (before : other ∈ front) : key other ≠ key here := by
  rw [List.map_append, List.map_cons] at distinct
  exact (List.nodup_append.mp distinct).2.2 _
    (List.mem_map.mpr ⟨other, before, rfl⟩) _ List.mem_cons_self

namespace SettingsObject

variable {object : SettingsObject} {member : Json.Member}

theorem not_nested (inside : member ∈ object.members) :
    ¬((∃ elements, member.value.value = .array elements) ∨
      ∃ members, member.value.value = .object members) := by
  intro nested
  have reads := reads_of_settingsOf object.given
  have none_read (name : String)
      (named : member.name.value = name.toList) :=
    no_read (memberOf_of_mem object.distinct inside named) nested
  have known := object.known member inside
  simp only [settingNames, List.mem_cons, List.not_mem_nil, or_false] at known
  rcases known with named | named | named | named | named | named
  · rw [(none_read _ named).1] at reads
    cases reads.1
  · rw [(none_read _ named).1] at reads
    cases reads.2.2.2.1
  · rw [(none_read _ named).1] at reads
    cases reads.2.1
  · rw [(none_read _ named).1] at reads
    cases reads.2.2.1
  · rw [(none_read _ named).2.1] at reads
    cases reads.2.2.2.2.1
  · rw [(none_read _ named).2.2] at reads
    cases reads.2.2.2.2.2

theorem value_silent (inside : member ∈ object.members) (name : Text) :
    member.value.Silent name := by
  have flat := not_nested inside
  cases value : member.value with
  | array elements =>
      exact (flat (.inl ⟨elements.values, by rw [value]; rfl⟩)).elim
  | object members =>
      exact (flat (.inr ⟨members.values, by rw [value]; rfl⟩)).elim
  | _ => trivial

theorem silent (inside : member ∈ object.members) (other : ¬Spells member) :
    member.Silent "compression".toList :=
  ⟨⟨quote_not_mem_name
    (settingNames_noQuote (object.known member inside)), other⟩,
    value_silent inside _⟩

theorem compression_string (inside : member ∈ object.members)
    (named : member.name.value = "compression".toList) :
    ∃ literal, member.value = .string literal ∧
      object.settings.compression = String.ofList literal.value := by
  have read := (reads_of_settingsOf object.given).1
  have found := memberOf_of_mem object.distinct inside named
  unfold textMember at read
  rw [found] at read
  cases value : member.value with
  | string literal =>
      rw [value] at read
      exact ⟨literal, rfl, (Option.some.inj read).symm⟩
  | _ =>
      rw [value] at read
      cases read

theorem compression_default
    (missing : ∀ member ∈ object.members,
      member.name.value ≠ "compression".toList) :
    object.settings.compression = "lossless" := by
  have read := (reads_of_settingsOf object.given).1
  have nowhere : memberOf (object.members.map Json.Member.meaning)
      "compression" = none := by
    unfold memberOf
    rw [Option.map_eq_none_iff, List.find?_eq_none]
    intro entry listed
    obtain ⟨member, inside, rfl⟩ := List.mem_map.mp listed
    exact fun equal => missing member inside (of_decide_eq_true equal)
  unfold textMember at read
  rw [nowhere] at read
  exact (Option.some.inj read).symm

theorem named_of_spells (spells : Spells member) :
    member.name.value = "compression".toList := by
  rw [Json.Literal.value_of_raw, spells.1]
  rw [spells.1]
  exact compression_ordinary.noBackslash

theorem find_compression (inside : member ∈ object.members)
    (named : member.name.value = "compression".toList) :
    (object.members.find? fun member =>
      member.name.value = "compression".toList) = some member := by
  cases found : object.members.find? fun member =>
      member.name.value = "compression".toList with
  | none =>
      have missing := List.find?_eq_none.mp found member inside
      exact (missing (decide_eq_true named)).elim
  | some other =>
      have here := List.mem_of_find?_eq_some found
      have holds := List.find?_some found
      have same : other = member :=
        List.inj_on_of_nodup_map object.distinct here inside
          ((of_decide_eq_true holds).trans named.symm)
      rw [same]

end SettingsObject

/-! ## Top-level members -/

namespace ReconvertBody

variable {body : ReconvertBody}

theorem object_of_mem {member : BodyMember} (inside : member ∈ body.members)
    {object : SettingsObject} (value : member.value = .settings object) :
    body.object = some object := by
  unfold BodyLayout.object
  cases found : body.members.findSome? _ with
  | none =>
      have missing := List.findSome?_eq_none_iff.mp found member inside
      rw [value] at missing
      cases missing
  | some other =>
      obtain ⟨second, here, holds⟩ := List.exists_of_findSome?_eq_some found
      cases otherValue : second.value with
      | reason literal =>
          rw [otherValue] at holds
          cases holds
      | settings found' =>
          rw [otherValue] at holds
          have same : second = member := by
            apply List.inj_on_of_nodup_map body.distinct here inside
            rw [otherValue, value]
            rfl
          rw [same, value] at otherValue
          cases otherValue
          exact holds.symm

theorem bodyName_clear {name : Text}
    (known : name ∈ ["conversion_settings".toList, "reason".toList]) :
    '"' ∉ name ∧ name ≠ "compression".toList := by
  revert known name
  decide +kernel

theorem name_other (member : BodyMember) :
    Json.Silent "compression".toList member.toMember.name
      member.toMember.behind := by
  have known : member.value.name ∈
      ["conversion_settings".toList, "reason".toList] := by
    cases member.value with
    | settings object => exact List.mem_cons_self
    | reason literal => exact List.mem_cons_of_mem _ List.mem_cons_self
  obtain ⟨noQuote, different⟩ := bodyName_clear known
  rw [← member.named] at noQuote different
  refine ⟨quote_not_mem_name noQuote, ?_⟩
  intro both
  apply different
  change Json.Literal.raw member.name = _ ∧ _ at both
  rw [Json.Literal.value_of_raw, both.1]
  rw [both.1]
  exact compression_ordinary.noBackslash

theorem silent_member {member : BodyMember}
    (others : ∀ object, member.value = .settings object →
      ∀ inner ∈ object.members, ¬Spells inner) :
    member.toMember.Silent "compression".toList := by
  refine ⟨name_other member, ?_⟩
  change member.value.layout.Silent _
  cases value : member.value with
  | reason literal => trivial
  | settings object =>
      apply Json.silent_objectOf
      intro inner inside
      exact SettingsObject.silent inside (others object value inner inside)

theorem extracts_nothing
    (others : ∀ member, body.compression = some member → ¬Spells member) :
    jsonGet body.text "compression".toList = .ok [] := by
  have nowhere : find (Json.spelled "compression".toList) body.text =
      none := by
    apply Json.find_objectOf compression_ordinary
    intro member inside
    obtain ⟨top, listed, rfl⟩ := List.mem_map.mp inside
    apply silent_member
    intro object value inner inside' spells
    apply others inner _ spells
    unfold BodyLayout.compression
    rw [object_of_mem listed value]
    exact SettingsObject.find_compression inside'
      (SettingsObject.named_of_spells spells)
  rw [jsonGet_eq body.fits, nowhere]
  rfl

theorem extracts_behind {member : Json.Member}
    (compression : body.compression = some member) (spells : Spells member) :
    ∃ rest, jsonGet body.text "compression".toList =
      .ok (readBehind (member.colon.val ++ (member.value.text ++ rest))) := by
  unfold BodyLayout.compression at compression
  obtain ⟨object, hasObject, found⟩ := Option.bind_eq_some_iff.mp compression
  obtain ⟨top, listed, isSettings⟩ :=
    List.exists_of_findSome?_eq_some hasObject
  have value : top.value = .settings object := by
    cases topValue : top.value with
    | reason literal =>
        rw [topValue] at isSettings
        cases isSettings
    | settings other =>
        rw [topValue] at isSettings
        cases isSettings
        rfl
  obtain ⟨front, back, split⟩ := List.append_of_mem listed
  have inside := List.mem_of_find?_eq_some found
  obtain ⟨innerFront, innerBack, innerSplit⟩ := List.append_of_mem inside
  have innerSilent : ∀ other ∈ innerFront,
      other.Silent "compression".toList := by
    intro other before
    have listed' : other ∈ object.members := by
      rw [innerSplit]
      exact List.mem_append_left _ before
    apply SettingsObject.silent listed'
    intro otherSpells
    have same : other.name.value = member.name.value :=
      (SettingsObject.named_of_spells otherSpells).trans
        (SettingsObject.named_of_spells spells).symm
    have distinct := object.distinct
    rw [innerSplit] at distinct
    exact key_ne_of_front distinct before same
  have topSilent : ∀ other ∈ front.map BodyMember.toMember,
      other.Silent "compression".toList := by
    intro other before
    obtain ⟨first, early, rfl⟩ := List.mem_map.mp before
    apply silent_member
    intro object' value'
    exfalso
    have distinct := body.distinct
    rw [split] at distinct
    apply key_ne_of_front distinct early
    rw [value, value']
    rfl
  have inner := Json.found_member compression_ordinary object.blank innerBack
    innerSilent spells (top.after.val ++
      ((back.map BodyMember.toMember).flatMap (fun other => ',' :: other.text)
        ++ '\x7d' :: body.after.val))
  rw [← innerSplit] at inner
  have layout : top.toMember.value.text =
      (Json.Layout.objectOf object.blank object.members).text := by
    change top.value.layout.text = _
    rw [value]
    rfl
  rw [← layout] at inner
  have outer := Json.found_inside compression_ordinary body.blank
    (back.map BodyMember.toMember) topSilent (name_other top) body.after.val
    inner
  have whole := Json.Found.passed
    (Json.passed_blank body.before _) outer
  have text : body.text = body.before.val ++
      ((Json.Layout.objectOf body.blank (front.map BodyMember.toMember ++
        top.toMember :: back.map BodyMember.toMember)).text ++
          body.after.val) := by
    rw [BodyLayout.text, Json.Document.text, BodyLayout.document, split,
      List.map_append, List.map_cons, List.append_assoc]
  rw [← text] at whole
  obtain ⟨place, here, behind⟩ := whole
  rw [jsonGet_eq body.fits, here, Option.elim_some, behind,
    Json.memberBehind]
  exact ⟨_, rfl⟩

end ReconvertBody

/-! ## The settings of the body and those that are bound -/

theorem gives_iff {text : Text} {settings given : ConversionSettings}
    (gives : Gives (String.ofList text) given) :
    Gives (String.ofList text) settings ↔ settings = given := by
  constructor
  · intro again
    exact again.unique gives
  · intro equal
    rw [equal]
    exact gives

theorem gives_lossless :
    Gives (String.ofList (boundText (jobCompression []))) {} := by
  have raw : Json.Literal.raw (.plain "lossless".toList) =
      "lossless".toList := Json.Literal.raw_plain (by decide +kernel)
  have value : Json.Literal.value (.plain "lossless".toList) =
      "lossless".toList := Json.Literal.value_plain (by decide +kernel)
  have gives := gives_boundText (.plain "lossless".toList)
  rw [raw, value, String.ofList_toList] at gives
  exact gives

/-- Without an extracted compression the default settings are bound. -/
theorem kept_iff_of_missing {layout : BodyLayout}
    (missing : ∀ member, layout.compression = some member → ¬Spells member)
    (default' : layout.compression = none →
      layout.settings.compression = "lossless") :
    layout.Kept ↔ layout.settings = {} := by
  unfold BodyLayout.Kept
  constructor
  · intro kept
    obtain ⟨others, compression⟩ := kept
    rw [others]
    cases found : layout.compression with
    | none => rw [default' found]
    | some member =>
        have lossless := compression member found
        rw [if_neg (missing member found)] at lossless
        rw [lossless]
  · intro equal
    refine ⟨by rw [equal], ?_⟩
    intro member found
    rw [if_neg (missing member found), equal]

theorem BodyLayout.default_of_none {layout : BodyLayout}
    (none' : layout.compression = none) :
    layout.settings.compression = "lossless" := by
  unfold BodyLayout.settings
  unfold BodyLayout.compression at none'
  cases hasObject : layout.object with
  | none => rfl
  | some object =>
      rw [hasObject] at none'
      have missing := List.find?_eq_none.mp none'
      apply SettingsObject.compression_default
      intro member inside equal
      exact missing member inside (decide_eq_true equal)

theorem BodyLayout.compression_literal {layout : BodyLayout}
    {member : Json.Member} (found : layout.compression = some member) :
    ∃ literal, member.value = .string literal ∧
      layout.settings.compression = String.ofList literal.value := by
  unfold BodyLayout.compression at found
  obtain ⟨object, hasObject, inside⟩ := Option.bind_eq_some_iff.mp found
  have named := List.find?_some inside
  have read := SettingsObject.compression_string
    (List.mem_of_find?_eq_some inside) (of_decide_eq_true named)
  unfold BodyLayout.settings
  rw [hasObject]
  exact read

theorem BodyLayout.kept_iff_of_spells {layout : BodyLayout}
    {member : Json.Member} {literal : Json.Literal}
    (compression : layout.compression = some member)
    (spells : Spells member) (value : member.value = .string literal) :
    layout.Kept ↔
      layout.settings = { compression := layout.settings.compression } ∧
        (∀ c ∈ member.colon.val, isSkipped c = true) ∧
          literal.raw ≠ [] ∧ '"' ∉ literal.raw := by
  unfold BodyLayout.Kept
  rw [compression]
  constructor
  · intro both
    have here := both.2 member rfl
    rw [if_pos spells] at here
    exact ⟨both.1, here.1, here.2 literal value⟩
  · intro both
    refine ⟨both.1, ?_⟩
    intro other same
    cases same
    rw [if_pos spells]
    refine ⟨both.2.1, ?_⟩
    intro other same
    rw [value] at same
    cases same
    exact both.2.2

theorem gives_literal_iff {literal : Json.Literal}
    {settings : ConversionSettings}
    (given : settings.compression = String.ofList literal.value) :
    Gives (String.ofList (boundText (jobCompression literal.raw)))
        settings ↔
      settings = { compression := settings.compression } ∧
        literal.raw ≠ [] := by
  by_cases empty : literal.raw = []
  · rw [empty, gives_iff gives_lossless]
    constructor
    · intro equal
      rw [equal] at given
      have lengths : "lossless".length =
          (String.ofList literal.value).length :=
        congrArg String.length given
      have ofList : (String.ofList literal.value).length =
          literal.value.length := String.length_ofList
      have short := Json.Literal.length_value_le literal
      rw [← ofList, ← lengths, empty] at short
      exact absurd short (by decide +kernel)
    · intro both
      exact (both.2 rfl).elim
  · rw [jobCompression, if_neg empty, gives_iff (gives_boundText literal),
      given, and_iff_left empty]

theorem gives_iff_of_spells {body : ReconvertBody} {member : Json.Member}
    (compression : body.compression = some member) (spells : Spells member)
    {extracted : Text}
    (extracts : jsonGet body.text "compression".toList = .ok extracted) :
    Gives (String.ofList (boundText (jobCompression extracted)))
        body.settings ↔ body.Kept := by
  obtain ⟨literal, value, given⟩ :=
    BodyLayout.compression_literal compression
  obtain ⟨rest, behind⟩ := ReconvertBody.extracts_behind compression spells
  rw [extracts, Except.ok.injEq, value, Json.Layout.text] at behind
  rw [BodyLayout.kept_iff_of_spells compression spells value]
  rcases readBehind_blank member.colon (literal.text ++ rest) with
    ⟨skipped, read⟩ | ⟨⟨c, inside, clear⟩, first, more, line, read⟩
  · rw [read, readBehind_string] at behind
    by_cases quote : '"' ∈ literal.raw
    · -- the text ends in the backslash of the escaped quote
      obtain ⟨front, cut⟩ := cut_at_quote quote ('"' :: rest)
      rw [cut] at behind
      have nonempty : extracted ≠ [] := by
        rw [behind]
        simp
      constructor
      · intro gives
        rw [jobCompression, if_neg nonempty, behind] at gives
        exact (not_gives_cut front _ gives).elim
      · intro both
        exact (both.2.2.2 quote).elim
    · have unquoted : ∀ c ∈ literal.raw, (c != '"') = true := by
        intro c member'
        apply bne_iff_ne.mpr
        intro equal
        exact quote (equal ▸ member')
      rw [List.takeWhile_append_of_pos unquoted,
        List.takeWhile_cons_of_neg (by simp), List.append_nil] at behind
      rw [behind, gives_literal_iff given]
      constructor
      · intro both
        exact ⟨both.1, skipped, both.2, quote⟩
      · intro both
        exact ⟨both.1, both.2.2.1⟩
  · -- a line break gets into the bound string
    rw [read] at behind
    constructor
    · intro gives
      rw [behind, jobCompression, if_neg (List.cons_ne_nil _ _)] at gives
      exact (not_gives_line line more _ gives).elim
    · intro both
      have skips := both.2.1 c inside
      rw [clear] at skips
      cases skips

/-- The text that is bound gives the settings of the body exactly when these
are kept. -/
theorem boundSettings_gives_iff (impl : Impl σ) {req path : Text}
    {body : ReconvertBody} (carries : bodyOf req = .ok body.text)
    (world : σ) {text : String}
    (bound : text ∈ boundSettings impl req path world) :
    Gives text body.settings ↔ body.Kept := by
  obtain ⟨extracted, extracts⟩ :=
    jsonGet_ok body.text "compression".toList
  have shape := boundSettings_eq impl carries extracts world bound
  rw [← String.ofList_toList (s := text), shape]
  by_cases findable : ∃ member, body.compression = some member ∧ Spells member
  · obtain ⟨member, compression, spells⟩ := findable
    exact gives_iff_of_spells compression spells extracts
  · have missing : ∀ member, body.compression = some member →
        ¬Spells member := by
      intro member found spells
      exact findable ⟨member, found, spells⟩
    have nothing := ReconvertBody.extracts_nothing missing
    rw [extracts] at nothing
    cases nothing
    rw [gives_iff gives_lossless,
      kept_iff_of_missing missing BodyLayout.default_of_none]

/-! ## Two bodies with one setting -/

def oneSetting (name value : String) : List Json.Member :=
  [{ name := .plain name.toList, value := .string (.plain value.toList) }]

/-- The names of the two bodies, and the one setting that each gives. -/
theorem oneSetting_read :
    Json.Literal.value (.plain "conversion_settings".toList) =
        "conversion_settings".toList ∧
      (Json.Literal.value (.plain "compression".toList) ∈ settingNames ∧
        settingsOf ((oneSetting "compression" "uncompressed").map
          Json.Member.meaning) = some { compression := "uncompressed" }) ∧
      Json.Literal.value (.plain "version".toList) ∈ settingNames ∧
        settingsOf ((oneSetting "version" "1.6").map Json.Member.meaning) =
          some { version := "1.6" } := by
  decide +kernel

theorem settings_named :
    Json.Literal.value (.plain "conversion_settings".toList) =
      "conversion_settings".toList :=
  oneSetting_read.1

def onlySettings (object : SettingsObject) : BodyLayout where
  before := Json.noBlank
  blank := Json.noBlank
  members :=
    [{ before := Json.noBlank
       name := .plain "conversion_settings".toList
       behind := Json.noBlank
       colon := Json.noBlank
       value := .settings object
       after := Json.noBlank
       named := settings_named }]
  after := Json.noBlank

theorem onlySettings_distinct (object : SettingsObject) :
    ((onlySettings object).members.map fun member =>
      member.value.name).Nodup :=
  List.nodup_singleton _

theorem uncompressed_known :
    ∀ member ∈ oneSetting "compression" "uncompressed",
      member.name.value ∈ settingNames := by
  intro member inside
  rw [List.mem_singleton.mp inside]
  exact oneSetting_read.2.1.1

theorem uncompressed_given :
    settingsOf ((oneSetting "compression" "uncompressed").map
      Json.Member.meaning) = some { compression := "uncompressed" } :=
  oneSetting_read.2.1.2

def uncompressedObject : SettingsObject where
  blank := Json.noBlank
  members := oneSetting "compression" "uncompressed"
  known := uncompressed_known
  distinct := List.nodup_singleton _
  settings := { compression := "uncompressed" }
  given := uncompressed_given

theorem version_known :
    ∀ member ∈ oneSetting "version" "1.6",
      member.name.value ∈ settingNames := by
  intro member inside
  rw [List.mem_singleton.mp inside]
  exact oneSetting_read.2.2.1

theorem version_given :
    settingsOf ((oneSetting "version" "1.6").map Json.Member.meaning) =
      some { version := "1.6" } :=
  oneSetting_read.2.2.2

def versionObject : SettingsObject where
  blank := Json.noBlank
  members := oneSetting "version" "1.6"
  known := version_known
  distinct := List.nodup_singleton _
  settings := { version := "1.6" }
  given := version_given

theorem onlySettings_fit :
    (onlySettings uncompressedObject).text.length < 2 ^ 64 ∧
      (onlySettings versionObject).text.length < 2 ^ 64 := by
  decide +kernel

def uncompressedBody : ReconvertBody where
  toBodyLayout := onlySettings uncompressedObject
  distinct := onlySettings_distinct _
  fits := onlySettings_fit.1

def versionBody : ReconvertBody where
  toBodyLayout := onlySettings versionObject
  distinct := onlySettings_distinct _
  fits := onlySettings_fit.2

/-- A server that finds one import for everything. -/
def oneImport : Impl Unit where
  config := {}
  client :=
    { execute := fun _ _ => ({ rows := [["7".toList]], insertId := 1 }, ())
      ping := fun _ => (true, ()) }
  sha256File _ _ := ("", ())
  render _ := []
  queue := none

def reconvertPath : Text := "/api/v1/imports/IMG_7/reconvert".toList

def reconvertRequest (body : Text) : Text :=
  "POST /api/v1/imports/IMG_7/reconvert HTTP/1.1\r\n\r\n".toList ++ body

theorem boundSettings_gives_uncompressed :
    Gives (Store.settingsJson { compression := "uncompressed" })
        uncompressedBody.settings ↔
      uncompressedBody.Kept := by
  have carries : bodyOf (reconvertRequest uncompressedBody.text) =
      .ok uncompressedBody.text := by decide +kernel
  have bound : Store.settingsJson { compression := "uncompressed" } ∈
      boundSettings oneImport (reconvertRequest uncompressedBody.text)
        reconvertPath () := by decide +kernel
  exact boundSettings_gives_iff oneImport carries () bound

/-- A DNG version other than the default is dropped. -/
theorem version_dropped :
    boundSettings oneImport (reconvertRequest versionBody.text)
        reconvertPath () = [Store.settingsJson {}] ∧
      ¬Gives (Store.settingsJson {}) versionBody.settings := by
  refine ⟨by decide +kernel, ?_⟩
  intro gives
  have text : boundText (jobCompression []) =
      (Store.settingsJson {}).toList := by decide +kernel
  have default' := gives_lossless
  rw [text, String.ofList_toList] at default'
  have equal := gives.unique default'
  have versions : "1.6" = "1.4" :=
    congrArg ConversionSettings.version equal
  exact absurd versions (by decide)

end Api

end RawImport
