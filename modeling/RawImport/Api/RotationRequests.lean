import RawImport.Api.BoundSettings
import RawImport.Api.Responses
import RawImport.Store.ListedRecords

/-!
# Rotation requests

The route `rotation-updated` over every request and every table.  What a body
asks for is read off the JSON grammar; the route itself reads the body with
`json_get`, takes 1 for a missing orientation and looks up whatever path it has
read.  So a body that names nothing rotates a row without a source path.
-/

namespace RawImport

namespace Api

open Cxx Effect Catalog

/-- The body is an object that names a path and an orientation from 1 to 8. -/
def Asks (body path : Text) (orientation : Int) : Prop :=
  path ≠ [] ∧ 1 ≤ orientation ∧ orientation ≤ 8 ∧
    ∃ members numeral, Json.Denotes body (.object members) ∧
      ("source_path".toList, Json.Value.string path) ∈ members ∧
      ("orientation".toList, Json.Value.number numeral) ∈ members ∧
      integerOf numeral = some orientation

def Asked (body : Text) : Prop :=
  ∃ path orientation, Asks body path orientation

/-- Only a row that the body names is queued, with the orientation it names. -/
def QueuesNamed (table : Catalog) (body : Text) (calls : List Call) : Prop :=
  ∀ id path orientation clientId,
    .queue id path orientation clientId ∈ calls →
      ∃ row ∈ table.imports, (row.id : Int) = id ∧ row.outputPath = path ∧
        Asks body row.sourcePath.toList orientation

/-- One answer, which reports an error, and nothing queued. -/
def Refused (session : Session Catalog) : Prop :=
  (∀ id path orientation clientId,
    .queue id path orientation clientId ∉ session.calls) ∧
  ∃ answer, session.sent = [answer] ∧ 400 ≤ answer.code

def sentBody (req : Text) : Text :=
  match bodyOf req with
  | .ok body => body
  | .error _ => []

/-- The path and the orientation the route reads. -/
def readRotation (req : Text) : Except StdException (Text × Int) := do
  let body ← bodyOf req
  let sp ← jsonGet body "source_path".toList
  let os ← jsonGet body "orientation".toList
  let orient ← if os = [] then pure 1 else stoi os
  return (sp, orient)

/-- The first row with the path, unless a value of it is cut. -/
def rowBySource (table : Catalog) (mariadb : Mariadb) (path : Text) :
    Option ListedRow :=
  (((table.imports.filter fun row =>
    mariadb.same row.sourcePath (String.ofList path)).take 1).takeWhile
      table.fits).head?

variable {table : Catalog} {mariadb : Mariadb}

theorem getImportBySourcePath_eq (path : Text) :
    Store.getImportBySourcePath (client mariadb) (String.ofList path) table =
      ((rowBySource table mariadb path).map (table.listedRecord []),
        table) := by
  unfold Store.getImportBySourcePath Store.lookup Store.execSelect rowBySource
  simp only [client, answer, fetched, if_true, RowBuffers.head?_fetchRows,
    List.head?_map, Option.map_map]
  rfl

theorem ends_rotationUpdated {impl : Impl Catalog}
    {queue : Int → Path → Int → String → Catalog → Catalog}
    (enabled : impl.queue = some queue) (req : Text)
    {session : Session Catalog} {returned : Unit → Session Catalog → Prop}
    {raised : StdException → Session Catalog → Prop} :
    Ends (rotationUpdated impl req) session returned raised ↔
      match readRotation req with
      | .error exception => raised exception session
      | .ok (sp, orient) =>
          Ends (queueRotation impl queue (sentBody req) sp orient) session
            returned raised := by
  obtain ⟨body, extracted⟩ := bodyOf_ok req
  obtain ⟨sp, path⟩ := jsonGet_ok body "source_path".toList
  obtain ⟨os, number⟩ := jsonGet_ok body "orientation".toList
  unfold rotationUpdated readRotation sentBody
  rw [enabled, extracted]
  simp only [ends_bind, ends_check_ok, ok_bind, path, number]
  split
  · exact Iff.rfl
  · cases stoi os with
    | error exception => exact Iff.rfl
    | ok orient => exact Iff.rfl

/-- A row that is found is queued, and the answer is an error otherwise. -/
theorem ends_queueRotation {impl : Impl Catalog} (table : Catalog)
    (reads : impl.client = client mariadb)
    (queue : Int → Path → Int → String → Catalog → Catalog)
    (body sp : Text) (orient : Int)
    {returned : Unit → Session Catalog → Prop}
    {raised : StdException → Session Catalog → Prop} :
    ∃ clientId,
      (Ends (queueRotation impl queue body sp orient) { world := table }
          returned raised ↔
        match rowBySource table mariadb sp with
        | none =>
            returned ()
              { world := table
                calls := [.store .getImportBySourcePath]
                sent := [⟨404, "\x7b\"error\":\"not-found\"\x7d".toList,
                  "application/json".toList⟩] }
        | some row =>
            returned ()
              { world :=
                  queue (min row.id (2 ^ 63 - 1)) row.outputPath orient
                    clientId table
                calls :=
                  [.store .getImportBySourcePath,
                    .queue (min row.id (2 ^ 63 - 1)) row.outputPath orient
                      clientId]
                sent := [⟨200, "\x7b\"status\":\"queued\"\x7d".toList,
                  "application/json".toList⟩] }) := by
  obtain ⟨clientId, named⟩ := jsonGet_ok body "client_id".toList
  refine ⟨String.ofList clientId, ?_⟩
  unfold queueRotation
  simp only [ends_bind, ends_check_ok, named, callStore, ends_act, reads,
    getImportBySourcePath_eq]
  cases rowBySource table mariadb sp with
  | none => exact Iff.rfl
  | some row =>
      simp only [Option.map_some, ends_bind, ends_act, sendResponse,
        listedRecord_id, listedRecord_outputPath]
      exact Iff.rfl

/-- What `json_get` makes of a body: what stands behind the first place of the
quoted key and its colon. -/
inductive Shown (body key : Text) : Text → Prop where
  | missing : Search.find (Json.spelled key) body = none → Shown body key []
  | placed {found : Nat} {value : Text} :
      Search.find (Json.spelled key) body = some found →
        Shows (body.drop (found + (Json.spelled key).length)) value →
          Shown body key value

theorem shown_iff {body : Text} (fits : body.length < 2 ^ 64)
    (key value : Text) :
    Shown body key value ↔ jsonGet body key = .ok value := by
  rw [jsonGet_eq fits]
  cases occurs : Search.find (Json.spelled key) body with
  | none =>
      constructor
      · intro shown
        cases shown with
        | missing => rfl
        | placed found => rw [occurs] at found; cases found
      · intro read
        cases read
        exact .missing occurs
  | some found =>
      constructor
      · intro shown
        cases shown with
        | missing absent => rw [occurs] at absent; cases absent
        | placed place shows' =>
            rw [occurs] at place
            cases place
            exact congrArg _ (shows_iff.mp shows')
      · intro read
        exact .placed occurs (shows_iff.mpr (Except.ok.inj read))

/-- The orientation of the text that a body shows for it. -/
def orientationOf (number : Text) : Except StdException Int :=
  if number = [] then .ok 1 else stoi number

/-- The first row whose path the database takes for this one. -/
def firstRow (table : Catalog) (mariadb : Mariadb) (path : Text) :
    Option ListedRow :=
  table.imports.find? fun row =>
    mariadb.same row.sourcePath (String.ofList path)

/-- The bodies that do no harm over a table: a readable orientation and a path
without a row, or whose row cannot be fetched; a path whose row the body names
with the orientation it shows; or an unreadable orientation in a body that
names another one. -/
inductive Sound (table : Catalog) (mariadb : Mariadb) (body : Text) :
    Prop where
  | unknown {path number : Text} {orientation : Int}
      (source : Shown body "source_path".toList path)
      (shown : Shown body "orientation".toList number)
      (read : orientationOf number = .ok orientation)
      (lost : ∀ row, firstRow table mariadb path = some row →
        table.fits row = false)
  | named {path number : Text} {orientation : Int} {row : ListedRow}
      (source : Shown body "source_path".toList path)
      (shown : Shown body "orientation".toList number)
      (read : orientationOf number = .ok orientation)
      (found : firstRow table mariadb path = some row)
      (small : row.id < 2 ^ 63)
      (asks : Asks body row.sourcePath.toList orientation)
  -- an id behind the largest `int64_t` is read as that one
  | clamped {path number : Text} {orientation : Int}
      {row largest : ListedRow}
      (source : Shown body "source_path".toList path)
      (shown : Shown body "orientation".toList number)
      (read : orientationOf number = .ok orientation)
      (found : firstRow table mariadb path = some row)
      (large : 2 ^ 63 ≤ row.id)
      (stored : largest ∈ table.imports)
      (last : largest.id = 2 ^ 63 - 1)
      (output : largest.outputPath = row.outputPath)
      (asks : Asks body largest.sourcePath.toList orientation)
  | unread {number : Text} {exception : StdException}
      (shown : Shown body "orientation".toList number)
      (unread : orientationOf number = .error exception)
      (asked : Asked body)

/-- Reading the orientation throws only for a body that asks for a rotation.
Otherwise the row that is found, if there is one, has the key and the output
path of a row whose path the body names, and the orientation read is named. -/
def Named (table : Catalog) (mariadb : Mariadb) (req : Text) : Prop :=
  match readRotation req with
  | .error _ => Asked (sentBody req)
  | .ok (sp, orient) =>
      ∀ found, rowBySource table mariadb sp = some found →
        ∃ row ∈ table.imports,
          (row.id : Int) = min (found.id : Int) (2 ^ 63 - 1) ∧
          row.outputPath = found.outputPath ∧
          Asks (sentBody req) row.sourcePath.toList orient

def Validated (table : Catalog) (body : Text)
    (program : Handler Catalog Unit) : Prop :=
  Ends program { world := table }
    (fun _ final =>
      QueuesNamed table body final.calls ∧ (¬Asked body → Refused final))
    (fun _ final => QueuesNamed table body final.calls ∧ Asked body)

theorem queuesNamed_of_lookup {body : Text} :
    QueuesNamed table body [.store .getImportBySourcePath] := by
  intro id path orientation clientId member
  cases List.mem_singleton.mp member

theorem refused_of_lookup {answer : Answer} {calls : List Call}
    (error : 400 ≤ answer.code)
    (lookups : ∀ call ∈ calls, call = .store .getImportBySourcePath) :
    Refused { world := table, calls := calls, sent := [answer] } := by
  refine ⟨?_, answer, rfl, error⟩
  intro id path orientation clientId member
  cases lookups _ member

theorem validated_disabled {impl : Impl Catalog} (disabled : impl.queue = none)
    (req : Text) :
    Validated table (sentBody req) (rotationUpdated impl req) := by
  unfold Validated rotationUpdated
  rw [disabled]
  constructor
  · intro id path orientation clientId member
    cases member
  · intro _
    exact refused_of_lookup (by decide) fun call member => by cases member

theorem validated_enabled_iff {impl : Impl Catalog}
    {queue : Int → Path → Int → String → Catalog → Catalog}
    (enabled : impl.queue = some queue)
    (reads : impl.client = client mariadb) (req : Text) :
    Validated table (sentBody req) (rotationUpdated impl req) ↔
      Named table mariadb req := by
  unfold Validated Named
  rw [ends_rotationUpdated enabled]
  cases readRotation req with
  | error exception =>
      constructor
      · intro ended
        exact ended.2
      · intro asked
        refine ⟨?_, asked⟩
        intro id path orientation clientId member
        cases member
  | ok read =>
      obtain ⟨sp, orient⟩ := read
      obtain ⟨clientId, behind⟩ :=
        ends_queueRotation table reads queue (sentBody req) sp orient
      simp only
      rw [behind]
      cases rowBySource table mariadb sp with
      | none =>
          constructor
          · intro _ found none_found
            cases none_found
          · intro _
            refine ⟨queuesNamed_of_lookup, fun _ => ?_⟩
            apply refused_of_lookup (by decide)
            intro call member
            exact List.mem_singleton.mp member
      | some found =>
          constructor
          · intro ended other same
            cases same
            exact ended.1 _ _ _ _
              (List.mem_cons_of_mem _ List.mem_cons_self)
          · intro named
            obtain ⟨row, stored, key, output, asks⟩ := named found rfl
            constructor
            · intro id path orientation client member
              rcases List.mem_cons.mp member with store | queued
              · cases store
              · cases List.mem_singleton.mp queued
                exact ⟨row, stored, key, output, asks⟩
            · intro unasked
              exact (unasked ⟨_, _, asks⟩).elim

theorem rowBySource_eq (path : Text) :
    rowBySource table mariadb path =
      (firstRow table mariadb path).filter table.fits := by
  unfold rowBySource firstRow
  rw [← List.head?_filter]
  cases table.imports.filter fun row =>
      mariadb.same row.sourcePath (String.ofList path) with
  | nil => rfl
  | cons row rows =>
      rw [List.head?_cons, Option.filter_some, List.take_succ_cons,
        List.take_zero, List.takeWhile_cons]
      split <;> rfl

theorem Shown.unique {body key first second : Text}
    (fits : body.length < 2 ^ 64) (shown : Shown body key first)
    (again : Shown body key second) : first = second := by
  rw [shown_iff fits] at shown again
  exact Except.ok.inj (shown.symm.trans again)

theorem readRotation_eq {req path number : Text}
    (fits : (sentBody req).length < 2 ^ 64)
    (source : Shown (sentBody req) "source_path".toList path)
    (shown : Shown (sentBody req) "orientation".toList number) :
    readRotation req =
      (orientationOf number).map fun orientation => (path, orientation) := by
  obtain ⟨body, extracted⟩ := bodyOf_ok req
  unfold sentBody at fits source shown
  rw [extracted] at fits source shown
  rw [shown_iff fits] at source shown
  unfold readRotation orientationOf
  rw [extracted]
  simp only [ok_bind, source, shown]
  split
  · rfl
  · cases stoi number with
    | error exception => rfl
    | ok orientation => rfl

/-- What the route looks up is what the body names exactly for a sound
body. -/
theorem named_iff {req : Text} (fits : (sentBody req).length < 2 ^ 64) :
    Named table mariadb req ↔ Sound table mariadb (sentBody req) := by
  obtain ⟨path, sourceRead⟩ := jsonGet_ok (sentBody req) "source_path".toList
  obtain ⟨number, numberRead⟩ :=
    jsonGet_ok (sentBody req) "orientation".toList
  have source := (shown_iff fits _ _).mpr sourceRead
  have shown := (shown_iff fits _ _).mpr numberRead
  unfold Named
  rw [readRotation_eq fits source shown]
  cases read : orientationOf number with
  | error exception =>
      constructor
      · intro asked
        exact .unread shown read asked
      · intro sound
        cases sound with
        | unknown _ shown' read' =>
            rw [shown.unique fits shown', read'] at read
            cases read
        | named _ shown' read' =>
            rw [shown.unique fits shown', read'] at read
            cases read
        | clamped _ shown' read' =>
            rw [shown.unique fits shown', read'] at read
            cases read
        | unread _ _ asked => exact asked
  | ok orientation =>
      simp only [Except.map, rowBySource_eq, Option.filter_eq_some_iff]
      constructor
      · intro named
        by_cases lost : ∀ row, firstRow table mariadb path = some row →
            table.fits row = false
        · exact .unknown source shown read lost
        · push Not at lost
          obtain ⟨found, first, fetched⟩ := lost
          obtain ⟨row, stored, key, output, asks⟩ :=
            named found ⟨first, by simpa using fetched⟩
          by_cases small : found.id < 2 ^ 63
          · have same : row = found := by
              have ids : row.id = found.id := by omega
              exact List.inj_on_of_nodup_map table.distinct stored
                (List.mem_of_find?_eq_some first) ids
            rw [same] at asks
            exact .named source shown read first small asks
          · exact .clamped source shown read first (by omega) stored
              (by omega) output asks
      · intro sound found ⟨first, fetched⟩
        cases sound with
        | unknown source' _ _ lost =>
            rw [source.unique fits source'] at first
            rw [lost found first] at fetched
            cases fetched
        | named source' shown' read' first' small asks =>
            rw [source.unique fits source', first'] at first
            cases first
            rw [shown.unique fits shown', read'] at read
            cases read
            exact ⟨_, List.mem_of_find?_eq_some first', by omega, rfl, asks⟩
        | clamped source' shown' read' first' large stored last output
            asks =>
            rw [source.unique fits source', first'] at first
            cases first
            rw [shown.unique fits shown', read'] at read
            cases read
            exact ⟨_, stored, by omega, output, asks⟩
        | unread shown' unread =>
            rw [shown.unique fits shown', unread] at read
            cases read

/-- The route queues only what a body asks for and answers every other body
with an error, exactly if rotation is disabled or the body does no harm over
the table. -/
theorem rotationUpdated_validates_iff (impl : Impl Catalog)
    (mariadb : Mariadb) (table : Catalog) {req : Text}
    (fits : (sentBody req).length < 2 ^ 64) :
    Validated table (sentBody req)
        (rotationUpdated { impl with client := client mariadb } req) ↔
      impl.queue = none ∨ Sound table mariadb (sentBody req) := by
  rw [← named_iff fits]
  generalize reader : { impl with client := client mariadb } = reading
  have reads : reading.client = client mariadb := by rw [← reader]
  have same : reading.queue = impl.queue := by rw [← reader]
  rw [← same]
  by_cases disabled : reading.queue = none
  · constructor
    · intro _
      exact .inl disabled
    · intro _
      exact validated_disabled disabled req
  · obtain ⟨queue, enabled⟩ := Option.ne_none_iff_exists'.mp disabled
    rw [validated_enabled_iff enabled reads]
    constructor
    · intro named
      exact .inr named
    · intro either
      exact either.resolve_left disabled

def importedPhotograph : Catalog where
  imports :=
    [{ id := 7, sequenceId := 7, sourcePath := "/watch/IMG_7.NEF",
       outputPath := "/out/IMG_7.dng", status := some .completed }]
  sequences := [⟨7, "IMG_7"⟩]
  distinct := by decide

/-- A row that stands for an import before the pipeline. -/
def legacyImport : Catalog where
  imports :=
    [{ id := 7, sequenceId := 7, outputPath := "/out/IMG_7.dng",
       status := some .legacy }]
  sequences := [⟨7, "IMG_7"⟩]
  distinct := by decide

def emptyRequest : Text :=
  "POST /api/v1/imports/by-source/rotation-updated HTTP/1.1\r\n\r\n\x7b\x7d".toList

def rotatingImpl : Impl Catalog where
  config := {}
  client := client Mariadb.binary
  sha256File _ table := ("", table)
  render _ := []
  queue := some fun _ _ _ _ table => table

def turnRequest : Text :=
  ("POST /api/v1/imports/by-source/rotation-updated HTTP/1.1\r\n\r\n" ++
    "\x7b\"source_path\":\"/watch/IMG_7.NEF\",\"orientation\":6\x7d").toList

def turnMembers : List Json.Member :=
  [{ name := .plain "source_path".toList
     value := .string (.plain "/watch/IMG_7.NEF".toList) },
    { name := .plain "orientation".toList
      value :=
        .number ⟨(toString (6 : Int)).toList, Json.isNumeral_toString 6⟩ }]

theorem turn_asks :
    Asks (sentBody turnRequest) "/watch/IMG_7.NEF".toList 6 := by
  refine ⟨by decide, by decide, by decide,
    turnMembers.map Json.Member.meaning, ['6'],
    ⟨⟨Json.noBlank, .objectOf Json.noBlank turnMembers, Json.noBlank⟩, ?_,
      ?_⟩, ?_⟩
  · decide +kernel
  · rw [Json.Document.value, Json.Layout.value_objectOf]
  · simp [turnMembers, Json.Member.meaning, Json.Layout.value]
    decide

theorem rotationUpdated_validates_turn :
    Validated importedPhotograph (sentBody turnRequest)
      (rotationUpdated { rotatingImpl with client := client Mariadb.binary }
        turnRequest) := by
  have fits : (sentBody turnRequest).length < 2 ^ 64 := by decide +kernel
  have source : Shown (sentBody turnRequest) "source_path".toList
      "/watch/IMG_7.NEF".toList :=
    (shown_iff fits _ _).mpr (by decide +kernel)
  have shown : Shown (sentBody turnRequest) "orientation".toList ['6'] :=
    (shown_iff fits _ _).mpr (by decide +kernel)
  obtain ⟨row, found, small, same⟩ : ∃ row,
      firstRow importedPhotograph Mariadb.binary "/watch/IMG_7.NEF".toList =
        some row ∧ row.id < 2 ^ 63 ∧ row.sourcePath = "/watch/IMG_7.NEF" :=
    ⟨_, rfl, by decide, rfl⟩
  have asks : Asks (sentBody turnRequest) row.sourcePath.toList 6 := by
    rw [same]
    exact turn_asks
  exact (rotationUpdated_validates_iff rotatingImpl Mariadb.binary
    importedPhotograph fits).mpr
      (.inr (.named source shown (by decide +kernel) found small asks))

theorem empty_read : readRotation emptyRequest = .ok ([], 1) := by
  decide +kernel

theorem legacy_found :
    (rowBySource legacyImport Mariadb.binary []).map (·.id) = some 7 := by
  decide +kernel

/-- The empty body rotates the legacy import. -/
theorem rotationUpdated_empty_body :
    ¬Validated legacyImport (sentBody emptyRequest)
      (rotationUpdated rotatingImpl emptyRequest) := by
  have enabled : rotatingImpl.queue = some fun _ _ _ _ table => table := rfl
  have reads : rotatingImpl.client = client Mariadb.binary := rfl
  rw [validated_enabled_iff enabled reads]
  intro named
  unfold Named at named
  rw [empty_read] at named
  obtain ⟨found, here, -⟩ := Option.map_eq_some_iff.mp legacy_found
  obtain ⟨row, stored, -, -, asks⟩ := named found here
  rw [List.mem_singleton.mp stored] at asks
  exact asks.1 rfl

end Api

end RawImport
