import RawImport.Library.FailedHash

/-!
# A preview request against the drain

Both hash a file and then write the row, and neither takes the lock of the
row.  One request and one job on the same import run in any order; what the
order was is read off the history.
-/

namespace RawImport

open PathText Transition

def Worker.ReconvertDrain.Succeeds : Worker.ReconvertDrain.Event → Prop
  | .lookup executed => executed = true
  | .convert engine converted output =>
      engine = true ∧ converted = true ∧ output.isSome = true
  | .hash opened => opened = true
  | .updateHash executed => executed = true
  | .finish executed _ => executed = true

/-- The calls of a request's stage that go well. -/
def Api.PreviewUpdated.Succeeds (fs : Fs) :
    Api.PreviewUpdated.Stage → Api.PreviewUpdated.Event → Prop
  | .hash op _, .hash opened => opened = true ∧ (fs op).isSome = true
  | _, .hash opened => opened = true
  | _, .lookup executed => executed = true
  | _, .updateHash executed => executed = true
  | _, .record executed => executed = true

instance (event : Worker.ReconvertDrain.Event) :
    Decidable (Worker.ReconvertDrain.Succeeds event) := by
  unfold Worker.ReconvertDrain.Succeeds
  split <;> infer_instance

instance (fs : Fs) (stage : Api.PreviewUpdated.Stage)
    (event : Api.PreviewUpdated.Event) :
    Decidable (Api.PreviewUpdated.Succeeds fs stage event) := by
  unfold Api.PreviewUpdated.Succeeds
  split <;> infer_instance

namespace Service

variable {n m : Nat}

/-- Only the drain and the request of one thread run, and their calls
succeed. -/
def Racing (thread : Fin m) (state : Tracked (Service n m) (Action n m)) :
    Action n m → Prop
  | .drain event => Worker.ReconvertDrain.Succeeds event
  | .preview other event => other = thread ∧
      ∀ stage ∈ state.now.requests thread,
        Api.PreviewUpdated.Succeeds state.now.shared.fs stage event
  | _ => False

instance (thread : Fin m) (state : Tracked (Service n m) (Action n m))
    (action : Action n m) : Decidable (Racing thread state action) := by
  apply @Action.casesOn n m _ action <;> intros <;>
    dsimp only [Racing] <;> infer_instance

inductive Writer where
  | drain
  | request
  deriving DecidableEq, Repr

/-- The order of the steps that matter: what the drain has converted to, what
the request has read, whether that was after the conversion, and who wrote the
row last. -/
structure Order where
  converted : Option File := none
  read : Option Bytes := none
  readConverted : Bool := false
  lastWriter : Option Writer := none
  deriving DecidableEq, Repr

def Order.next (op : Path) (order : Order) (service : Service n m) :
    Action n m → Order
  | .drain (.convert _ _ output) => { order with converted := output }
  | .drain (.updateHash _) => { order with lastWriter := some .drain }
  | .preview _ (.hash _) =>
      { order with
        read := service.shared.fs.bytesAt op
        readConverted := order.converted.isSome }
  | .preview _ (.updateHash _) =>
      { order with lastWriter := some .request }
  | _ => order

def orderOf (op : Path) : List (Service n m × Action n m) → Order
  | [] => {}
  | (service, action) :: past => (orderOf op past).next op service action

section Definitions

variable (platform : Worker.Platform)

/-- The row has the digest of the bytes at its path. -/
def Synced (shared : Worker.Shared) (id : Nat) : Prop :=
  ∃ current ∈ shared.db.imports, current.id = id ∧
    ∃ bytes ∈ shared.fs.bytesAt current.outputPath,
      current.outputHash = platform.digest.sha256 bytes

/-- The drain writes last, or the request reads the converted file, or what it
reads has the digest of the converted file. -/
def Ordered (origin : Fs) (row : ImportRow) (op : Path) (order : Order) :
    Prop :=
  order.lastWriter = some .drain ∨
  (op = row.outputPath ∧ order.readConverted = true) ∨
  ∃ old ∈ origin.bytesAt op, ∃ file ∈ order.converted,
    platform.digest.sha256 old = platform.digest.sha256 file.bytes

instance (shared : Worker.Shared) (id : Nat) :
    Decidable (Synced platform shared id) := by
  unfold Synced
  infer_instance

instance (origin : Fs) (row : ImportRow) (op : Path) (order : Order) :
    Decidable (Ordered platform origin row op order) := by
  unfold Ordered
  infer_instance

end Definitions

section Tables

variable {platform : Worker.Platform} {db : Db} {row : ImportRow}
  {newHash : String}

theorem found_by_path_updated {path : Path} {found : ImportRow}
    (before : db.getImportByOutputPath platform.mariadb path true =
      some found) (id : Int) :
    ∃ after, (db.updateOutputHash id newHash true).getImportByOutputPath
        platform.mariadb path true = some after ∧ after.id = found.id := by
  by_cases fits : newHash.length ≤ 64
  · unfold Db.getImportByOutputPath at before ⊢
    rw [if_pos rfl] at before ⊢
    rw [Db.updateOutputHash, if_pos ⟨rfl, fits⟩]
    simp only [List.find?_map]
    have same : ((fun other : ImportRow =>
          platform.mariadb.same other.outputPath path) ∘
        fun other : ImportRow =>
          if (other.id : Int) = id then { other with outputHash := newHash }
          else other) =
        fun other => platform.mariadb.same other.outputPath path := by
      funext other
      simp only [Function.comp_apply]
      split <;> rfl
    rw [same, before]
    refine ⟨_, rfl, ?_⟩
    simp only
    split <;> rfl
  · rw [Db.updateOutputHash, if_neg (fun both => fits both.2)]
    exact ⟨found, before, rfl⟩

theorem hash_updated {current : ImportRow} {id : Nat}
    (fits : newHash.length ≤ 64)
    (member : current ∈ (db.updateOutputHash id newHash true).imports)
    (same : current.id = id) : current.outputHash = newHash := by
  rw [Db.updateOutputHash, if_pos ⟨rfl, fits⟩] at member
  obtain ⟨old, -, rfl⟩ := List.mem_map.mp member
  split at same
  · rename_i updated'
    rw [if_pos updated']
  · rename_i kept
    exact (kept (by omega)).elim

end Tables

section Invariant

variable (platform : Worker.Platform) (origin : Fs) (row : ImportRow)
  (op : Path)

def Held (held : ImportRow) : Prop :=
  held.id = row.id ∧ held.outputPath = row.outputPath

/-- What the drain has done when it stands at a stage. -/
def DrainHeld (order : Order) : Worker.ReconvertDrain.Stage → Prop
  | .lookup job => job.importId = row.id ∧ order.converted = none
  | .convert _ held => Held row held ∧ order.converted = none
  | .hash _ held => Held row held ∧ order.converted.isSome = true
  | .updateHash _ held h => Held row held ∧
      ∃ file, order.converted = some file ∧
        h = platform.digest.sha256 file.bytes
  | _ => order.converted.isSome = true ∧ order.lastWriter.isSome = true

/-- What the request has done when it stands at a stage. -/
def RequestHeld (order : Order) : Api.PreviewUpdated.Stage → Prop
  | .lookup path => path = op ∧ order.read = none
  | .hash path r => path = op ∧ r.id = row.id ∧ order.read = none
  | .updateHash _ r newHash => r.id = row.id ∧
      ∃ bytes, order.read = some bytes ∧
        newHash = platform.digest.sha256 bytes
  | _ => order.read.isSome = true

def Written (order : Order) (hash : String) : Prop :=
  match order.lastWriter with
  | some .drain => ∃ file, order.converted = some file ∧
      hash = platform.digest.sha256 file.bytes
  | some .request => ∃ bytes, order.read = some bytes ∧
      hash = platform.digest.sha256 bytes
  | none => True

/-- What the request has read: the converted file or what was there at the
start. -/
structure ReadBytes (converted : Option File) (readConverted : Bool)
    (bytes : Bytes) : Prop where
  behind : op = row.outputPath → readConverted = true →
    ∃ file, converted = some file ∧ bytes = file.bytes
  before : ¬(op = row.outputPath ∧ readConverted = true) →
    origin.bytesAt op = some bytes

/-- The race between its start and its end. -/
structure Race (shared : Worker.Shared)
    (drain : Worker.ReconvertDrain.Stage)
    (request : Api.PreviewUpdated.Stage) (order : Order) : Prop where
  snapshot : Snapshot shared.db row
  found : ∃ r, shared.db.getImportByOutputPath platform.mariadb op true =
    some r ∧ r.id = row.id
  written : ∀ current ∈ shared.db.imports, current.id = row.id →
    Written platform order current.outputHash
  files : shared.fs =
    Worker.ProcessFile.produce origin row.outputPath order.converted
  read : ∀ bytes, order.read = some bytes →
    ReadBytes origin row op order.converted order.readConverted bytes
  drain : DrainHeld platform row order drain
  request : RequestHeld platform row op order request

end Invariant

section Steps

variable {platform : Worker.Platform} {cfg : Config} {origin : Fs}
  {row : ImportRow} {op : Path} {shared next : Worker.Shared}
  {drain : Worker.ReconvertDrain.Stage}
  {request : Api.PreviewUpdated.Stage} {order : Order}

theorem Race.member
    (race : Race platform origin row op shared drain request order) :
    ∃ current ∈ shared.db.imports, current.id = row.id := by
  obtain ⟨r, found, same⟩ := race.found
  exact ⟨r, Db.mem_of_getImportByOutputPath found, same⟩

theorem Race.held
    (race : Race platform origin row op shared drain request order)
    {held : ImportRow} (member : held ∈ shared.db.imports)
    (same : held.id = row.id) : Held row held :=
  ⟨same, race.snapshot.path held member same⟩

theorem Race.converted
    (race : Race platform origin row op shared drain request order)
    {file : File} (converted : order.converted = some file) :
    shared.fs row.outputPath = some file := by
  rw [race.files, converted]
  exact Fs.write_same _ _ _

/-- The conversion changes what lies at the path of the row alone. -/
theorem produce_elsewhere {path : Path} {converted : Option File}
    (outside : ¬(op = path ∧ converted.isSome = true)) :
    (Worker.ProcessFile.produce origin path converted).bytesAt op =
      origin.bytesAt op := by
  cases converted with
  | none => rfl
  | some file =>
      unfold Fs.bytesAt
      rw [Worker.ProcessFile.produce, Fs.write_other]
      intro same
      exact outside ⟨same, rfl⟩

/-- Tables with the same imports, and what the threads hold now. -/
theorem Race.frame
    (race : Race platform origin row op shared drain request order)
    {db : Db} (rows : db.imports = shared.db.imports)
    (counter : db.nextImport = shared.db.nextImport)
    {drain' : Worker.ReconvertDrain.Stage}
    {request' : Api.PreviewUpdated.Stage}
    (drainHeld : DrainHeld platform row order drain')
    (requestHeld : RequestHeld platform row op order request') :
    Race platform origin row op { shared with db := db } drain' request'
      order := by
  refine ⟨(Rewrites.same rows counter).snapshot race.snapshot, ?_, ?_,
    race.files, race.read, drainHeld, requestHeld⟩
  · unfold Db.getImportByOutputPath
    rw [rows]
    exact race.found
  · rw [rows]
    exact race.written

theorem Race.rehash
    (race : Race platform origin row op shared drain request order)
    {held : ImportRow} (same : held.id = row.id) (bytes : Bytes)
    (writer : Writer)
    (written : Written platform { order with lastWriter := some writer }
      (platform.digest.sha256 bytes))
    {drain' : Worker.ReconvertDrain.Stage}
    {request' : Api.PreviewUpdated.Stage}
    (drainHeld : DrainHeld platform row
      { order with lastWriter := some writer } drain')
    (requestHeld : RequestHeld platform row op
      { order with lastWriter := some writer } request') :
    Race platform origin row op
      { shared with
        db := shared.db.updateOutputHash held.id
          (platform.digest.sha256 bytes) true }
      drain' request' { order with lastWriter := some writer } := by
  have fits : (platform.digest.sha256 bytes).length ≤ 64 :=
    Nat.le_of_eq (platform.digest.length_sha256 bytes)
  refine ⟨?_, ?_, ?_, race.files, race.read, drainHeld, requestHeld⟩
  · exact (rewrites_updateOutputHash _ _ _ _).snapshot race.snapshot
  · obtain ⟨r, found, sameId⟩ := race.found
    obtain ⟨after, looked, afterSame⟩ :=
      found_by_path_updated found held.id
    exact ⟨after, looked, afterSame.trans sameId⟩
  · intro current member sameId
    rw [hash_updated fits member (sameId.trans same.symm)]
    exact written

/-- A conversion before the request or the drain has written what it has. -/
theorem Written.converting {hash : String}
    (written : Written platform order hash)
    (unconverted : order.converted = none) (output : Option File) :
    Written platform { order with converted := output } hash := by
  unfold Written at written ⊢
  simp only
  split
  · rename_i writer
    rw [writer] at written
    obtain ⟨file, converted, -⟩ := written
    rw [unconverted] at converted
    cases converted
  · rename_i writer
    rw [writer] at written
    exact written
  · trivial

theorem Written.reading {hash : String}
    (written : Written platform order hash) (unread : order.read = none)
    (bytes : Option Bytes) (late : Bool) :
    Written platform { order with read := bytes, readConverted := late }
      hash := by
  unfold Written at written ⊢
  simp only
  split
  · rename_i writer
    rw [writer] at written
    exact written
  · rename_i writer
    rw [writer] at written
    obtain ⟨bytes', read, -⟩ := written
    rw [unread] at read
    cases read
  · trivial

theorem Race.drain_step {event : Worker.ReconvertDrain.Event}
    {stage : Worker.ReconvertDrain.Stage}
    (race : Race platform origin row op shared drain request order)
    (service : Service n m)
    (succeeds : Worker.ReconvertDrain.Succeeds event)
    (drained : Worker.ReconvertDrain.Step platform shared drain event next
      stage) :
    Race platform origin row op next stage request
      (order.next op service (.drain event)) := by
  have holds := race.drain
  cases drained with
  | @found job executed held looked =>
      obtain ⟨jobRow, unconverted⟩ := holds
      have same : held.id = row.id := by
        have sameId := Db.id_of_getImportById looked
        omega
      exact race.frame rfl rfl
        ⟨race.held (Db.mem_of_getImportById looked) same, unconverted⟩
        race.request
  | @unknown job executed absent =>
      obtain ⟨current, member, same⟩ := race.member
      have reached : executed = true := succeeds
      rw [reached, holds.1, ← same] at absent
      exact (Db.getImportById_ne_none member absent).elim
  | noEngine => exact absurd succeeds.1 (by simp)
  | @convert job held output =>
      obtain ⟨same, unconverted⟩ := holds
      refine ⟨race.snapshot, race.found, ?_, ?_, ?_,
        ⟨same, succeeds.2.2⟩, race.request⟩
      · intro current member sameId
        exact (race.written current member sameId).converting unconverted
          output
      · have files := race.files
        rw [unconverted] at files
        obtain ⟨file, rfl⟩ := Option.isSome_iff_exists.mp succeeds.2.2
        simp only [Worker.ProcessFile.produce, Order.next, same.2] at files ⊢
        rw [files]
      · intro bytes taken
        have read := race.read bytes taken
        constructor
        · intro here late
          obtain ⟨file, converted, -⟩ := read.behind here late
          rw [unconverted] at converted
          cases converted
        · exact read.before
  | notConverted => exact absurd succeeds.2.1 (by simp)
  | @hash job held opened =>
      obtain ⟨same, converted⟩ := holds
      obtain ⟨file, converted⟩ := Option.isSome_iff_exists.mp converted
      refine race.frame rfl rfl ⟨same, file, converted, ?_⟩ race.request
      unfold sha256File
      rw [same.2, race.converted converted, show opened = true from succeeds]
  | @updateHash job held h executed =>
      obtain ⟨same, file, converted, rfl⟩ := holds
      have reached : executed = true := succeeds
      subst reached
      exact race.rehash same.1 file.bytes .drain ⟨file, converted, rfl⟩
        ⟨Option.isSome_iff_exists.mpr ⟨file, converted⟩, rfl⟩ race.request
  | finish => exact race.frame (by simp) (by simp) holds race.request

theorem Race.preview_step {event : Api.PreviewUpdated.Event}
    {stage : Api.PreviewUpdated.Stage} {thread : Fin m}
    (race : Race platform origin row op shared drain request order)
    {service : Service n m} (here : service.shared = shared)
    (succeeds : Api.PreviewUpdated.Succeeds shared.fs request event)
    (handled : Api.PreviewUpdated.Step platform shared request event next
      stage) :
    Race platform origin row op next drain stage
      (order.next op service (.preview thread event)) := by
  have holds := race.request
  cases handled with
  | @found path executed found looked =>
      obtain ⟨rfl, unread⟩ := holds
      obtain ⟨r, known, same⟩ := race.found
      have reached : executed = true := succeeds
      rw [reached, known] at looked
      cases looked
      exact race.frame rfl rfl race.drain ⟨rfl, same, unread⟩
  | @unknown path executed absent =>
      obtain ⟨rfl, unread⟩ := holds
      obtain ⟨r, known, same⟩ := race.found
      have reached : executed = true := succeeds
      rw [reached, known] at absent
      cases absent
  | @hash path r opened readable =>
      obtain ⟨rfl, same, unread⟩ := holds
      obtain ⟨rfl, present⟩ := succeeds
      obtain ⟨file, present⟩ := Option.isSome_iff_exists.mp present
      have bytes : service.shared.fs.bytesAt path = some file.bytes := by
        rw [here, Fs.bytesAt, present]
        rfl
      have hash : sha256File platform.digest shared.fs path true =
          platform.digest.sha256 file.bytes := by
        unfold sha256File
        rw [present]
      refine ⟨race.snapshot, race.found, ?_, race.files, ?_, race.drain,
        ⟨same, file.bytes, bytes, hash⟩⟩
      · intro current member sameId
        exact (race.written current member sameId).reading unread _ _
      · intro bytes' taken
        have sameBytes : bytes' = file.bytes :=
          Option.some.inj (taken.symm.trans bytes)
        subst sameBytes
        constructor
        · intro atRow late
          obtain ⟨converted, done⟩ := Option.isSome_iff_exists.mp late
          have there := race.converted done
          rw [← atRow, present] at there
          cases there
          exact ⟨file, done, rfl⟩
        · intro outside
          rw [here, race.files] at bytes
          exact (produce_elsewhere outside).symm.trans bytes
  | @unreadable path r opened empty =>
      obtain ⟨rfl, present⟩ := succeeds
      obtain ⟨file, present⟩ := Option.isSome_iff_exists.mp present
      unfold sha256File at empty
      rw [present] at empty
      exact absurd empty (platform.digest.sha256_ne_empty _)
  | @updateHash path r newHash executed =>
      obtain ⟨same, bytes, read, rfl⟩ := holds
      have reached : executed = true := succeeds
      subst reached
      refine race.rehash same bytes .request ⟨bytes, read, rfl⟩ ?_
        (Option.isSome_iff_exists.mpr ⟨bytes, read⟩)
      have held := race.drain
      cases drain with
      | finish job h status => exact ⟨held.1, rfl⟩
      | wait => exact ⟨held.1, rfl⟩
      | _ => exact held
  | record => exact race.frame (by simp) (by simp) race.drain holds

end Steps

section Runs

variable {platform : Worker.Platform} {cfg : Config} {origin : Fs}
  {row : ImportRow} {op : Path} {thread : Fin m}

/-- The race of a state with the request of one thread. -/
def RaceInvariant (platform : Worker.Platform) (origin : Fs)
    (row : ImportRow) (op : Path) (thread : Fin m)
    (state : Tracked (Service n m) (Action n m)) : Prop :=
  ∃ request, state.now.requests thread = some request ∧
    Race platform origin row op state.now.shared state.now.drain request
      (orderOf op state.past)

theorem raceInvariant_step
    {state after : Tracked (Service n m) (Action n m)} {action : Action n m}
    (invariant : RaceInvariant platform origin row op thread state)
    (racing : Racing thread state action)
    (taken : track (step platform cfg) state action = some after) :
    RaceInvariant platform origin row op thread after := by
  obtain ⟨stepTaken, past⟩ := track_eq_some_iff.mp taken
  obtain ⟨request, busy, race⟩ := invariant
  unfold RaceInvariant
  rw [past]
  cases action with
  | drain event =>
      obtain ⟨next, stage, drained, now⟩ := drain_result stepTaken
      rw [now]
      exact ⟨request, busy, race.drain_step state.now racing drained⟩
  | preview other event =>
      obtain ⟨rfl, succeeds⟩ := racing
      obtain ⟨stage, next, stage', busy', handled, now⟩ :=
        preview_result stepTaken
      rw [busy] at busy'
      cases busy'
      rw [now]
      exact ⟨stage', setRequest_same _ _ _,
        race.preview_step rfl (succeeds request busy) handled⟩
  | _ => exact racing.elim

/-- The hash in the row is the digest of the converted file exactly when the
order was right. -/
theorem written_iff {order : Order} {hash : String} {file : File}
    {bytes : Bytes} (written : Written platform order hash)
    (converted : order.converted = some file)
    (wrote : order.lastWriter.isSome = true)
    (taken : order.read = some bytes)
    (read : ReadBytes origin row op order.converted order.readConverted
      bytes) :
    hash = platform.digest.sha256 file.bytes ↔
      Ordered platform origin row op order := by
  unfold Written at written
  obtain ⟨writer, last⟩ := Option.isSome_iff_exists.mp wrote
  rw [last] at written
  cases writer with
  | drain =>
      obtain ⟨file', converted', rfl⟩ := written
      rw [converted] at converted'
      cases converted'
      exact ⟨fun _ => .inl last, fun _ => rfl⟩
  | request =>
      obtain ⟨bytes', taken', rfl⟩ := written
      rw [taken] at taken'
      cases taken'
      constructor
      · intro digests
        right
        by_cases late : op = row.outputPath ∧ order.readConverted = true
        · exact .inl late
        · exact .inr ⟨bytes, read.before late, file, converted, digests⟩
      · intro ordered
        by_cases late : op = row.outputPath ∧ order.readConverted = true
        · obtain ⟨file', converted', rfl⟩ := read.behind late.1 late.2
          rw [converted] at converted'
          cases converted'
          rfl
        · rcases ordered with drainLast | inTime |
            ⟨old, there, file', converted', digests⟩
          · rw [last] at drainLast
            cases drainLast
          · exact (late inTime).elim
          · rw [Option.mem_def, read.before late] at there
            rw [Option.mem_def, converted] at converted'
            cases there
            cases converted'
            exact digests

/-- At the end of the race the row is right exactly when the order was. -/
theorem Race.synced_iff {shared : Worker.Shared} {response : Api.Response}
    {order : Order}
    (race : Race platform origin row op shared .wait (.respond response)
      order) :
    Synced platform shared row.id ↔
      Ordered platform origin row op order := by
  obtain ⟨done, wrote⟩ := race.drain
  obtain ⟨file, converted⟩ := Option.isSome_iff_exists.mp done
  obtain ⟨bytes, taken⟩ := Option.isSome_iff_exists.mp race.request
  have final : shared.fs.bytesAt row.outputPath = some file.bytes := by
    rw [Fs.bytesAt, race.converted converted]
    rfl
  have exactly : ∀ current ∈ shared.db.imports, current.id = row.id →
      (current.outputHash = platform.digest.sha256 file.bytes ↔
        Ordered platform origin row op order) := by
    intro current member same
    exact written_iff (race.written current member same) converted wrote
      taken (race.read bytes taken)
  constructor
  · intro synced
    obtain ⟨current, member, same, here, holds, hash⟩ := synced
    rw [Option.mem_def, race.snapshot.path current member same,
      final] at holds
    cases holds
    exact (exactly current member same).mp hash
  · intro ordered
    obtain ⟨current, member, same⟩ := race.member
    refine ⟨current, member, same, file.bytes, ?_,
      (exactly current member same).mpr ordered⟩
    rw [Option.mem_def, race.snapshot.path current member same]
    exact final

end Runs

/-- A race to its end, for any import, path, conversion and interleaving: the
row has the digest of the bytes that are finally at its path exactly when the
drain wrote last, the request read the converted file, or the two files have
one digest. -/
theorem race_synced_iff (platform : Worker.Platform) (cfg : Config)
    {origin : Service n m} {thread : Fin m} {job : ReconversionJob}
    {row r : ImportRow} {op : Path}
    (keyed : ImportsKeyed origin.shared.db)
    (member : row ∈ origin.shared.db.imports)
    (drainStart : origin.drain = .lookup job)
    (jobRow : job.importId = row.id)
    (requestStart : origin.requests thread = some (.lookup op))
    (found : origin.shared.db.getImportByOutputPath platform.mariadb op true =
      some r) (foundRow : r.id = row.id)
    {actions : List (Action n m)}
    {final : Tracked (Service n m) (Action n m)}
    (racing : Along (track (step platform cfg)) (Racing thread)
      (.start origin) actions)
    (reached : run (track (step platform cfg)) (.start origin) actions =
      some final)
    (drainEnd : final.now.drain = .wait) {response : Api.Response}
    (requestEnd : final.now.requests thread = some (.respond response)) :
    Synced platform final.now.shared row.id ↔
      Ordered platform origin.shared.fs row op (orderOf op final.past) := by
  have start : RaceInvariant platform origin.shared.fs row op thread
      (.start origin) := by
    refine ⟨_, requestStart, snapshot_of_member keyed member,
      ⟨r, found, foundRow⟩, fun _ _ _ => trivial, rfl, nofun, ?_,
      ⟨rfl, rfl⟩⟩
    show DrainHeld platform row {} origin.drain
    rw [drainStart]
    exact ⟨jobRow, rfl⟩
  obtain ⟨request, busy, race⟩ :=
    (visits_of_along (RaceInvariant platform origin.shared.fs row op thread)
      (fun _ _ _ holds allowed taken =>
        raceInvariant_step holds allowed taken) start racing).final reached
  rw [requestEnd] at busy
  cases busy
  rw [drainEnd] at race
  exact race.synced_iff

/-- A completed import whose DNG holds `[1]`. -/
def photographRow : ImportRow :=
  { id := 1
    sequenceId := 1
    sourcePath := "/watch/DSC_0001.NEF"
    sourceHash := Worker.photographs.digest.sha256 [7]
    outputPath := "/output/2024/05/IMG_1.dng"
    outputHash := Worker.photographs.digest.sha256 [1]
    cameraModel := some "unknown"
    captureDate := some "2024-05-01"
    captureTime := none
    dateSource := .exif
    folderSchema := some "2024/05"
    conversionSettings := none
    status := .completed
    createdAt := none
    completedAt := none
    orientation := some 0 }

/-- A reconversion and a notification for it, both before their first
call. -/
def photographRace : Service 0 1 :=
  { world := .initial 0 0
      (fun path =>
        if path = "/output/2024/05/IMG_1.dng" then some ⟨[1], 0⟩ else none)
      { sequences := [⟨1, "IMG_1"⟩]
        nextSequence := 2
        imports := [photographRow]
        nextImport := 2 }
    drain := .lookup { id := 1, importId := 1 }
    requests := fun _ => some (.lookup "/output/2024/05/IMG_1.dng") }

def racedInTurn : List (Action 0 1) :=
  [.preview 0 (.lookup true), .preview 0 (.hash true),
    .preview 0 (.updateHash true), .preview 0 (.record true),
    .drain (.lookup true), .drain (.convert true true (some ⟨[2], 0⟩)),
    .drain (.hash true), .drain (.updateHash true),
    .drain (.finish true "2024-05-03 00:00:00")]

theorem race_synced_inTurn :
    ∃ final, run (track (step Worker.photographs {}))
        (.start photographRace) racedInTurn = some final ∧
      Synced Worker.photographs final.now.shared 1 := by
  have ends : ∃ state, run (track (step Worker.photographs {}))
        (.start photographRace) racedInTurn = some state ∧
      state.now.drain = .wait ∧
      state.now.requests 0 = some (.respond
        { status := 200, body := "\x7b\"status\":\"synced\"\x7d" }) ∧
      Ordered Worker.photographs photographRace.shared.fs photographRow
        "/output/2024/05/IMG_1.dng"
        (orderOf "/output/2024/05/IMG_1.dng" state.past) :=
    exists_run_of_decide (by decide +kernel)
  obtain ⟨final, reached, drainEnd, requestEnd, ordered⟩ := ends
  refine ⟨final, reached, ?_⟩
  exact (race_synced_iff (r := photographRow) Worker.photographs {}
    ⟨by decide, by decide⟩
    (List.mem_singleton.mpr rfl) rfl rfl rfl (by decide +kernel) rfl
    (by decide +kernel) reached drainEnd requestEnd).mpr ordered

/-- The request reads the file before the conversion and writes the row after
the drain. -/
def racedAcross : List (Action 0 1) :=
  [.preview 0 (.lookup true), .preview 0 (.hash true),
    .drain (.lookup true), .drain (.convert true true (some ⟨[2], 0⟩)),
    .drain (.hash true), .drain (.updateHash true),
    .drain (.finish true "2024-05-03 00:00:00"),
    .preview 0 (.updateHash true), .preview 0 (.record true)]

/-- Then the row keeps the digest of the file that is gone. -/
theorem hash_update_lost :
    Along (track (step Worker.photographs {})) (Racing 0)
      (.start photographRace) racedAcross ∧
    ∃ final, run (track (step Worker.photographs {}))
        (.start photographRace) racedAcross = some final ∧
      final.now.drain = .wait ∧
      final.now.requests 0 = some (.respond
        { status := 200, body := "\x7b\"status\":\"synced\"\x7d" }) ∧
      ¬Synced Worker.photographs final.now.shared 1 :=
  ⟨by decide +kernel, exists_run_of_decide (by decide +kernel)⟩

end Service

end RawImport
