import RawImport.Worker.Machine

/-!
# The fast-fingerprint gate

A cached digest is accepted on size, mtime in whole seconds and a hash of the
first 4 KB.  Beside each entry this module keeps the content it was computed
from; the gate agrees with the full hash exactly as long as every accepted
entry comes from the content that lies at the path.
-/

namespace RawImport

namespace Worker

open Transition

namespace FpCache

theorem find_assign (cache : FpCache) (path other : Path)
    (entry : FpEntry) :
    (cache.assign path entry).find other =
      if other = path then some entry else cache.find other := by
  unfold find
  induction cache with
  | nil =>
      by_cases same : other = path
      · simp [assign, same]
      · simp [assign, List.lookup_cons, beq_eq_false_iff_ne.mpr same, same]
  | cons head rest ih =>
      obtain ⟨key, old⟩ := head
      by_cases here : key = path
      · subst here
        by_cases same : other = key
        · simp [assign, same]
        · simp [assign, List.lookup_cons, beq_eq_false_iff_ne.mpr same, same]
      · by_cases first : other = key
        · subst first
          simp [assign, here]
        · simp [assign, here, List.lookup_cons, beq_eq_false_iff_ne.mpr first, ih]

theorem find_of_find_filter {cache : FpCache} {victim path : Path}
    {entry : FpEntry}
    (found : find (cache.filter fun entry => entry.1 != victim) path =
      some entry) : cache.find path = some entry := by
  unfold find at *
  induction cache with
  | nil => cases found
  | cons head rest ih =>
      obtain ⟨key, old⟩ := head
      by_cases kept : key = victim
      · by_cases here : path = key
        · subst kept here
          rw [List.filter_cons_of_neg (by simp)] at found
          have absent : ∀ rest : FpCache,
              (rest.filter fun entry => entry.1 != path).lookup path =
                none := by
            intro rest
            rw [List.lookup_eq_none_iff]
            intro entry member
            have different := (List.mem_filter.mp member).2
            rw [bne_iff_ne] at different
            simpa using fun same : path = entry.1 => different same.symm
          rw [absent] at found
          cases found
        · rw [List.filter_cons_of_neg (by simp [kept])] at found
          rw [List.lookup_cons, beq_eq_false_iff_ne.mpr here]
          exact ih found
      · rw [List.filter_cons_of_pos (by simpa using kept),
          List.lookup_cons] at found
        rw [List.lookup_cons]
        cases here : path == key with
        | true =>
            rw [here] at found
            exact found
        | false =>
            rw [here] at found
            exact ih found

theorem find_of_find_eraseOldest {cache : FpCache} {path : Path}
    {entry : FpEntry} (found : cache.eraseOldest.find path = some entry) :
    cache.find path = some entry := by
  cases cache with
  | nil => exact found
  | cons first rest => exact find_of_find_filter found

theorem find_of_find_evict {cache : FpCache} {path : Path}
    {entry : FpEntry} (found : cache.evict.find path = some entry) :
    cache.find path = some entry := by
  unfold evict at found
  generalize cache.length = rounds at found
  induction rounds generalizing cache with
  | zero => exact found
  | succ rounds ih =>
      unfold evictRounds at found
      split at found
      · exact find_of_find_eraseOldest (ih found)
      · exact found

/-- A hit returns the digest of a matching entry and refreshes its stamp. -/
theorem hit_cases {cache after : FpCache} {path : Path}
    {fp : FastFingerprint} {now : Int} {srcHash : String}
    (hit : cache.hit path fp now = some (srcHash, after)) :
    ∃ entry, cache.find path = some entry ∧ entry.Matches fp ∧
      srcHash = entry.sha256 ∧
      after = cache.assign path { entry with lastSeen := now } := by
  unfold FpCache.hit at hit
  split at hit
  · rename_i entry found
    split at hit
    · rename_i matching
      cases hit
      exact ⟨entry, found, matching, rfl, rfl⟩
    · cases hit
  · cases hit

theorem hit_of_find {cache : FpCache} {path : Path} {fp : FastFingerprint}
    {entry : FpEntry} (now : Int) (found : cache.find path = some entry)
    (matching : entry.Matches fp) :
    cache.hit path fp now = some (entry.sha256,
      cache.assign path { entry with lastSeen := now }) := by
  simp [FpCache.hit, found, matching]

end FpCache

namespace ProcessFile

theorem eq_of_hashed_eq_lookup {hash srcHash : String}
    (equal : hashed hash = .lookup srcHash) : hash = srcHash := by
  unfold hashed at equal
  split at equal
  · cases equal
  · cases equal
    rfl

theorem bytesAt_of_sha256File {digest : Digest} {fs : Fs} {path : Path}
    {opened : Bool} (readable : sha256File digest fs path opened ≠ "") :
    ∃ bytes, fs.bytesAt path = some bytes ∧
      sha256File digest fs path opened = digest.sha256 bytes := by
  unfold sha256File at *
  split at readable
  · rename_i file present
    exact ⟨file.bytes, by simp [Fs.bytesAt, present], rfl⟩
  · exact (readable rfl).elim

/-- Without the gate a pass over these bytes looks up their digest. -/
theorem next_hash_plain (platform : Platform) (cfg : Config)
    {path : Path} {shared : Shared} {bytes : Bytes}
    (holds : shared.fs.bytesAt path = some bytes) :
    next platform { cfg with fastFingerprint := false } path shared
        (.hash {}) (.hash true) =
      some (shared, .lookup (platform.digest.sha256 bytes)) := by
  obtain ⟨file, present, rfl⟩ := Option.map_eq_some_iff.mp holds
  simp [next, sha256File, present, hashed,
    platform.digest.sha256_ne_empty]

/-- A matching entry sends the pass to the lookup of its digest. -/
theorem next_cacheLookup (platform : Platform) (cfg : Config) {path : Path}
    {shared : Shared} {fp : FastFingerprint} {entry : FpEntry}
    (found : shared.impl.fpCache.find path = some entry)
    (matching : entry.Matches fp) (nonempty : entry.sha256 ≠ "") :
    ∃ after, next platform cfg path shared (.cacheLookup fp) .go =
      some (after, .lookup entry.sha256) := by
  simp [next, FpCache.hit_of_find shared.clock found matching, hashed,
    nonempty]

section Gate

variable {platform : Platform} {cfg : Config} {path : Path}
  {shared after : Shared} {stage stage' : Stage} {event : Event}

theorem countFailure_fpCache (cfg : Config) (impl : Impl) (path : Path) :
    (impl.countFailure cfg path).1.fpCache = impl.fpCache := by
  unfold Impl.countFailure
  simp only
  split <;> rfl

theorem Step.cache
    (step : Step platform cfg path shared stage event after stage') :
    ((∀ fp srcHash, stage ≠ .cacheStore fp srcHash) ∧
      after.impl.fpCache = shared.impl.fpCache) ∨
      (∃ fp entry, stage = .cacheLookup fp ∧
        shared.impl.fpCache.find path = some entry ∧
        after.impl.fpCache = shared.impl.fpCache.assign path
          { entry with lastSeen := shared.clock }) ∨
      (∃ fp srcHash, stage = .cacheStore fp srcHash ∧
        after.impl.fpCache =
          shared.impl.fpCache.store path fp srcHash shared.clock) := by
  cases step with
  | cacheHit hit =>
      obtain ⟨entry, found, -, -, rfl⟩ := FpCache.hit_cases hit
      exact .inr (.inl ⟨_, entry, rfl, found, rfl⟩)
  | cacheStore => exact .inr (.inr ⟨_, _, rfl, rfl⟩)
  | countFailure =>
      exact .inl ⟨nofun, countFailure_fpCache cfg shared.impl path⟩
  | _ => exact .inl ⟨nofun, rfl⟩

theorem Step.toCacheStore {fp : FastFingerprint} {srcHash : String}
    (step : Step platform cfg path shared stage event after stage')
    (storing : stage' = .cacheStore fp srcHash) :
    after = shared ∧ ∃ bytes, shared.fs.bytesAt path = some bytes ∧
      srcHash = platform.digest.sha256 bytes := by
  cases step with
  | hashForCache readable =>
      cases storing
      obtain ⟨bytes, holds, equal⟩ := bytesAt_of_sha256File readable
      exact ⟨rfl, bytes, holds, equal⟩
  | cacheHit => unfold hashed at storing; split at storing <;> cases storing
  | hashOnly => unfold hashed at storing; split at storing <;> cases storing
  | cacheStore =>
      unfold hashed at storing
      split at storing <;> cases storing
  | insert => split at storing <;> cases storing
  | countFailure =>
      rename_i failure
      split at storing
      · cases storing
      · cases failure <;> cases storing
  | moveDead =>
      rename_i failure _ _ _ _ _
      split at storing
      · cases storing
      · cases failure <;> cases storing
  | alert =>
      rename_i failure _ _
      cases failure <;> cases storing
  | _ => cases storing

theorem Step.toLookup {srcHash : String}
    (step : Step platform cfg path shared stage event after
      (.lookup srcHash)) :
    (∃ fp entry, stage = .cacheLookup fp ∧
      shared.impl.fpCache.find path = some entry ∧ entry.Matches fp ∧
      entry.sha256 = srcHash) ∨
    (∃ fp, stage = .cacheStore fp srcHash) ∨
    (∃ bytes, shared.fs.bytesAt path = some bytes ∧
      srcHash = platform.digest.sha256 bytes) := by
  generalize target : Stage.lookup srcHash = stage' at step
  cases step with
  | cacheHit hit =>
      obtain ⟨entry, found, matching, rfl, -⟩ := FpCache.hit_cases hit
      exact .inl ⟨_, entry, rfl, found, matching,
        eq_of_hashed_eq_lookup target.symm⟩
  | cacheStore =>
      have equal := eq_of_hashed_eq_lookup target.symm
      subst equal
      exact .inr (.inl ⟨_, rfl⟩)
  | hashOnly =>
      rename_i fp opened uncached
      have equal := eq_of_hashed_eq_lookup target.symm
      have readable :
          sha256File platform.digest shared.fs path opened ≠ "" := by
        intro empty
        rw [empty] at target
        cases target
      obtain ⟨bytes, holds, computed⟩ := bytesAt_of_sha256File readable
      exact .inr (.inr ⟨bytes, holds, equal ▸ computed⟩)
  | insert => split at target <;> cases target
  | countFailure =>
      rename_i failure
      split at target
      · cases target
      · cases failure <;> cases target
  | moveDead =>
      rename_i failure _ _ _ _ _
      split at target
      · cases target
      · cases failure <;> cases target
  | alert =>
      rename_i failure _ _
      cases failure <;> cases target
  | _ => cases target

end Gate

end ProcessFile

section Provenance

variable {n : Nat}

/-- A run with the content each cached digest was computed from. -/
structure Traced (n : Nat) where
  world : World n
  origin : Path → Option Bytes

def Traced.initial (clock wall : Int) (fs : Fs) (db : Db) : Traced n :=
  { world := World.initial clock wall fs db, origin := fun _ => none }

def originAfter (traced : Traced n) : Action n → Path → Option Bytes
  | .pass thread _ =>
      match traced.world.threads thread with
      | some ⟨path, .cacheStore _ _⟩ =>
          Function.update traced.origin path
            (traced.world.shared.fs.bytesAt path)
      | _ => traced.origin
  | _ => traced.origin

def trace (platform : Platform) (cfg : Config) (traced : Traced n)
    (action : Action n) : Option (Traced n) :=
  (step platform cfg traced.world action).map fun world =>
    { world := world, origin := originAfter traced action }

/-- The file of a thread that is about to store its digest is unchanged. -/
def SameFile (before after : World n) (thread : Fin n) : Prop :=
  match before.threads thread with
  | some ⟨path, .cacheStore _ _⟩ =>
      after.shared.fs path = before.shared.fs path
  | _ => True

instance (before after : World n) (thread : Fin n) :
    Decidable (SameFile before after thread) := by
  unfold SameFile
  split <;> infer_instance

/-- A file does not change between its full hash and the cache store. -/
def Settled (platform : Platform) (cfg : Config) (traced : Traced n)
    (action : Action n) : Prop :=
  match step platform cfg traced.world action with
  | some after => ∀ thread, SameFile traced.world after thread
  | none => True

instance (platform : Platform) (cfg : Config) (traced : Traced n)
    (action : Action n) : Decidable (Settled platform cfg traced action) := by
  unfold Settled
  split <;> infer_instance

/-- A pass that leaves the gate for its lookup carries the digest of the
bytes at its path, as the same pass does with the gate switched off. -/
def UsesFileHash (platform : Platform) (cfg : Config) (traced : Traced n) :
    Action n → Prop
  | .pass thread event =>
      match traced.world.threads thread with
      | some ⟨path, stage⟩ =>
          ∀ shared srcHash,
            ProcessFile.next platform cfg path traced.world.shared stage
                event = some (shared, .lookup srcHash) →
              (∃ bytes,
                traced.world.shared.fs.bytesAt path = some bytes ∧
                srcHash = platform.digest.sha256 bytes) ∧
              ProcessFile.next platform
                  { cfg with fastFingerprint := false } path
                  traced.world.shared (.hash {}) (.hash true) =
                some (traced.world.shared, .lookup srcHash)
      | none => True
  | _ => True

/-- A cached entry that matches the fingerprint comes from a content with the
digest of the one at the path. -/
def CacheCurrent (platform : Platform) (traced : Traced n) :
    Action n → Prop
  | .pass thread _ =>
      match traced.world.threads thread with
      | some ⟨path, .cacheLookup fp⟩ =>
          ∀ entry, traced.world.shared.impl.fpCache.find path = some entry →
            entry.Matches fp →
            ∃ old bytes, traced.origin path = some old ∧
              traced.world.shared.fs.bytesAt path = some bytes ∧
              platform.digest.sha256 old = platform.digest.sha256 bytes
      | _ => True
  | _ => True

instance (platform : Platform) (traced : Traced n) :
    (action : Action n) → Decidable (CacheCurrent platform traced action)
  | .pass thread _ => by
      dsimp only [CacheCurrent]
      split
      · rename_i path fp _
        exact decidable_of_iff
          (∀ entry ∈ traced.world.shared.impl.fpCache.find path,
            entry.Matches fp → ∃ old ∈ traced.origin path,
              ∃ bytes ∈ traced.world.shared.fs.bytesAt path,
                platform.digest.sha256 old = platform.digest.sha256 bytes)
          (by simp only [Option.mem_def, exists_and_left])
      · exact instDecidableTrue
  | .advance _ | .setWall _ | .external _ _ | .beginScan | .scanFile _
  | .endScan | .cleanup | .pop _ | .finish _ => instDecidableTrue

/-- Cached digests are the digests of their origins, and a digest on its way
into the cache is the digest of the file. -/
structure Provenance (platform : Platform) (traced : Traced n) : Prop where
  cached : ∀ path entry,
    traced.world.shared.impl.fpCache.find path = some entry →
      ∃ old, traced.origin path = some old ∧
        entry.sha256 = platform.digest.sha256 old
  storing : ∀ thread path fp srcHash,
    traced.world.threads thread = some ⟨path, .cacheStore fp srcHash⟩ →
      ∃ bytes, traced.world.shared.fs.bytesAt path = some bytes ∧
        srcHash = platform.digest.sha256 bytes

theorem provenance_initial (platform : Platform) (clock wall : Int)
    (fs : Fs) (db : Db) :
    Provenance platform (Traced.initial (n := n) clock wall fs db) := by
  refine ⟨?_, ?_⟩
  · intro path entry found
    cases found
  · intro thread path fp srcHash busy
    cases busy

variable {platform : Platform} {cfg : Config} {traced after : Traced n}
  {action : Action n}

theorem trace_cases
    (taken : trace platform cfg traced action = some after) :
    step platform cfg traced.world action = some after.world ∧
      after.origin = originAfter traced action := by
  obtain ⟨world, result, rfl⟩ := Option.map_eq_some_iff.mp taken
  exact ⟨result, rfl⟩

theorem settled_file {thread : Fin n} {path : Path} {fp : FastFingerprint}
    {srcHash : String} (settled : Settled platform cfg traced action)
    (taken : step platform cfg traced.world action = some after.world)
    (busy : traced.world.threads thread =
      some ⟨path, .cacheStore fp srcHash⟩) :
    after.world.shared.fs path = traced.world.shared.fs path := by
  simp only [Settled, taken] at settled
  simpa [SameFile, busy] using settled thread

theorem originAfter_quiet
    (quiet : ∀ thread event, action ≠ .pass thread event) :
    originAfter traced action = traced.origin := by
  cases action with
  | pass thread event => exact (quiet thread event rfl).elim
  | _ => rfl

theorem originAfter_pass {thread : Fin n} {event : ProcessFile.Event}
    {pass : Pass} (busy : traced.world.threads thread = some pass)
    (unstored : ∀ fp srcHash, pass.stage ≠ .cacheStore fp srcHash) :
    originAfter traced (.pass thread event) = traced.origin := by
  simp only [originAfter, busy]
  split
  · rename_i path fp srcHash same
    cases same
    exact (unstored fp srcHash rfl).elim
  · rfl

theorem originAfter_store {thread : Fin n} {event : ProcessFile.Event}
    {path : Path} {fp : FastFingerprint} {srcHash : String}
    (busy : traced.world.threads thread =
      some ⟨path, .cacheStore fp srcHash⟩) :
    originAfter traced (.pass thread event) =
      Function.update traced.origin path
        (traced.world.shared.fs.bytesAt path) := by
  simp only [originAfter, busy]

theorem Provenance.cached_step (provenance : Provenance platform traced)
    (taken : step platform cfg traced.world action = some after.world)
    (origin : after.origin = originAfter traced action) (path : Path)
    (entry : FpEntry)
    (found : after.world.shared.impl.fpCache.find path = some entry) :
    ∃ old, after.origin path = some old ∧
      entry.sha256 = platform.digest.sha256 old := by
  rw [origin]
  rcases step_cases taken with ⟨quiet, -, sameCache, -⟩ |
    ⟨thread, event, pass, shared, stage, rfl, busy, passStep, world⟩
  · rw [sameCache] at found
    rw [originAfter_quiet quiet]
    exact provenance.cached path entry found
  · rw [world, World.setThread_shared, World.withShared_shared] at found
    rcases passStep.cache with ⟨unstored, same⟩ |
      ⟨fp, old, atLookup, hit, assigned⟩ |
      ⟨fp, srcHash, atStore, stored⟩
    · rw [same] at found
      rw [originAfter_pass busy unstored]
      exact provenance.cached path entry found
    · rw [assigned, FpCache.find_assign] at found
      rw [originAfter_pass busy (by rw [atLookup]; nofun)]
      split at found
      · rename_i here
        cases found
        rw [here]
        exact provenance.cached pass.path old hit
      · exact provenance.cached path entry found
    · obtain ⟨source, stage'⟩ := pass
      cases atStore
      rw [originAfter_store busy]
      rw [stored, FpCache.store] at found
      have assigned := FpCache.find_of_find_evict found
      rw [FpCache.find_assign] at assigned
      split at assigned
      · rename_i here
        cases assigned
        obtain ⟨bytes, holds, computed⟩ :=
          provenance.storing thread source fp srcHash busy
        refine ⟨bytes, ?_, computed⟩
        rw [here, Function.update_self]
        exact holds
      · rename_i away
        rw [Function.update_of_ne away]
        exact provenance.cached path entry assigned

theorem Provenance.storing_step (provenance : Provenance platform traced)
    (settled : Settled platform cfg traced action)
    (taken : step platform cfg traced.world action = some after.world)
    (thread : Fin n) (path : Path) (fp : FastFingerprint)
    (srcHash : String)
    (busy : after.world.threads thread =
      some ⟨path, .cacheStore fp srcHash⟩) :
    ∃ bytes, after.world.shared.fs.bytesAt path = some bytes ∧
      srcHash = platform.digest.sha256 bytes := by
  have kept : traced.world.threads thread =
      some ⟨path, .cacheStore fp srcHash⟩ →
        ∃ bytes, after.world.shared.fs.bytesAt path = some bytes ∧
          srcHash = platform.digest.sha256 bytes := by
    intro before
    rw [Fs.bytesAt, settled_file settled taken before]
    exact provenance.storing thread path fp srcHash before
  rcases step_cases taken with ⟨-, -, -, before⟩ |
    ⟨actor, event, pass, shared, stage, -, running, passStep, world⟩
  · rcases before thread _ busy with old | new
    · exact kept old
    · cases new
  · by_cases same : thread = actor
    · subst same
      rw [world, World.setThread_same] at busy
      cases busy
      obtain ⟨unchanged, bytes, holds, computed⟩ :=
        passStep.toCacheStore rfl
      refine ⟨bytes, ?_, computed⟩
      rw [world, World.setThread_shared, World.withShared_shared, unchanged]
      exact holds
    · rw [world, World.setThread_other _ _ same] at busy
      exact kept busy

theorem Provenance.step (provenance : Provenance platform traced)
    (settled : Settled platform cfg traced action)
    (taken : trace platform cfg traced action = some after) :
    Provenance platform after := by
  obtain ⟨result, origin⟩ := trace_cases taken
  exact ⟨provenance.cached_step result origin,
    provenance.storing_step settled result⟩

/-- Step by step the gate agrees with the full hash exactly when what it
accepts is current. -/
theorem usesFileHash_iff (provenance : Provenance platform traced)
    (taken : trace platform cfg traced action = some after) :
    UsesFileHash platform cfg traced action ↔
      CacheCurrent platform traced action := by
  obtain ⟨result, -⟩ := trace_cases taken
  cases action with
  | pass thread event =>
      obtain ⟨⟨path, stage⟩, shared, stage', busy, passStep, -⟩ :=
        pass_cases result
      simp only [UsesFileHash, CacheCurrent, busy]
      constructor
      · intro uses
        split
        · rename_i source fp same
          cases same
          intro entry found matching
          obtain ⟨old, computed, sameDigest⟩ :=
            provenance.cached path entry found
          have nonempty : entry.sha256 ≠ "" := by
            rw [sameDigest]
            exact platform.digest.sha256_ne_empty old
          have running : event = .go := by
            cases passStep <;> rfl
          subst running
          obtain ⟨shared', next⟩ := ProcessFile.next_cacheLookup platform
            cfg found matching nonempty
          obtain ⟨⟨bytes, present, equal⟩, -⟩ := uses shared' _ next
          exact ⟨old, bytes, computed, present, sameDigest ▸ equal⟩
        · trivial
      · intro current shared srcHash next
        suffices holds : ∃ bytes,
            traced.world.shared.fs.bytesAt path = some bytes ∧
              srcHash = platform.digest.sha256 bytes by
          obtain ⟨bytes, present, rfl⟩ := holds
          exact ⟨⟨bytes, present, rfl⟩,
            ProcessFile.next_hash_plain platform cfg present⟩
        rcases (ProcessFile.step_of_next next).toLookup with
          ⟨fp, entry, rfl, found, matching, rfl⟩ | ⟨fp, rfl⟩ | plain
        · obtain ⟨old, computed, sameDigest⟩ :=
            provenance.cached path entry found
          obtain ⟨old', bytes, computed', present, equal⟩ :=
            current entry found matching
          rw [computed] at computed'
          cases computed'
          exact ⟨bytes, present, sameDigest.trans equal⟩
        · exact provenance.storing thread path fp srcHash busy
        · exact plain
  | _ => exact Iff.rfl

/-- Over any number of threads, any history of passes and any changes to the
files between them: every pass uses the digest of the bytes at its path, and
so decides as it would without the gate, exactly when every accepted cache
entry is current. -/
theorem usesFileHash_run_iff (platform : Platform) (cfg : Config)
    (clock wall : Int) (fs : Fs) (db : Db) {actions : List (Action n)}
    (settled : Along (trace platform cfg) (Settled platform cfg)
      (Traced.initial clock wall fs db) actions) :
    Along (trace platform cfg) (UsesFileHash platform cfg)
        (Traced.initial clock wall fs db) actions ↔
      Along (trace platform cfg) (CacheCurrent platform)
        (Traced.initial clock wall fs db) actions :=
  along_congr (Provenance platform)
    (fun _ _ _ provenance settled taken =>
      Provenance.step provenance settled taken)
    (fun _ _ _ provenance _ taken => usesFileHash_iff provenance taken)
    (provenance_initial platform clock wall fs db) settled

/-- A photograph is imported, is back under its name with the size and the
time it had, and passes the gate. -/
def returning (n : Nat) (thread : Fin n) : List (Action n) :=
  scanning "DSC_0001.NEF" ++
    importing thread "2024-05-01" ⟨[7], 0⟩ true ++
    [.external "/watch/DSC_0001.NEF" (some ⟨[1], 0⟩),
      .advance 21000000000, .beginScan, .endScan, .cleanup,
      .advance 10000000000] ++
    scanning "DSC_0001.NEF" ++
    [.pop thread, .pass thread (.fingerprint true true), .pass thread .go]

theorem usesFileHash_returning :
    Along (trace photographs {}) (UsesFileHash photographs {})
        (Traced.initial (n := 1) 0 (60 * nsPerSecond)
          (onePhotograph 1).shared.fs {}) (returning 1 0) ∧
      ∃ world,
        run (step photographs {}) (onePhotograph 1) (returning 1 0) =
          some world ∧
        world.threads 0 = some ⟨"/watch/DSC_0001.NEF",
          .lookup (photographs.digest.sha256 [1])⟩ :=
  ⟨(usesFileHash_run_iff photographs {} 0 (60 * nsPerSecond) _ {}
    (by decide +kernel)).mpr (by decide +kernel),
    exists_run_of_decide (by decide +kernel)⟩

/-- Two raw files of ten bytes whose header hash is zero. -/
def firstRaw : Bytes := [33, 48, 73, 67, 61, 86, 108, 111, 97, 89]

def secondRaw : Bytes := [213, 107, 185, 83, 66, 135, 8, 54, 0, 0]

def rawFiles : Platform :=
  .ofTable [(firstRaw, '1'), (secondRaw, '2'), ([7], '7')]

def oneRawFile : World 1 :=
  .initial 0 (60 * nsPerSecond)
    (fun path =>
      if path = "/watch/DSC_0001.NEF" then some ⟨firstRaw, 0⟩ else none) {}

/-- The first raw file is imported; the second takes its name, with the same
size and the same second, and passes the gate. -/
def reusing : List (Action 1) :=
  scanning "DSC_0001.NEF" ++ importing 0 "2024-05-01" ⟨[7], 0⟩ true ++
    [.external "/watch/DSC_0001.NEF" (some ⟨secondRaw, 0⟩),
      .advance 21000000000, .beginScan, .endScan, .cleanup,
      .advance 10000000000] ++
    scanning "DSC_0001.NEF" ++
    [.pop 0, .pass 0 (.fingerprint true true), .pass 0 .go]

/-- The second file is looked up under the digest of the first and filed as
its duplicate, though no row knows its own digest. -/
theorem stale_hash_of_reused_path :
    ∃ world,
      run (step rawFiles {}) oneRawFile reusing = some world ∧
      world.threads 0 = some ⟨"/watch/DSC_0001.NEF",
        .lookup (rawFiles.digest.sha256 firstRaw)⟩ ∧
      world.shared.fs.bytesAt "/watch/DSC_0001.NEF" = some secondRaw ∧
      rawFiles.digest.sha256 secondRaw ≠
        rawFiles.digest.sha256 firstRaw ∧
      ((step rawFiles {} world (.pass 0 (.lookup true))).map fun after =>
        after.threads 0) =
          some (some ⟨"/watch/DSC_0001.NEF", .clearDuplicate⟩) ∧
      ∀ row ∈ world.shared.db.imports,
        row.sourceHash ≠ rawFiles.digest.sha256 secondRaw ∧
          row.outputHash ≠ rawFiles.digest.sha256 secondRaw :=
  exists_run_of_decide (by decide +kernel)

end Provenance

end Worker

end RawImport
