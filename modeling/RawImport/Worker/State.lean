import Mathlib.Data.Finset.Basic
import RawImport.Config
import RawImport.Pipeline

/-!
# Shared state of the worker

`Worker::Impl` and its mutex-protected sections.  Every function here is one
critical section of `worker.cpp`, so one atomic step of any interleaving.
Times are nanoseconds.
-/

namespace RawImport

namespace Worker

open PathText

def nsPerSecond : Int := 1000000000

/-- `duration_cast<seconds>(later - earlier).count()`. -/
def elapsedSeconds (later earlier : Int) : Int :=
  (later - earlier).tdiv nsPerSecond

/-- One entry of the fast-fingerprint cache. -/
structure FpEntry where
  size : UInt64
  mtime : UInt64
  fnv : UInt64
  sha256 : String
  lastSeen : Int
  deriving DecidableEq, Repr

/-- The cache in the iteration order of its map. -/
abbrev FpCache := List (Path × FpEntry)

namespace FpEntry

def Matches (entry : FpEntry) (fp : FastFingerprint) : Prop :=
  entry.size = fp.size ∧ entry.mtime = fp.mtime ∧ entry.fnv = fp.fnv1a4k

instance (entry : FpEntry) (fp : FastFingerprint) :
    Decidable (entry.Matches fp) :=
  inferInstanceAs (Decidable (_ ∧ _))

end FpEntry

namespace FpCache

def find (cache : FpCache) (path : Path) : Option FpEntry :=
  cache.lookup path

/-- Overwrite the entry of a path in place, or add one. -/
def assign (cache : FpCache) (path : Path) (entry : FpEntry) : FpCache :=
  match cache with
  | [] => [(path, entry)]
  | (other, old) :: rest =>
      if other = path then (path, entry) :: rest
      else (other, old) :: assign rest path entry

/-- The linear search for the least recently seen entry. -/
def oldest (first : Path × FpEntry) : FpCache → Path × FpEntry
  | [] => first
  | entry :: rest =>
      if entry.2.lastSeen < first.2.lastSeen then oldest entry rest
      else oldest first rest

def eraseOldest (cache : FpCache) : FpCache :=
  match cache with
  | [] => []
  | first :: rest =>
      let victim := (oldest first rest).1
      cache.filter fun entry => entry.1 != victim

theorem oldest_mem (first : Path × FpEntry) (rest : FpCache) :
    oldest first rest ∈ first :: rest := by
  induction rest generalizing first with
  | nil => exact List.mem_singleton.mpr rfl
  | cons entry rest ih =>
      unfold oldest
      split
      · exact List.mem_cons_of_mem _ (ih entry)
      · rcases List.mem_cons.mp (ih first) with same | later
        · rw [same]
          exact List.mem_cons_self
        · exact List.mem_cons_of_mem _ (List.mem_cons_of_mem _ later)

theorem length_eraseOldest_lt {cache : FpCache} (nonempty : cache ≠ []) :
    cache.eraseOldest.length < cache.length := by
  cases cache with
  | nil => exact (nonempty rfl).elim
  | cons first rest =>
      refine List.length_filter_lt_length_iff_exists.mpr ?_
      exact ⟨oldest first rest, oldest_mem first rest, by simp⟩

def maxEntries : Nat := 10000

/-- The `while` loop of `evict_fp_cache`, for at most the given rounds. -/
def evictRounds : Nat → FpCache → FpCache
  | 0, cache => cache
  | rounds + 1, cache =>
      if maxEntries < cache.length then evictRounds rounds cache.eraseOldest
      else cache

/-- `evict_fp_cache`; every round removes an entry. -/
def evict (cache : FpCache) : FpCache :=
  evictRounds cache.length cache

/-- The locked lookup of the fingerprint gate: the cached digest of a
matching entry, whose stamp is refreshed. -/
def hit (cache : FpCache) (path : Path) (fp : FastFingerprint)
    (now : Int) : Option (String × FpCache) :=
  match cache.find path with
  | some entry =>
      if entry.Matches fp then
        some (entry.sha256,
          cache.assign path { entry with lastSeen := now })
      else none
  | none => none

def store (cache : FpCache) (path : Path) (fp : FastFingerprint)
    (sha256 : String) (now : Int) : FpCache :=
  (cache.assign path
    { size := fp.size
      mtime := fp.mtime
      fnv := fp.fnv1a4k
      sha256 := sha256
      lastSeen := now }).evict

end FpCache

/-- `Worker::Impl`, without the reconversion queue. -/
structure Impl where
  files : List Path := []
  seen : Path → Option Int := fun _ => none
  failCounts : Path → Option Int := fun _ => none
  inflight : Finset Path := ∅
  fpCache : FpCache := []

namespace Impl

/-- A scan passes over a path that is in flight or seen. -/
def passesOver (impl : Impl) (path : Path) : Bool :=
  decide (path ∈ impl.inflight) || (impl.seen path).isSome

/-- The locked part of a scan for one file: a path that is neither in flight
nor seen is stamped with the time of the scan and queued. -/
def scanEntry (impl : Impl) (path : Path) (now : Int) : Impl :=
  if impl.passesOver path then impl
  else
    { impl with
      seen := Function.update impl.seen path (some now)
      files := impl.files ++ [path] }

/-- `2 * poll_interval_sec`. -/
def ttl (cfg : Config) : Int :=
  2 * cfg.pollIntervalSec * nsPerSecond

/-- `cleanup_seen_ttl`. -/
def cleanupSeenTtl (cfg : Config) (impl : Impl) (now : Int) : Impl :=
  { impl with
    seen := fun path =>
      (impl.seen path).filter fun stamp => decide (now - stamp ≤ ttl cfg) }

/-- The locked pop of `WorkerThread`, which marks the path as in flight. -/
def popFile (impl : Impl) : Option (Path × Impl) :=
  match impl.files with
  | [] => none
  | path :: rest =>
      some (path,
        { impl with files := rest, inflight := insert path impl.inflight })

/-- `release_inflight`. -/
def releaseInflight (impl : Impl) (path : Path) : Impl :=
  { impl with inflight := impl.inflight.erase path }

/-- `fail_counts.erase(path)`. -/
def clearFailures (impl : Impl) (path : Path) : Impl :=
  { impl with failCounts := Function.update impl.failCounts path none }

/-- The counter section of `move_to_dead_letter`: the new count, and whether
it reached the limit, which also forgets it. -/
def countFailure (cfg : Config) (impl : Impl) (path : Path) :
    Impl × Int × Bool :=
  let newRetry := (impl.failCounts path).getD 0 + 1
  if cfg.deadLetterMaxRetries ≤ newRetry then
    ({ impl with failCounts := Function.update impl.failCounts path none },
      newRetry, true)
  else
    ({ impl with
        failCounts := Function.update impl.failCounts path (some newRetry) },
      newRetry, false)

theorem passesOver_iff (impl : Impl) (path : Path) :
    impl.passesOver path = true ↔
      path ∈ impl.inflight ∨ (impl.seen path).isSome := by
  rw [passesOver, Bool.or_eq_true, decide_eq_true_iff]

theorem passesOver_eq_false_iff (impl : Impl) (path : Path) :
    impl.passesOver path = false ↔
      path ∉ impl.inflight ∧ impl.seen path = none := by
  rw [← Bool.not_eq_true, passesOver_iff, not_or, Option.not_isSome_iff_eq_none]

/-- A scan leaves a marked or seen path alone and queues any other. -/
theorem scanEntry_cases (impl : Impl) (path : Path) (now : Int) :
    ((path ∈ impl.inflight ∨ (impl.seen path).isSome) ∧
      impl.scanEntry path now = impl) ∨
    (path ∉ impl.inflight ∧ impl.seen path = none ∧
      impl.scanEntry path now =
        { impl with
          seen := Function.update impl.seen path (some now)
          files := impl.files ++ [path] }) := by
  unfold scanEntry
  split
  · rename_i known
    exact .inl ⟨(impl.passesOver_iff path).mp known, rfl⟩
  · rename_i new
    obtain ⟨unmarked, unseen⟩ :=
      (impl.passesOver_eq_false_iff path).mp (Bool.eq_false_iff.mpr new)
    exact .inr ⟨unmarked, unseen, rfl⟩

theorem scanEntry_fpCache (impl : Impl) (path : Path) (now : Int) :
    (impl.scanEntry path now).fpCache = impl.fpCache := by
  rcases impl.scanEntry_cases path now with ⟨-, same⟩ | ⟨-, -, queued⟩
  · rw [same]
  · rw [queued]

theorem popFile_cases {impl next : Impl} {path : Path}
    (popped : impl.popFile = some (path, next)) :
    impl.files = path :: next.files ∧
      next.inflight = insert path impl.inflight ∧
      next.seen = impl.seen ∧ next.failCounts = impl.failCounts ∧
      next.fpCache = impl.fpCache := by
  unfold popFile at popped
  cases queue : impl.files with
  | nil => simp [queue] at popped
  | cons front rest =>
      simp only [queue, Option.some.injEq, Prod.mk.injEq] at popped
      obtain ⟨rfl, rfl⟩ := popped
      exact ⟨rfl, rfl, rfl, rfl, rfl⟩

end Impl

/-- Substring search, `find(needle) != npos`. -/
def containsText (needle text : List Char) : Bool :=
  text.tails.any fun tail => needle.isPrefixOf tail

/-- `name.size() >= n && name.substr(name.size() - n) == suffix`. -/
def endsWithText (suffix text : List Char) : Bool :=
  suffix.isSuffixOf text

def acceptedName (name : String) : Bool :=
  let ext := (extension name).toList.map Char.toLower
  (ext == ".nrw".toList || ext == ".nef".toList || ext == ".cr2".toList ||
      ext == ".arw".toList) &&
    !containsText ".digikamtempfile.".toList name.toList &&
    !(endsWithText ".part".toList name.toList ||
      endsWithText ".tmp".toList name.toList) &&
    !endsWithText ".download".toList name.toList

end Worker

end RawImport
