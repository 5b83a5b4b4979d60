import RawImport.Lib.History
import RawImport.Lib.Lru
import RawImport.Worker.Fingerprint

/-!
# The fingerprint cache keeps the most recent paths

A hit restamps an entry and a store overwrites one; the eviction removes the
entry with the oldest stamp.  With increasing stamps the cache holds what the
history of these touches says: the most recently touched paths, each with what
was last stored for it.
-/

namespace RawImport

namespace Worker

open Transition

namespace FpCache

theorem assign_perm {cache : FpCache} (distinct : (cache.map Prod.fst).Nodup)
    (path : Path) (entry : FpEntry) :
    (cache.assign path entry).Perm
      ((path, entry) :: cache.filter fun other => other.1 ≠ path) := by
  induction cache with
  | nil => exact List.Perm.refl _
  | cons head rest ih =>
      obtain ⟨key, old⟩ := head
      rw [List.map_cons, List.nodup_cons] at distinct
      by_cases here : key = path
      · subst here
        have absent : ∀ other ∈ rest, decide (other.1 ≠ key) = true := by
          intro other member
          refine decide_eq_true fun same => distinct.1 ?_
          exact List.mem_map.mpr ⟨other, member, same⟩
        rw [assign, if_pos rfl, List.filter_cons_of_neg (by simp),
          List.filter_eq_self.mpr absent]
      · rw [assign, if_neg here, List.filter_cons_of_pos (by simpa using here)]
        exact ((ih distinct.2).cons _).trans (List.Perm.swap _ _ _)

theorem oldest_le (first : Path × FpEntry) (rest : FpCache) :
    ∀ entry ∈ first :: rest,
      (oldest first rest).2.lastSeen ≤ entry.2.lastSeen := by
  induction rest generalizing first with
  | nil =>
      intro entry member
      rw [List.mem_singleton.mp member]
      exact le_refl _
  | cons next rest ih =>
      intro entry member
      unfold oldest
      split
      · rename_i older
        rcases List.mem_cons.mp member with rfl | later
        · exact (ih next next List.mem_cons_self).trans older.le
        · exact ih next entry later
      · rename_i newer
        rcases List.mem_cons.mp member with rfl | later
        · exact ih entry entry List.mem_cons_self
        · rcases List.mem_cons.mp later with rfl | behind
          · exact (ih first first List.mem_cons_self).trans
              (not_lt.mp newer)
          · exact ih first entry (List.mem_cons_of_mem _ behind)

def Decreasing (entries : FpCache) : Prop :=
  entries.Pairwise fun newer older =>
    older.2.lastSeen < newer.2.lastSeen

/-- The eviction takes the last of the entries in the order of their
stamps. -/
theorem eraseOldest_perm {cache front : FpCache} {last : Path × FpEntry}
    (order : cache.Perm (front ++ [last]))
    (decreasing : Decreasing (front ++ [last]))
    (distinct : ((front ++ [last]).map Prod.fst).Nodup) :
    cache.eraseOldest.Perm front := by
  cases cache with
  | nil =>
      have lengths := order.length_eq
      rw [List.length_append] at lengths
      cases lengths
  | cons first rest =>
      have victim : oldest first rest = last := by
        have member := order.subset (oldest_mem first rest)
        rcases List.mem_append.mp member with newer | same
        · have least := oldest_le first rest last
            (order.symm.subset (List.mem_append_right _ List.mem_cons_self))
          have above := (List.pairwise_append.mp decreasing).2.2 _ newer
            last List.mem_cons_self
          exact absurd least (not_le.mpr above)
        · exact List.mem_singleton.mp same
      have others : ∀ entry ∈ front, (entry.1 != last.1) = true := by
        intro entry member
        rw [List.map_append] at distinct
        have different := (List.nodup_append.mp distinct).2.2 entry.1
          (List.mem_map_of_mem member) last.1 List.mem_cons_self
        simpa using different
      have removed : [last].filter (fun entry => entry.1 != last.1) = [] :=
        List.filter_cons_of_neg (by simp)
      have kept := order.filter fun entry => entry.1 != last.1
      rw [List.filter_append, List.filter_eq_self.mpr others, removed,
        List.append_nil] at kept
      show ((first :: rest).filter fun entry =>
        entry.1 != (oldest first rest).1).Perm front
      rw [victim]
      exact kept

theorem evict_of_le {cache : FpCache} (within : cache.length ≤ maxEntries) :
    cache.evict = cache := by
  unfold evict
  cases cache.length with
  | zero => rfl
  | succ rounds => exact if_neg (not_lt.mpr within)

theorem evict_of_succ {cache : FpCache}
    (above : cache.length = maxEntries + 1) :
    cache.evict = cache.eraseOldest := by
  have present : cache ≠ [] := by
    rintro rfl
    cases above
  have shorter := length_eraseOldest_lt present
  have within : ¬ maxEntries < cache.eraseOldest.length := by omega
  unfold evict
  rw [above, evictRounds, if_pos (by omega)]
  show evictRounds (9999 + 1) _ = _
  exact if_neg within

/-- A newer entry in front of a history whose most recent entries are
cached. -/
theorem evict_assign_perm {cache : FpCache} {history : List (Path × FpEntry)}
    {path : Path} {entry : FpEntry}
    (order : cache.Perm (Lru.kept maxEntries history))
    (decreasing : Decreasing ((path, entry) :: history)) :
    (cache.assign path entry).evict.Perm
      (Lru.kept maxEntries ((path, entry) :: history)) := by
  set others := (Lru.kept maxEntries history).filter fun other =>
    other.1 ≠ path with othersEq
  have distinct : (cache.map Prod.fst).Nodup :=
    (order.map Prod.fst).nodup_iff.mpr (Lru.nodup_keys_kept _ _)
  have assigned : (cache.assign path entry).Perm ((path, entry) :: others) :=
    (assign_perm distinct path entry).trans ((order.filter _).cons _)
  have short : others.length ≤ maxEntries :=
    (List.length_filter_le _ _).trans (Lru.length_kept_le _ _)
  show (cache.assign path entry).evict.Perm
    (((path, entry) :: others).take maxEntries)
  rcases Nat.lt_or_ge maxEntries ((path, entry) :: others).length with
    above | within
  · have full : ((path, entry) :: others).length = maxEntries + 1 := by
      rw [List.length_cons] at above ⊢
      omega
    rw [evict_of_succ (assigned.length_eq.trans full)]
    have present : (path, entry) :: others ≠ [] := List.cons_ne_nil _ _
    have parts : ((path, entry) :: others).take maxEntries ++
        [((path, entry) :: others).getLast present] =
          (path, entry) :: others := by
      have front : ((path, entry) :: others).take maxEntries =
          ((path, entry) :: others).dropLast := by
        rw [List.dropLast_eq_take, full]
        rfl
      rw [front, List.dropLast_append_getLast]
    have sublist : ((path, entry) :: others).Sublist
        ((path, entry) :: history) :=
      (List.filter_sublist.trans (Lru.kept_sublist _ _)).cons_cons _
    have keys : (((path, entry) :: others).map Prod.fst).Nodup := by
      refine List.nodup_cons.mpr ⟨?_, ?_⟩
      · intro member
        obtain ⟨other, kept, same⟩ := List.mem_map.mp member
        exact absurd same (by simpa using (List.mem_filter.mp kept).2)
      · exact (Lru.nodup_keys_kept _ _).sublist
          (List.filter_sublist.map Prod.fst)
    exact eraseOldest_perm (parts ▸ assigned)
      (parts.symm ▸ decreasing.sublist sublist) (parts.symm ▸ keys)
  · rw [evict_of_le (assigned.length_eq.trans_le within),
      List.take_of_length_le within]
    exact assigned

theorem assign_perm_kept {cache : FpCache} {history : List (Path × FpEntry)}
    {path : Path} {old entry : FpEntry}
    (order : cache.Perm (Lru.kept maxEntries history))
    (decreasing : Decreasing ((path, entry) :: history))
    (present : (path, old) ∈ cache) :
    (cache.assign path entry).Perm
      (Lru.kept maxEntries ((path, entry) :: history)) := by
  have distinct : (cache.map Prod.fst).Nodup :=
    (order.map Prod.fst).nodup_iff.mpr (Lru.nodup_keys_kept _ _)
  have fewer : (cache.filter fun other => other.1 ≠ path).length <
      cache.length :=
    List.length_filter_lt_length_iff_exists.mpr ⟨_, present, by simp⟩
  have within : (cache.assign path entry).length ≤ maxEntries := by
    rw [(assign_perm distinct path entry).length_eq, List.length_cons]
    exact fewer.trans_le (order.length_eq.trans_le (Lru.length_kept_le _ _))
  have evicted := evict_assign_perm order decreasing
  rwa [evict_of_le within] at evicted

theorem mem_of_find {cache : FpCache} {path : Path} {entry : FpEntry}
    (found : cache.find path = some entry) : (path, entry) ∈ cache := by
  unfold find at found
  induction cache with
  | nil => cases found
  | cons head rest ih =>
      rw [List.lookup_cons] at found
      split at found
      · rename_i same
        cases found
        rw [eq_of_beq same]
        exact List.mem_cons_self
      · exact List.mem_cons_of_mem _ (ih found)

end FpCache

/-- A use of the cache entry of a path, with what it stores. -/
structure Touch where
  path : Path
  stamp : Int
  stored : Option (FastFingerprint × String) := none

section Touches

variable {n : Nat}

/-- A step touches a path by a fingerprint hit, or by storing a digest. -/
def touched (world : World n) (action : Action n) : Option Touch :=
  match action with
  | .pass thread .go =>
      match world.threads thread with
      | some ⟨path, .cacheLookup fp⟩ =>
          (world.shared.impl.fpCache.hit path fp world.shared.clock).map
            fun _ => { path := path, stamp := world.shared.clock }
      | some ⟨path, .cacheStore fp srcHash⟩ =>
          some {
            path := path
            stamp := world.shared.clock
            stored := some (fp, srcHash) }
      | _ => none
  | _ => none

def touches (past : List (World n × Action n)) : List Touch :=
  past.filterMap fun earlier => touched earlier.1 earlier.2

end Touches

def lastStored (path : Path) (history : List Touch) :
    Option (FastFingerprint × String) :=
  history.findSome? fun touch =>
    if touch.path = path then touch.stored else none

def StampsIncrease (history : List Touch) : Prop :=
  history.Pairwise fun newer older => older.stamp < newer.stamp

def FpEntry.ofStored (stored : FastFingerprint × String) (stamp : Int) :
    FpEntry :=
  { size := stored.1.size
    mtime := stored.1.mtime
    fnv := stored.1.fnv1a4k
    sha256 := stored.2
    lastSeen := stamp }

def written : List Touch → List (Path × FpEntry)
  | [] => []
  | touch :: earlier =>
      (touch.path, .ofStored
        ((lastStored touch.path (touch :: earlier)).getD ({}, ""))
        touch.stamp) :: written earlier

theorem written_paths (history : List Touch) :
    (written history).map Prod.fst = history.map Touch.path := by
  induction history with
  | nil => rfl
  | cons touch earlier ih => rw [written, List.map_cons, List.map_cons, ih]

theorem mem_written {history : List Touch} {entry : Path × FpEntry}
    (member : entry ∈ written history) :
    ∃ touch ∈ history, entry.2.lastSeen = touch.stamp := by
  induction history with
  | nil => cases member
  | cons touch earlier ih =>
      rcases List.mem_cons.mp member with rfl | old
      · exact ⟨touch, List.mem_cons_self, rfl⟩
      · obtain ⟨other, before, same⟩ := ih old
        exact ⟨other, List.mem_cons_of_mem _ before, same⟩

theorem decreasing_written {history : List Touch}
    (increase : StampsIncrease history) :
    FpCache.Decreasing (written history) := by
  induction history with
  | nil => exact List.Pairwise.nil
  | cons touch earlier ih =>
      have later := List.pairwise_cons.mp increase
      refine List.pairwise_cons.mpr ⟨?_, ih later.2⟩
      intro entry member
      obtain ⟨other, before, same⟩ := mem_written member
      rw [same]
      exact later.1 other before

theorem lastStored_cons_other {touch : Touch} {path : Path}
    (other : touch.path ≠ path) (earlier : List Touch) :
    lastStored path (touch :: earlier) = lastStored path earlier := by
  unfold lastStored
  rw [List.findSome?_cons, if_neg other]

theorem lastStored_cons_self (touch : Touch) (earlier : List Touch) :
    lastStored touch.path (touch :: earlier) =
      touch.stored.or (lastStored touch.path earlier) := by
  unfold lastStored
  rw [List.findSome?_cons, if_pos rfl]
  cases touch.stored with
  | none => rfl
  | some stored => rfl

/-- After a touch that finds or stores something, every touched path has
something stored. -/
theorem stored_cons {touch : Touch} {earlier : List Touch}
    (before : ∀ other ∈ earlier, (lastStored other.path earlier).isSome)
    (here : (lastStored touch.path (touch :: earlier)).isSome) :
    ∀ other ∈ touch :: earlier,
      (lastStored other.path (touch :: earlier)).isSome := by
  intro other member
  by_cases same : touch.path = other.path
  · rwa [← same]
  · rcases List.mem_cons.mp member with rfl | old
    · exact here
    · rw [lastStored_cons_other same]
      exact before other old

theorem lookup_written {history : List Touch} {path : Path}
    {entry : FpEntry} (found : (written history).lookup path = some entry) :
    ∃ stamp, entry =
      .ofStored ((lastStored path history).getD ({}, "")) stamp := by
  induction history with
  | nil => cases found
  | cons touch earlier ih =>
      rw [written, List.lookup_cons] at found
      split at found
      · rename_i same
        cases found
        rw [eq_of_beq same]
        exact ⟨_, rfl⟩
      · rename_i other
        have different : touch.path ≠ path := fun same => by
          rw [same] at other
          simp at other
        rw [lastStored_cons_other different]
        exact ih found

/-- The cache is what the touches say. -/
structure CachesWritten (history : List Touch) (cache : FpCache) : Prop where
  stored : ∀ touch ∈ history, (lastStored touch.path history).isSome
  order : cache.Perm (Lru.kept FpCache.maxEntries (written history))

namespace CachesWritten

variable {history : List Touch} {cache : FpCache}

theorem mem (caches : CachesWritten history cache) {path : Path}
    {entry : FpEntry} (member : (path, entry) ∈ cache) :
    ∃ stored stamp, lastStored path history = some stored ∧
      entry = .ofStored stored stamp := by
  have kept := caches.order.subset member
  have listed := (Lru.kept_sublist _ _).subset kept
  have touchedPath : path ∈ history.map Touch.path := by
    rw [← written_paths]
    exact List.mem_map_of_mem listed
  obtain ⟨touch, before, rfl⟩ := List.mem_map.mp touchedPath
  obtain ⟨stored, known⟩ := Option.isSome_iff_exists.mp
    (caches.stored touch before)
  obtain ⟨stamp, same⟩ := lookup_written (Lru.lookup_of_mem_kept kept)
  rw [known] at same
  exact ⟨stored, stamp, known, same⟩

theorem store (caches : CachesWritten history cache) {path : Path}
    {fp : FastFingerprint} {srcHash : String} {stamp : Int}
    (increase : StampsIncrease
      ({ path, stamp, stored := some (fp, srcHash) } :: history)) :
    CachesWritten ({ path, stamp, stored := some (fp, srcHash) } :: history)
      (cache.store path fp srcHash stamp) := by
  have known := lastStored_cons_self
    { path, stamp, stored := some (fp, srcHash) } history
  have decreasing := decreasing_written increase
  constructor
  · apply stored_cons caches.stored
    rw [known]
    rfl
  · rw [written] at decreasing ⊢
    rw [known] at decreasing ⊢
    exact FpCache.evict_assign_perm caches.order decreasing

theorem hit (caches : CachesWritten history cache) {path : Path}
    {entry : FpEntry} {stamp : Int}
    (increase : StampsIncrease ({ path, stamp } :: history))
    (found : cache.find path = some entry) :
    CachesWritten ({ path, stamp } :: history)
      (cache.assign path { entry with lastSeen := stamp }) := by
  have present := FpCache.mem_of_find found
  obtain ⟨stored, old, stores, same⟩ := caches.mem present
  have known : lastStored path ({ path, stamp } :: history) = some stored :=
    (lastStored_cons_self { path, stamp } history).trans stores
  have decreasing := decreasing_written increase
  constructor
  · apply stored_cons caches.stored
    rw [known]
    rfl
  · rw [written, known] at decreasing ⊢
    rw [same]
    exact FpCache.assign_perm_kept caches.order decreasing present

end CachesWritten

section Runs

variable {n : Nat} {platform : Platform} {cfg : Config}

theorem touched_cases {world after : World n} {action : Action n}
    (taken : step platform cfg world action = some after) :
    (touched world action = none ∧
      after.shared.impl.fpCache = world.shared.impl.fpCache) ∨
    (∃ path fp srcHash, touched world action = some {
        path := path
        stamp := world.shared.clock
        stored := some (fp, srcHash) } ∧
      after.shared.impl.fpCache =
        world.shared.impl.fpCache.store path fp srcHash world.shared.clock) ∨
    (∃ path entry, touched world action = some {
        path := path
        stamp := world.shared.clock } ∧
      world.shared.impl.fpCache.find path = some entry ∧
      after.shared.impl.fpCache = world.shared.impl.fpCache.assign path
        { entry with lastSeen := world.shared.clock }) := by
  rcases step_cases taken with ⟨outside, -, same, -⟩ |
    ⟨thread, event, pass, shared, stage, rfl, busy, passStep, rfl⟩
  · refine .inl ⟨?_, same⟩
    cases action with
    | pass thread event => exact (outside thread event rfl).elim
    | _ => rfl
  · obtain ⟨path, start⟩ := pass
    cases passStep with
    | cacheHit hit =>
        obtain ⟨entry, found, -, -, cached⟩ := FpCache.hit_cases hit
        refine .inr (.inr ⟨path, entry, ?_, found, cached⟩)
        simp only [touched, busy, hit, Option.map_some]
    | cacheMiss miss =>
        refine .inl ⟨?_, rfl⟩
        simp only [touched, busy, miss, Option.map_none]
    | cacheStore =>
        refine .inr (.inl ⟨path, _, _, ?_, rfl⟩)
        simp only [touched, busy]
    | countFailure =>
        refine .inl ⟨?_, ?_⟩
        · simp only [touched, busy]
        · exact ProcessFile.countFailure_fpCache cfg world.shared.impl path
    | _ =>
        refine .inl ⟨?_, rfl⟩
        simp only [touched, busy]

theorem touches_cons (world : World n) (action : Action n)
    (past : List (World n × Action n)) :
    touches ((world, action) :: past) =
      (touched world action).toList ++ touches past := by
  unfold touches
  rw [List.filterMap_cons]
  cases touched world action with
  | none => rfl
  | some touch => rfl

/-- As long as the stamps increase, the cache is what the touches say. -/
def CachesTouches (state : Tracked (World n) (Action n)) : Prop :=
  StampsIncrease (touches state.past) →
    CachesWritten (touches state.past) state.now.shared.impl.fpCache

/-- The world with an empty cache, whatever paths wait in its queue. -/
def World.uncached (world : World n) : World n :=
  world.withShared { world.shared with
    impl := { world.shared.impl with fpCache := [] } }

theorem cachesTouches_start (world : World n) :
    CachesTouches (.start world.uncached) :=
  fun _ => ⟨nofun, List.Perm.refl _⟩

theorem cachesTouches_step {state after : Tracked (World n) (Action n)}
    {action : Action n} (caches : CachesTouches state)
    (taken : track (step platform cfg) state action = some after) :
    CachesTouches after := by
  obtain ⟨stepTaken, past⟩ := track_eq_some_iff.mp taken
  unfold CachesTouches
  rw [past, touches_cons]
  intro increase
  have before := caches (List.pairwise_append.mp increase).2.1
  rcases touched_cases stepTaken with ⟨untouched, same⟩ |
    ⟨path, fp, srcHash, touch, cached⟩ | ⟨path, entry, touch, found, cached⟩
  · rw [untouched, same]
    exact before
  · rw [touch] at increase ⊢
    rw [cached]
    exact before.store increase
  · rw [touch] at increase ⊢
    rw [cached]
    exact before.hit increase found

/-- The cached paths are the 10000 most recently touched ones of the history,
or all of them, each with what was last stored for it; the one that was
touched last is among them. -/
structure RecentCached (history : List Touch) (cache : FpCache) : Prop where
  paths : (cache.map Prod.fst).Perm
    ((Lru.recent (history.map Touch.path)).take 10000)
  entries : ∀ path entry, (path, entry) ∈ cache → ∃ fp sha256,
    lastStored path history = some (fp, sha256) ∧ entry.size = fp.size ∧
      entry.mtime = fp.mtime ∧ entry.fnv = fp.fnv1a4k ∧
      entry.sha256 = sha256
  newest : ∀ touch ∈ history.head?, touch.path ∈ cache.map Prod.fst

theorem CachesWritten.recentCached {history : List Touch} {cache : FpCache}
    (caches : CachesWritten history cache) : RecentCached history cache := by
  have paths : (cache.map Prod.fst).Perm
      ((Lru.recent (history.map Touch.path)).take 10000) := by
    have order := caches.order.map Prod.fst
    rwa [Lru.keys_kept, written_paths] at order
  refine ⟨paths, ?_, ?_⟩
  · intro path entry member
    obtain ⟨⟨fp, sha256⟩, stamp, known, rfl⟩ := caches.mem member
    exact ⟨fp, sha256, known, rfl, rfl, rfl, rfl⟩
  · intro touch first
    apply paths.symm.subset
    cases history with
    | nil => cases first
    | cons head earlier =>
        cases first
        exact List.mem_cons_self

/-- The fingerprint cache is a bounded LRU in every run that starts without
entries, for passes on any paths in any interleaving: as long as the stamps
increase, it holds the entries of the most recently touched paths as they were
last stored. -/
theorem fpCache_recent (platform : Platform) (cfg : Config)
    (world : World n) (actions : List (Action n)) :
    Visits (track (step platform cfg)) (fun state =>
        StampsIncrease (touches state.past) →
          RecentCached (touches state.past) state.now.shared.impl.fpCache)
      (.start world.uncached) actions :=
  Visits.mono (fun _ caches increase => (caches increase).recentCached)
    (visits_of_preserved CachesTouches
      (fun _ _ _ caches taken => cachesTouches_step caches taken)
      (cachesTouches_start world) actions)

end Runs

end Worker

end RawImport
