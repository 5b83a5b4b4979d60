import Mathlib.Tactic.NormNum
import Mathlib.Data.Rat.Defs
import RawImport.Lib.Cxx
import RawImport.Lib.Histogram

/-!
# `metrics.cpp`

The counters and the six duration histograms with their text.  Durations are
exact; how a `double` is printed is a parameter.  `render_histogram` prints the
limits of the conversion histogram for every stage, whatever the edges of its
observer are.
-/

namespace RawImport

namespace Metrics

open Histogram

/-- The bucket counts, the sum and the count of one histogram. -/
structure Series where
  bucket : List Int := List.replicate 10 0
  sum : Rat := 0
  count : Int := 0
  deriving DecidableEq

/-- The fields of `Metrics`; the counters are taken without the bound of
`int64_t`. -/
structure State where
  filesDetectedTotal : Int := 0
  conversionsCompletedTotalCompleted : Int := 0
  conversionsCompletedTotalFailed : Int := 0
  queueDepth : Int := 0
  dbSizeBytes : Int := 0
  dur : Series := {}
  fp : Series := {}
  hash : Series := {}
  exif : Series := {}
  db : Series := {}
  arch : Series := {}
  deriving DecidableEq

/-- What every observer does with its own edges. -/
def Series.observe (edges : List Rat) (series : Series) (seconds : Rat) :
    Series :=
  { bucket := add edges series.bucket seconds
    sum := series.sum + seconds
    count := series.count + 1 }

def conversionEdges : List Rat := [1, 2, 5, 10, 20, 30, 60, 120, 300]

def fastEdges : List Rat :=
  [1 / 1000, 2 / 1000, 5 / 1000, 1 / 100, 2 / 100, 5 / 100, 1 / 10, 2 / 10,
    5 / 10]

def slowEdges : List Rat :=
  [1 / 100, 2 / 100, 5 / 100, 1 / 10, 2 / 10, 5 / 10, 1, 2, 5]

def observeConversionDuration (state : State) (seconds : Rat) : State :=
  { state with dur := state.dur.observe conversionEdges seconds }

def observeFastFingerprintDuration (state : State) (seconds : Rat) : State :=
  { state with fp := state.fp.observe fastEdges seconds }

def observeHashDuration (state : State) (seconds : Rat) : State :=
  { state with hash := state.hash.observe slowEdges seconds }

def observeExifDuration (state : State) (seconds : Rat) : State :=
  { state with exif := state.exif.observe slowEdges seconds }

def observeDbDuration (state : State) (seconds : Rat) : State :=
  { state with db := state.db.observe fastEdges seconds }

def observeArchiveDuration (state : State) (seconds : Rat) : State :=
  { state with arch := state.arch.observe slowEdges seconds }

def incFilesDetected (state : State) (n : Int) : State :=
  { state with filesDetectedTotal := state.filesDetectedTotal + n }

def incConversionsCompleted (state : State) (status : String) (n : Int) :
    State :=
  if status = "failed" then
    { state with
      conversionsCompletedTotalFailed :=
        state.conversionsCompletedTotalFailed + n }
  else
    { state with
      conversionsCompletedTotalCompleted :=
        state.conversionsCompletedTotalCompleted + n }

/-- The six histograms. -/
inductive Stage where
  | conversion | fastFingerprint | hash | exif | db | archive
  deriving DecidableEq

/-- A call of another thread between two scrapes. -/
inductive Call where
  | incFilesDetected (n : Int)
  | incConversionsCompleted (status : String) (n : Int)
  | setQueueDepth (depth : Int)
  | setDbSizeBytes (bytes : Int)
  | observe (stage : Stage) (seconds : Rat)
  deriving DecidableEq

def Stage.observe : Stage → State → Rat → State
  | .conversion => observeConversionDuration
  | .fastFingerprint => observeFastFingerprintDuration
  | .hash => observeHashDuration
  | .exif => observeExifDuration
  | .db => observeDbDuration
  | .archive => observeArchiveDuration

def call (state : State) : Call → State
  | .incFilesDetected n => incFilesDetected state n
  | .incConversionsCompleted status n =>
      incConversionsCompleted state status n
  | .setQueueDepth depth => { state with queueDepth := depth }
  | .setDbSizeBytes bytes => { state with dbSizeBytes := bytes }
  | .observe stage seconds => stage.observe state seconds

/-- `Metrics` after the calls in the order of their locks. -/
def after (calls : List Call) : State :=
  calls.foldl call {}

/-- One line of the exposition. -/
inductive Line where
  | type (name kind : String)
  | number (name : String) (value : Int)
  | bucket (name le : String) (value : Int)
  | sum (name : String) (value : Rat)
  | count (name : String) (value : Int)
  deriving DecidableEq

/-- The loop over the buckets with its running sum. -/
def renderBuckets (name : String) :
    List String → List Int → Int → List Line
  | le :: labels, count :: buckets, cum =>
      .bucket name le (cum + count) ::
        renderBuckets name labels buckets (cum + count)
  | _, _, _ => []

/-- `render_histogram`. -/
def renderHistogram (name : String) (series : Series) : List Line :=
  .type name "histogram" ::
    renderBuckets name
      ["1", "2", "5", "10", "20", "30", "60", "120", "300", "+Inf"]
      series.bucket 0 ++
    [.sum name series.sum, .count name series.count]

/-- `Metrics::Render`, line by line. -/
def render (state : State) : List Line :=
  [.type "rawimport_files_detected_total" "counter",
    .number "rawimport_files_detected_total" state.filesDetectedTotal,
    .type "rawimport_conversions_completed_total" "counter",
    .number "rawimport_conversions_completed_total\x7bstatus=\"completed\"\x7d"
      state.conversionsCompletedTotalCompleted,
    .number "rawimport_conversions_completed_total\x7bstatus=\"failed\"\x7d"
      state.conversionsCompletedTotalFailed,
    .type "rawimport_conversion_duration_seconds" "histogram"] ++
  renderBuckets "rawimport_conversion_duration_seconds"
    ["1", "2", "5", "10", "20", "30", "60", "120", "300", "+Inf"]
    state.dur.bucket 0 ++
  [.sum "rawimport_conversion_duration_seconds" state.dur.sum,
    .count "rawimport_conversion_duration_seconds" state.dur.count,
    .type "rawimport_queue_depth" "gauge",
    .number "rawimport_queue_depth" state.queueDepth,
    .type "rawimport_db_size_bytes" "gauge",
    .number "rawimport_db_size_bytes" state.dbSizeBytes] ++
  renderHistogram "rawimport_fast_fingerprint_duration_seconds" state.fp ++
  renderHistogram "rawimport_hash_duration_seconds" state.hash ++
  renderHistogram "rawimport_exif_duration_seconds" state.exif ++
  renderHistogram "rawimport_db_duration_seconds" state.db ++
  renderHistogram "rawimport_archive_duration_seconds" state.arch

def Line.text (printDouble : Rat → String) : Line → String
  | .type name kind => "# TYPE " ++ name ++ " " ++ kind ++ "\n"
  | .number name value => name ++ " " ++ toString value ++ "\n"
  | .bucket name le value =>
      name ++ "_bucket\x7ble=\"" ++ le ++ "\"\x7d " ++ toString value ++ "\n"
  | .sum name value => name ++ "_sum " ++ printDouble value ++ "\n"
  | .count name value => name ++ "_count " ++ toString value ++ "\n"

def renderText (printDouble : Rat → String) (state : State) : String :=
  String.join ((render state).map (Line.text printDouble))

/-- The name under which a histogram is printed. -/
def Stage.name : Stage → String
  | .conversion => "rawimport_conversion_duration_seconds"
  | .fastFingerprint => "rawimport_fast_fingerprint_duration_seconds"
  | .hash => "rawimport_hash_duration_seconds"
  | .exif => "rawimport_exif_duration_seconds"
  | .db => "rawimport_db_duration_seconds"
  | .archive => "rawimport_archive_duration_seconds"

def Stage.series (state : State) : Stage → Series
  | .conversion => state.dur
  | .fastFingerprint => state.fp
  | .hash => state.hash
  | .exif => state.exif
  | .db => state.db
  | .archive => state.arch

def Stage.edges : Stage → List Rat
  | .conversion => conversionEdges
  | .fastFingerprint => fastEdges
  | .hash => slowEdges
  | .exif => slowEdges
  | .db => fastEdges
  | .archive => slowEdges

/-- The durations a history of calls tells one histogram. -/
def observations (stage : Stage) (calls : List Call) : List Rat :=
  calls.filterMap fun
    | .observe told seconds => if told = stage then some seconds else none
    | _ => none

/-- The buckets of a histogram count what their labels say. -/
def TellsTruth (calls : List Call) (stage : Stage) : Prop :=
  ∀ (le : String) (value : Int),
    .bucket stage.name le value ∈ render (after calls) →
    (∀ limit : Int, Cxx.parseLong le.toList = some limit →
      value = (observations stage calls).countP (· ≤ (limit : Rat))) ∧
    (le = "+Inf" → .count stage.name value ∈ render (after calls))

/-- A duration that `render_histogram` prints under the wrong limits. -/
def Stage.Mislabelled (stage : Stage) (seconds : Rat) : Prop :=
  match stage with
  | .conversion => False
  | .fastFingerprint | .db => 1 / 1000 < seconds ∧ seconds ≤ 300
  | .hash | .exif | .archive => 1 / 100 < seconds ∧ seconds ≤ 300

def labels : List String :=
  ["1", "2", "5", "10", "20", "30", "60", "120", "300", "+Inf"]

theorem mem_renderBuckets {name : String} {shown : List String}
    {buckets : List Int} {cum : Int} {line : Line} :
    line ∈ renderBuckets name shown buckets cum ↔
      ∃ index le, shown[index]? = some le ∧ index < buckets.length ∧
        line = .bucket name le (cum + (buckets.take (index + 1)).sum) := by
  induction shown generalizing buckets cum with
  | nil => simp [renderBuckets]
  | cons first shown ih =>
      cases buckets with
      | nil => simp [renderBuckets]
      | cons count buckets =>
          rw [renderBuckets, List.mem_cons, ih]
          constructor
          · intro printed
            rcases printed with here | ⟨index, le, label, inside, later⟩
            · exact ⟨0, first, rfl, Nat.succ_pos _, by simpa using here⟩
            · refine ⟨index + 1, le, label, Nat.succ_lt_succ inside, ?_⟩
              simpa [Int.add_assoc] using later
          · intro printed
            obtain ⟨index, le, label, inside, here⟩ := printed
            cases index with
            | zero =>
                cases label
                exact .inl (by simpa using here)
            | succ index =>
                right
                refine ⟨index, le, label, Nat.lt_of_succ_lt_succ inside, ?_⟩
                simpa [Int.add_assoc] using here

theorem bucket_mem_render {state : State} {stage : Stage} {le : String}
    {value : Int} :
    .bucket stage.name le value ∈ render state ↔
      .bucket stage.name le value ∈
        renderBuckets stage.name labels (stage.series state).bucket 0 := by
  have foreign : ∀ {name other : String} (series : Series), name ≠ other →
      .bucket name le value ∉ renderBuckets other labels series.bucket 0 := by
    intro name other series different member
    obtain ⟨index, label, -, -, same⟩ := mem_renderBuckets.mp member
    cases same
    exact different rfl
  unfold labels at foreign ⊢
  cases stage <;>
    simp [render, renderHistogram, Stage.name, Stage.series, foreign]

theorem count_mem_render {state : State} {stage : Stage} {value : Int} :
    .count stage.name value ∈ render state ↔
      value = (stage.series state).count := by
  have foreign : ∀ {name other : String} (series : Series),
      .count name value ∉ renderBuckets other labels series.bucket 0 := by
    intro name other series member
    obtain ⟨index, label, -, -, same⟩ := mem_renderBuckets.mp member
    cases same
  unfold labels at foreign
  cases stage <;>
    simp [render, renderHistogram, Stage.name, Stage.series, foreign]

theorem series_call (state : State) (made : Call) (stage : Stage) :
    stage.series (call state made) =
      (observations stage [made]).foldl (Series.observe stage.edges)
        (stage.series state) := by
  cases made with
  | observe told seconds =>
      cases told <;> cases stage <;> rfl
  | incConversionsCompleted status n =>
      show stage.series (incConversionsCompleted state status n) = _
      unfold incConversionsCompleted
      split <;> cases stage <;> rfl
  | _ => cases stage <;> rfl

theorem series_foldl (calls : List Call) (state : State) (stage : Stage) :
    stage.series (calls.foldl call state) =
      (observations stage calls).foldl (Series.observe stage.edges)
        (stage.series state) := by
  induction calls generalizing state with
  | nil => rfl
  | cons made calls ih =>
      have split : observations stage (made :: calls) =
          observations stage [made] ++ observations stage calls := by
        exact List.filterMap_append (l := [made])
      rw [List.foldl_cons, ih, series_call, split, List.foldl_append]

theorem foldl_observe (edges : List Rat) (durations : List Rat)
    (series : Series) :
    (durations.foldl (Series.observe edges) series).bucket =
        durations.foldl (add edges) series.bucket ∧
      (durations.foldl (Series.observe edges) series).count =
        series.count + durations.length := by
  induction durations generalizing series with
  | nil => simp
  | cons seconds durations ih =>
      obtain ⟨bucket, count⟩ := ih (series.observe edges seconds)
      rw [List.foldl_cons, List.foldl_cons, bucket, count]
      refine ⟨rfl, ?_⟩
      rw [Series.observe, List.length_cons]
      push_cast
      omega

theorem Stage.length_edges (stage : Stage) : stage.edges.length = 9 := by
  cases stage <;> rfl

theorem Stage.rising_edges (stage : Stage) :
    stage.edges.Pairwise (· ≤ ·) := by
  cases stage <;> decide +kernel

/-- The printed numbers: how many observations are counted up to an edge of
the observer, under the label of the renderer. -/
theorem bucket_mem_render_after {calls : List Call} {stage : Stage}
    {le : String} {value : Int} :
    .bucket stage.name le value ∈ render (after calls) ↔
      ∃ index, labels[index]? = some le ∧
        value = (observations stage calls).countP
          (place stage.edges · < index + 1) := by
  have counted : (stage.series (after calls)).bucket =
      (observations stage calls).foldl (add stage.edges)
        (List.replicate 10 0) := by
    rw [after, series_foldl, (foldl_observe _ _ _).1]
    cases stage <;> rfl
  have sums : ∀ length, ((stage.series (after calls)).bucket.take length).sum =
      (observations stage calls).countP (place stage.edges · < length) := by
    intro length
    rw [counted, sum_take_foldl _ _ (by rw [stage.length_edges]; rfl),
      List.take_replicate, List.sum_replicate, nsmul_zero, Int.zero_add]
  have size : (stage.series (after calls)).bucket.length = 10 := by
    rw [counted, length_foldl_add]
    rfl
  rw [bucket_mem_render, mem_renderBuckets]
  constructor
  · intro printed
    obtain ⟨index, label, listed, -, same⟩ := printed
    cases same
    refine ⟨index, listed, ?_⟩
    rw [sums, Int.zero_add]
  · intro printed
    obtain ⟨index, listed, rfl⟩ := printed
    obtain ⟨inside, -⟩ := List.getElem?_eq_some_iff.mp listed
    refine ⟨index, le, listed, size ▸ inside, ?_⟩
    rw [sums, Int.zero_add]

theorem count_mem_render_after {calls : List Call} {stage : Stage}
    {value : Int} :
    .count stage.name value ∈ render (after calls) ↔
      value = (observations stage calls).length := by
  rw [count_mem_render, after, series_foldl, (foldl_observe _ _ _).2]
  cases stage <;> simp [Stage.series]

def limits : List Int := [1, 2, 5, 10, 20, 30, 60, 120, 300]

theorem labels_parseLong :
    labels.map (fun le => Cxx.parseLong le.toList) =
      limits.map some ++ [none] := by
  decide +kernel

theorem limits_cast : limits.map (fun limit : Int => (limit : Rat)) =
    conversionEdges := by
  decide +kernel

/-- A label that spells a number stands at the place of that limit. -/
theorem label_limit {index : Nat} {limit : Int} {le : String}
    (listed : labels[index]? = some le)
    (spelled : Cxx.parseLong le.toList = some limit) :
    limits[index]? = some limit := by
  have place : (labels.map fun le => Cxx.parseLong le.toList)[index]? = some (some limit) := by
    rw [List.getElem?_map, listed, Option.map_some, spelled]
  rw [labels_parseLong, List.getElem?_append] at place
  split at place
  · rw [List.getElem?_map] at place
    obtain ⟨number, listed, same⟩ := Option.map_eq_some_iff.mp place
    cases same
    exact listed
  · have member := List.mem_of_getElem? place
    cases List.mem_singleton.mp member

theorem limit_label {index : Nat} {limit : Int}
    (listed : limits[index]? = some limit) :
    ∃ le, labels[index]? = some le ∧
      Cxx.parseLong le.toList = some limit := by
  have inside : index < (limits.map some).length := by
    rw [List.length_map]
    exact (List.getElem?_eq_some_iff.mp listed).1
  have place : (labels.map fun le => Cxx.parseLong le.toList)[index]? = some (some limit) := by
    rw [labels_parseLong, List.getElem?_append_left inside, List.getElem?_map,
      listed]
    rfl
  rw [List.getElem?_map] at place
  exact Option.map_eq_some_iff.mp place

/-- The numbers are right exactly when each edge counts what its limit
does. -/
theorem tellsTruth_iff_counts {calls : List Call} {stage : Stage} :
    TellsTruth calls stage ↔
      ∀ pair ∈ stage.edges.zip conversionEdges,
        (observations stage calls).countP (· ≤ pair.1) =
          (observations stage calls).countP (· ≤ pair.2) := by
  have counts : ∀ {index : Nat} {edge : Rat},
      stage.edges[index]? = some edge →
      (observations stage calls).countP
          (place stage.edges · < index + 1) =
        (observations stage calls).countP (· ≤ edge) := by
    intro index edge listed
    congr 1
    funext seconds
    rw [decide_eq_decide, Nat.lt_succ_iff]
    exact place_le_iff stage.rising_edges listed
  constructor
  · intro truth pair member
    obtain ⟨index, listed⟩ := List.mem_iff_getElem?.mp member
    obtain ⟨edge, limit⟩ := pair
    obtain ⟨edgeListed, limitListed⟩ := List.getElem?_zip_eq_some.mp listed
    rw [← limits_cast, List.getElem?_map] at limitListed
    obtain ⟨number, numberListed, rfl⟩ :=
      Option.map_eq_some_iff.mp limitListed
    obtain ⟨le, label, spelled⟩ := limit_label numberListed
    have value := (truth le _ (bucket_mem_render_after.mpr
      ⟨index, label, rfl⟩)).1 number spelled
    rw [counts edgeListed] at value
    exact Int.ofNat_inj.mp value
  · intro equal le value printed
    obtain ⟨index, label, rfl⟩ := bucket_mem_render_after.mp printed
    constructor
    · intro limit spelled
      have numberListed := label_limit label spelled
      have limitListed : conversionEdges[index]? = some (limit : Rat) := by
        rw [← limits_cast, List.getElem?_map, numberListed]
        rfl
      have inside : index < stage.edges.length := by
        rw [stage.length_edges]
        exact (List.getElem?_eq_some_iff.mp numberListed).1
      have edgeListed := List.getElem?_eq_getElem inside
      have zipped : (stage.edges[index], (limit : Rat)) ∈
          stage.edges.zip conversionEdges :=
        List.mem_of_getElem?
          (List.getElem?_zip_eq_some.mpr ⟨edgeListed, limitListed⟩)
      rw [counts edgeListed, equal _ zipped]
    · rintro rfl
      have distinct : labels.Nodup := by decide +kernel
      have inside := (List.getElem?_eq_some_iff.mp label).1
      have last : index = 9 :=
        (List.getElem?_inj inside distinct).mp label
      subst last
      apply count_mem_render_after.mpr
      rw [Nat.cast_inj]
      apply List.countP_eq_length.mpr
      intro seconds _
      have le := place_le stage.edges seconds
      rw [stage.length_edges] at le
      simpa using Nat.lt_succ_of_le le

theorem Stage.edge_le_limit (stage : Stage) :
    ∀ pair ∈ stage.edges.zip conversionEdges, pair.1 ≤ pair.2 := by
  cases stage <;> decide +kernel

theorem Stage.misplaced_iff (stage : Stage) (seconds : Rat) :
    Misplaced stage.edges conversionEdges seconds ↔
      stage.Mislabelled seconds := by
  have fast : Misplaced fastEdges conversionEdges seconds ↔
      1 / 1000 < seconds ∧ seconds ≤ 300 := by
    have zipped : fastEdges.zip conversionEdges =
        (1 / 1000, 1) :: [(2 / 1000, 2), (5 / 1000, 5), (1 / 100, 10),
          (2 / 100, 20), (5 / 100, 30), (1 / 10, 60), (2 / 10, 120),
          (5 / 10, 300)] := rfl
    exact Histogram.misplaced_iff zipped (by decide +kernel)
      (by decide +kernel) (by decide +kernel)
  have slow : Misplaced slowEdges conversionEdges seconds ↔
      1 / 100 < seconds ∧ seconds ≤ 300 := by
    have zipped : slowEdges.zip conversionEdges =
        (1 / 100, 1) :: [(2 / 100, 2), (5 / 100, 5), (1 / 10, 10),
          (2 / 10, 20), (5 / 10, 30), (1, 60), (2, 120), (5, 300)] := rfl
    exact Histogram.misplaced_iff zipped (by decide +kernel)
      (by decide +kernel) (by decide +kernel)
  cases stage with
  | conversion =>
      constructor
      · intro misplaced
        obtain ⟨pair, member, above, within⟩ := misplaced
        have same : ∀ pair ∈ conversionEdges.zip conversionEdges,
            pair.1 = pair.2 := by decide +kernel
        rw [← same pair member] at within
        exact absurd above (not_lt.mpr within)
      · exact False.elim
  | fastFingerprint => exact fast
  | db => exact fast
  | hash => exact slow
  | exif => exact slow
  | archive => exact slow

/-- One histogram tells the truth exactly when none of its observations is
printed under the wrong limits. -/
theorem tellsTruth_iff {calls : List Call} {stage : Stage} :
    TellsTruth calls stage ↔
      ∀ seconds ∈ observations stage calls, ¬stage.Mislabelled seconds := by
  rw [tellsTruth_iff_counts]
  constructor
  · intro equal seconds observed mislabelled
    obtain ⟨pair, member, above, within⟩ :=
      (stage.misplaced_iff seconds).mpr mislabelled
    have none := (countP_eq_iff_none_between
      (stage.edge_le_limit pair member) _).mp (equal pair member)
    exact none seconds observed ⟨above, within⟩
  · intro right pair member
    apply (countP_eq_iff_none_between
      (stage.edge_le_limit pair member) _).mpr
    intro seconds observed between
    apply right seconds observed
    exact (stage.misplaced_iff seconds).mp ⟨pair, member, between⟩

/-- All six histograms tell the truth exactly when no fingerprint or database
duration is above a millisecond and at most 300 seconds, and no hash, EXIF or
archive duration is above ten milliseconds and at most 300 seconds. -/
theorem histograms_tell_truth_iff (calls : List Call) :
    (∀ stage, TellsTruth calls stage) ↔
      ∀ stage seconds, .observe stage seconds ∈ calls →
        ¬stage.Mislabelled seconds := by
  have told : ∀ {stage : Stage} {seconds : Rat},
      seconds ∈ observations stage calls ↔ .observe stage seconds ∈ calls := by
    intro stage seconds
    rw [observations, List.mem_filterMap]
    constructor
    · intro found
      obtain ⟨made, member, kept⟩ := found
      cases made with
      | observe other duration =>
          obtain ⟨rfl, same⟩ := Option.ite_none_right_eq_some.mp kept
          cases same
          exact member
      | _ => cases kept
    · intro member
      exact ⟨_, member, if_pos rfl⟩
  constructor
  · intro truth stage seconds member
    exact tellsTruth_iff.mp (truth stage) seconds (told.mpr member)
  · intro right stage
    apply tellsTruth_iff.mpr
    intro seconds observed
    exact right stage seconds (told.mp observed)

/-- Half a second of hashing is missing under `le="1"`: it is first counted
under `le="30"`. -/
theorem half_second_hash_mislabelled :
    ¬∀ stage, TellsTruth [.observe .hash (1 / 2)] stage := by
  intro truth
  have value := (truth .hash "1" 0 (by decide +kernel)).1 1
    (by decide +kernel)
  exact absurd value (by decide +kernel)

end Metrics

end RawImport
