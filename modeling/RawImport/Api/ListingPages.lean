import Mathlib.Algebra.GroupWithZero.Nat
import RawImport.Api.Handle
import RawImport.Store.Listing

/-!
# Pages of the list of imports

`GET /api/v1/imports` with every page and limit an `int` can hold.  The offset
is a product of two `int`: where it wraps to a negative number the statement
fails, where it wraps further it points back into the list.
-/

namespace RawImport

namespace Api

open Cxx Effect Catalog Paging

variable {table : Catalog} {mariadb : Mariadb} {status camera : String}

theorem requestedOffset_eq_some {page limit : Int} {asked : Nat}
    (request : requestedOffset page limit = some asked) :
    Int.bmod ((page - 1) * limit) (2 ^ 32) = asked := by
  unfold requestedOffset at request
  simp only at request
  split at request
  · rename_i taken
    cases request
    exact (Int.toNat_of_nonneg taken.2).symm
  · cases request

theorem requestedOffset_of_small {page limit : Int} (first : 1 ≤ page)
    (positive : 1 ≤ limit) (small : (page - 1) * limit < 2 ^ 31) :
    requestedOffset page limit = some ((page - 1) * limit).toNat := by
  have nonneg : 0 ≤ (page - 1) * limit :=
    Int.mul_nonneg (by omega) (by omega)
  have same : Int.bmod ((page - 1) * limit) (2 ^ 32) =
      (page - 1) * limit := by
    generalize (page - 1) * limit = product at small nonneg
    rw [Int.bmod_def]
    omega
  unfold requestedOffset
  simp only [same]
  rw [if_pos ⟨by omega, nonneg⟩]

theorem requestedOffset_lt {page limit : Int} {asked : Nat}
    (request : requestedOffset page limit = some asked) :
    asked < 2 ^ 31 := by
  have wrapped := requestedOffset_eq_some request
  rw [Int.bmod_def] at wrapped
  omega

/-- The matching rows of a page, counted in the integers. -/
def rowsNumbered (table : Catalog) (mariadb : Mariadb)
    (status camera : String) (page limit : Int) : List ListedRow :=
  slice (table.matching mariadb status camera) ((page - 1) * limit).toNat
    limit.toNat

/-- Where the offset does not wrap, every row of the page fits the buffers.
Where it wraps to a negative number, the page lies behind the last row.  Where
it wraps past that, so does the page, and the offset points behind the last row
as well or at a row that ends the loop. -/
def Placed (table : Catalog) (mariadb : Mariadb) (status camera : String)
    (page limit : Int) : Prop :=
  let count := (table.matching mariadb status camera).length
  let offset := Int.bmod ((page - 1) * limit) (2 ^ 32)
  if (page - 1) * limit < 2 ^ 31 then
    ∀ row ∈ rowsNumbered table mariadb status camera page limit,
      table.fits row = true
  else if offset < 0 then count ≤ (page - 1) * limit
  else
    count ≤ (page - 1) * limit ∧
      ∀ row, (table.matching mariadb status camera)[offset.toNat]? = some row →
        table.fits row = false

theorem pageRows_eq_iff {page limit : Int} (first : 1 ≤ page)
    (positive : 1 ≤ limit) :
    table.pageRows mariadb page limit status camera =
        rowsNumbered table mariadb status camera page limit ↔
      Placed table mariadb status camera page limit := by
  have room : 0 < limit.toNat := by omega
  unfold pageRows rowsNumbered Placed
  simp only
  split
  · rename_i small
    rw [requestedOffset_of_small first positive small, shown_self_iff]
    rfl
  · rename_i large
    split
    · rename_i negative
      have refused : requestedOffset page limit = none := by
        unfold requestedOffset
        simp only
        rw [if_neg]
        omega
      rw [refused]
      change [] = _ ↔ _
      rw [eq_comm, slice_eq_nil_iff room]
      omega
    · rename_i nonneg
      have asked : requestedOffset page limit =
          some (Int.bmod ((page - 1) * limit) (2 ^ 32)).toNat := by
        unfold requestedOffset
        simp only
        rw [if_pos ⟨by omega, by omega⟩]
      have below := requestedOffset_lt asked
      rw [asked, shown_eq_slice_iff nodup_matching room (by omega)]
      apply and_congr_left'
      omega

/-- The rows of the first pages, one page after the other. -/
def gathered (table : Catalog) (mariadb : Mariadb) (status camera : String)
    (limit : Int) (count : Nat) : List ListedRow :=
  (List.range count).flatMap fun index : Nat =>
    table.pageRows mariadb ((index : Int) + 1) limit status camera

/-- The pages before the offset reaches `2 ^ 31`. -/
def straightPages (limit : Nat) : Nat :=
  (2 ^ 31 + limit - 1) / limit

theorem mul_lt_of_lt_straightPages {limit page : Nat} (positive : 0 < limit)
    (straight : page < straightPages limit) : page * limit < 2 ^ 31 := by
  have within := (Nat.le_div_iff_mul_le positive).mp
    (Nat.succ_le_of_lt straight)
  rw [Nat.succ_mul] at within
  omega

theorem straightPages_reach {limit : Nat} (positive : 0 < limit) :
    2 ^ 31 ≤ straightPages limit * limit := by
  have beyond := Nat.lt_mul_div_succ (2 ^ 31 + limit - 1) positive
  rw [Nat.mul_add, Nat.mul_one, Nat.mul_comm] at beyond
  unfold straightPages
  omega

theorem rowsNumbered_succ (index size : Nat) :
    rowsNumbered table mariadb status camera (index + 1) size =
      slice (table.matching mariadb status camera) (index * size) size := by
  unfold rowsNumbered
  congr 1
  rw [Int.add_sub_cancel]
  exact Int.toNat_natCast (index * size)

/-- Pages together are the list exactly if each of them is the right one and
they reach the last row. -/
theorem gathered_eq_iff {size count : Nat} (room : 0 < size) :
    gathered table mariadb status camera size count =
        table.matching mariadb status camera ↔
      (table.matching mariadb status camera).length ≤ count * size ∧
        ∀ index < count,
          Placed table mariadb status camera (index + 1 : Nat) size := by
  have positive : (1 : Int) ≤ size := by omega
  have straight : ∀ page < min count (straightPages size),
      requestedOffset ((page : Int) + 1) size = some (page * size) := by
    intro page below
    have small := mul_lt_of_lt_straightPages room
      (Nat.lt_of_lt_of_le below (Nat.min_le_right _ _))
    have offset : ((page : Int) + 1 - 1) * (size : Int) =
        (page * size : Nat) := by
      rw [Int.add_sub_cancel, Int.natCast_mul]
    rw [requestedOffset_of_small (by omega) positive (by rw [offset]; omega),
      offset, Int.toNat_natCast]
  have back : ∀ page < count, min count (straightPages size) ≤ page →
      ∀ asked, requestedOffset ((page : Int) + 1) size = some asked →
        asked < min count (straightPages size) * size := by
    intro page below beyond asked request
    have whole : min count (straightPages size) = straightPages size := by
      omega
    have reach := straightPages_reach room
    have wrapped := requestedOffset_lt request
    rw [whole]
    omega
  have pages :
      gathered table mariadb status camera size count =
          table.matching mariadb status camera ↔
        (table.matching mariadb status camera).length ≤ count * size ∧
          ∀ index < count,
            table.pageRows mariadb ((index : Int) + 1) size status camera =
              slice (table.matching mariadb status camera) (index * size)
                size :=
    flatMap_shown_iff nodup_matching room (Nat.min_le_left _ _) straight back
  rw [pages]
  apply and_congr_right'
  apply forall₂_congr
  intro index below
  rw [← rowsNumbered_succ, pageRows_eq_iff (by omega) positive]
  rfl

theorem gathered_int_iff {limit : Int} (positive : 1 ≤ limit) :
    gathered table mariadb status camera limit (2 ^ 31 - 1) =
        table.matching mariadb status camera ↔
      (table.matching mariadb status camera).length ≤
          (2 ^ 31 - 1) * limit ∧
        ∀ page, 1 ≤ page → page < 2 ^ 31 →
          Placed table mariadb status camera page limit := by
  obtain ⟨size, rfl⟩ :=
    Int.eq_ofNat_of_zero_le (Int.le_trans Int.one_nonneg positive)
  rw [gathered_eq_iff (by omega)]
  apply and_congr
  · omega
  · constructor
    · intro placed page first int
      have here := placed (page - 1).toNat (by omega)
      rwa [show (((page - 1).toNat + 1 : Nat) : Int) = page by omega] at here
    · intro placed index below
      exact placed _ (by omega) (by omega)

/-- Each page has the rows with its numbers, and all pages together have every
matching row once, exactly where no page is misplaced. -/
theorem listImports_pages_iff (table : Catalog) (mariadb : Mariadb)
    (status camera : String) {limit : Int} (positive : 1 ≤ limit) :
    (∀ page, 1 ≤ page →
      (Store.listImports (client mariadb) page limit status camera
          table).1 =
        table.records
          (table.pageRows mariadb page limit status camera) ∧
      (table.pageRows mariadb page limit status camera =
          rowsNumbered table mariadb status camera page limit ↔
        Placed table mariadb status camera page limit)) ∧
    (gathered table mariadb status camera limit (2 ^ 31 - 1) =
        table.matching mariadb status camera ↔
      (table.matching mariadb status camera).length ≤
          (2 ^ 31 - 1) * limit ∧
        ∀ page, 1 ≤ page → page < 2 ^ 31 →
          Placed table mariadb status camera page limit) := by
  constructor
  · intro page first
    refine ⟨?_, pageRows_eq_iff first positive⟩
    rw [listImports_eq]
  · exact gathered_int_iff positive

def threeImports : Catalog where
  imports :=
    [{ id := 1, sequenceId := 1, status := some .completed },
      { id := 2, sequenceId := 2, status := some .completed },
      { id := 3, sequenceId := 3, status := some .completed }]
  sequences := [⟨1, "IMG_1"⟩, ⟨2, "IMG_2"⟩, ⟨3, "IMG_3"⟩]
  distinct := by decide

theorem listImports_pages_three :
    threeImports.pageRows Mariadb.binary 2 2 "completed" "" =
        rowsNumbered threeImports Mariadb.binary "completed" "" 2 2 ∧
      (rowsNumbered threeImports Mariadb.binary "completed" "" 1 2).length =
        2 ∧
      (rowsNumbered threeImports Mariadb.binary "completed" "" 2 2).length =
        1 :=
  ⟨((listImports_pages_iff threeImports Mariadb.binary "completed" ""
    (show (1 : Int) ≤ 2 by decide)).1 2 (by decide)).2.mpr
    (by
      unfold Placed
      rw [if_pos (by decide)]
      decide +kernel), by decide +kernel, by decide +kernel⟩

def singleImport : Catalog where
  imports := [{ id := 1, sequenceId := 1, status := some .completed }]
  sequences := [⟨1, "IMG_1"⟩]
  distinct := by decide

/-- The product of page and limit is `2 ^ 32`, and the first page is there
again. -/
theorem listImports_page_wrapped :
    (Store.listImports (client Mariadb.binary) 1073741825 4 "" ""
        singleImport).1 ≠
      singleImport.records
        (rowsNumbered singleImport Mariadb.binary "" "" 1073741825 4) := by
  decide +kernel

theorem getStats_total :
    (Store.getStats (client mariadb) table).1.total =
      min (table.imports.length : Int) (2 ^ 63 - 1) :=
  strtoll_nat table.imports.length

/-- A reader fetches pages until the records are as many as the total, and then
has every matching row. -/
def StopsComplete (table : Catalog) (mariadb : Mariadb)
    (status camera : String) (limit : Int) (total : Int) : Prop :=
  ∃ count ≤ 2 ^ 31 - 1,
    total ≤ (gathered table mariadb status camera limit count).length ∧
    (∀ fewer < count,
      (gathered table mariadb status camera limit fewer).length < total) ∧
    gathered table mariadb status camera limit count =
      table.matching mariadb status camera

theorem sum_pages (limit : Int) (count : Nat) :
    ((List.range count).map fun index : Nat =>
        (Store.listImports (client mariadb) ((index : Int) + 1) limit status
          camera table).1.length).sum =
      (gathered table mariadb status camera limit count).length := by
  unfold gathered
  rw [List.length_flatMap]
  simp only [listImports_eq, length_records]

theorem gathered_prefix {limit : Int} {fewer count : Nat}
    (le : fewer ≤ count) :
    gathered table mariadb status camera limit fewer <+:
      gathered table mariadb status camera limit count := by
  unfold gathered
  rw [flatMap_range_split _ le]
  exact List.prefix_append _ _

theorem matching_length_eq_iff :
    (table.matching mariadb status camera).length = table.imports.length ↔
      ∀ row ∈ table.imports, selects mariadb status camera row = true := by
  unfold matching
  rw [List.length_insertionSort, List.length_filter_eq_length_iff]

/-- Where the pages are the list, a reader who waits for all of it stops. -/
theorem stopsComplete_of_gathered {limit : Int}
    (together : gathered table mariadb status camera limit (2 ^ 31 - 1) =
      table.matching mariadb status camera) :
    StopsComplete table mariadb status camera limit
      (table.matching mariadb status camera).length := by
  have reached : ∃ count, (table.matching mariadb status camera).length ≤
      (gathered table mariadb status camera limit count).length :=
    ⟨2 ^ 31 - 1, by rw [together]⟩
  have enough := Nat.find_spec reached
  have few : Nat.find reached ≤ 2 ^ 31 - 1 :=
    Nat.find_min' reached (by rw [together])
  refine ⟨Nat.find reached, few, by omega, ?_, ?_⟩
  · intro fewer below
    have short := Nat.find_min reached below
    omega
  · have front : gathered table mariadb status camera limit
          (Nat.find reached) <+:
        gathered table mariadb status camera limit (2 ^ 31 - 1) :=
      gathered_prefix few
    rw [together] at front
    exact front.eq_of_length_le enough

/-- The total is the number of records on all pages, and a reader who counts
on it stops with every matching row, exactly if every import matches and no
page is misplaced. -/
theorem listing_total_iff (table : Catalog) (mariadb : Mariadb)
    (status camera : String) {limit : Int} (positive : 1 ≤ limit)
    (int : limit < 2 ^ 31) :
    ((Store.getStats (client mariadb) table).1.total =
        ((List.range (2 ^ 31 - 1)).map fun index : Nat =>
          (Store.listImports (client mariadb) ((index : Int) + 1) limit
            status camera table).1.length).sum ∧
      StopsComplete table mariadb status camera limit
        (Store.getStats (client mariadb) table).1.total) ↔
      (∀ row ∈ table.imports,
        selects mariadb status camera row = true) ∧
      (table.imports.length : Int) ≤ (2 ^ 31 - 1) * limit ∧
      ∀ page, 1 ≤ page → page < 2 ^ 31 →
        Placed table mariadb status camera page limit := by
  rw [sum_pages, getStats_total, ← matching_length_eq_iff]
  constructor
  · intro complete
    obtain ⟨total, count, few, enough, -, all⟩ := complete
    have front : gathered table mariadb status camera limit count <+:
        gathered table mariadb status camera limit (2 ^ 31 - 1) :=
      gathered_prefix few
    have whole := front.eq_of_length_le (by omega)
    rw [whole] at all
    obtain ⟨reach, placed⟩ := (gathered_int_iff positive).mp all
    rw [all] at total
    have every : (table.matching mariadb status camera).length =
        table.imports.length := by
      omega
    rw [every] at reach
    exact ⟨every, reach, placed⟩
  · intro all
    obtain ⟨every, reach, placed⟩ := all
    have together := (gathered_int_iff positive).mpr
      ⟨by rw [every]; exact reach, placed⟩
    have total : min (table.imports.length : Int) (2 ^ 63 - 1) =
        (table.matching mariadb status camera).length := by
      omega
    rw [total, together]
    exact ⟨rfl, stopsComplete_of_gathered together⟩

theorem listing_total_three :
    (Store.getStats (client Mariadb.binary) threeImports).1.total =
      ((List.range (2 ^ 31 - 1)).map fun index : Nat =>
        (Store.listImports (client Mariadb.binary) ((index : Int) + 1) 1
          "completed" "" threeImports).1.length).sum :=
  ((listing_total_iff threeImports Mariadb.binary "completed" ""
    (show (1 : Int) ≤ 1 by decide) (by decide)).mpr
    ⟨by decide +kernel, by decide, by
      intro page first int
      unfold Placed
      rw [if_pos (by omega)]
      have fit : ∀ row ∈ threeImports.imports,
          threeImports.fits row = true := by
        decide +kernel
      intro row member
      exact fit row (mem_matching.mp (mem_of_mem_slice member)).1⟩).1

/-- No import has failed; the total still counts the one there is. -/
theorem listing_total_filtered :
    (Store.getStats (client Mariadb.binary) singleImport).1.total ≠
      ((List.range (2 ^ 31 - 1)).map fun index : Nat =>
        (Store.listImports (client Mariadb.binary) ((index : Int) + 1) 50
          "failed" "" singleImport).1.length).sum := by
  have none_matches :
      singleImport.matching Mariadb.binary "failed" "" = [] := by
    decide +kernel
  have empty :
      gathered singleImport Mariadb.binary "failed" "" 50 (2 ^ 31 - 1) =
        [] := by
    apply List.flatMap_eq_nil_iff.mpr
    intro index _
    apply List.eq_nil_iff_forall_not_mem.mpr
    intro row shown
    have matched := mem_of_mem_shown shown
    rw [none_matches] at matched
    cases matched
  rw [sum_pages, empty, getStats_total]
  decide

def listingBody (total page limit : Int) (rows : List ImportRecord) : Text :=
  "\x7b\"total\":".toList ++ (toString total).toList ++
    ",\"page\":".toList ++ (toString page).toList ++
    ",\"limit\":".toList ++ (toString limit).toList ++
    ",\"data\":[".toList ++
    [','].intercalate (rows.map recordToJson) ++ "]\x7d".toList

theorem ends_intParam {σ : Type} {q : Params} {key : String}
    {missing value : Int} {session : Session σ}
    {returned : Int → Session σ → Prop}
    {raised : StdException → Session σ → Prop}
    (read : (q.get key.toList).elim (.ok missing) stoi = .ok value) :
    Ends (intParam q key missing) session returned raised ↔
      returned value session := by
  unfold intParam
  cases found : q.get key.toList with
  | none =>
      rw [found] at read
      cases read
      exact Iff.rfl
  | some text =>
      rw [found] at read
      change Ends (check (stoi text)) session returned raised ↔ _
      rw [show stoi text = .ok value from read, ends_check_ok]

/-- The answer shows the total of the table and the records of the page. -/
theorem listing_answers (impl : Impl Catalog)
    (reads : impl.client = client mariadb) {q : Params}
    {session : Session Catalog} {page limit : Int}
    (pageRead : (q.get "page".toList).elim (.ok 1) stoi = .ok page)
    (limitRead : (q.get "limit".toList).elim (.ok 50) stoi = .ok limit)
    (first : 1 ≤ page) (positive : 1 ≤ limit) :
    Ends (listing impl q) session
      (fun _ final =>
        final.sent = session.sent ++
          [⟨200,
            listingBody
              (Store.getStats (client mariadb) session.world).1.total page
              limit
              (Store.listImports (client mariadb) page limit
                (String.ofList ((q.get "status".toList).getD []))
                (String.ofList ((q.get "camera".toList).getD []))
                session.world).1,
            "application/json".toList⟩])
      fun _ _ => False := by
  unfold listing
  rw [ends_bind, ends_intParam pageRead, ends_bind, ends_intParam limitRead]
  simp only [if_neg (Int.not_lt.mpr first), if_neg (Int.not_lt.mpr positive),
    ends_bind, callStore, ends_act, sendResponse, reads, listImports_eq]
  rfl

end Api

end RawImport
