import Mathlib
import SereinGateway.CacheStorage.Truncation

/-!
Queries of the audit log.

A query has filters and a page. The statement that is sent to the database has the
page only, so the answer is a page of the whole log; it is the page that was asked
for when the filters let everything pass up to the end of the page.
-/

namespace SereinGateway.CacheStorage

/-- A record of the log. Timestamps are instants: their texts are ordered like them,
and are read back as written. The metadata are left out. -/
structure FlightRecord where
  id : ℤ
  timestamp : ℤ
  eventType : EventType
  nodeName : String
  requestId : String
  payloadSummary : String
  rawPrompt : Option String
  rawResponse : Option String
  errorMessage : Option String
  durationMs : Option UInt64
  tokenCount : Option UInt32
  deriving DecidableEq

structure RecordQuery where
  eventType : Option EventType
  nodeName : Option String
  requestId : Option String
  since : Option ℤ
  «until» : Option ℤ
  limit : Option UInt32
  offset : Option UInt32

/-- The table `flight_records`, with its primary key. -/
structure FlightRecords where
  rows : List FlightRecord
  key : (rows.map FlightRecord.id).Nodup

/-- The rows in the order of `ORDER BY timestamp DESC`. Which of two rows with one
timestamp comes first is up to the database. -/
structure DescendingScan (table : FlightRecords) where
  rows : List FlightRecord
  perm : rows.Perm table.rows
  sorted : rows.Pairwise fun r r' => r'.timestamp ≤ r.timestamp

/-- `LIMIT`, `OFFSET` -/
def page (limit offset : ℕ) (rows : List FlightRecord) : List FlightRecord :=
  (rows.drop offset).take limit

def RecordQuery.pageLimit (q : RecordQuery) : ℕ := (q.limit.getD 100).toNat

def RecordQuery.pageOffset (q : RecordQuery) : ℕ := (q.offset.getD 0).toNat

def query {table : FlightRecords} (scan : DescendingScan table) (q : RecordQuery) :
    List FlightRecord :=
  page q.pageLimit q.pageOffset scan.rows

/-! ### What was asked for -/

/-- The record passes the filters. -/
def RecordQuery.admits (q : RecordQuery) (r : FlightRecord) : Bool :=
  q.eventType.all (· = r.eventType) && q.nodeName.all (· = r.nodeName) &&
    q.requestId.all (· = r.requestId) && q.since.all (· ≤ r.timestamp) &&
    q.«until».all (r.timestamp ≤ ·)

/-- The page of the records that pass. -/
def filteredAnswer {table : FlightRecords} (scan : DescendingScan table) (q : RecordQuery) :
    List FlightRecord :=
  page q.pageLimit q.pageOffset (scan.rows.filter q.admits)

section Pages

variable {rows : List FlightRecord} {admits : FlightRecord → Bool} {limit offset k : ℕ}
  {r : FlightRecord}

theorem getElem?_page : (page limit offset rows)[k]? =
    if k < limit then rows[offset + k]? else none := by
  rw [page, List.getElem?_take]
  split
  · rw [List.getElem?_drop]
  · rfl

/-- Behind a row that is filtered out no row keeps its place. -/
theorem getElem?_filter_ne (hnodup : rows.Nodup) {i : ℕ} (hik : i ≤ k) (hr : rows[k]? = some r)
    {dropped : FlightRecord} (hdropped : rows[i]? = some dropped)
    (hfails : admits dropped = false) : (rows.filter admits)[k]? ≠ some r := by
  obtain ⟨hk, rfl⟩ := List.getElem?_eq_some_iff.mp hr
  have hcut : rows.filter admits =
      (rows.take k).filter admits ++ (rows[k] :: rows.drop (k + 1)).filter admits := by
    rw [← List.filter_append, List.getElem_cons_drop, List.take_append_drop]
  have hrest : rows[k] ∉ rows.drop (k + 1) := by
    have hsuffix : (rows[k] :: rows.drop (k + 1)).Nodup := by
      rw [List.getElem_cons_drop]
      exact hnodup.sublist (List.drop_sublist k rows)
    exact (List.nodup_cons.mp hsuffix).1
  have hrest' : rows[k] ∉ (rows.drop (k + 1)).filter admits := fun h =>
    hrest (List.mem_of_mem_filter h)
  intro hget
  rw [hcut] at hget
  rcases Nat.lt_or_eq_of_le hik with hlt | rfl
  · -- The part in front has lost a row.
    have hshort : ((rows.take k).filter admits).length < k := by
      have hmem : dropped ∈ rows.take k := by
        refine List.mem_of_getElem? (i := i) ?_
        rw [List.getElem?_take_of_lt hlt, hdropped]
      have hlength : (rows.take k).length ≤ k := List.length_take_le ..
      refine lt_of_lt_of_le ?_ hlength
      exact List.length_filter_lt_length_iff_exists.mpr ⟨dropped, hmem, by simp [hfails]⟩
    rw [List.getElem?_append_right hshort.le] at hget
    obtain ⟨j, hj⟩ : ∃ j, k - ((rows.take k).filter admits).length = j + 1 :=
      ⟨_, (Nat.succ_pred (by omega)).symm⟩
    rw [hj, List.filter_cons] at hget
    split at hget
    · rw [List.getElem?_cons_succ] at hget
      exact hrest' (List.mem_of_getElem? hget)
    · exact hrest' (List.mem_of_getElem? hget)
  · obtain rfl := Option.some.inj (hr.symm.trans hdropped)
    have hmem := List.mem_of_getElem? hget
    rw [← hcut] at hmem
    rw [(List.mem_filter.mp hmem).2] at hfails
    cases hfails

/-- A page of the rows is the page of those that pass, exactly if it is empty or all
rows up to its end pass. -/
theorem page_filter_iff (hnodup : rows.Nodup) :
    page limit offset rows = page limit offset (rows.filter admits) ↔
      limit = 0 ∨ rows.length ≤ offset ∨ ∀ r ∈ rows.take (offset + limit), admits r = true := by
  constructor
  · intro hpage
    by_contra hnot
    simp only [not_or, not_forall, Nat.not_le] at hnot
    obtain ⟨hlimit, hoffset, dropped, hmem, hfails⟩ := hnot
    rw [Bool.not_eq_true] at hfails
    obtain ⟨i, hi⟩ := List.mem_iff_getElem?.mp hmem
    have hilt : i < offset + limit := by
      by_contra hge
      rw [List.getElem?_eq_none] at hi
      · cases hi
      · exact (List.length_take_le ..).trans (Nat.not_lt.mp hge)
    rw [List.getElem?_take_of_lt hilt] at hi
    obtain ⟨hilength, -⟩ := List.getElem?_eq_some_iff.mp hi
    -- The first row of the page that is not before the one filtered out.
    obtain ⟨k, hk⟩ : ∃ k, offset + k = max i offset := ⟨max i offset - offset, by omega⟩
    have hklength : offset + k < rows.length := by omega
    have hget := congrArg (·[k]?) hpage
    simp only [getElem?_page, show k < limit by omega, if_true] at hget
    refine getElem?_filter_ne hnodup (i := i) (k := offset + k) (by omega)
      (List.getElem?_eq_getElem hklength) hi hfails ?_
    rw [← hget, List.getElem?_eq_getElem hklength]
  · rintro (rfl | hoffset | hall)
    · simp [page]
    · have hlength : (rows.filter admits).length ≤ offset :=
        (List.length_filter_le ..).trans hoffset
      rw [page, page, List.drop_eq_nil_of_le hoffset, List.drop_eq_nil_of_le hlength]
    · have htake : (rows.filter admits).take (offset + limit) = rows.take (offset + limit) := by
        have hcut : rows.filter admits =
            rows.take (offset + limit) ++ (rows.drop (offset + limit)).filter admits := by
          conv_lhs => rw [← List.take_append_drop (offset + limit) rows, List.filter_append]
          rw [List.filter_eq_self.mpr hall]
        rcases Nat.le_total (offset + limit) rows.length with hle | hge
        · rw [hcut]
          exact List.take_left' (List.length_take_of_le hle)
        · rw [hcut, List.drop_eq_nil_of_le hge, List.filter_nil, List.append_nil, List.take_take,
            Nat.min_self]
      rw [page, page, List.take_drop, List.take_drop, htake]

end Pages

/-- The answer is the page that was asked for exactly if it is empty, or begins behind
the last row, or the filters let pass all rows up to its end. -/
theorem query_answers_iff {table : FlightRecords} (scan : DescendingScan table)
    (q : RecordQuery) :
    query scan q = filteredAnswer scan q ↔ q.pageLimit = 0 ∨
      table.rows.length ≤ q.pageOffset ∨
        ∀ r ∈ scan.rows.take (q.pageOffset + q.pageLimit), q.admits r = true := by
  have hnodup : scan.rows.Nodup := scan.perm.nodup_iff.mpr (table.key.of_map _)
  rw [query, filteredAnswer, page_filter_iff hnodup, scan.perm.length_eq]

/-- A log with one record, asked for another request. -/
theorem filter_ignored :
    ¬∀ (table : FlightRecords) (scan : DescendingScan table) (q : RecordQuery),
      query scan q = filteredAnswer scan q := by
  intro hall
  let record : FlightRecord := ⟨1, 1700000000, .cacheHit, "gateway", "req-1", "", none, none, none,
    none, none⟩
  have heq := hall ⟨[record], List.nodup_singleton _⟩
    ⟨[record], .refl _, List.pairwise_singleton _ _⟩
    ⟨none, none, some "req-2", none, none, none, none⟩
  exact absurd heq (by decide)

end SereinGateway.CacheStorage
