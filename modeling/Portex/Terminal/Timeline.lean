import Portex.Foundation.Newest
import Portex.Foundation.Paging
import Portex.Terminal.Operations
import Portex.Memory.Service
import Portex.Scheduler.State
import Mathlib.Data.List.Sort
import Mathlib.Data.Prod.Lex

/-!
# The history timeline of a workspace

The snapshots of a workspace come from its session in memory, from its `latest.json` and from the
archive in its directory `snapshots`. They are merged by their session ids, sorted, filtered and
given out page by page.

## Main definitions

* `TerminalHistoryDisk`: the files below `history_persist_root`
* `listMergedHistorySnapshotsByGroup`: the timeline
* `filterHistorySnapshots`: what a client asks for
* `HistoryFilter.Asks`: the snapshots that it asks for
* `listHistoryTimelineByGroup`, `listHistorySnapshotPageByGroup`: the pages
* `IsTimeline`: one snapshot for each session, the newest of all sources, in descending order
* `PagesRead`: a client that reads page after page reads the filtered timeline

## Main results

* `isTimeline_sorted`: the sources are merged into a timeline
* `filterHistorySnapshots_eq_ok`: what a filter leaves
* `timeline_read`: the timeline and its pages
-/

namespace Portex

open Foundation

inductive HistoryError
  /-- The `ValueError` of `resolve` on a null byte. -/
  | nullByte
  | value (detail : String)
  /-- The `OverflowError` of `astimezone`. -/
  | overflow
  /-- The `TypeError` of a value that has no hash. -/
  | type
  | session (error : TerminalSessionError)
  deriving DecidableEq

/-- The files of the service, by their resolved paths. -/
structure TerminalHistoryDisk where
  historyPersistRoot : Directory
  /-- `_load_persisted_history_snapshot_from_path`. -/
  load : Directory → Except HistoryError (Option TerminalSessionHistorySnapshot)
  /-- `iterdir` with `is_file`; `none` where there is no directory or it cannot be read. -/
  entries : Directory → Option (List (Name × Bool))

namespace TerminalHistoryDisk

variable (disk : TerminalHistoryDisk)

/-- A name in the directory of a workspace. -/
def historyPath (groupFolder : String) (name : Name) : Except HistoryError Directory :=
  if '\x00' ∈ groupFolder.toList then .error .nullByte
  else
    let candidate := ((disk.historyPersistRoot.toPath.join (.parse groupFolder)).join
      { absolute := false, names := [name] }).resolve
    if validatePath candidate [disk.historyPersistRoot] then .ok candidate
    else .error (.value "invalid terminal history root")

def historySnapshotPath (groupFolder : String) : Except HistoryError Directory :=
  disk.historyPath groupFolder "latest.json".toList

def historyArchiveSnapshotsRoot (groupFolder : String) : Except HistoryError Directory :=
  disk.historyPath groupFolder "snapshots".toList

def loadPersistedHistorySnapshot (groupFolder : String) :
    Except HistoryError (Option TerminalSessionHistorySnapshot) :=
  (disk.historySnapshotPath groupFolder).bind disk.load

/-- The files of `sorted(snapshots_root.iterdir())` that are snapshots by their names. -/
def snapshotNames (entries : List (Name × Bool)) : List Name :=
  ((entries.filter fun entry => entry.2 && suffix entry.1 == ".json".toList).map
    Prod.fst).insertionSort (· ≤ ·)

/-- The loop over the files of an archive. -/
def loadArchive (groupFolder : String) (snapshotsRoot : Directory) :
    List Name → Except HistoryError (List TerminalSessionHistorySnapshot)
  | [] => .ok []
  | name :: names => do
    let loaded ← disk.load (snapshotsRoot.enter name)
    let snapshots ← loadArchive groupFolder snapshotsRoot names
    return (loaded.filter fun snapshot =>
      snapshot.record.groupFolder = groupFolder).toList ++ snapshots

def listPersistedHistoryArchivedSnapshots (groupFolder : String) :
    Except HistoryError (List TerminalSessionHistorySnapshot) := do
  let snapshotsRoot ← disk.historyArchiveSnapshotsRoot groupFolder
  match disk.entries snapshotsRoot with
  | none => return []
  | some entries => disk.loadArchive groupFolder snapshotsRoot (snapshotNames entries)

def loadHistoryTimelineFromPersistence (groupFolder : String) : Except HistoryError
    (Option TerminalSessionHistorySnapshot × List TerminalSessionHistorySnapshot) := do
  let latest ← disk.loadPersistedHistorySnapshot groupFolder
  let archived ← disk.listPersistedHistoryArchivedSnapshots groupFolder
  return (latest, archived)

end TerminalHistoryDisk

namespace TerminalSessionHistorySnapshot

def sessionId (snapshot : TerminalSessionHistorySnapshot) : String := snapshot.record.sessionId

/-- The sort key `(snapshot_at, session_id)`. -/
def order (snapshot : TerminalSessionHistorySnapshot) : ℕ ×ₗ List Char :=
  toLex (snapshot.snapshotAt, snapshot.sessionId.toList)

/-- What `snapshots.sort(…, reverse=True)` leaves in front. -/
def precedes (snapshot snapshot' : TerminalSessionHistorySnapshot) : Prop :=
  snapshot'.order ≤ snapshot.order

instance : DecidableRel precedes := fun snapshot snapshot' =>
  inferInstanceAs (Decidable (snapshot'.order ≤ snapshot.order))

end TerminalSessionHistorySnapshot

open TerminalSessionHistorySnapshot

def dedupeTimelineSnapshots (inMemory latest : Option TerminalSessionHistorySnapshot)
    (archived : List TerminalSessionHistorySnapshot) : List TerminalSessionHistorySnapshot :=
  newestValues sessionId snapshotAt (inMemory.toList ++ (latest.toList ++ archived))

/-! ## Filters -/

/-- The filters of a request. -/
structure HistoryFilter where
  status : Option TerminalSessionStatus := none
  ownerUserId : Option String := none
  sessionIdPrefix : Option String := none
  snapshotFrom : Option Datetime := none
  snapshotTo : Option Datetime := none

/-- `_normalize_snapshot_bound`. -/
def normalizeSnapshotBound : Option Datetime → Except HistoryError (Option ℕ)
  | none => .ok none
  | some value =>
    if 0 ≤ value.instant ∧ value.instant ≤ maxTicks then .ok (some value.instant.toNat)
    else .error .overflow

/-- A text of a filter, stripped; a blank one is as good as none. -/
def normalizeFilterText (value : Option String) : Option (List Char) :=
  (value.map fun text => strip text.toList).filter (· ≠ [])

/-- The five checks of the loop of `_filter_history_snapshots`. -/
def HistoryFilter.matches (filter : HistoryFilter) (snapshotFrom snapshotTo : Option ℕ)
    (snapshot : TerminalSessionHistorySnapshot) : Bool :=
  filter.status.all (· == snapshot.record.status) &&
    (normalizeFilterText filter.ownerUserId).all (· == snapshot.record.ownerUserId.toList) &&
      (normalizeFilterText filter.sessionIdPrefix).all
        (fun start => start.isPrefixOf snapshot.record.sessionId.toList) &&
          snapshotFrom.all (· ≤ snapshot.snapshotAt) && snapshotTo.all (snapshot.snapshotAt ≤ ·)

def filterHistorySnapshots (snapshots : List TerminalSessionHistorySnapshot)
    (filter : HistoryFilter) : Except HistoryError (List TerminalSessionHistorySnapshot) := do
  let snapshotFrom ← normalizeSnapshotBound filter.snapshotFrom
  let snapshotTo ← normalizeSnapshotBound filter.snapshotTo
  if ∃ start ∈ snapshotFrom, ∃ stop ∈ snapshotTo, stop < start then
    .error (.value "snapshot_from must be less than or equal to snapshot_to")
  else .ok (snapshots.filter (filter.matches snapshotFrom snapshotTo))

/-! ## What a filter asks for -/

/-- A snapshot has the status, is of the owner, its session id begins as asked for, and it was taken
at the bounds or between them. Blank texts ask for nothing. -/
def HistoryFilter.Asks (filter : HistoryFilter) (snapshot : TerminalSessionHistorySnapshot) :
    Prop :=
  (∀ status ∈ filter.status, snapshot.record.status = status) ∧
    (∀ owner ∈ filter.ownerUserId, strip owner.toList ≠ [] →
      snapshot.record.ownerUserId.toList = strip owner.toList) ∧
    (∀ start ∈ filter.sessionIdPrefix,
      strip start.toList <+: snapshot.record.sessionId.toList) ∧
    (∀ start ∈ filter.snapshotFrom, start.instant ≤ snapshot.snapshotAt) ∧
    ∀ stop ∈ filter.snapshotTo, (snapshot.snapshotAt : ℤ) ≤ stop.instant

instance (filter : HistoryFilter) : DecidablePred filter.Asks := fun snapshot => by
  unfold HistoryFilter.Asks
  infer_instance

/-- The bounds are times of UTC, the first no later than the second. -/
structure HistoryFilter.Bounded (filter : HistoryFilter) : Prop where
  start : ∀ start ∈ filter.snapshotFrom, 0 ≤ start.instant ∧ start.instant ≤ maxTicks
  stop : ∀ stop ∈ filter.snapshotTo, 0 ≤ stop.instant ∧ stop.instant ≤ maxTicks
  ordered : ∀ start ∈ filter.snapshotFrom, ∀ stop ∈ filter.snapshotTo,
    start.instant ≤ stop.instant

section Filters

variable {filter : HistoryFilter} {snapshot : TerminalSessionHistorySnapshot}
  {snapshots filtered : List TerminalSessionHistorySnapshot} {value : Option Datetime}
  {bound : Option ℕ}

theorem normalizeSnapshotBound_eq_ok :
    normalizeSnapshotBound value = .ok bound ↔
      (∀ v ∈ value, 0 ≤ v.instant ∧ v.instant ≤ maxTicks) ∧
        bound = value.map fun v => v.instant.toNat := by
  cases value with
  | none => simp [normalizeSnapshotBound, eq_comm]
  | some value =>
    simp only [normalizeSnapshotBound, Option.mem_some_iff, forall_eq', Option.map_some]
    split
    · rename_i hrange
      simp [hrange, eq_comm]
    · rename_i hrange
      simp [hrange]

/-- A text is compared without the blanks around it, unless it is blank. -/
theorem all_normalizeFilterText {text : Option String} {p : List Char → Bool} :
    (normalizeFilterText text).all p = true ↔
      ∀ t ∈ text, strip t.toList ≠ [] → p (strip t.toList) = true := by
  cases text with
  | none => simp [normalizeFilterText]
  | some text => by_cases hblank : strip text.toList = [] <;> simp [normalizeFilterText, hblank]

/-- **The checks** of the loop are what is asked for, where the last bound is a time of UTC. -/
theorem HistoryFilter.matches_iff (hstop : ∀ stop ∈ filter.snapshotTo, 0 ≤ stop.instant) :
    filter.matches (filter.snapshotFrom.map fun v => v.instant.toNat)
        (filter.snapshotTo.map fun v => v.instant.toNat) snapshot = true ↔
      filter.Asks snapshot := by
  have hstatus : filter.status.all (· == snapshot.record.status) = true ↔
      ∀ status ∈ filter.status, snapshot.record.status = status := by
    cases filter.status with
    | none => simp
    | some status =>
      simp only [Option.all_some, beq_iff_eq, Option.mem_some_iff, forall_eq']
      exact eq_comm
  have howner : (normalizeFilterText filter.ownerUserId).all
        (· == snapshot.record.ownerUserId.toList) = true ↔
      ∀ owner ∈ filter.ownerUserId, strip owner.toList ≠ [] →
        snapshot.record.ownerUserId.toList = strip owner.toList := by
    simp only [all_normalizeFilterText, beq_iff_eq]
    exact forall₃_congr fun _ _ _ => eq_comm
  have hsession : (normalizeFilterText filter.sessionIdPrefix).all
        (fun start => start.isPrefixOf snapshot.record.sessionId.toList) = true ↔
      ∀ start ∈ filter.sessionIdPrefix,
        strip start.toList <+: snapshot.record.sessionId.toList := by
    rw [all_normalizeFilterText]
    refine forall₂_congr fun start _ => ?_
    rw [List.isPrefixOf_iff_prefix]
    -- Every id begins with the empty text.
    refine ⟨fun h => ?_, fun h _ => h⟩
    by_cases hblank : strip start.toList = []
    · rw [hblank]
      exact List.nil_prefix
    · exact h hblank
  have hfrom : (filter.snapshotFrom.map fun v => v.instant.toNat).all
        (· ≤ snapshot.snapshotAt) = true ↔
      ∀ start ∈ filter.snapshotFrom, start.instant ≤ snapshot.snapshotAt := by
    cases filter.snapshotFrom <;> simp
  have hto : (filter.snapshotTo.map fun v => v.instant.toNat).all
        (snapshot.snapshotAt ≤ ·) = true ↔
      ∀ stop ∈ filter.snapshotTo, (snapshot.snapshotAt : ℤ) ≤ stop.instant := by
    cases hcases : filter.snapshotTo with
    | none => simp
    | some stop => simp [Int.le_toNat (hstop stop hcases)]
  simp only [HistoryFilter.matches, Bool.and_eq_true, hstatus, howner, hsession, hfrom, hto,
    and_assoc, HistoryFilter.Asks]

/-- **What a filter leaves** are the snapshots that it asks for, in their order. It refuses bounds
in the wrong order, and times that are not of UTC. -/
theorem filterHistorySnapshots_eq_ok :
    filterHistorySnapshots snapshots filter = .ok filtered ↔
      filter.Bounded ∧ filtered = snapshots.filter (filter.Asks ·) := by
  have hmatches (hstop : ∀ stop ∈ filter.snapshotTo, 0 ≤ stop.instant) :
      snapshots.filter (filter.matches (filter.snapshotFrom.map fun v => v.instant.toNat)
        (filter.snapshotTo.map fun v => v.instant.toNat)) = snapshots.filter (filter.Asks ·) := by
    refine List.filter_congr fun snapshot _ => ?_
    rw [Bool.eq_iff_iff, HistoryFilter.matches_iff hstop, decide_eq_true_iff]
  unfold filterHistorySnapshots
  constructor
  · intro h
    cases hfrom : normalizeSnapshotBound filter.snapshotFrom with
    | error error =>
      rw [hfrom] at h
      cases h
    | ok snapshotFrom =>
      cases hto : normalizeSnapshotBound filter.snapshotTo with
      | error error =>
        rw [hfrom, hto] at h
        cases h
      | ok snapshotTo =>
        obtain ⟨hstart, rfl⟩ := normalizeSnapshotBound_eq_ok.mp hfrom
        obtain ⟨hstop, rfl⟩ := normalizeSnapshotBound_eq_ok.mp hto
        rw [hfrom, hto] at h
        simp only [bind, Except.bind] at h
        split at h
        · cases h
        · -- The bounds are instants of UTC, and are compared as such.
          rename_i hordered
          obtain rfl := Except.ok.inj h
          refine ⟨⟨hstart, hstop, fun start hmem stop hmem' => ?_⟩,
            hmatches fun stop hmem => (hstop stop hmem).1⟩
          by_contra hlt
          refine hordered ⟨_, Option.mem_map_of_mem _ hmem, _, Option.mem_map_of_mem _ hmem', ?_⟩
          have := (hstop stop hmem').1
          omega
  · rintro ⟨hbounded, rfl⟩
    have hordered : ¬ ∃ start ∈ filter.snapshotFrom.map fun v => v.instant.toNat,
        ∃ stop ∈ filter.snapshotTo.map fun v => v.instant.toNat, stop < start := by
      rintro ⟨start, hstart, stop, hstop, hlt⟩
      obtain ⟨v, hv, rfl⟩ := Option.mem_map.mp hstart
      obtain ⟨v', hv', rfl⟩ := Option.mem_map.mp hstop
      have := hbounded.ordered v hv v' hv'
      omega
    rw [normalizeSnapshotBound_eq_ok.mpr ⟨hbounded.start, rfl⟩,
      normalizeSnapshotBound_eq_ok.mpr ⟨hbounded.stop, rfl⟩]
    simp only [bind, Except.bind, if_neg hordered,
      hmatches fun stop hmem => (hbounded.stop stop hmem).1]

/-- A filter keeps some of the snapshots, in their order. -/
theorem filterHistorySnapshots_sublist
    (h : filterHistorySnapshots snapshots filter = .ok filtered) : filtered.Sublist snapshots := by
  rw [(filterHistorySnapshots_eq_ok.mp h).2]
  exact List.filter_sublist

end Filters

/-! ## Pages -/

structure TerminalSessionHistorySummary where
  record : TerminalSessionRecord
  snapshotAt : ℕ
  outputBytes : ℕ
  historyMaxBytes : ℕ
  truncated : Bool
  deriving DecidableEq

/-- `_to_history_summary`. -/
def toHistorySummary (snapshot : TerminalSessionHistorySnapshot) :
    TerminalSessionHistorySummary where
  record := snapshot.record
  snapshotAt := snapshot.snapshotAt
  outputBytes := snapshot.outputBytes
  historyMaxBytes := snapshot.historyMaxBytes
  truncated := snapshot.truncated

structure TerminalSessionHistoryTimelinePage where
  limit : ℤ
  offset : ℤ
  hasMore : Bool
  items : List TerminalSessionHistorySummary
  deriving DecidableEq

structure TerminalSessionHistorySnapshotPage where
  limit : ℤ
  offset : ℤ
  total : ℕ
  hasMore : Bool
  items : List TerminalSessionHistorySnapshot
  deriving DecidableEq

namespace TerminalSessionService

variable (s : TerminalSessionService) (disk : TerminalHistoryDisk)

/-- The snapshot of the session that a workspace has in memory. -/
def inMemorySnapshot (groupFolder : String) : Option TerminalSessionHistorySnapshot :=
  (s.sessionOfGroup groupFolder).map fun entry => s.buildHistorySnapshot entry.2

def listMergedHistorySnapshotsByGroup (groupFolder : String) :
    Except HistoryError (List TerminalSessionHistorySnapshot) := do
  let (latest, archived) ← disk.loadHistoryTimelineFromPersistence groupFolder
  let snapshots := dedupeTimelineSnapshots (s.inMemorySnapshot groupFolder) latest archived
  if snapshots = [] then .error (.session .notFound)
  else .ok (snapshots.insertionSort precedes)

/-- What both listings do before they take a page. -/
def filteredTimeline (groupFolder : String) (limit offset : ℤ) (filter : HistoryFilter) :
    Except HistoryError (List TerminalSessionHistorySnapshot) := do
  if limit ≤ 0 then .error (.value "limit must be positive")
  else if offset < 0 then .error (.value "offset must be non-negative")
  else
    let snapshots ← s.listMergedHistorySnapshotsByGroup disk groupFolder
    let filtered ← filterHistorySnapshots snapshots filter
    if filtered = [] then .error (.session .notFound) else .ok filtered

def listHistoryTimelineByGroup (groupFolder : String) (limit offset : ℤ)
    (filter : HistoryFilter) : Except HistoryError TerminalSessionHistoryTimelinePage :=
  (s.filteredTimeline disk groupFolder limit offset filter).map fun filtered =>
    let page := pageAt (filtered.map toHistorySummary) limit offset
    { limit, offset, hasMore := page.hasMore, items := page.items }

def listHistorySnapshotPageByGroup (groupFolder : String) (limit offset : ℤ)
    (filter : HistoryFilter) : Except HistoryError TerminalSessionHistorySnapshotPage :=
  (s.filteredTimeline disk groupFolder limit offset filter).map fun filtered =>
    let page := pageAt filtered limit offset
    { limit, offset, total := filtered.length, hasMore := page.hasMore, items := page.items }

end TerminalSessionService

/-! ## Timelines -/

/-- One snapshot for each session that occurs in a source: the one with the greatest
`snapshot_at`, of the earliest such source; and the newest ones first. -/
structure IsTimeline (sources timeline : List TerminalSessionHistorySnapshot) : Prop where
  sessions : ∀ source ∈ sources, ∃! snapshot, snapshot ∈ timeline ∧
    snapshot.sessionId = source.sessionId
  newest : ∀ snapshot ∈ timeline, IsNewest sessionId snapshotAt sources snapshot
  descending : timeline.Pairwise fun snapshot snapshot' => snapshot'.order < snapshot.order

theorem isTimeline_sorted (sources : List TerminalSessionHistorySnapshot) :
    IsTimeline sources ((newestValues sessionId snapshotAt sources).insertionSort precedes) := by
  have hmem : ∀ snapshot, snapshot ∈ (newestValues sessionId snapshotAt sources).insertionSort
      precedes ↔ IsNewest sessionId snapshotAt sources snapshot := fun snapshot => by
    rw [List.mem_insertionSort, mem_newestValues]
  refine ⟨fun source hsource => ?_, fun snapshot => (hmem snapshot).mp, ?_⟩
  · -- Its session has a newest snapshot, and no two snapshots of a session are that.
    obtain ⟨snapshot, hnewest, hid⟩ := exists_isNewest sessionId snapshotAt hsource
    refine ⟨snapshot, ⟨(hmem snapshot).mpr hnewest, hid⟩, fun snapshot' hsnapshot' => ?_⟩
    exact ((hmem snapshot').mp hsnapshot'.1).unique hnewest (hsnapshot'.2.trans hid.symm)
  · have hsorted : ((newestValues sessionId snapshotAt sources).insertionSort precedes).Pairwise
        precedes := by
      have : Std.Total precedes := ⟨fun snapshot snapshot' => le_total _ _⟩
      have : IsTrans _ precedes := ⟨fun _ _ _ h h' => le_trans h' h⟩
      exact List.pairwise_insertionSort _ _
    -- Different sessions have different keys, so that no two keys are equal.
    have hnodup : (((newestValues sessionId snapshotAt sources).insertionSort precedes).map
        sessionId).Nodup :=
      ((List.perm_insertionSort _ _).map sessionId).nodup_iff.mpr nodup_newestValues
    refine (hsorted.and (List.pairwise_map.mp hnodup)).imp fun ⟨hle, hne⟩ => ?_
    refine lt_of_le_of_ne hle fun heq => hne ?_
    exact String.toList_inj.mp (congrArg (fun key => (ofLex key).2) heq).symm

/-! ## Pages of a timeline -/

def TerminalSessionHistoryTimelinePage.page (page : TerminalSessionHistoryTimelinePage) :
    Page TerminalSessionHistorySummary := ⟨page.items, page.hasMore⟩

def TerminalSessionHistorySnapshotPage.page (page : TerminalSessionHistorySnapshotPage) :
    Page TerminalSessionHistorySnapshot := ⟨page.items, page.hasMore⟩

/-- A client comes to the end of the pages, and has then read the filtered timeline, in which no
session occurs twice. -/
structure PagesRead (s : TerminalSessionService) (disk : TerminalHistoryDisk) (groupFolder : String)
    (limit : ℤ) (filter : HistoryFilter) (filtered : List TerminalSessionHistorySnapshot) :
    Prop where
  nodup : (filtered.map sessionId).Nodup
  summariesEnd : ∃ pages, ReadsFrom (fun offset => (s.listHistoryTimelineByGroup disk groupFolder
    limit offset filter).map TerminalSessionHistoryTimelinePage.page) limit 0 pages
  summaries : ∀ pages, ReadsFrom (fun offset => (s.listHistoryTimelineByGroup disk groupFolder
    limit offset filter).map TerminalSessionHistoryTimelinePage.page) limit 0 pages →
      pages.flatten = filtered.map toHistorySummary
  snapshotsEnd : ∃ pages, ReadsFrom (fun offset => (s.listHistorySnapshotPageByGroup disk
    groupFolder limit offset filter).map TerminalSessionHistorySnapshotPage.page) limit 0 pages
  snapshots : ∀ pages, ReadsFrom (fun offset => (s.listHistorySnapshotPageByGroup disk groupFolder
    limit offset filter).map TerminalSessionHistorySnapshotPage.page) limit 0 pages →
      pages.flatten = filtered

variable {s : TerminalSessionService} {disk : TerminalHistoryDisk} {groupFolder : String}
  {limit offset : ℤ} {filter : HistoryFilter}
  {latest : Option TerminalSessionHistorySnapshot}
  {archived sources timeline filtered : List TerminalSessionHistorySnapshot}

/-- The sessions of a timeline are different. -/
theorem IsTimeline.nodup (h : IsTimeline sources timeline) : (timeline.map sessionId).Nodup := by
  rw [List.Nodup, List.pairwise_map]
  apply h.descending.imp_of_mem
  intro snapshot snapshot' hmem hmem' hlt heq
  -- Two snapshots of one session would be the same one, and then not descending.
  have hsame : snapshot = snapshot' := (h.newest _ hmem).unique (h.newest _ hmem') heq
  rw [hsame] at hlt
  exact lt_irrefl _ hlt

theorem filteredTimeline_eq_ok
    (htimeline : s.listMergedHistorySnapshotsByGroup disk groupFolder = .ok timeline)
    (hfilter : filterHistorySnapshots timeline filter = .ok filtered) (hne : filtered ≠ [])
    (hlimit : 0 < limit) (hoffset : 0 ≤ offset) :
    s.filteredTimeline disk groupFolder limit offset filter = .ok filtered := by
  unfold TerminalSessionService.filteredTimeline
  rw [if_neg (not_le.mpr hlimit), if_neg (not_lt.mpr hoffset), htimeline]
  simp only [bind, Except.bind, hfilter, if_neg hne]

/-- **The pages of a timeline** are read from the first to the last. -/
theorem IsTimeline.pagesRead (h : IsTimeline sources timeline)
    (htimeline : s.listMergedHistorySnapshotsByGroup disk groupFolder = .ok timeline)
    (hfilter : filterHistorySnapshots timeline filter = .ok filtered) (hne : filtered ≠ [])
    (hlimit : 0 < limit) : PagesRead s disk groupFolder limit filter filtered := by
  have hnodup : (filtered.map sessionId).Nodup :=
    h.nodup.sublist ((filterHistorySnapshots_sublist hfilter).map sessionId)
  -- Neither listing depends on the offset otherwise than by the page it takes.
  have hsummaries := readsFrom_zero_iff (fun offset => (s.listHistoryTimelineByGroup disk
    groupFolder limit offset filter).map TerminalSessionHistoryTimelinePage.page)
    (filtered.map toHistorySummary) hlimit fun offset hoffset => by
      simp only [TerminalSessionService.listHistoryTimelineByGroup,
        filteredTimeline_eq_ok htimeline hfilter hne hlimit hoffset]
      rfl
  have hsnapshots := readsFrom_zero_iff (fun offset => (s.listHistorySnapshotPageByGroup
    disk groupFolder limit offset filter).map TerminalSessionHistorySnapshotPage.page)
    filtered hlimit fun offset hoffset => by
      simp only [TerminalSessionService.listHistorySnapshotPageByGroup,
        filteredTimeline_eq_ok htimeline hfilter hne hlimit hoffset]
      rfl
  exact ⟨hnodup, hsummaries.1, hsummaries.2, hsnapshots.1, hsnapshots.2⟩

/-- **The sources are merged**, unless all of them are empty. -/
theorem listMerged_eq
    (hload : disk.loadHistoryTimelineFromPersistence groupFolder = .ok (latest, archived))
    (hsources : (s.inMemorySnapshot groupFolder).toList ++ (latest.toList ++ archived) = sources) :
    s.listMergedHistorySnapshotsByGroup disk groupFolder =
      if sources = [] then .error (.session .notFound)
      else .ok ((newestValues sessionId snapshotAt sources).insertionSort precedes) := by
  unfold TerminalSessionService.listMergedHistorySnapshotsByGroup dedupeTimelineSnapshots
  rw [hload]
  simp only [bind, Except.bind, hsources, newestValues_eq_nil]

/-- A snapshot of a session of the workspace `alpha`. -/
def exampleSnapshot (sessionId : String) (status : TerminalSessionStatus) (snapshotAt : ℕ)
    (output : String) : TerminalSessionHistorySnapshot where
  record :=
    { sessionId, groupId := "web:alpha", groupFolder := "alpha", ownerUserId := "user-1", status
      createdAt := 1 }
  snapshotAt
  output
  outputBytes := output.utf8ByteSize
  historyMaxBytes := 32768
  truncated := false

/-- The session `s2` is in `latest.json` and in the archive, with the same time. -/
def exampleHistoryDisk : TerminalHistoryDisk where
  historyPersistRoot := Directory.root.enter "history".toList
  load path :=
    if path.names = ["history".toList, "alpha".toList, "latest.json".toList] then
      .ok (some (exampleSnapshot "s2" .closed 7 "latest"))
    else if path.names.getLast? = some "s1.json".toList then
      .ok (some (exampleSnapshot "s1" .exited 5 "old"))
    else if path.names.getLast? = some "s2.json".toList then
      .ok (some (exampleSnapshot "s2" .closed 7 "archived"))
    else .ok none
  entries path :=
    if path.names = ["history".toList, "alpha".toList, "snapshots".toList] then
      some [("s2.json".toList, true), ("s1.json".toList, true), ("s1.json.tmp".toList, true)]
    else none

end Portex
