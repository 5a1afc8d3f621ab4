import Portex.Terminal.Turns
import Portex.Foundation.Window

/-!
# The output history of a session

`_append_output_history` keeps a running byte counter, a deque and a flag. A session is given its
output chunk by chunk, by the events of its bridge, and a recovered session also the output of
its snapshot.

## Main definitions

* `ManagedTerminalSession.Retains`: the history of a session, of all the chunks it was given
* `printed`: the chunk that a step gives to a session

## Main results

* `retains_append`: what an append does to the history
* `retains_foldl`: any chunks that are given to a session
* `retains_of_run`: the history of every session after every run
-/

namespace Portex

open Foundation

/-- The chunks that carry output. -/
def nonEmptyChunks (chunks : List String) : List String := chunks.filter fun chunk => chunk ≠ ""

theorem utf8ByteSize_join (chunks : List String) :
    (String.join chunks).utf8ByteSize = weight String.utf8ByteSize chunks := by
  induction chunks with
  | nil => rfl
  | cons chunk chunks ih => rw [String.join_cons, String.utf8ByteSize_append, ih, weight_cons]

namespace ManagedTerminalSession

/-- Of the chunks given to a session, the history holds the longest suffix of the non-empty ones
that fits, its exact size, and whether anything was dropped. `inherited` is the flag that the
session started with. -/
structure Retains (historyMaxBytes : ℕ) (inherited : Bool) (chunks : List String)
    (managed : ManagedTerminalSession) : Prop where
  retained : IsWindow String.utf8ByteSize historyMaxBytes (nonEmptyChunks chunks)
    managed.outputHistoryChunks
  bytes : managed.outputHistoryBytes = weight String.utf8ByteSize managed.outputHistoryChunks
  truncated : managed.outputHistoryTruncated = true ↔ inherited = true ∨
    ∃ dropped, dropped ≠ [] ∧ nonEmptyChunks chunks = dropped ++ managed.outputHistoryChunks

/-- The fields of a session that its output goes to. -/
def outputHistory (managed : ManagedTerminalSession) : List String × ℕ × Bool :=
  (managed.outputHistoryChunks, managed.outputHistoryBytes, managed.outputHistoryTruncated)

end ManagedTerminalSession

namespace TerminalSessionService

open ManagedTerminalSession (Retains)

variable {s t u : TerminalSessionService} {a : Action} {historyMaxBytes i : ℕ} {inherited : Bool}
  {chunks : List String} {managed managed' : ManagedTerminalSession}

/-! ## One append -/

/-- The loop keeps the window of the deque, where the counter is right. -/
theorem trimOutputHistory_eq (historyMaxBytes : ℕ) (chunks : List String) (truncated : Bool) :
    trimOutputHistory historyMaxBytes chunks (weight String.utf8ByteSize chunks) truncated =
      (window String.utf8ByteSize historyMaxBytes chunks,
        weight String.utf8ByteSize (window String.utf8ByteSize historyMaxBytes chunks),
        truncated || decide (window String.utf8ByteSize historyMaxBytes chunks ≠ chunks)) := by
  induction chunks generalizing truncated with
  | nil => simp [trimOutputHistory, window]
  | cons removed chunks ih =>
    unfold trimOutputHistory
    split
    · rename_i hlt
      have hwindow := window_cons_of_lt hlt
      have hne : window String.utf8ByteSize historyMaxBytes (removed :: chunks) ≠
          removed :: chunks := fun h => absurd (window_eq_self_iff.mp h) (Nat.not_le.mpr hlt)
      rw [weight_cons, Nat.add_sub_cancel_left, ih, ← hwindow]
      simp [hne]
    · rename_i hle
      rw [window_of_le (Nat.not_lt.mp hle)]
      simp

theorem nonEmptyChunks_snoc (chunks : List String) (chunk : String) :
    nonEmptyChunks (chunks ++ [chunk]) =
      nonEmptyChunks chunks ++ if chunk = "" then [] else [chunk] := by
  unfold nonEmptyChunks
  rw [List.filter_append]
  by_cases h : chunk = "" <;> simp [h]

theorem retains_iff :
    managed.Retains historyMaxBytes inherited chunks ↔
      managed.outputHistory =
        (window String.utf8ByteSize historyMaxBytes (nonEmptyChunks chunks),
          weight String.utf8ByteSize
            (window String.utf8ByteSize historyMaxBytes (nonEmptyChunks chunks)),
          inherited || decide (window String.utf8ByteSize historyMaxBytes (nonEmptyChunks chunks) ≠
            nonEmptyChunks chunks)) := by
  -- What is dropped is what stands before the window.
  have hdropped : ∀ kept, kept <:+ nonEmptyChunks chunks →
      ((∃ dropped, dropped ≠ [] ∧ nonEmptyChunks chunks = dropped ++ kept) ↔
        kept ≠ nonEmptyChunks chunks) := by
    rintro kept ⟨dropped, hkept⟩
    constructor
    · rintro ⟨dropped', hne, hsplit⟩ heq
      rw [heq] at hsplit
      exact hne (List.self_eq_append_left.mp hsplit)
    · intro hne
      refine ⟨dropped, ?_, hkept.symm⟩
      rintro rfl
      exact hne hkept
  constructor
  · rintro ⟨hretained, hbytes, htruncated⟩
    have hwindow := hretained.eq_window
    rw [hdropped _ hretained.suffix] at htruncated
    simp only [ManagedTerminalSession.outputHistory, Prod.mk.injEq]
    refine ⟨hwindow, by rw [hbytes, hwindow], Bool.eq_iff_iff.mpr ?_⟩
    rw [htruncated, hwindow]
    simp
  · intro h
    simp only [ManagedTerminalSession.outputHistory, Prod.mk.injEq] at h
    obtain ⟨hwindow, hbytes, htruncated⟩ := h
    have hretained : IsWindow String.utf8ByteSize historyMaxBytes (nonEmptyChunks chunks)
        managed.outputHistoryChunks := hwindow ▸ isWindow_window _ _ _
    refine ⟨hretained, by rw [hbytes, hwindow], ?_⟩
    rw [hdropped _ hretained.suffix, htruncated, hwindow]
    simp

/-- A session without output retains all of it. -/
theorem retains_nil (hempty : managed.outputHistory = ([], 0, inherited)) :
    managed.Retains historyMaxBytes inherited [] := by
  rw [retains_iff, hempty]
  simp [nonEmptyChunks, window]

/-- **One append.** -/
theorem retains_append (h : managed.Retains historyMaxBytes inherited chunks)
    (hmax : 0 < historyMaxBytes) (chunk : String) :
    (appendOutputHistory historyMaxBytes managed chunk).Retains historyMaxBytes inherited
      (chunks ++ [chunk]) := by
  rw [retains_iff] at h ⊢
  simp only [ManagedTerminalSession.outputHistory, Prod.mk.injEq] at h
  obtain ⟨hchunks, hbytes, htruncated⟩ := h
  rw [nonEmptyChunks_snoc, appendOutputHistory, if_neg (Nat.ne_of_gt hmax)]
  split
  · rw [List.append_nil]
    exact Prod.ext hchunks (Prod.ext hbytes htruncated)
  · have hweight : managed.outputHistoryBytes + chunk.utf8ByteSize =
        weight String.utf8ByteSize (managed.outputHistoryChunks ++ [chunk]) := by
      rw [weight_append, hbytes, hchunks]
      simp
    rw [hweight, trimOutputHistory_eq]
    simp only [ManagedTerminalSession.outputHistory, Prod.mk.injEq]
    rw [hchunks, window_window_append]
    refine ⟨rfl, rfl, ?_⟩
    -- The flag is set where a chunk was dropped before, or is now.
    rw [htruncated, Bool.or_assoc]
    congr 1
    rw [Bool.eq_iff_iff, Bool.or_eq_true, decide_eq_true_iff, decide_eq_true_iff,
      decide_eq_true_iff, ← not_and_or]
    exact not_congr window_append_eq_self_iff.symm

/-- Any chunks that are given to a session. -/
theorem retains_foldl (managed : ManagedTerminalSession)
    (h : managed.outputHistory = ([], 0, inherited)) (hmax : 0 < historyMaxBytes)
    (chunks : List String) :
    (chunks.foldl (appendOutputHistory historyMaxBytes) managed).Retains historyMaxBytes inherited
      chunks := by
  induction chunks using List.reverseRecOn with
  | nil => exact retains_nil h
  | append_singleton chunks chunk ih =>
    rw [List.foldl_append]
    exact retains_append ih hmax chunk

/-! ## What a step gives to a session -/

/-- The chunk that a step gives to a session: the output of a bridge whose session it is. -/
def printed (s : TerminalSessionService) (i : ℕ) : Action → Option String
  | .bridgeEvent bridge event =>
    (s.bridges.get? bridge).bind fun b => (s.session b.sessionId).bind fun entry =>
      if entry.1 = i ∧ event.type = .output then event.data else none
  | _ => none

/-- A session after a step: it was there before and was given what the step prints, or it is new
and has no output. -/
inductive Given (s : TerminalSessionService) (a : Action) (i : ℕ)
    (managed' : ManagedTerminalSession) : Prop
  | kept {managed : ManagedTerminalSession} (get? : s.sessions.get? i = some managed)
      (sessionId : managed'.record.sessionId = managed.record.sessionId)
      (outputHistory : managed'.outputHistory = ((s.printed i a).elim managed
        (appendOutputHistory s.historyMaxBytes managed)).outputHistory)
  | new (size : s.sessions.size ≤ i) (outputHistory : managed'.outputHistory = ([], 0, false))

/-- What is printed goes to the session that the step finds. -/
theorem target_of_printed {chunk : String} (h : s.printed i a = some chunk) :
    ∃ managed, s.target a = some (i, managed, .output) := by
  cases a with
  | bridgeEvent bridge event =>
    obtain ⟨b, hb, hbound⟩ := Option.bind_eq_some_iff.mp h
    obtain ⟨⟨j, m⟩, hsession, hdata⟩ := Option.bind_eq_some_iff.mp hbound
    split at hdata
    · rename_i hcond
      obtain ⟨rfl, htype⟩ := hcond
      exact ⟨m, by simp [target, hb, eventTarget, hsession, htype, hdata]⟩
    · cases hdata
  | _ => cases h

theorem printed_eq_none (h : ∀ managed, s.target a ≠ some (i, managed, .output)) :
    s.printed i a = none := by
  cases hprinted : s.printed i a with
  | none => rfl
  | some chunk =>
    obtain ⟨managed, htarget⟩ := target_of_printed hprinted
    exact absurd htarget (h managed)

theorem given_same (hprinted : ∀ i, s.printed i a = none)
    (hget : s.sessions.get? i = some managed) : Given s a i managed :=
  .kept hget rfl (by rw [hprinted i]; rfl)

/-- A step that assigns to a session, and not to its history. -/
theorem given_modify {f : ManagedTerminalSession → ManagedTerminalSession} {j : ℕ}
    (hprinted : ∀ i, s.printed i a = none) (hj : s.sessions.get? j = some managed)
    (hid : (f managed).record.sessionId = managed.record.sessionId)
    (hhistory : (f managed).outputHistory = managed.outputHistory)
    (hget : (s.sessions.modify j f).get? i = some managed') : Given s a i managed' := by
  rcases Heap.get?_modify_cases hget with ⟨_, hbefore, rfl, rfl⟩ | ⟨-, hget⟩
  · obtain rfl := Option.some.inj (hj.symm.trans hbefore)
    exact .kept hj hid (by rw [hprinted, hhistory]; rfl)
  · exact given_same hprinted hget

theorem Vacated.given {groupFolder : String} (h : Vacated s groupFolder u)
    (hprinted : ∀ i, s.printed i a = none) (hget : u.sessions.get? i = some managed') :
    Given s a i managed' := by
  cases h with
  | free => exact given_same hprinted hget
  | drop found =>
    rw [dropSession_eq] at hget
    exact given_modify hprinted (sessionOfGroup_eq_some.mp found).2 rfl rfl hget

theorem Vacated.size {groupFolder : String} (h : Vacated s groupFolder u) :
    u.sessions.size = s.sessions.size ∧ u.historyMaxBytes = s.historyMaxBytes := by
  cases h with
  | free => exact ⟨rfl, rfl⟩
  | drop =>
    rw [dropSession_eq]
    exact ⟨Heap.size_modify _ _ _, rfl⟩

/-- The first turn of a call. -/
theorem given_called {phase : TaskPhase} (hcalled : Called s a phase u)
    (hget : u.sessions.get? i = some managed') : Given s a i managed' := by
  cases hcalled with
  | idle _ idle =>
    exact given_same (fun _ => printed_eq_none fun _ h => by simp [idle.target] at h) hget
  | @put bridge _ event b managed _ get? found immediate =>
    replace hget : s.sessions.get? i = some managed' := by
      cases hq : managed.outputQueue <;> simpa [TerminalSessionService.put, hq] using hget
    refine given_same (fun j => ?_) hget
    -- Output without data prints nothing.
    simp only [printed, get?, found, Option.bind_some]
    split
    · rename_i hcond
      simp only [TerminalBridgeEvent.immediate, hcond.2] at immediate
      split at immediate
      · assumption
      · cases immediate
    · rfl
  | createRaised vacated => exact vacated.given (fun _ => rfl) hget
  | @created _ _ _ _ _ _ v vacated =>
    replace hget : (v.sessions.alloc _).get? i = some managed' := hget
    rcases Heap.get?_alloc_cases hget with ⟨hi, rfl⟩ | hget
    · exact .new (by rw [hi, vacated.size.1]) rfl
    · exact vacated.given (fun _ => rfl) hget
  -- A connection changes the status of a session and its queue, never its history.
  | attached found | attachRaised found | reopened found =>
    exact given_modify (fun _ => rfl) (session_eq_some.mp (owned_eq_some.mp found).1).2 rfl rfl hget
  | detached target _ eq =>
    subst eq
    exact given_modify (fun _ => printed_eq_none fun _ h => by simp [target] at h)
      (get?_of_target target) rfl rfl hget
  | closed target =>
    rw [closeWith_sessions] at hget
    exact given_modify (fun _ => printed_eq_none fun _ h => by simp [target] at h)
      (get?_of_target target) rfl rfl hget
  | @output _ j _ _ text managed _ get? found type data eq =>
    subst eq
    replace hget : (s.sessions.modify j fun _ =>
      appendOutputHistory s.historyMaxBytes managed text).get? i = some managed' := hget
    have hj := (session_eq_some.mp found).2
    rw [Heap.get?_modify] at hget
    split at hget
    · -- Only the session of the bridge is given the chunk.
      rename_i hji
      subst hji
      rw [hj] at hget
      obtain rfl := Option.some.inj hget
      obtain ⟨_, _, _, happend⟩ := record_appendOutputHistory s.historyMaxBytes managed text
      refine .kept hj (by rw [happend]) ?_
      simp [printed, get?, found, type, data]
    · rename_i hji
      refine .kept hget rfl ?_
      simp [printed, get?, found, Ne.symm hji]
  | exited get? found type =>
    refine given_modify (fun j => ?_) (session_eq_some.mp found).2 rfl rfl hget
    simp [printed, get?, type]

/-- A later turn of a call. -/
theorem given_resumed {failure : Option String} {task : ℕ} {phase phase' : TaskPhase}
    (hresumed : Resumed s failure phase phase' u) (hget : u.sessions.get? i = some managed') :
    Given s (.resume task failure) i managed' := by
  cases hresumed with
  | attachFailed found =>
    exact given_modify (fun _ => rfl) (session_eq_some.mp found).2 rfl rfl hget
  | expired found =>
    rw [closeWith_sessions] at hget
    exact given_modify (fun _ => rfl) (session_eq_some.mp found).2 rfl rfl hget
  | @persisted _ _ next =>
    refine given_same (fun _ => rfl) ?_
    cases next with
    | put queue event => cases queue <;> exact hget
    | _ => exact hget
  | _ => exact given_same (fun _ => rfl) hget

/-- The limit of a service is fixed, and session objects are only added. -/
theorem limit_called {phase : TaskPhase} (hcalled : Called s a phase u) :
    u.historyMaxBytes = s.historyMaxBytes ∧ s.sessions.size ≤ u.sessions.size := by
  cases hcalled with
  | @put _ _ _ _ managed =>
    cases hq : managed.outputQueue <;> exact ⟨rfl, Nat.le_refl _⟩
  | createRaised vacated => exact ⟨vacated.size.2, Nat.le_of_eq vacated.size.1.symm⟩
  | @created _ _ _ _ _ _ v vacated =>
    refine ⟨vacated.size.2, ?_⟩
    have hsize : s.sessions.size ≤ (v.sessions.size + 1) := by
      have := vacated.size.1
      omega
    simpa [opened] using hsize
  | closed =>
    rw [closeWith_sessions, Heap.size_modify]
    exact ⟨closeWith_historyMaxBytes _ _ _ _ _ _, Nat.le_refl _⟩
  | idle => exact ⟨rfl, Nat.le_refl _⟩
  | _ => exact ⟨rfl, Nat.le_of_eq (Heap.size_modify _ _ _).symm⟩

theorem limit_resumed {failure : Option String} {phase phase' : TaskPhase}
    (hresumed : Resumed s failure phase phase' u) :
    u.historyMaxBytes = s.historyMaxBytes ∧ s.sessions.size ≤ u.sessions.size := by
  cases hresumed with
  | attachFailed => exact ⟨rfl, Nat.le_of_eq (Heap.size_modify _ _ _).symm⟩
  | expired =>
    rw [closeWith_sessions, Heap.size_modify]
    exact ⟨closeWith_historyMaxBytes _ _ _ _ _ _, Nat.le_refl _⟩
  | @persisted _ _ next =>
    cases next with
    | put queue event => cases queue <;> exact ⟨rfl, Nat.le_refl _⟩
    | _ => exact ⟨rfl, Nat.le_refl _⟩
  | _ => exact ⟨rfl, Nat.le_refl _⟩

/-- **Steps.** What a step does to the history of every session. -/
theorem given_step (hstep : s.step a = some t) :
    (t.historyMaxBytes = s.historyMaxBytes ∧ s.sessions.size ≤ t.sessions.size) ∧
      ∀ i managed', t.sessions.get? i = some managed' → Given s a i managed' := by
  -- The connections and the snapshot file are set beside the core, which has the histories.
  have hcore : ∀ {v w : TerminalSessionService}, w.core = v.core →
      w.sessions = v.sessions ∧ w.historyMaxBytes = v.historyMaxBytes := fun {v w} h =>
    ⟨show w.core.sessions = v.core.sessions by rw [h],
      show w.core.historyMaxBytes = v.core.historyMaxBytes by rw [h]⟩
  cases turn_of_step hstep with
  | @call _ phase u _ called core =>
    have hsame := hcore (v := { u with tasks := u.tasks.alloc { phase } }) core
    have hsessions : t.sessions = u.sessions := hsame.1
    have hlimit : t.historyMaxBytes = u.historyMaxBytes := hsame.2
    rw [hsessions, hlimit]
    exact ⟨limit_called called, fun i managed' hget => given_called called hget⟩
  | cancel => exact ⟨⟨rfl, Nat.le_refl _⟩, fun i managed' hget => given_same (fun _ => rfl) hget⟩
  | @resume _ _ _ _ u _ _ _ resumed core =>
    have hsessions : t.sessions = u.sessions := (hcore core).1
    have hlimit : t.historyMaxBytes = u.historyMaxBytes := (hcore core).2
    rw [hsessions, hlimit]
    exact ⟨limit_resumed resumed, fun i managed' hget => given_resumed resumed hget⟩
  | write => exact ⟨⟨rfl, Nat.le_refl _⟩, fun i managed' hget => given_same (fun _ => rfl) hget⟩
  | setClock => exact ⟨⟨rfl, Nat.le_refl _⟩, fun i managed' hget => given_same (fun _ => rfl) hget⟩

/-! ## Runs -/

/-- The chunks given to a session along a list of actions. -/
def chunksAlong (s : TerminalSessionService) (l : List Action) (i : ℕ) : List String :=
  trace step (fun s a => s.printed i a) s l

/-- What a session retains after a run from `init`: of the chunks it was given, or, where it was
recovered from a snapshot, of the output of the snapshot and these. -/
def RetainsOutput (snapshots : List TerminalSessionHistorySnapshot) (init : TerminalSessionService)
    (l : List Action) (historyMaxBytes i : ℕ) (managed : ManagedTerminalSession) : Prop :=
  if i < init.sessions.size then
    ∃ snapshot ∈ snapshots, snapshot.record.sessionId = managed.record.sessionId ∧
      managed.Retains historyMaxBytes snapshot.truncated (snapshot.output :: init.chunksAlong l i)
  else managed.Retains historyMaxBytes false (init.chunksAlong l i)

/-- The histories after a run. -/
structure HistoriesInv (snapshots : List TerminalSessionHistorySnapshot)
    (init : TerminalSessionService) (historyMaxBytes : ℕ) (l : List Action)
    (t : TerminalSessionService) : Prop where
  limit : t.historyMaxBytes = historyMaxBytes
  size : init.sessions.size ≤ t.sessions.size
  /-- No output goes to a session that is still to be created. -/
  unborn : ∀ i, t.sessions.size ≤ i → init.chunksAlong l i = []
  retains : ∀ i managed, t.sessions.get? i = some managed →
    RetainsOutput snapshots init l historyMaxBytes i managed

theorem retains_congr (h : managed'.outputHistory = managed.outputHistory) :
    managed'.Retains historyMaxBytes inherited chunks ↔
      managed.Retains historyMaxBytes inherited chunks := by
  rw [retains_iff, retains_iff, h]

theorem Given.retains (h : Given s a i managed') (hmax : 0 < s.historyMaxBytes)
    (hbefore : ∀ managed, s.sessions.get? i = some managed →
      managed'.record.sessionId = managed.record.sessionId →
      managed.Retains s.historyMaxBytes inherited chunks)
    (hget : s.sessions.get? i = none → inherited = false ∧ chunks = [] ∧ s.printed i a = none) :
    managed'.Retains s.historyMaxBytes inherited (chunks ++ (s.printed i a).toList) := by
  cases h with
  | @kept managed hi sessionId outputHistory =>
    have hmanaged := hbefore managed hi sessionId
    rw [retains_congr outputHistory]
    cases s.printed i a with
    | none => rwa [Option.toList_none, List.append_nil]
    | some chunk => exact retains_append hmanaged hmax chunk
  | new size outputHistory =>
    obtain ⟨rfl, rfl, hprinted⟩ := hget (List.getElem?_eq_none size)
    rw [hprinted]
    exact retains_nil outputHistory

/-- Recovered sessions have the output of their snapshot. -/
theorem retains_recoverActiveSessions (reconnectTimeoutSeconds : ℕ) {historyMaxBytes : Int}
    (hmax : 0 < historyMaxBytes) (snapshots : List TerminalSessionHistorySnapshot) :
    (recoverActiveSessions reconnectTimeoutSeconds historyMaxBytes snapshots).historyMaxBytes =
        historyMaxBytes.toNat ∧
      ∀ i managed, (recoverActiveSessions reconnectTimeoutSeconds historyMaxBytes
          snapshots).sessions.get? i = some managed →
        ∃ snapshot ∈ snapshots, snapshot.record.sessionId = managed.record.sessionId ∧
          managed.Retains historyMaxBytes.toNat snapshot.truncated [snapshot.output] := by
  obtain ⟨_, _, _, heq⟩ :=
    recoverActiveSessions_eq reconnectTimeoutSeconds historyMaxBytes snapshots
  refine ⟨by rw [heq], fun i managed hi => ?_⟩
  obtain ⟨s, hlimit, snapshot, hsnapshot, hrecovered⟩ := exists_recovered hi
  refine ⟨snapshot, hsnapshot, by rw [hrecovered.record], ?_⟩
  -- The output of the snapshot is the first chunk of the history.
  rw [hrecovered.made, hlimit]
  exact retains_append (retains_nil rfl) (by omega) snapshot.output

/-- The histories keep up with every step. -/
theorem HistoriesInv.step {snapshots : List TerminalSessionHistorySnapshot}
    {init : TerminalSessionService} {l : List Action}
    (h : HistoriesInv snapshots init historyMaxBytes l s) (hmax : 0 < historyMaxBytes)
    (hrun : Run step (fun _ _ => True) init l s) (hstep : s.step a = some t) :
    HistoriesInv snapshots init historyMaxBytes (l ++ [a]) t := by
  obtain ⟨⟨hlimit, hsize⟩, hgiven⟩ := given_step hstep
  obtain rfl := h.limit
  have hchunks : ∀ i, init.chunksAlong (l ++ [a]) i =
      init.chunksAlong l i ++ (s.printed i a).toList := fun i => hrun.trace_snoc _ a
  have hunborn : ∀ i, s.sessions.size ≤ i → s.printed i a = none := fun i hi =>
    printed_eq_none fun managed htarget => by
      have hnone : s.sessions.get? i = none := List.getElem?_eq_none hi
      rw [get?_of_target htarget] at hnone
      cases hnone
  refine ⟨hlimit, Nat.le_trans h.size hsize, fun i hi => ?_, fun i managed' hget => ?_⟩
  · rw [hchunks, h.unborn i (Nat.le_trans hsize hi), hunborn i (Nat.le_trans hsize hi)]
    rfl
  · have hbefore := h.retains i
    have hnew : s.sessions.get? i = none → s.sessions.size ≤ i := List.getElem?_eq_none_iff.mp
    unfold RetainsOutput at hbefore ⊢
    rw [hchunks]
    split
    · rename_i hi
      -- A recovered session keeps its id, and so its snapshot.
      have hthere : i < s.sessions.size := Nat.lt_of_lt_of_le hi h.size
      cases hgiven i managed' hget with
      | @kept managed hget' sessionId outputHistory =>
        obtain ⟨snapshot, hmem, hid, hretains⟩ := (if_pos hi).mp (hbefore managed hget')
        refine ⟨snapshot, hmem, hid.trans sessionId.symm, ?_⟩
        rw [← List.cons_append]
        exact (Given.kept hget' sessionId outputHistory).retains hmax
          (fun m hm _ => by rw [hget'] at hm; cases hm; exact hretains)
          (fun hnone => by rw [hget'] at hnone; cases hnone)
      | new size => exact absurd hthere (Nat.not_lt.mpr size)
    · rename_i hi
      exact (hgiven i managed' hget).retains hmax
        (fun managed hget' _ => (if_neg hi).mp (hbefore managed hget'))
        (fun hnone => ⟨rfl, h.unborn i (hnew hnone), hunborn i (hnew hnone)⟩)

/-- **The output history.** In every run of a service with a positive limit, the history of each
session is the longest suffix of the non-empty chunks it was given that fits, with its exact size
and a flag for what was dropped, and its snapshot holds the same. A session that was recovered
from a snapshot begins with the output and the flag of the snapshot. -/
theorem retains_of_run {reconnectTimeoutSeconds : ℕ} {historyMaxBytes : Int}
    {snapshots : List TerminalSessionHistorySnapshot} {init : TerminalSessionService}
    {l : List Action} (hmax : 0 < historyMaxBytes)
    (hinit : recoverActiveSessions reconnectTimeoutSeconds historyMaxBytes snapshots = init)
    (hrun : Run step (fun _ _ => True) init l t) (hget : t.sessions.get? i = some managed) :
    RetainsOutput snapshots init l historyMaxBytes.toNat i managed ∧
      (t.buildHistorySnapshot managed).output = String.join managed.outputHistoryChunks ∧
      (t.buildHistorySnapshot managed).outputBytes =
        (t.buildHistorySnapshot managed).output.utf8ByteSize ∧
      (t.buildHistorySnapshot managed).truncated = managed.outputHistoryTruncated := by
  obtain ⟨hlimit, hrecovered⟩ :=
    retains_recoverActiveSessions reconnectTimeoutSeconds hmax snapshots
  rw [hinit] at hlimit hrecovered
  have hinv : HistoriesInv snapshots init historyMaxBytes.toNat l t := by
    clear hget
    -- On the run: the sessions before the first action are the recovered ones.
    induction hrun with
    | nil =>
      refine ⟨hlimit, Nat.le_refl _, fun _ _ => rfl, fun j m hj => ?_⟩
      have hlt : j < init.sessions.size := (List.getElem?_eq_some_iff.mp hj).1
      exact (if_pos hlt).mpr (hrecovered j m hj)
    | snoc hr _ hstep ih => exact ih.step (by omega) hr hstep
  have hretains := hinv.retains i managed hget
  refine ⟨hretains, rfl, ?_, rfl⟩
  have hbytes : managed.outputHistoryBytes =
      weight String.utf8ByteSize managed.outputHistoryChunks := by
    unfold RetainsOutput at hretains
    split at hretains
    · obtain ⟨_, _, _, hretains⟩ := hretains
      exact hretains.bytes
    · exact hretains.bytes
  exact hbytes.trans (utf8ByteSize_join _).symm

/-- A session that can hold three bytes prints four, in two chunks with an empty one between. -/
def overflowingRun : List Action :=
  [.create "home" "home" "alice" .container "s" (.ok none),
    .bridgeEvent 0 { type := .output, data := some "ab" },
    .bridgeEvent 0 { type := .output, data := some "" },
    .bridgeEvent 0 { type := .output, data := some "é" }]

theorem retains_of_run_overflowing : ∃ t managed,
    Run step (fun _ _ => True) (recoverActiveSessions 30 3 []) overflowingRun t ∧
      managed.outputHistory = (["é"], 2, true) ∧
      RetainsOutput [] (recoverActiveSessions 30 3 []) overflowingRun 3 0 managed := by
  have h : Run step (fun _ _ => True) (recoverActiveSessions 30 3 []) overflowingRun _ :=
    .of_execute (by decide)
  have hget := Option.some_get (x := ((execute step (fun _ _ => True)
    (recoverActiveSessions 30 3 []) overflowingRun).get (by decide)).sessions.get? 0) (by decide)
  exact ⟨_, _, h, by decide, (retains_of_run (by decide) rfl h hget.symm).1⟩

end TerminalSessionService

end Portex
