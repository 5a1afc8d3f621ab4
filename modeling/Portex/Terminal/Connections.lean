import Portex.Terminal.Invariant

/-!
# The connections of a session

Several websockets of one owner may be attached to one session, the last of them with its output
queue. `detach_session` is not told which of them leaves, so a stale one that leaves late takes
the session from the current one. In every other run the current connection keeps the session
attached and its queue in place.

## Main definitions

* `ByWebsocket`: sessions are detached by websockets alone
* `Steady`: the current connections have their sessions
* `Timely`: the connection that disconnects is not outrun by another

## Main results

* `steady_iff_timely`: the runs in which every current connection keeps its session
* `exists_stale_disconnect`: a run in which a stale disconnect and a timer close a session
-/

namespace Portex

open Foundation

namespace TerminalSessionService

variable {s t u : TerminalSessionService} {a : Action}

/-- New sessions have ids of their own, and `detach_session` is called by websockets alone, each
once when it disconnects. -/
def ByWebsocket (s : TerminalSessionService) (a : Action) : Prop :=
  s.Fresh a ∧ match a with
    | .detach _ _ => False
    | _ => True

instance (s : TerminalSessionService) : DecidablePred s.ByWebsocket := fun a => by
  unfold ByWebsocket
  cases a <;> infer_instance

/-- Where a session has a current connection, it is attached, and its output queue is the one
that the connection was given. -/
def Steady (s : TerminalSessionService) : Prop :=
  ∀ sessionId k, s.currentConnection sessionId = some k → ∃ i managed connection,
    s.session sessionId = some (i, managed) ∧ s.connections.get? k = some connection ∧
      managed.record.status = .attached ∧ managed.outputQueue = some connection.queue

/-- No connection disconnects while another one is current for its session. -/
def Timely (s : TerminalSessionService) : Action → Prop
  | .disconnect k => ∀ connection ∈ s.openConnection k,
    ∀ j ∈ s.currentConnection connection.sessionId, j = k
  | _ => True

instance (s : TerminalSessionService) : DecidablePred s.Timely := fun a => by
  cases a <;> unfold Timely <;> infer_instance

/-- A current connection has a session with a bridge, so that attaches to it do not fail. -/
def Attended (s : TerminalSessionService) : Prop :=
  ∀ sessionId k, s.currentConnection sessionId = some k → ∃ i managed connection,
    s.session sessionId = some (i, managed) ∧ s.connections.get? k = some connection ∧
      managed.record.status = .attached ∧ managed.outputQueue = some connection.queue ∧
        managed.bridge.isSome = true

theorem Attended.steady (h : Attended s) : Steady s := by
  intro sessionId k hk
  obtain ⟨i, managed, connection, hs, hc, hstatus, hq, -⟩ := h sessionId k hk
  exact ⟨i, managed, connection, hs, hc, hstatus, hq⟩

/-! ## The current connection -/

theorem currentConnection_append {entries : List HistoryEntry}
    (h : t.history = s.history ++ entries) (sessionId : String) :
    t.currentConnection sessionId =
      entries.foldl (follow sessionId) (s.currentConnection sessionId) := by
  rw [currentConnection, h, List.foldl_append]
  rfl

theorem follow_left {sessionId : String} {current : Option ℕ} {k j : ℕ} :
    follow sessionId current (.left k) = some j ↔ current = some j ∧ j ≠ k := by
  show (if current = some k then none else current) = some j ↔ _
  split
  · rename_i h
    subst h
    simp [eq_comm]
  · rename_i h
    constructor
    · rintro rfl
      exact ⟨rfl, fun hj => h (by rw [hj])⟩
    · exact fun h => h.1

/-- A connection that leaves is no longer the current one; nothing else changes. -/
theorem foldl_leaving {sessionId : String} {current : Option ℕ} {leaves : Option ℕ} {j : ℕ} :
    ((leaves.map HistoryEntry.left).toList.foldl (follow sessionId) current) = some j ↔
      current = some j ∧ leaves ≠ some j := by
  cases leaves with
  | none => simp
  | some k =>
    simp only [Option.map_some, Option.toList_some, List.foldl_cons, List.foldl_nil, follow_left,
      ne_eq, Option.some.injEq]
    exact and_congr_right fun _ => not_congr eq_comm

/-- What an effect makes of the current connection. -/
theorem foldl_entries {sessionId sessionId' : String} {current : Option ℕ} {n j : ℕ}
    {effect : Effect}
    (h : (effect.entries sessionId' n).foldl (follow sessionId) current = some j) :
    (sessionId' = sessionId ∧ j = n ∧ ∃ queue, effect = .attach queue) ∨
      (current = some j ∧ (sessionId' = sessionId →
        effect = .detach ∨ effect = .output ∨ ∃ queue, effect = .attachRaising queue)) := by
  cases effect with
  -- Only an attach makes a connection current, and only for its own session.
  | attach queue =>
    simp only [Effect.entries, List.foldl_cons, List.foldl_nil, follow] at h
    split at h
    · rename_i heq
      exact .inl ⟨heq, (Option.some.inj h).symm, queue, rfl⟩
    · rename_i hne
      exact .inr ⟨h, fun heq => absurd heq hne⟩
  | attachRaising queue => exact .inr ⟨h, fun _ => .inr (.inr ⟨queue, rfl⟩)⟩
  | detach => exact .inr ⟨h, fun _ => .inl rfl⟩
  | output => exact .inr ⟨h, fun _ => .inr (.inl rfl)⟩
  -- An end leaves the session without a current connection.
  | close | exit | expire | failAttach =>
    simp only [Effect.entries, List.foldl_cons, List.foldl_nil, follow] at h
    split at h
    · cases h
    · rename_i hne
      exact .inr ⟨h, fun heq => absurd heq hne⟩

/-! ## Steps -/

theorem Connected.get? {connections : Heap Connection} (h : Connected s a connections) {k : ℕ}
    {connection : Connection} (hk : s.connections.get? k = some connection) :
    ∃ connection', connections.get? k = some connection' ∧
      connection'.queue = connection.queue := by
  cases h with
  | attach =>
    rw [Heap.get?_alloc, if_neg (Nat.ne_of_lt (Heap.lt_size_of_get? hk))]
    exact ⟨connection, hk, rfl⟩
  | leave =>
    rw [Heap.get?_modify]
    split
    · exact ⟨{ connection with left := true }, by rw [hk]; rfl, rfl⟩
    · exact ⟨connection, hk, rfl⟩
  | keep => exact ⟨connection, hk, rfl⟩

theorem session_congr (h : SameSessions s t) (sessionId : String) :
    t.session sessionId = s.session sessionId := by
  rw [session, session, h.sessions, h.sessionsById]

theorem session_setSession {sessionId : String} {i j : ℕ} {managed m : ManagedTerminalSession}
    (h : s.session sessionId = some (i, m)) :
    (s.setSession j managed).session sessionId = some (i, if i = j then managed else m) := by
  obtain ⟨hid, hi⟩ := session_eq_some.mp h
  refine session_eq_some.mpr ⟨hid, ?_⟩
  show (s.sessions.modify j fun _ => managed).get? i = _
  rw [Heap.get?_modify, hi]
  split <;> rfl

/-- **Steps.** A timely step that creates no session keeps the current connections attended. -/
theorem Attended.step (k : Attended s) (h : Inv s) (ha : a.isCreate = false)
    (hweb : s.ByWebsocket a) (htimely : s.Timely a) (hstep : s.step a = some t) : Attended t := by
  intro sessionId j hj
  have hsessions := step_sessions ha hstep
  obtain ⟨hconnected, hhistory⟩ := h.step_connections ha hstep
  rw [currentConnection_append hhistory, added, List.foldl_append] at hj
  cases htarget : s.target a with
  | none =>
    rw [htarget] at hsessions hj
    obtain ⟨hcurrent, -⟩ := foldl_leaving.mp hj
    obtain ⟨i, m, c, hs, hc, hrest⟩ := k sessionId j hcurrent
    obtain ⟨c', hc', hqueue⟩ := hconnected.get? hc
    exact ⟨i, m, c', (session_congr hsessions sessionId).trans hs, hc', hqueue ▸ hrest⟩
  | some found =>
    obtain ⟨i, managed, effect⟩ := found
    rw [htarget] at hsessions hj
    obtain ⟨managed', hm, hsame⟩ := hsessions
    have hfound := h.found htarget
    rcases foldl_entries hj with ⟨hid, rfl, queue, rfl⟩ | ⟨hcurrent, heffect⟩
    · -- The connection is the one that attaches.
      obtain ⟨rfl, hs, factory, rfl⟩ := hfound.attach queue rfl
      rw [hid] at hs
      generalize t.connections = connections at hconnected ⊢
      cases hconnected with
      | @attach i' managed₀ c target hcid howner hqueue =>
        refine ⟨i, managed', c, ?_, ?_, hm.status, ?_, hm.attached _ rfl⟩
        · rw [session_congr hsame, session_setSession hs, if_pos rfl]
        · rw [Heap.get?_alloc, if_pos rfl]
        · rw [hm.outputQueue, hqueue]
          rfl
      | leave hleaving => cases hleaving
      | keep hleaving still => exact absurd htarget (still _ _ _)
    · obtain ⟨hbefore, hleaving⟩ := foldl_leaving.mp hcurrent
      obtain ⟨i₀, m, c, hs, hc, hstatus, hqueue, hbridge⟩ := k sessionId j hbefore
      obtain ⟨c', hc', hc'queue⟩ := hconnected.get? hc
      have hs' := (session_congr hsame sessionId).trans (session_setSession hs)
      by_cases hi : i₀ = i
      · -- The step finds the session of the connection.
        subst hi
        rw [if_pos rfl] at hs'
        obtain rfl := Option.some.inj ((session_eq_some.mp hs).2.symm.trans hfound.get?)
        refine ⟨i₀, managed', c', hs', hc', ?_⟩
        have hid := h.sessionId_eq hs
        rcases heffect hid with rfl | rfl | ⟨queue, rfl⟩
        · rcases hfound.detach rfl with ⟨_, _, rfl⟩ | ⟨l, c₀, rfl, hopen, hcid⟩
          · exact absurd hweb.2 id
          · have hl := htimely c₀ hopen j (by rw [hcid, hid]; exact hbefore)
            exact absurd (congrArg some hl.symm) hleaving
        · refine ⟨hm.status.trans hstatus, hm.outputQueue.trans (hqueue.trans (by rw [hc'queue])), ?_⟩
          rw [hm.bridge (by simp) hbridge]
          exact hbridge
        · rw [hfound.raising queue rfl] at hbridge
          cases hbridge
      · rw [if_neg hi] at hs'
        exact ⟨i₀, m, c', hs', hc', hstatus, by rw [hqueue, hc'queue], hbridge⟩

theorem session_of_vacated {groupFolder sessionId : String} {i : ℕ}
    {managed : ManagedTerminalSession} (h : Inv s) (hv : Vacated s groupFolder u)
    (hs : s.session sessionId = some (i, managed)) (hlive : managed.record.status.isTerminal = false) :
    u.session sessionId = some (i, managed) := by
  cases hv with
  | free => exact hs
  | @drop j m found ended =>
    obtain ⟨hid, hi⟩ := session_eq_some.mp hs
    obtain ⟨hg, hj⟩ := sessionOfGroup_eq_some.mp found
    -- The dropped session has ended, and so is another one.
    have hne : i ≠ j := by
      -- Its id is its own: the session that is left has another one.
      rintro rfl
      obtain rfl := Option.some.inj (hi.symm.trans hj)
      rw [hlive] at ended
      cases ended
    have hframe := frame_dropSession j m s
    refine session_eq_some.mpr ⟨?_, ?_⟩
    · rw [hframe.sessionsById]
      show (s.sessionsById.erase m.record.sessionId).get? sessionId = some i
      rw [Dict.get?_erase, if_neg ?_, hid]
      rintro rfl
      obtain ⟨m', hm', -, hmid⟩ := h.by_group groupFolder j hg
      obtain rfl := Option.some.inj (hj.symm.trans hm')
      exact hne (Option.some.inj (hid.symm.trans hmid))
    · rw [hframe.sessions]
      show (s.sessions.modify j fun m => { m with reconnectTask := none }).get? i = some managed
      rw [Heap.get?_modify, if_neg hne, hi]

theorem session_opened {sessionId : String} {i : ℕ} {managed new : ManagedTerminalSession}
    (hs : s.session sessionId = some (i, managed)) (hne : sessionId ≠ new.record.sessionId) :
    (s.opened new).session sessionId = some (i, managed) := by
  obtain ⟨hid, hi⟩ := session_eq_some.mp hs
  refine session_eq_some.mpr ⟨?_, ?_⟩
  · show (s.sessionsById.insert new.record.sessionId s.sessions.size).get? sessionId = some i
    rw [Dict.get?_insert, if_neg hne, hid]
  · show (s.sessions.alloc new).get? i = some managed
    rw [Heap.get?_alloc, if_neg (Nat.ne_of_lt (Heap.lt_size_of_get? hi)), hi]

/-- A creation leaves the sessions that are not ended alone. -/
theorem session_of_create {sessionId : String} {i : ℕ} {managed : ManagedTerminalSession}
    (h : Inv s) (ha : a.isCreate = true) (hfresh : s.Fresh a) (hstep : s.step a = some t)
    (hs : s.session sessionId = some (i, managed)) (hlive : managed.record.status.isTerminal = false) :
    t.session sessionId = some (i, managed) ∧ SameConnections s t := by
  cases a with
  | create groupId groupFolder ownerUserId requestedMode newId factory =>
    refine ⟨?_, step_create_connections hstep⟩
    rcases step_create hstep with hframe | ⟨v, hv, hframe | ⟨new, hnew, hframe⟩⟩
    · exact (session_congr hframe.toSameSessions sessionId).trans hs
    · exact (session_congr hframe.toSameSessions sessionId).trans (session_of_vacated h hv hs hlive)
    · refine (session_congr hframe.toSameSessions sessionId).trans
        (session_opened (session_of_vacated h hv hs hlive) ?_)
      rw [hnew.sessionId, ← h.sessionId_eq hs]
      exact hfresh managed (List.mem_of_getElem? (session_eq_some.mp hs).2)
  | _ => cases ha

theorem Attended.keep (k : Attended s) (h : Inv s) (hweb : s.ByWebsocket a) (htimely : s.Timely a)
    (hstep : s.step a = some t) : Attended t := by
  cases hcreate : a.isCreate with
  | false => exact k.step h hcreate hweb htimely hstep
  | true =>
    intro sessionId j hj
    have hsame : SameConnections s t := by
      cases a with
      | create => exact step_create_connections hstep
      | _ => cases hcreate
    rw [currentConnection, hsame.history] at hj
    obtain ⟨i, m, c, hs, hc, hstatus, hrest⟩ := k sessionId j hj
    have hlive : m.record.status.isTerminal = false := by rw [hstatus]; rfl
    obtain ⟨ht, -⟩ := session_of_create h hcreate hweb.1 hstep hs hlive
    exact ⟨i, m, c, ht, hsame.connections ▸ hc, hstatus, hrest⟩

/-! ## Stale disconnects -/

theorem openConnection_eq_some {k : ℕ} {connection : Connection}
    (h : s.openConnection k = some connection) : s.connections.get? k = some connection :=
  (Option.filter_eq_some_iff.mp h).1

/-- A disconnect that is not timely takes the session from its current connection. -/
theorem not_steady_of_stale (k : Attended s) (h : Inv s) (hC : ¬ s.Timely a)
    (hstep : s.step a = some t) : ¬ Steady t := by
  intro hsteady
  cases a with
  | disconnect l =>
    simp only [Timely, not_forall] at hC
    obtain ⟨c, hopen, j, hj, hjl⟩ := hC
    replace hopen : s.openConnection l = some c := hopen
    obtain ⟨i, m, c', hs, -, -⟩ := k c.sessionId j hj
    obtain ⟨i', m', hi', hcid, howner⟩ := h.connected l c (openConnection_eq_some hopen)
    have hi := (session_eq_some.mp hs).2
    obtain rfl := h.unique i i' m m' hi hi' ((h.sessionId_eq hs).trans hcid.symm)
    obtain rfl := Option.some.inj (hi.symm.trans hi')
    -- Connections have the owner of their session, so the call finds it.
    have htarget : s.target (.disconnect l) = some (i, m, .detach) := by
      simp [target, hopen, owned_eq_some.mpr ⟨hs, howner⟩]
    have hsessions := step_sessions rfl hstep
    obtain ⟨-, hhistory⟩ := h.step_connections rfl hstep
    rw [htarget] at hsessions
    obtain ⟨managed, hm, hsame⟩ := hsessions
    have hcurrent : t.currentConnection c.sessionId = some j := by
      rw [currentConnection_append hhistory, added, htarget]
      show _ = some j
      simp only [Effect.entries, List.append_nil]
      exact foldl_leaving.mpr ⟨hj, fun heq => hjl (Option.some.inj heq).symm⟩
    obtain ⟨i', managed', c'', hs', -, hstatus, -⟩ := hsteady c.sessionId j hcurrent
    rw [session_congr hsame, session_setSession hs, if_pos rfl] at hs'
    cases hs'
    rw [hm.status] at hstatus
    cases hstatus
  | _ => exact hC trivial

/-- **Current connections.** In a run of a recovered service, every current connection keeps its
session attached and its output queue in place in all states if and only if no connection
disconnects while another one is current for its session. -/
theorem steady_iff_timely {reconnectTimeoutSeconds : ℕ} {historyMaxBytes : Int}
    {snapshots : List TerminalSessionHistorySnapshot} {l : List Action}
    (h : Run step ByWebsocket
      (recoverActiveSessions reconnectTimeoutSeconds historyMaxBytes snapshots) l t) :
    (∀ l₁ l₂ u, l = l₁ ++ l₂ → Run step ByWebsocket
      (recoverActiveSessions reconnectTimeoutSeconds historyMaxBytes snapshots) l₁ u → Steady u) ↔
      Run step (fun s a => s.ByWebsocket a ∧ s.Timely a)
        (recoverActiveSessions reconnectTimeoutSeconds historyMaxBytes snapshots) l t := by
  obtain ⟨hinit, hempty⟩ :=
    inv_recoverActiveSessions reconnectTimeoutSeconds historyMaxBytes snapshots
  -- No session is attended before its first attach.
  have hattended : Attended
      (recoverActiveSessions reconnectTimeoutSeconds historyMaxBytes snapshots) :=
    fun sessionId k hk => by simp [currentConnection, hempty] at hk
  refine h.always_iff_of_kept (K := fun u => Inv u ∧ Attended u) ⟨hinit, hattended⟩
    (fun hu => hu.2.steady) (fun hu ha htimely hstep => ?_) fun hu _ hstale hstep => ?_
  · exact ⟨hu.1.step ha.1 hstep, hu.2.keep hu.1 ha htimely hstep⟩
  · exact not_steady_of_stale hu.2 hu.1 hstale hstep

/-- The workspace `home` gets a session with the id `s`, two websockets of its owner attach to it
one after the other, and `last` happens. -/
def twoConnections (last : List Action) : List Action :=
  [.create "home" "home" "alice" .container "s" (.ok none), .resume 0 none, .write 0 false,
    .resume 0 none, .attach "s" "alice" (.ok none), .write 1 false, .resume 1 none,
    .attach "s" "alice" (.ok none), .write 2 false, .resume 2 none] ++ last

theorem steady_iff_timely_lastLeaves :
    ∃ t, Run step ByWebsocket (recoverActiveSessions 30 32768 [])
        (twoConnections [.disconnect 1, .disconnect 0]) t ∧
      ∀ l₁ l₂ u, twoConnections [.disconnect 1, .disconnect 0] = l₁ ++ l₂ →
        Run step ByWebsocket (recoverActiveSessions 30 32768 []) l₁ u → Steady u := by
  have h : Run step (fun s a => s.ByWebsocket a ∧ s.Timely a) (recoverActiveSessions 30 32768 [])
    (twoConnections [.disconnect 1, .disconnect 0]) _ := .of_execute (by decide)
  have hrun := h.mono fun _ _ ha => ha.1
  exact ⟨_, hrun, (steady_iff_timely hrun).mpr h⟩

/-- The first websocket leaves after the second one attached: the session of the second one, still
the current one, is detached, and then the timer closes it. -/
theorem exists_stale_disconnect :
    ∃ u v, Run step ByWebsocket (recoverActiveSessions 30 32768 [])
        (twoConnections [.disconnect 0]) u ∧ ¬ Steady u ∧
      Run step ByWebsocket u [.resume 3 none] v ∧
      u.currentConnection "s" = some 1 ∧
      (u.record "s").map TerminalSessionRecord.status = some .detached ∧
      (v.record "s").map TerminalSessionRecord.status = some .closed := by
  have hu : Run step ByWebsocket (recoverActiveSessions 30 32768 [])
    (twoConnections [.disconnect 0]) _ := .of_execute (by decide)
  have hv : Run step ByWebsocket ((execute step ByWebsocket (recoverActiveSessions 30 32768 [])
    (twoConnections [.disconnect 0])).get (by decide)) [.resume 3 none] _ :=
    .of_execute (by decide)
  refine ⟨_, _, hu, fun hsteady => ?_, hv, by decide, by decide, by decide⟩
  -- The current connection is there, and its session is detached all the same.
  obtain ⟨i, m, c, hs, -, hstatus, -⟩ := hsteady "s" 1 (by decide)
  have hrecord := congrArg (Option.map fun entry => entry.2.record.status) hs
  rw [Option.map_some, hstatus] at hrecord
  exact absurd hrecord (by decide)

end TerminalSessionService

end Portex
