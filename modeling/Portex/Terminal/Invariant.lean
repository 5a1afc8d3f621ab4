import Portex.Terminal.Sessions

/-!
# The invariant of the terminal session service

The two maps are inverse to each other: a group has at most one session, and every session in the
maps is found by its own id and its own group.

## Main definitions

* `Inv`: the invariant
* `Connected`, `added`: the connections and the history after a step

## Main results

* `Inv.step_connections`: the connections and the history after a step
* `inv_recoverActiveSessions`, `inv_of_run`: the invariant holds in every run of a recovered
  service
-/

namespace Portex

open Foundation

namespace TerminalSessionService

variable {s t : TerminalSessionService}

/-! ## The invariant -/

/-- The two maps are inverse to each other, every session id belongs to one session, and every
connection to the owner of its session. -/
structure Inv (s : TerminalSessionService) : Prop where
  /-- No two sessions have one id. -/
  unique : ∀ i j managed managed', s.sessions.get? i = some managed →
    s.sessions.get? j = some managed' → managed.record.sessionId = managed'.record.sessionId → i = j
  by_id : ∀ sessionId i, s.sessionsById.get? sessionId = some i →
    ∃ managed, s.sessions.get? i = some managed ∧ managed.record.sessionId = sessionId ∧
      s.sessionsByGroup.get? managed.record.groupFolder = some i
  by_group : ∀ groupFolder i, s.sessionsByGroup.get? groupFolder = some i →
    ∃ managed, s.sessions.get? i = some managed ∧ managed.record.groupFolder = groupFolder ∧
      s.sessionsById.get? managed.record.sessionId = some i
  connected : ∀ k connection, s.connections.get? k = some connection →
    ∃ i managed, s.sessions.get? i = some managed ∧
      managed.record.sessionId = connection.sessionId ∧
      managed.record.ownerUserId = connection.ownerUserId

/-- What a step has checked of the session it finds. -/
structure Found (s : TerminalSessionService) (a : Action) (i : ℕ)
    (managed : ManagedTerminalSession) (effect : Effect) : Prop where
  get? : s.sessions.get? i = some managed
  /-- Only an attach attaches, with the next queue. -/
  attach : ∀ queue, effect = .attach queue → queue = s.queues.size ∧
    s.session managed.record.sessionId = some (i, managed) ∧
    ∃ factory, a = .attach managed.record.sessionId managed.record.ownerUserId factory
  raising : ∀ queue, effect = .attachRaising queue → managed.bridge = none
  detach : effect = .detach → (∃ sessionId ownerUserId, a = .detach sessionId ownerUserId) ∨
    ∃ k connection, a = .disconnect k ∧ s.openConnection k = some connection ∧
      connection.sessionId = managed.record.sessionId
  expire : effect = .expire → managed.record.status = .detached

/-- The session of an id, found by the id. -/
theorem Inv.sessionId_eq (h : Inv s) {sessionId : String} {i : ℕ}
    {managed : ManagedTerminalSession} (hs : s.session sessionId = some (i, managed)) :
    managed.record.sessionId = sessionId := by
  obtain ⟨hid, hi⟩ := session_eq_some.mp hs
  obtain ⟨m, hm, hsid, -⟩ := h.by_id sessionId i hid
  obtain rfl := Option.some.inj (hm.symm.trans hi)
  exact hsid

/-- **The session a step finds** is one of the service. -/
theorem Inv.found (h : Inv s) {a : Action} {i : ℕ} {managed : ManagedTerminalSession}
    {effect : Effect} (ht : s.target a = some (i, managed, effect)) :
    Found s a i managed effect := by
  have hget := get?_of_target ht
  cases finds_of_target ht with
  -- The record of the session has the id it was looked up by.
  | attach owned =>
    obtain ⟨hs, rfl⟩ := owned_eq_some.mp owned
    obtain rfl := h.sessionId_eq hs
    exact ⟨hget, fun queue hq => ⟨by simpa using hq.symm, hs, _, rfl⟩, by simp, by simp, by simp⟩
  | attachRaising _ bridge => exact ⟨hget, by simp, fun _ _ => bridge, by simp, by simp⟩
  | detach => exact ⟨hget, by simp, by simp, fun _ => .inl ⟨_, _, rfl⟩, by simp⟩
  -- A disconnect detaches the session that its connection was made for.
  | @disconnect k connection present owned =>
    have hid := h.sessionId_eq (owned_eq_some.mp owned).1
    exact ⟨hget, by simp, by simp, fun _ => .inr ⟨k, connection, rfl, present, hid.symm⟩, by simp⟩
  | expire _ detached => exact ⟨hget, by simp, by simp, by simp, fun _ => detached⟩
  -- Nothing else is known where the effect is not checked for more.
  | plain _ plain =>
    cases effect with
    | attach | attachRaising | detach | expire => exact absurd plain id
    | close | exit | failAttach | output => exact ⟨hget, by simp, by simp, by simp, by simp⟩

/-! ## Identities -/

/-- What an assignment never changes. -/
def identity (managed : ManagedTerminalSession) : String × String × String :=
  (managed.record.sessionId, managed.record.groupFolder, managed.record.ownerUserId)

theorem identity_eq_iff {managed managed' : ManagedTerminalSession} :
    identity managed = identity managed' ↔
      managed.record.sessionId = managed'.record.sessionId ∧
        managed.record.groupFolder = managed'.record.groupFolder ∧
          managed.record.ownerUserId = managed'.record.ownerUserId := by
  simp [identity]

/-- The sessions of `t` are those of `s` with other contents. -/
def SameIdentities (s t : TerminalSessionService) : Prop :=
  ∀ i, (t.sessions.get? i).map identity = (s.sessions.get? i).map identity

theorem SameIdentities.exists_left (h : SameIdentities s t) {i : ℕ}
    {managed : ManagedTerminalSession} (hi : t.sessions.get? i = some managed) :
    ∃ managed', s.sessions.get? i = some managed' ∧ identity managed' = identity managed := by
  have hmap := h i
  rw [hi, Option.map_some] at hmap
  obtain ⟨managed', hm, hid⟩ := Option.map_eq_some_iff.mp hmap.symm
  exact ⟨managed', hm, hid⟩

theorem SameIdentities.exists_right (h : SameIdentities s t) {i : ℕ}
    {managed : ManagedTerminalSession} (hi : s.sessions.get? i = some managed) :
    ∃ managed', t.sessions.get? i = some managed' ∧ identity managed' = identity managed := by
  have hmap := h i
  rw [hi, Option.map_some] at hmap
  obtain ⟨managed', hm, hid⟩ := Option.map_eq_some_iff.mp hmap
  exact ⟨managed', hm, hid⟩

theorem sameIdentities_modify {i : ℕ}
    {f : ManagedTerminalSession → ManagedTerminalSession}
    (hs : t.sessions = s.sessions.modify i f)
    (hf : ∀ managed, s.sessions.get? i = some managed → identity (f managed) = identity managed) :
    SameIdentities s t := by
  intro j
  rw [hs, Heap.get?_modify]
  split
  · rename_i hj
    subst hj
    cases h : s.sessions.get? j with
    | none => rfl
    | some managed => simp [hf managed h]
  · rfl

/-- The invariant looks at the identities of the sessions only. -/
theorem Inv.of_sameIdentities (h : Inv s) (k : SameIdentities s t)
    (hid : t.sessionsById = s.sessionsById) (hgroup : t.sessionsByGroup = s.sessionsByGroup)
    (hconn : t.connections = s.connections) : Inv t where
  -- Two equal ids were equal before.
  unique i j managed managed' hi hj heq := by
    obtain ⟨m, hm, hmid⟩ := k.exists_left hi
    obtain ⟨m', hm', hmid'⟩ := k.exists_left hj
    have hsid := (identity_eq_iff.mp hmid).1
    have hsid' := (identity_eq_iff.mp hmid').1
    exact h.unique i j m m' hm hm' (by rw [hsid, hsid', heq])
  -- The maps lead to the same sessions, whose ids and groups are those of before.
  by_id sessionId i hi := by
    obtain ⟨m, hm, hsid, hg⟩ := h.by_id sessionId i (hid ▸ hi)
    obtain ⟨m', hm', hmid⟩ := k.exists_right hm
    obtain ⟨hs, hf, -⟩ := identity_eq_iff.mp hmid
    exact ⟨m', hm', hs.trans hsid, by rw [hgroup, hf, hg]⟩
  by_group groupFolder i hi := by
    obtain ⟨m, hm, hg, hsid⟩ := h.by_group groupFolder i (hgroup ▸ hi)
    obtain ⟨m', hm', hmid⟩ := k.exists_right hm
    obtain ⟨hs, hf, -⟩ := identity_eq_iff.mp hmid
    exact ⟨m', hm', hf.trans hg, by rw [hid, hs, hsid]⟩
  connected j connection hj := by
    obtain ⟨i, m, hm, hsid, howner⟩ := h.connected j connection (hconn ▸ hj)
    obtain ⟨m', hm', hmid⟩ := k.exists_right hm
    obtain ⟨hs, -, ho⟩ := identity_eq_iff.mp hmid
    exact ⟨i, m', hm', hs.trans hsid, ho.trans howner⟩

theorem SameSessions.sameIdentities (h : SameSessions s t) : SameIdentities s t := by
  intro i
  rw [h.sessions]

theorem Inv.frame (h : Inv s) (k : Frame s t) : Inv t :=
  h.of_sameIdentities k.toSameSessions.sameIdentities k.sessionsById k.sessionsByGroup k.connections

theorem identity_of_rewritten {effect : Effect} {managed managed' : ManagedTerminalSession}
    (h : effect.Rewritten managed managed') : identity managed' = identity managed :=
  identity_eq_iff.mpr ⟨h.sessionId, h.groupFolder, h.ownerUserId⟩

/-- Dropping a session keeps the invariant: it leaves both maps. -/
theorem Inv.dropSession (h : Inv s) {groupFolder : String} {i : ℕ}
    {managed : ManagedTerminalSession} (found : s.sessionOfGroup groupFolder = some (i, managed)) :
    Inv (s.dropSession i managed) ∧
      (s.dropSession i managed).sessionsByGroup.get? groupFolder = none := by
  obtain ⟨hg, hi⟩ := sessionOfGroup_eq_some.mp found
  obtain ⟨m, hm, hfolder, hsid⟩ := h.by_group groupFolder i hg
  obtain rfl := Option.some.inj (hi.symm.trans hm)
  have hframe := frame_dropSession i managed s
  refine ⟨.frame ?_ hframe, by rw [hframe.sessionsByGroup]; simp [hfolder]⟩
  -- The contents of the dropped session change before it leaves the maps.
  have hsame : SameIdentities s { s with
      sessions := s.sessions.modify i fun managed => { managed with reconnectTask := none } } :=
    sameIdentities_modify rfl fun _ _ => rfl
  have hmod := h.of_sameIdentities hsame rfl rfl rfl
  have hfolder : s.sessionsByGroup.get? managed.record.groupFolder = some i := by rwa [hfolder]
  refine ⟨hmod.unique, fun sessionId j hj => ?_, fun g j hj => ?_, hmod.connected⟩
  · rw [Dict.get?_erase] at hj
    split at hj
    · cases hj
    · rename_i hne
      obtain ⟨m', hm', hsid', hg'⟩ := h.by_id sessionId j hj
      obtain ⟨m'', hm'', hid⟩ := hsame.exists_right hm'
      obtain ⟨hs, hf, -⟩ := identity_eq_iff.mp hid
      refine ⟨m'', hm'', hs.trans hsid', ?_⟩
      rw [hf, Dict.get?_erase, if_neg ?_, hg']
      intro heq
      rw [heq, hfolder] at hg'
      obtain rfl := Option.some.inj hg'
      obtain rfl := Option.some.inj (hm'.symm.trans hi)
      exact hne hsid'.symm
  · rw [Dict.get?_erase] at hj
    split at hj
    · cases hj
    · rename_i hne
      obtain ⟨m', hm', hg', hsid'⟩ := h.by_group g j hj
      obtain ⟨m'', hm'', hid⟩ := hsame.exists_right hm'
      obtain ⟨hs, hf, -⟩ := identity_eq_iff.mp hid
      refine ⟨m'', hm'', hf.trans hg', ?_⟩
      rw [hs, Dict.get?_erase, if_neg ?_, hsid']
      intro heq
      rw [heq, hsid] at hsid'
      obtain rfl := Option.some.inj hsid'
      obtain rfl := Option.some.inj (hm'.symm.trans hi)
      exact hne hg'.symm

/-- Opening a session with a fresh id in a group without one keeps the invariant. -/
theorem Inv.opened (h : Inv s) {managed : ManagedTerminalSession}
    (fresh : ∀ i m, s.sessions.get? i = some m → m.record.sessionId ≠ managed.record.sessionId)
    (free : s.sessionsByGroup.get? managed.record.groupFolder = none) :
    Inv (s.opened managed) := by
  -- The new session comes last, and the others stay where they are.
  have hold : ∀ {i m}, s.sessions.get? i = some m → (s.opened managed).sessions.get? i = some m := by
    intro i m hi
    show (s.sessions.alloc managed).get? i = some m
    rw [Heap.get?_alloc, if_neg (Nat.ne_of_lt (Heap.lt_size_of_get? hi)), hi]
  have hnew : (s.opened managed).sessions.get? s.sessions.size = some managed := by
    show (s.sessions.alloc managed).get? s.sessions.size = some managed
    rw [Heap.get?_alloc, if_pos rfl]
  constructor
  -- The new id is fresh, so two sessions with one id are both old or both new.
  case unique =>
    intro i j m m' hi hj heq
    rcases get?_opened hi with ⟨rfl, rfl⟩ | hi' <;> rcases get?_opened hj with ⟨rfl, rfl⟩ | hj'
    · rfl
    · exact absurd heq.symm (fresh j m' hj')
    · exact absurd heq (fresh i m hi')
    · exact h.unique i j m m' hi' hj' heq
  -- The entry is the new one, or one of before, whose group was not free.
  case by_id =>
    intro sessionId i hi
    replace hi : (s.sessionsById.insert managed.record.sessionId s.sessions.size).get? sessionId =
      some i := hi
    show ∃ m, _ ∧ _ ∧
      (s.sessionsByGroup.insert managed.record.groupFolder s.sessions.size).get? _ = some i
    rw [Dict.get?_insert] at hi
    split at hi
    · rename_i heq
      obtain rfl := Option.some.inj hi
      exact ⟨managed, hnew, heq.symm, by simp⟩
    · obtain ⟨m, hm, hsid, hg⟩ := h.by_id sessionId i hi
      refine ⟨m, hold hm, hsid, ?_⟩
      rw [Dict.get?_insert, if_neg ?_, hg]
      intro heq
      rw [heq, free] at hg
      cases hg
  -- The entry is the new one, or one of before, whose id is not the fresh one.
  case by_group =>
    intro g i hi
    replace hi : (s.sessionsByGroup.insert managed.record.groupFolder s.sessions.size).get? g =
      some i := hi
    show ∃ m, _ ∧ _ ∧
      (s.sessionsById.insert managed.record.sessionId s.sessions.size).get? _ = some i
    rw [Dict.get?_insert] at hi
    split at hi
    · rename_i heq
      obtain rfl := Option.some.inj hi
      exact ⟨managed, hnew, heq.symm, by simp⟩
    · obtain ⟨m, hm, hg, hsid⟩ := h.by_group g i hi
      refine ⟨m, hold hm, hg, ?_⟩
      rw [Dict.get?_insert, if_neg (fresh i m hm), hsid]
  case connected =>
    intro k connection hk
    obtain ⟨i, m, hm, hs⟩ := h.connected k connection hk
    exact ⟨i, m, hold hm, hs⟩

/-! ## Connections and history -/

/-- What a step that creates no session adds to the history. -/
def added (s : TerminalSessionService) (a : Action) : List HistoryEntry :=
  ((leaving a).map HistoryEntry.left).toList ++
    match s.target a with
    | some (_, managed, effect) => effect.entries managed.record.sessionId s.connections.size
    | none => []

/-- The connections after a step: an attach adds one, and others may leave. -/
inductive Connected (s : TerminalSessionService) (a : Action) : Heap Connection → Prop
  | attach {i : ℕ} {managed : ManagedTerminalSession} {connection : Connection}
      (target : s.target a = some (i, managed, .attach s.queues.size))
      (sessionId : connection.sessionId = managed.record.sessionId)
      (ownerUserId : connection.ownerUserId = managed.record.ownerUserId)
      (queue : connection.queue = s.queues.size) :
      Connected s a (s.connections.alloc connection)
  | leave {k : ℕ} (leaving : leaving a = some k) :
      Connected s a (s.connections.modify k fun c => { c with left := true })
  | keep (leaving : leaving a = none)
      (still : ∀ i managed queue, s.target a ≠ some (i, managed, .attach queue)) :
      Connected s a s.connections

theorem history_departed (s : TerminalSessionService) (a : Action) :
    (s.departed a).history = s.history ++ ((leaving a).map HistoryEntry.left).toList := by
  unfold departed
  split
  · rename_i k hk
    rw [hk]
    rfl
  · rename_i hk
    rw [hk]
    exact (List.append_nil _).symm

theorem connections_departed {a : Action}
    (still : ∀ i managed queue, s.target a ≠ some (i, managed, .attach queue)) :
    Connected s a (s.departed a).connections := by
  unfold departed
  split
  · rename_i k hk
    exact .leave hk
  · rename_i hk
    exact .keep hk still

theorem connections_assign {effect : Effect} (he : ∀ queue, effect ≠ .attach queue) (i n : ℕ)
    (managed : ManagedTerminalSession) (s : TerminalSessionService) :
    (s.assign effect i managed).connections = s.connections ∧
      (s.assign effect i managed).history =
        s.history ++ effect.entries managed.record.sessionId n := by
  cases effect with
  | attach queue => exact absurd rfl (he queue)
  | attachRaising | detach | output => exact ⟨rfl, (List.append_nil _).symm⟩
  | close | exit | expire | failAttach => exact ⟨rfl, rfl⟩

theorem does_connections {a : Action} {u : TerminalSessionService}
    (hdoes : Does (s.departed a) (s.target a) u)
    (he : ∀ i managed queue, s.target a ≠ some (i, managed, .attach queue)) :
    u.connections = (s.departed a).connections ∧ u.history = s.history ++ s.added a := by
  have hdeparted := history_departed s a
  unfold added
  cases htarget : s.target a with
  -- Nothing is assigned: what the connection left behind is all.
  | none =>
    rw [htarget] at hdoes
    have hframe : Frame (s.departed a) u := hdoes
    exact ⟨hframe.connections, by rw [hframe.history, hdeparted, List.append_nil]⟩
  -- The effect is no attach, so it makes no connection either.
  | some found =>
    obtain ⟨i, managed, effect⟩ := found
    rw [htarget] at hdoes
    obtain ⟨managed', hm, hframe⟩ := hdoes
    obtain ⟨hc, hh⟩ := connections_assign (fun queue h => he i managed queue (h ▸ htarget)) i
      s.connections.size managed' (s.departed a)
    exact ⟨hframe.connections.trans hc, by
      rw [hframe.history, hh, hdeparted, hm.sessionId, List.append_assoc]⟩

theorem connections_connect (sessionId ownerUserId : String) (queue : ℕ)
    {result : TaskPhase × TerminalSessionService} :
    (∃ error, result.1 = .raised error) →
      (connect sessionId ownerUserId queue result).connections = result.2.connections ∧
        (connect sessionId ownerUserId queue result).history = result.2.history := by
  rintro ⟨error, h⟩
  obtain ⟨phase, s⟩ := result
  obtain rfl : phase = .raised error := h
  exact ⟨rfl, rfl⟩

theorem connections_connect_attached (sessionId ownerUserId : String) (queue : ℕ)
    {result : TaskPhase × TerminalSessionService} (h : ∀ error, result.1 ≠ .raised error) :
    (∃ call, (connect sessionId ownerUserId queue result).connections =
        result.2.connections.alloc { sessionId, ownerUserId, attachCall := call, queue }) ∧
      (connect sessionId ownerUserId queue result).history =
        result.2.history ++ [.attached result.2.connections.size sessionId] := by
  obtain ⟨phase, s⟩ := result
  cases phase with
  | raised error => exact absurd rfl (h error)
  | _ => exact ⟨⟨s.tasks.size, rfl⟩, rfl⟩

/-- **The connections and the history after a step** that creates no session. -/
theorem Inv.step_connections (h : Inv s) {a : Action} (ha : a.isCreate = false)
    (hstep : s.step a = some t) :
    Connected s a t.connections ∧ t.history = s.history ++ s.added a := by
  obtain ⟨u, hdoes, -, hsame⟩ := step_does ha hstep
  -- A step that attaches makes a connection, and the history has it.
  by_cases hattach : ∃ i managed queue, s.target a = some (i, managed, .attach queue)
  · obtain ⟨i, managed, queue, htarget⟩ := hattach
    obtain ⟨rfl, -, factory, rfl⟩ := (h.found htarget).attach queue rfl
    obtain rfl := Option.some.inj hstep
    have hphase := attachSession_phase managed.record.sessionId managed.record.ownerUserId factory s
    rw [show s.attachTarget _ _ factory = _ from htarget] at hphase
    -- The connection comes last, and the attach has left the others alone.
    obtain ⟨⟨call, hc⟩, hh⟩ := connections_connect_attached managed.record.sessionId
      managed.record.ownerUserId s.queues.size hphase
    have hdoes := does_attachSession managed.record.sessionId managed.record.ownerUserId factory s
    rw [show s.attachTarget _ _ factory = _ from htarget] at hdoes
    obtain ⟨managed', -, hframe⟩ := hdoes
    have hsc : (s.attachSession managed.record.sessionId managed.record.ownerUserId
      factory).2.connections = s.connections := hframe.connections
    have hsh : (s.attachSession managed.record.sessionId managed.record.ownerUserId
      factory).2.history = s.history := hframe.history
    refine ⟨?_, ?_⟩
    · rw [hc, hsc]
      exact .attach htarget rfl rfl rfl
    · rw [hh, hsc, hsh]
      simp only [added, htarget]
      rfl
  -- Otherwise a connection may have left, and none is made.
  · simp only [not_exists] at hattach
    obtain ⟨hc, hh⟩ := does_connections hdoes hattach
    have hdeparted := connections_departed hattach
    rw [← hc] at hdeparted
    -- An attach that raises is no connection either.
    by_cases hact : ∀ sessionId ownerUserId factory, a ≠ .attach sessionId ownerUserId factory
    · exact ⟨(hsame hact).connections ▸ hdeparted, (hsame hact).history.trans hh⟩
    · simp only [not_forall, not_not] at hact
      obtain ⟨sessionId, ownerUserId, factory, rfl⟩ := hact
      obtain rfl := Option.some.inj hstep
      have hphase := attachSession_phase sessionId ownerUserId factory s
      have hdoes := does_attachSession sessionId ownerUserId factory s
      obtain ⟨hc, hh⟩ := does_connections (a := .attach sessionId ownerUserId factory) hdoes hattach
      have hraised : ∃ error, (s.attachSession sessionId ownerUserId factory).1 = .raised error := by
        split at hphase
        · rename_i i managed queue htarget
          exact absurd htarget (hattach i managed queue)
        · exact hphase
      obtain ⟨hcc, hch⟩ := connections_connect sessionId ownerUserId s.queues.size hraised
      exact ⟨by rw [hcc, hc]; exact .keep rfl hattach, by rw [hch, hh]⟩

theorem step_create_connections {groupId groupFolder ownerUserId sessionId : String}
    {requestedMode : TerminalRequestedMode} {factory : Except String (Option String)}
    (h : s.step (.create groupId groupFolder ownerUserId requestedMode sessionId factory) = some t) :
    SameConnections s t := by
  rcases step_create h with hframe | ⟨u, hu, hframe | ⟨managed, -, hframe⟩⟩
  · exact hframe.toSameConnections
  · exact ⟨hframe.connections.trans hu.sameConnections.connections,
      hframe.history.trans hu.sameConnections.history⟩
  · exact ⟨hframe.connections.trans hu.sameConnections.connections,
      hframe.history.trans hu.sameConnections.history⟩

/-! ## Runs -/

theorem Inv.connections (h : Inv s) {a : Action} {connections : Heap Connection}
    (k : Connected s a connections) : Inv { s with connections } where
  unique := h.unique
  by_id := h.by_id
  by_group := h.by_group
  connected j connection hj := by
    -- A new connection has the id and the owner of its session; one that leaves keeps its own.
    cases k with
    | @attach i managed new target hsid howner =>
      replace hj : (s.connections.alloc new).get? j = some connection := hj
      rcases Heap.get?_alloc_cases hj with ⟨-, rfl⟩ | hj
      · exact ⟨i, managed, (h.found target).get?, hsid.symm, howner.symm⟩
      · exact h.connected j connection hj
    | @leave k hleaving =>
      replace hj : (s.connections.modify k fun c => { c with left := true }).get? j =
        some connection := hj
      rcases Heap.get?_modify_cases hj with ⟨c, hc, -, rfl⟩ | ⟨-, hj⟩
      · exact h.connected j c hc
      · exact h.connected j connection hj
    | keep => exact h.connected j connection hj

theorem sameIdentities_step {a : Action} (h : Inv s) (ha : a.isCreate = false)
    (hstep : s.step a = some t) :
    SameIdentities s t ∧ t.sessionsById = s.sessionsById ∧
      t.sessionsByGroup = s.sessionsByGroup := by
  have hsessions := step_sessions ha hstep
  cases htarget : s.target a with
  | none =>
    rw [htarget] at hsessions
    exact ⟨hsessions.sameIdentities, hsessions.sessionsById, hsessions.sessionsByGroup⟩
  -- The target keeps its id, its group and its owner whatever the effect.
  | some found =>
    obtain ⟨i, managed, effect⟩ := found
    rw [htarget] at hsessions
    obtain ⟨managed', hm, hsame⟩ := hsessions
    refine ⟨sameIdentities_modify hsame.sessions fun m hi => ?_, hsame.sessionsById,
      hsame.sessionsByGroup⟩
    obtain rfl := Option.some.inj (hi.symm.trans (h.found htarget).get?)
    exact identity_of_rewritten hm

theorem Inv.vacated (h : Inv s) {groupFolder : String} (k : Vacated s groupFolder t) :
    Inv t ∧ t.sessionsByGroup.get? groupFolder = none ∧ SameIdentities s t := by
  cases k with
  | free hfree =>
    refine ⟨h, ?_, fun _ => rfl⟩
    by_contra hne
    obtain ⟨i, hi⟩ := Option.ne_none_iff_exists'.mp hne
    obtain ⟨m, hm, -⟩ := h.by_group groupFolder i hi
    rw [sessionOfGroup_eq_some.mpr ⟨hi, hm⟩] at hfree
    cases hfree
  | @drop i managed found ended =>
    obtain ⟨hinv, hfree⟩ := h.dropSession found
    exact ⟨hinv, hfree, sameIdentities_modify (frame_dropSession i managed s).sessions
      fun _ _ => rfl⟩

/-- **The invariant is kept** by every step that draws a fresh session id. -/
theorem Inv.step (h : Inv s) {a : Action} (hfresh : s.Fresh a) (hstep : s.step a = some t) :
    Inv t := by
  cases hcreate : a.isCreate with
  | false =>
    obtain ⟨hsame, hid, hgroup⟩ := sameIdentities_step h hcreate hstep
    obtain ⟨hconn, -⟩ := h.step_connections hcreate hstep
    exact (h.connections hconn).of_sameIdentities hsame hid hgroup rfl
  | true =>
    cases a with
    | create groupId groupFolder ownerUserId requestedMode sessionId factory =>
      rcases step_create hstep with hframe | ⟨u, hu, hframe⟩
      · exact h.frame hframe
      · obtain ⟨hinv, hfree, hsame⟩ := h.vacated hu
        rcases hframe with hframe | ⟨managed, hm, hframe⟩
        · exact hinv.frame hframe
        · refine (hinv.opened (fun i m hi => ?_) (hm.groupFolder ▸ hfree)).frame hframe
          -- The ids of the sessions are those before the drop.
          obtain ⟨m', hm', hid⟩ := hsame.exists_left hi
          rw [hm.sessionId, ← (identity_eq_iff.mp hid).1]
          exact hfresh m' (List.mem_of_getElem? hm')
    | _ => cases hcreate

/-- Recovery enters every session it makes into both maps. -/
theorem inv_recoverActiveSessions (reconnectTimeoutSeconds : ℕ) (historyMaxBytes : Int)
    (snapshots : List TerminalSessionHistorySnapshot) :
    Inv (recoverActiveSessions reconnectTimeoutSeconds historyMaxBytes snapshots) ∧
      (recoverActiveSessions reconnectTimeoutSeconds historyMaxBytes snapshots).history = [] := by
  -- Nothing is dropped, so a session id that the map lacks is fresh.
  have hlisted : Inv (recoverActiveSessions reconnectTimeoutSeconds historyMaxBytes snapshots) ∧
      ∀ i m, (recoverActiveSessions reconnectTimeoutSeconds historyMaxBytes
        snapshots).sessions.get? i = some m →
          (recoverActiveSessions reconnectTimeoutSeconds historyMaxBytes
            snapshots).sessionsById.get? m.record.sessionId = some i := by
    apply recover_induction (motive := fun s => Inv s ∧ ∀ i m, s.sessions.get? i = some m →
      s.sessionsById.get? m.record.sessionId = some i)
    · refine ⟨⟨?_, ?_, ?_, ?_⟩, ?_⟩ <;> intros <;> contradiction
    · rintro s ⟨h, hall⟩ snapshot - managed hrecovered
      have hfresh : ∀ i m, s.sessions.get? i = some m →
          m.record.sessionId ≠ managed.record.sessionId := by
        intro i m hi hsid
        have hm := hall i m hi
        rw [hsid, hrecovered.idFree] at hm
        cases hm
      refine ⟨h.opened hfresh hrecovered.groupFree, fun i m hi => ?_⟩
      show (s.sessionsById.insert managed.record.sessionId s.sessions.size).get? _ = some i
      rw [Dict.get?_insert]
      rcases get?_opened hi with ⟨rfl, rfl⟩ | hold
      · rw [if_pos rfl]
      · rw [if_neg (hfresh i m hold), hall i m hold]
  obtain ⟨_, _, _, heq⟩ :=
    recoverActiveSessions_eq reconnectTimeoutSeconds historyMaxBytes snapshots
  exact ⟨hlisted.1, by rw [heq]⟩

/-- The invariant holds in every run of a recovered service. -/
theorem inv_of_run {l : List Action} {allowed : TerminalSessionService → Action → Prop}
    (hle : ∀ s a, allowed s a → s.Fresh a) (hs : Inv s) (h : Run step allowed s l t) : Inv t :=
  h.invariant hs fun hinv ha hstep => hinv.step (hle _ _ ha) hstep

/-- Bob makes the next session of the workspace after the creation of Alice has answered. -/
def succeedingRun : List Action :=
  [.create "home" "home" "alice" .container "a" (.ok none), .resume 0 none, .write 0 false,
    .resume 0 none, .forceClose "home", .resume 1 none, .write 1 false, .resume 1 none,
    .create "home" "home" "bob" .container "b" (.ok none), .resume 2 none, .write 2 false,
    .resume 2 none]

end TerminalSessionService

end Portex
