import Portex.Messages.Dispatch

/-!
# What a dispatch has done

What the variables of a dispatch hold, whatever the order in which the dispatches and the
coordinator go on: its rows are all the rows of its run, what it sent out is all that went out for
its run, and its result is the stored result of the run that was asked for with its message.

## Main definitions

* `Tracked`: what the variables of a dispatch hold
* `Untouched`: nothing new was done for a run
* `Sound`: what is known of the dispatches, the table and the coordinator

## Main results

* `Sound.setDispatch`: a dispatch that goes on touches no run but its own
* `sound_step`: every action keeps what is known
-/

namespace Portex

open Foundation

/-- The id of the message that goes out for a run. -/
def outboundId (runId : String) : String := "out-" ++ runId

theorem outboundId_inj {runId runId' : String} (h : outboundId runId = outboundId runId') :
    runId = runId' := by
  have htext := congrArg String.toList h
  simp only [outboundId, String.toList_append] at htext
  exact String.toList_inj.mp (List.append_cancel_left htext)

namespace DispatchSystem

variable {cfg : DispatchConfig} {s t : DispatchSystem} {d : Dispatch}

/-! ## One dispatch -/

/-- The rows of a run. -/
def rowsOf (runId : String) (s : DispatchSystem) : List StoreCall :=
  s.rows.filter (·.runId = some runId)

/-- What went out for a run. -/
def routedOf (runId : String) (s : DispatchSystem) : List UnifiedMessage :=
  s.routed.filter (·.messageId = outboundId runId)

/-- The run was asked for. -/
def Asked (s : DispatchSystem) (d : Dispatch) (ticket : Ticket) : Prop :=
  (ticket.runId, buildExecutionRequest d.message d.executionMode ticket) ∈
    s.coordinator.history.submitted

/-- The caller is told of the result that the dispatch has, and of the rows that it added. -/
structure Reported (d : Dispatch) (told : DispatchResult) : Prop where
  of_result : ∃ ticket inbound result, d.ticket = some ticket ∧ d.inbound = some inbound ∧
    d.result = some result ∧ told.runId = result.runId ∧ told.status = result.status ∧
    told.groupFolder = ticket.target.groupFolder ∧ told.inboundMessageId = inbound.id ∧
    told.finalOutput = result.finalOutput ∧ (result.status = .completed ↔ d.reply.isSome = true)
  of_reply : told.outboundMessageId = d.reply.map StoreCall.id

/-- What is known where a dispatch stands. -/
def PhaseSound (s : DispatchSystem) (d : Dispatch) : DispatchPhase → Prop
  | .resolving => d.ticket = none ∧ d.inbound = none
  | .storing => d.inbound = none ∧ ∀ ticket, d.ticket = some ticket →
      ticket.runId ∉ s.coordinator.submittedIds
  | .submitting => d.result = none ∧ ∀ ticket, d.ticket = some ticket →
      ticket.runId ∉ s.coordinator.submittedIds
  | .submitted => d.result = none ∧ ∀ ticket, d.ticket = some ticket → s.Asked d ticket
  | .waiting waiter => d.result = none ∧ ∀ ticket, d.ticket = some ticket →
      s.Asked d ticket ∧ ∃ w, s.coordinator.waiters.get? waiter = some w ∧ w.runId = ticket.runId
  | .routing | .replying => d.reply = none
  | .recorded | .raised _ => True
  | .returned told => Reported d told

/-- What the variables of a dispatch hold. -/
structure Tracked (cfg : DispatchConfig) (s : DispatchSystem) (d : Dispatch) : Prop where
  phase : s.PhaseSound d d.phase
  rows : ∀ ticket, d.ticket = some ticket →
    s.rowsOf ticket.runId = d.inbound.toList ++ d.reply.toList
  routed : ∀ ticket, d.ticket = some ticket → s.routedOf ticket.runId = d.outbound.toList
  inbound : ∀ call, d.inbound = some call → ∃ ticket, d.ticket = some ticket ∧
    call = inboundCall d.message ticket call.id call.timestamp
  result : ∀ result, d.result = some result → d.inbound.isSome = true ∧
    ∃ ticket, d.ticket = some ticket ∧ s.Asked d ticket ∧
      result ∈ s.coordinator.history.stored ∧ result.runId = ticket.runId
  outbound : ∀ message, d.outbound = some message → ∃ ticket result output,
    d.ticket = some ticket ∧ d.result = some result ∧ result.status = .completed ∧
      result.finalOutput = some output ∧ isBlank output = false ∧
      message = outboundMessage cfg d.message ticket result output message.timestamp
  reply : ∀ call, d.reply = some call → ∃ ticket result message, d.ticket = some ticket ∧
    d.result = some result ∧ d.outbound = some message ∧
      call = replyCall cfg d.message ticket result message call.id call.timestamp

theorem Tracked.result_none (h : Tracked cfg s d) (hinbound : d.inbound = none) :
    d.result = none := by
  rw [Option.eq_none_iff_forall_ne_some]
  intro result hresult
  obtain ⟨hsome, -⟩ := h.result result hresult
  rw [hinbound] at hsome
  cases hsome

theorem Tracked.outbound_none (h : Tracked cfg s d) (hresult : d.result = none) :
    d.outbound = none := by
  rw [Option.eq_none_iff_forall_ne_some]
  intro message hmessage
  obtain ⟨-, result, -, -, hsome, -⟩ := h.outbound message hmessage
  rw [hresult] at hsome
  cases hsome

theorem Tracked.reply_none (h : Tracked cfg s d) (houtbound : d.outbound = none) :
    d.reply = none := by
  rw [Option.eq_none_iff_forall_ne_some]
  intro call hcall
  obtain ⟨-, -, message, -, -, hsome, -⟩ := h.reply call hcall
  rw [houtbound] at hsome
  cases hsome

/-! ## What the others do -/

/-- Nothing new was done for a run. -/
structure Untouched (runId : String) (s t : DispatchSystem) : Prop where
  rows : t.rowsOf runId = s.rowsOf runId
  routed : t.routedOf runId = s.routedOf runId
  submitted : runId ∈ t.coordinator.submittedIds → runId ∈ s.coordinator.submittedIds

theorem Untouched.of_coordinator {runId : String} {coordinator : Coordinator}
    (h : coordinator.history.submitted = s.coordinator.history.submitted) :
    Untouched runId s { s with coordinator } where
  rows := rfl
  routed := rfl
  submitted hmem := by
    unfold Coordinator.submittedIds at hmem ⊢
    rwa [h] at hmem

theorem Asked.later {ticket : Ticket} (h : s.Asked d ticket)
    (hlater : Coordinator.Later s.coordinator t.coordinator) : t.Asked d ticket :=
  hlater.submitted.subset h

theorem PhaseSound.later {phase : DispatchPhase} (h : s.PhaseSound d phase)
    (hlater : Coordinator.Later s.coordinator t.coordinator)
    (hrun : ∀ ticket, d.ticket = some ticket → Untouched ticket.runId s t) :
    t.PhaseSound d phase := by
  cases phase with
  | storing | submitting =>
    refine ⟨h.1, fun ticket hticket hmem => ?_⟩
    exact h.2 ticket hticket ((hrun ticket hticket).submitted hmem)
  | submitted => exact ⟨h.1, fun ticket hticket => (h.2 ticket hticket).later hlater⟩
  | waiting waiter =>
    refine ⟨h.1, fun ticket hticket => ?_⟩
    obtain ⟨hasked, w, hw, hown⟩ := h.2 ticket hticket
    obtain ⟨w', hw', hsame⟩ := hlater.waiters waiter w hw
    exact ⟨hasked.later hlater, w', hw', hsame.trans hown⟩
  | resolving | routing | replying | recorded | returned | raised => exact h

/-- What is known of a dispatch is known while nothing is done for its run. -/
theorem Tracked.later (h : Tracked cfg s d)
    (hlater : Coordinator.Later s.coordinator t.coordinator)
    (hrun : ∀ ticket, d.ticket = some ticket → Untouched ticket.runId s t) : Tracked cfg t d where
  phase := h.phase.later hlater hrun
  rows ticket hticket := (hrun ticket hticket).rows.trans (h.rows ticket hticket)
  routed ticket hticket := (hrun ticket hticket).routed.trans (h.routed ticket hticket)
  inbound := h.inbound
  result result hresult := by
    obtain ⟨hinbound, ticket, hticket, hasked, hstored, hown⟩ := h.result result hresult
    exact ⟨hinbound, ticket, hticket, hasked.later hlater, hlater.stored.subset hstored, hown⟩
  outbound := h.outbound
  reply := h.reply

/-- A dispatch that goes on, with the same variables. -/
theorem Tracked.pass (h : Tracked cfg s d) {phase : DispatchPhase} (hphase : s.PhaseSound d phase) :
    Tracked cfg s { d with phase } where
  phase := by
    cases phase with
    | returned told => exact ⟨hphase.of_result, hphase.of_reply⟩
    | _ => exact hphase
  rows := h.rows
  routed := h.routed
  inbound := h.inbound
  result := h.result
  outbound := h.outbound
  reply := h.reply

/-! ## All dispatches -/

/-- What is known of the dispatches, the table and the coordinator. -/
structure Sound (cfg : DispatchConfig) (s : DispatchSystem) : Prop where
  trusted : Coordinator.Trusted cfg.coordinator s.coordinator
  tracked : ∀ i d, s.dispatches.get? i = some d → Tracked cfg s d
  /-- No two dispatches have a run id in common. -/
  unique : ∀ i j d d' ticket ticket', s.dispatches.get? i = some d →
    s.dispatches.get? j = some d' → d.ticket = some ticket → d'.ticket = some ticket' →
      ticket.runId = ticket'.runId → i = j
  runIds_plain : ∀ runId ∈ s.runIds, Unpadded runId
  rows_from : ∀ row ∈ s.rows, ∃ runId ∈ s.runIds, row.runId = some runId
  routed_from : ∀ message ∈ s.routed, ∃ runId ∈ s.runIds, message.messageId = outboundId runId

theorem mem_runIds {runId : String} : runId ∈ s.runIds ↔
    ∃ i d ticket, s.dispatches.get? i = some d ∧ d.ticket = some ticket ∧ ticket.runId = runId := by
  unfold runIds
  rw [List.mem_filterMap]
  constructor
  · rintro ⟨d, hd, hrun⟩
    obtain ⟨i, hi⟩ := List.getElem?_of_mem hd
    obtain ⟨ticket, hticket, rfl⟩ := Option.map_eq_some_iff.mp hrun
    exact ⟨i, d, ticket, hi, hticket, rfl⟩
  · rintro ⟨i, d, ticket, hd, hticket, rfl⟩
    exact ⟨d, List.mem_of_getElem? hd, by rw [hticket]; rfl⟩

theorem sound_empty (cfg : DispatchConfig) : Sound cfg {} where
  trusted := Coordinator.trusted_empty cfg.coordinator
  tracked i d hd := by cases hd
  unique i j d d' ticket ticket' hd := by cases hd
  runIds_plain runId hmem := by cases hmem
  rows_from row hmem := by cases hmem
  routed_from message hmem := by cases hmem

theorem untouched_setDispatch (i : ℕ) (d : Dispatch) (runId : String) :
    Untouched runId s (s.setDispatch i d) :=
  ⟨rfl, rfl, id⟩

theorem Tracked.setDispatch {d' : Dispatch} (h : Tracked cfg s d) (i : ℕ) :
    Tracked cfg (s.setDispatch i d') d :=
  h.later (Coordinator.later_refl _) fun _ _ => untouched_setDispatch i d' _

/-- A dispatch that has a ticket keeps its run id when it goes on. -/
theorem mem_runIds_setDispatch {i : ℕ} {d d' : Dispatch} (hd : s.dispatches.get? i = some d)
    (hticket : d'.ticket = d.ticket) {runId : String} :
    runId ∈ (s.setDispatch i d').runIds ↔ runId ∈ s.runIds := by
  rw [mem_runIds, mem_runIds]
  constructor
  · rintro ⟨j, e, ticket, he, hsome, rfl⟩
    rcases Heap.get?_modify_cases he with ⟨old, hold, rfl, rfl⟩ | ⟨-, hold⟩
    · exact ⟨_, d, ticket, hd, hticket ▸ hsome, rfl⟩
    · exact ⟨j, e, ticket, hold, hsome, rfl⟩
  · rintro ⟨j, e, ticket, he, hsome, rfl⟩
    by_cases hij : j = i
    · subst hij
      obtain rfl := Option.some.inj (hd.symm.trans he)
      refine ⟨j, d', ticket, ?_, hticket.trans hsome, rfl⟩
      simp [DispatchSystem.setDispatch, hd]
    · refine ⟨j, e, ticket, ?_, hsome, rfl⟩
      simp [DispatchSystem.setDispatch, hij, he]

/-- A dispatch goes on, and touches no run but its own. -/
theorem Sound.setDispatch (h : Sound cfg s) {i : ℕ} {d d' : Dispatch}
    (hd : s.dispatches.get? i = some d) (hdispatches : t.dispatches = s.dispatches)
    (htrusted : Coordinator.Trusted cfg.coordinator t.coordinator)
    (hlater : Coordinator.Later s.coordinator t.coordinator)
    (hothers : ∀ runId, (∀ ticket, d.ticket = some ticket → ticket.runId ≠ runId) →
      Untouched runId s t)
    (hrows : ∀ row ∈ t.rows, row ∈ s.rows ∨
      ∃ ticket, d.ticket = some ticket ∧ row.runId = some ticket.runId)
    (hrouted : ∀ message ∈ t.routed, message ∈ s.routed ∨
      ∃ ticket, d.ticket = some ticket ∧ message.messageId = outboundId ticket.runId)
    (hticket : d'.ticket = d.ticket) (htracked : Tracked cfg t d') :
    Sound cfg (t.setDispatch i d') := by
  have hdt : t.dispatches.get? i = some d := hdispatches ▸ hd
  have hids {runId : String} : runId ∈ (t.setDispatch i d').runIds ↔ runId ∈ s.runIds := by
    rw [mem_runIds_setDispatch hdt hticket]
    unfold runIds
    rw [hdispatches]
  have hown {ticket : Ticket} (hsome : d.ticket = some ticket) : ticket.runId ∈ s.runIds :=
    mem_runIds.mpr ⟨i, d, ticket, hd, hsome, rfl⟩
  -- A dispatch after this is the one that went on, or another one as it was.
  have hcases {j : ℕ} {e : Dispatch} (he : (t.setDispatch i d').dispatches.get? j = some e) :
      (i = j ∧ e = d') ∨ (j ≠ i ∧ s.dispatches.get? j = some e) := by
    rcases Heap.get?_modify_cases he with ⟨old, -, rfl, rfl⟩ | ⟨hne, hold⟩
    · exact .inl ⟨rfl, rfl⟩
    · exact .inr ⟨hne, hdispatches ▸ hold⟩
  refine ⟨htrusted, fun j e he => ?_, fun j k e e' ticket ticket' he he' hsome hsome' heq => ?_,
    fun runId hmem => h.runIds_plain runId (hids.mp hmem), fun row hrow => ?_,
    fun message hmessage => ?_⟩
  · rcases hcases he with ⟨rfl, rfl⟩ | ⟨hne, hold⟩
    · exact htracked.setDispatch i
    · refine ((h.tracked j e hold).later hlater fun ticket hsome => ?_).setDispatch i
      refine hothers ticket.runId fun ticket' hsome' heq => hne ?_
      exact h.unique j i e d ticket ticket' hold hd hsome hsome' heq.symm
  · rcases hcases he with ⟨rfl, rfl⟩ | ⟨-, hold⟩
    · rcases hcases he' with ⟨rfl, rfl⟩ | ⟨-, hold'⟩
      · rfl
      · exact h.unique i k d e' ticket ticket' hd hold' (hticket ▸ hsome) hsome' heq
    · rcases hcases he' with ⟨rfl, rfl⟩ | ⟨-, hold'⟩
      · exact h.unique j i e d ticket ticket' hold hd hsome (hticket ▸ hsome') heq
      · exact h.unique j k e e' ticket ticket' hold hold' hsome hsome' heq
  · rcases hrows row hrow with hbefore | ⟨ticket, hsome, hrun⟩
    · obtain ⟨runId, hmem, hrun⟩ := h.rows_from row hbefore
      exact ⟨runId, hids.mpr hmem, hrun⟩
    · exact ⟨ticket.runId, hids.mpr (hown hsome), hrun⟩
  · rcases hrouted message hmessage with hbefore | ⟨ticket, hsome, hid⟩
    · obtain ⟨runId, hmem, hid⟩ := h.routed_from message hbefore
      exact ⟨runId, hids.mpr hmem, hid⟩
    · exact ⟨ticket.runId, hids.mpr (hown hsome), hid⟩

/-- A dispatch goes on, and nothing else changes. -/
theorem Sound.pass (h : Sound cfg s) {i : ℕ} {d d' : Dispatch}
    (hd : s.dispatches.get? i = some d) (hticket : d'.ticket = d.ticket)
    (htracked : Tracked cfg s d') : Sound cfg (s.setDispatch i d') :=
  h.setDispatch hd rfl h.trusted (Coordinator.later_refl _) (fun _ _ => ⟨rfl, rfl, id⟩)
    (fun _ hrow => .inl hrow) (fun _ hmessage => .inl hmessage) hticket htracked

/-! ## Rows and messages of a run -/

theorem rowsOf_append {call : StoreCall} {runId own : String} (hcall : call.runId = some own) :
    { s with rows := s.rows ++ [call] }.rowsOf runId =
      if own = runId then s.rowsOf runId ++ [call] else s.rowsOf runId := by
  unfold rowsOf
  rw [List.filter_append]
  by_cases heq : own = runId
  · simp [hcall, heq]
  · simp [hcall, heq]

theorem routedOf_append {message : UnifiedMessage} {runId own : String}
    (hmessage : message.messageId = outboundId own) :
    { s with routed := s.routed ++ [message] }.routedOf runId =
      if own = runId then s.routedOf runId ++ [message] else s.routedOf runId := by
  unfold routedOf
  rw [List.filter_append]
  by_cases heq : own = runId
  · simp [hmessage, heq]
  · have hne : outboundId own ≠ outboundId runId := fun hid => heq (outboundId_inj hid)
    simp [hmessage, heq, hne]

theorem Sound.rowsOf_nil (h : Sound cfg s) {runId : String} (hfresh : runId ∉ s.runIds) :
    s.rowsOf runId = [] := by
  unfold rowsOf
  rw [List.filter_eq_nil_iff]
  intro row hrow
  obtain ⟨own, hown, hrun⟩ := h.rows_from row hrow
  simp only [hrun, decide_eq_true_eq, Option.some.injEq]
  rintro rfl
  exact hfresh hown

theorem Sound.routedOf_nil (h : Sound cfg s) {runId : String} (hfresh : runId ∉ s.runIds) :
    s.routedOf runId = [] := by
  unfold routedOf
  rw [List.filter_eq_nil_iff]
  intro message hmessage
  obtain ⟨own, hown, hid⟩ := h.routed_from message hmessage
  simp only [hid, decide_eq_true_eq]
  intro heq
  rw [outboundId_inj heq] at hown
  exact hfresh hown

/-! ## Every action -/

theorem sound_receive (h : Sound cfg s) (message : UnifiedMessage) (executionMode : Option String) :
    Sound cfg (s.receive message executionMode) := by
  have hnew (phase : DispatchPhase) (hphase : phase = .resolving ∨ ∃ error, phase = .raised error)
      (d : Dispatch) (hd : { message, executionMode, phase } = d) : Tracked cfg s d := by
    subst hd
    refine ⟨?_, nofun, nofun, nofun, nofun, nofun, nofun⟩
    rcases hphase with rfl | ⟨error, rfl⟩
    · exact ⟨rfl, rfl⟩
    · trivial
  have hids {runId : String} : runId ∈ (s.receive message executionMode).runIds ↔
      runId ∈ s.runIds := by
    simp [runIds, receive, Heap.alloc, List.filterMap_append]
  have htracked {d : Dispatch} (hd : Tracked cfg s d) :
      Tracked cfg (s.receive message executionMode) d :=
    hd.later (Coordinator.later_refl _) fun _ _ => ⟨rfl, rfl, id⟩
  refine ⟨h.trusted, fun i d hd => ?_, fun i j d d' ticket ticket' hd hd' hsome hsome' heq => ?_,
    fun runId hmem => h.runIds_plain runId (hids.mp hmem), fun row hrow => ?_,
    fun message hmessage => ?_⟩
  · rcases Heap.get?_alloc_cases hd with ⟨-, hlast⟩ | hbefore
    · refine htracked (hnew _ ?_ d hlast)
      split
      · exact .inr ⟨_, rfl⟩
      · exact .inl rfl
    · exact htracked (h.tracked i d hbefore)
  · rcases Heap.get?_alloc_cases hd with ⟨-, rfl⟩ | hbefore
    · cases hsome
    · rcases Heap.get?_alloc_cases hd' with ⟨-, rfl⟩ | hbefore'
      · cases hsome'
      · exact h.unique i j d d' ticket ticket' hbefore hbefore' hsome hsome' heq
  · obtain ⟨runId, hmem, hrun⟩ := h.rows_from row hrow
    exact ⟨runId, hids.mpr hmem, hrun⟩
  · obtain ⟨runId, hmem, hid⟩ := h.routed_from message hmessage
    exact ⟨runId, hids.mpr hmem, hid⟩

/-- Anything that happens to the coordinator touches no run of a dispatch. -/
theorem sound_coordinate (h : Sound cfg s) {action : Coordinator.Action} {coordinator : Coordinator}
    (hfresh : s.Fresh (.coordinate action))
    (hstep : s.coordinator.step cfg.coordinator action = some coordinator) :
    Sound cfg { s with coordinator } := by
  have hordinary : s.coordinator.Ordinary action := by
    cases action with
    | submit request uuid => exact hfresh.2
    | _ => exact hfresh
  have hlater := Coordinator.later_step h.trusted.inv hordinary hstep
  have huntouched {runId : String} (hmem : runId ∈ s.runIds) :
      Untouched runId s { s with coordinator } := by
    cases action with
    | submit request uuid =>
      obtain rfl := Option.some.inj hstep
      refine ⟨rfl, rfl, fun hsubmitted => ?_⟩
      unfold Coordinator.submittedIds at hsubmitted
      rw [Coordinator.submitted_submitExecution, List.map_append, List.mem_append] at hsubmitted
      rcases hsubmitted with hbefore | hlast
      · exact hbefore
      · -- The run that is submitted is none of a dispatch.
        obtain rfl := List.mem_singleton.mp hlast
        exact absurd hmem hfresh.1
    | _ => exact .of_coordinator (Coordinator.submitted_of_step h.trusted.inv hstep nofun)
  refine ⟨h.trusted.step hordinary hstep, fun i d hd => ?_, h.unique, h.runIds_plain, h.rows_from,
    h.routed_from⟩
  refine (h.tracked i d hd).later hlater fun ticket hticket => huntouched ?_
  exact mem_runIds.mpr ⟨i, d, ticket, hd, hticket, rfl⟩

/-- A run id is drawn. -/
theorem sound_resolve (h : Sound cfg s) {i : ℕ} (hd : s.dispatches.get? i = some d)
    (hphase : d.phase = .resolving) {ticket : Ticket} (hplain : Unpadded ticket.runId)
    (hfresh : ticket.runId ∉ s.runIds) (hnew : ticket.runId ∉ s.coordinator.submittedIds) :
    Sound cfg (s.setDispatch i { d with phase := .storing, ticket := some ticket }) := by
  have htracked := h.tracked i d hd
  obtain ⟨hnone, hinbound⟩ : d.ticket = none ∧ d.inbound = none := by
    have hsound := htracked.phase
    rwa [hphase] at hsound
  have hresult := htracked.result_none hinbound
  have houtbound := htracked.outbound_none hresult
  have hreply := htracked.reply_none houtbound
  have hown : Tracked cfg s { d with phase := .storing, ticket := some ticket } := by
    refine ⟨⟨hinbound, ?_⟩, ?_, ?_, ?_, ?_, ?_, ?_⟩
    · intro ticket' hsome
      obtain rfl := Option.some.inj hsome
      exact hnew
    · intro ticket' hsome
      obtain rfl := Option.some.inj hsome
      rw [h.rowsOf_nil hfresh, hinbound, hreply]
      rfl
    · intro ticket' hsome
      obtain rfl := Option.some.inj hsome
      rw [h.routedOf_nil hfresh, houtbound]
      rfl
    · intro call hcall
      exact absurd (hinbound.symm.trans hcall) nofun
    · intro result hsome
      exact absurd (hresult.symm.trans hsome) nofun
    · intro message hsome
      exact absurd (houtbound.symm.trans hsome) nofun
    · intro call hcall
      exact absurd (hreply.symm.trans hcall) nofun
  set d' : Dispatch := { d with phase := .storing, ticket := some ticket } with hd'
  have hcases {j : ℕ} {e : Dispatch} (he : (s.setDispatch i d').dispatches.get? j = some e) :
      (i = j ∧ e = d') ∨ (j ≠ i ∧ s.dispatches.get? j = some e) := by
    rcases Heap.get?_modify_cases he with ⟨old, -, rfl, rfl⟩ | ⟨hother, hold⟩
    · exact .inl ⟨rfl, rfl⟩
    · exact .inr ⟨hother, hold⟩
  have hids {runId : String} (hmem : runId ∈ s.runIds) : runId ∈ (s.setDispatch i d').runIds := by
    obtain ⟨j, e, ticket', he, hsome, rfl⟩ := mem_runIds.mp hmem
    refine mem_runIds.mpr ⟨j, e, ticket', ?_, hsome, rfl⟩
    have hother : j ≠ i := by
      rintro rfl
      obtain rfl := Option.some.inj (hd.symm.trans he)
      rw [hnone] at hsome
      cases hsome
    simp [DispatchSystem.setDispatch, hother, he]
  have hnot {j : ℕ} {e : Dispatch} {ticket' : Ticket} (he : s.dispatches.get? j = some e)
      (hsome : e.ticket = some ticket') : ticket'.runId ≠ ticket.runId := by
    intro heq
    exact hfresh (mem_runIds.mpr ⟨j, e, ticket', he, hsome, heq⟩)
  refine ⟨h.trusted, fun j e he => ?_, fun j k e e' ticket₁ ticket₂ he he' hsome hsome' heq => ?_,
    fun runId hmem => ?_, fun row hrow => ?_, fun message hmessage => ?_⟩
  · rcases hcases he with ⟨rfl, rfl⟩ | ⟨-, hold⟩
    · exact hown.setDispatch i
    · exact (h.tracked j e hold).setDispatch i
  · rcases hcases he with ⟨rfl, rfl⟩ | ⟨-, hold⟩
    · obtain rfl := Option.some.inj hsome
      rcases hcases he' with ⟨rfl, rfl⟩ | ⟨-, hold'⟩
      · rfl
      · exact absurd heq.symm (hnot hold' hsome')
    · rcases hcases he' with ⟨rfl, rfl⟩ | ⟨-, hold'⟩
      · obtain rfl := Option.some.inj hsome'
        exact absurd heq (hnot hold hsome)
      · exact h.unique j k e e' ticket₁ ticket₂ hold hold' hsome hsome' heq
  · obtain ⟨j, e, ticket', he, hsome, rfl⟩ := mem_runIds.mp hmem
    rcases hcases he with ⟨rfl, rfl⟩ | ⟨-, hold⟩
    · obtain rfl := Option.some.inj hsome
      exact hplain
    · exact h.runIds_plain _ (mem_runIds.mpr ⟨j, e, ticket', hold, hsome, rfl⟩)
  · obtain ⟨runId, hmem, hrun⟩ := h.rows_from row hrow
    exact ⟨runId, hids hmem, hrun⟩
  · obtain ⟨runId, hmem, hid⟩ := h.routed_from message hmessage
    exact ⟨runId, hids hmem, hid⟩

/-- A row of the run of a dispatch is added. -/
theorem Sound.addRow (h : Sound cfg s) {i : ℕ} (hd : s.dispatches.get? i = some d)
    {ticket : Ticket} (hticket : d.ticket = some ticket) {call : StoreCall}
    (hcall : call.runId = some ticket.runId) {d' : Dispatch} (hsame : d'.ticket = d.ticket)
    (htracked : Tracked cfg { s with rows := s.rows ++ [call] } d') :
    Sound cfg ({ s with rows := s.rows ++ [call] }.setDispatch i d') := by
  refine h.setDispatch hd rfl h.trusted (Coordinator.later_refl _) (fun runId hother => ?_) (fun row hrow => ?_)
    (fun message hmessage => .inl hmessage) hsame htracked
  · refine ⟨?_, rfl, id⟩
    rw [rowsOf_append hcall, if_neg (hother ticket hticket)]
  · rcases List.mem_append.mp hrow with hbefore | hlast
    · exact .inl hbefore
    · obtain rfl := List.mem_singleton.mp hlast
      exact .inr ⟨ticket, hticket, hcall⟩

/-- The question is recorded. -/
theorem sound_storeInbound (h : Sound cfg s) {i : ℕ} (hd : s.dispatches.get? i = some d)
    (hphase : d.phase = .storing) {ticket : Ticket} (hticket : d.ticket = some ticket)
    (id : String) (timestamp : ℤ) :
    Sound cfg ({ s with rows := s.rows ++ [inboundCall d.message ticket id timestamp] }.setDispatch
      i { d with phase := .submitting,
                 inbound := some (inboundCall d.message ticket id timestamp) }) := by
  have htracked := h.tracked i d hd
  obtain ⟨hinbound, hnew⟩ : d.inbound = none ∧ ∀ ticket, d.ticket = some ticket →
      ticket.runId ∉ s.coordinator.submittedIds := by
    have hsound := htracked.phase
    rwa [hphase] at hsound
  have hresult := htracked.result_none hinbound
  have houtbound := htracked.outbound_none hresult
  have hreply := htracked.reply_none houtbound
  refine h.addRow hd hticket rfl rfl ⟨⟨hresult, hnew⟩, ?_, htracked.routed, ?_, ?_, ?_, ?_⟩
  · intro ticket' hsome
    obtain rfl := Option.some.inj (hticket.symm.trans hsome)
    rw [rowsOf_append rfl, if_pos rfl, htracked.rows ticket hticket, hinbound, hreply]
    rfl
  · intro call hcall
    obtain rfl := Option.some.inj hcall
    exact ⟨ticket, hticket, rfl⟩
  · intro result hsome
    exact absurd (hresult.symm.trans hsome) nofun
  · exact htracked.outbound
  · exact htracked.reply

/-- The coordinator runs under the run id of the dispatch. -/
theorem sound_submit (h : Sound cfg s) {i : ℕ} (hd : s.dispatches.get? i = some d)
    (hphase : d.phase = .submitting) {ticket : Ticket} (hticket : d.ticket = some ticket)
    (uuid : String) : Sound cfg (s.submit i d ticket uuid) := by
  have htracked := h.tracked i d hd
  obtain ⟨hresult, hnew⟩ : d.result = none ∧ ∀ ticket, d.ticket = some ticket →
      ticket.runId ∉ s.coordinator.submittedIds := by
    have hsound := htracked.phase
    rwa [hphase] at hsound
  set request := buildExecutionRequest d.message d.executionMode ticket with hrequest
  have hrun : Coordinator.runIdOf request uuid = ticket.runId := by
    have hmem : ticket.runId ∈ s.runIds := mem_runIds.mpr ⟨i, d, ticket, hd, hticket, rfl⟩
    simp [Coordinator.runIdOf, hrequest, buildExecutionRequest, (h.runIds_plain _ hmem).2]
  have hordinary : s.coordinator.Ordinary (.submit request uuid) := by
    show Coordinator.runIdOf request uuid ∉ s.coordinator.submittedIds
    exact hrun ▸ hnew ticket hticket
  have hstep : s.coordinator.step cfg.coordinator (.submit request uuid) =
      some (s.coordinator.submitExecution request uuid).2 := rfl
  have hsubmitted := Coordinator.submitted_submitExecution (c := s.coordinator) request uuid
  rw [hrun] at hsubmitted
  have hlater := Coordinator.later_step h.trusted.inv hordinary hstep
  have hmove : Sound cfg ({ s with coordinator :=
      (s.coordinator.submitExecution request uuid).2 }.setDispatch i
        { d with phase := .submitted, ticket := some ticket }) := by
    refine h.setDispatch hd rfl (h.trusted.step hordinary hstep) hlater (fun runId hother => ?_)
      (fun row hrow => .inl hrow) (fun message hmessage => .inl hmessage) hticket.symm ?_
    · refine ⟨rfl, rfl, fun hmem => ?_⟩
      unfold Coordinator.submittedIds at hmem
      rw [hsubmitted, List.map_append, List.mem_append] at hmem
      rcases hmem with hbefore | hlast
      · exact hbefore
      · exact absurd (List.mem_singleton.mp hlast).symm (hother ticket hticket)
    · have hasked : { s with coordinator := (s.coordinator.submitExecution request uuid).2 }.Asked
          { d with phase := .submitted, ticket := some ticket } ticket := by
        unfold Asked
        rw [hsubmitted]
        exact List.mem_append_right _ List.mem_cons_self
      refine ⟨⟨hresult, fun ticket' hsome => ?_⟩, ?_, ?_, ?_, ?_, ?_, ?_⟩
      · obtain rfl := Option.some.inj hsome
        exact hasked
      · exact fun ticket' hsome => htracked.rows ticket' (hticket.trans hsome)
      · exact fun ticket' hsome => htracked.routed ticket' (hticket.trans hsome)
      · exact fun call hcall => hticket ▸ htracked.inbound call hcall
      · exact fun result hsome => absurd (hresult.symm.trans hsome) nofun
      · exact fun message hsome => hticket ▸ htracked.outbound message hsome
      · exact fun call hcall => hticket ▸ htracked.reply call hcall
  have heq : s.submit i d ticket uuid = { s with coordinator :=
      (s.coordinator.submitExecution request uuid).2 }.setDispatch i
        { d with phase := .submitted, ticket := some ticket } := by
    show { s with coordinator := (s.coordinator.submitExecution request uuid).2 }.setDispatch i
      { d with phase := .submitted,
               ticket := some { ticket with runId := Coordinator.runIdOf request uuid } } = _
    rw [hrun]
  exact heq ▸ hmove

/-- The task waits for the run, if the coordinator knows it. -/
theorem sound_wait (h : Sound cfg s) {i : ℕ} (hd : s.dispatches.get? i = some d)
    (hphase : d.phase = .submitted) {ticket : Ticket} (hticket : d.ticket = some ticket) :
    Sound cfg (s.wait i d ticket) := by
  have htracked := h.tracked i d hd
  obtain ⟨hresult, hasked⟩ : d.result = none ∧ ∀ ticket, d.ticket = some ticket →
      s.Asked d ticket := by
    have hsound := htracked.phase
    rwa [hphase] at hsound
  have hstep : s.coordinator.step cfg.coordinator (.wait ticket.runId) =
      some (s.coordinator.waitForRun ticket.runId) := rfl
  have hordinary : s.coordinator.Ordinary (.wait ticket.runId) := trivial
  have hlater := Coordinator.later_step h.trusted.inv hordinary hstep
  have hsubmitted := Coordinator.submitted_of_step h.trusted.inv hstep nofun
  have huntouched (runId : String) :
      Untouched runId s { s with coordinator := s.coordinator.waitForRun ticket.runId } :=
    .of_coordinator hsubmitted
  refine h.setDispatch hd rfl (h.trusted.step hordinary hstep) hlater
    (fun runId _ => huntouched runId) (fun row hrow => .inl hrow)
    (fun message hmessage => .inl hmessage) rfl ?_
  refine (htracked.later hlater fun ticket _ => huntouched ticket.runId).pass ?_
  split
  · trivial
  · rename_i hsize
    refine ⟨hresult, fun ticket' hsome => ⟨(hasked ticket' hsome).later hlater, ?_⟩⟩
    obtain rfl := Option.some.inj (hticket.symm.trans hsome)
    exact Coordinator.exists_waiter hsize

/-- The result of the run is there, or an error in its place. -/
theorem sound_resume (h : Sound cfg s) {i : ℕ} (hd : s.dispatches.get? i = some d) {waiter : ℕ}
    (hphase : d.phase = .waiting waiter) {ticket : Ticket} (hticket : d.ticket = some ticket)
    {inbound : StoreCall} (hinbound : d.inbound = some inbound) {timestamp : ℤ}
    (hstep : s.resume cfg i d ticket inbound waiter timestamp = some t) : Sound cfg t := by
  have htracked := h.tracked i d hd
  obtain ⟨hresult, hwaits⟩ : s.PhaseSound d (.waiting waiter) := hphase ▸ htracked.phase
  obtain ⟨hasked, w, hw, hown⟩ := hwaits ticket hticket
  have houtbound := htracked.outbound_none hresult
  have hreply := htracked.reply_none houtbound
  unfold resume at hstep
  rw [hw, Option.map_some] at hstep
  cases hstate : w.state with
  | waiting =>
    rw [hstate] at hstep
    cases hstep
  | cancelledError =>
    rw [hstate] at hstep
    obtain rfl := Option.some.inj hstep
    exact h.pass hd rfl (htracked.pass trivial)
  | returned result =>
    rw [hstate] at hstep
    obtain rfl := Option.some.inj hstep
    obtain ⟨hstored, hrun⟩ := (h.trusted.heard waiter w hw).2 result hstate
    -- The result is kept, and nothing else is known yet.
    have htaken (phase : DispatchPhase)
        (hsound : s.PhaseSound { d with result := some result } phase) :
        Tracked cfg s { d with phase, result := some result } := by
      refine ⟨?_, htracked.rows, htracked.routed, htracked.inbound, ?_, ?_, ?_⟩
      · cases phase with
        | returned told => exact ⟨hsound.of_result, hsound.of_reply⟩
        | _ => exact hsound
      · intro result' hsome
        obtain rfl := Option.some.inj hsome
        exact ⟨Option.isSome_iff_exists.mpr ⟨_, hinbound⟩, ticket, hticket, hasked, hstored,
          hrun.trans hown⟩
      · exact fun message hsome => absurd (houtbound.symm.trans hsome) nofun
      · exact fun call hsome => absurd (hreply.symm.trans hsome) nofun
    unfold takeResult
    dsimp only
    split
    · rename_i hstatus
      refine h.pass hd rfl (htaken _ ⟨⟨ticket, inbound, result, hticket, hinbound, rfl, rfl, rfl,
        rfl, rfl, rfl, ?_⟩, ?_⟩)
      · simp [hstatus, hreply]
      · simp [hreply]
    · rename_i hstatus
      have hcompleted : result.status = .completed := not_not.mp hstatus
      split
      · exact h.pass hd rfl (htaken _ trivial)
      · rename_i output hfilter
        obtain ⟨houtput, hblank⟩ := Option.filter_eq_some_iff.mp hfilter
        have hblank : isBlank output = false := by simpa using hblank
        split
        · -- The message goes out under the id of the run.
          set message := outboundMessage cfg d.message ticket result output timestamp with hmessage
          have hid : message.messageId = outboundId ticket.runId := by
            rw [← hown, ← hrun]
            rfl
          refine h.setDispatch hd rfl h.trusted (Coordinator.later_refl _) (fun runId hother => ?_)
            (fun row hrow => .inl hrow) (fun other hmem => ?_) rfl ?_
          · refine ⟨rfl, ?_, id⟩
            rw [routedOf_append hid, if_neg (hother ticket hticket)]
          · rcases List.mem_append.mp hmem with hbefore | hlast
            · exact .inl hbefore
            · obtain rfl := List.mem_singleton.mp hlast
              exact .inr ⟨ticket, hticket, hid⟩
          · have hkept := htaken .routing hreply
            refine ⟨hreply, hkept.rows, ?_, hkept.inbound, hkept.result, ?_, ?_⟩
            · intro ticket' hsome
              obtain rfl := Option.some.inj (hticket.symm.trans hsome)
              rw [routedOf_append hid, if_pos rfl, htracked.routed ticket hticket, houtbound]
              rfl
            · intro other hsome
              obtain rfl := Option.some.inj hsome
              exact ⟨ticket, result, output, hticket, rfl, hcompleted, houtput, hblank, rfl⟩
            · exact fun call hsome => absurd (hreply.symm.trans hsome) nofun
        · exact h.pass hd rfl (htaken _ trivial)

/-- The reply is recorded. -/
theorem sound_storeReply (h : Sound cfg s) {i : ℕ} (hd : s.dispatches.get? i = some d)
    (hphase : d.phase = .replying) {ticket : Ticket} (hticket : d.ticket = some ticket)
    {result : ExecutionResult} (hresult : d.result = some result) {message : UnifiedMessage}
    (hmessage : d.outbound = some message) (id : String) (timestamp : ℤ) :
    Sound cfg ({ s with rows := s.rows ++
      [replyCall cfg d.message ticket result message id timestamp] }.setDispatch i
        { d with phase := .recorded,
                 reply := some (replyCall cfg d.message ticket result message id timestamp) }) := by
  have htracked := h.tracked i d hd
  have hreply : d.reply = none := by
    have hsound := htracked.phase
    rwa [hphase] at hsound
  obtain ⟨-, ticket', hsome, -, -, hrun⟩ := htracked.result result hresult
  obtain rfl := Option.some.inj (hticket.symm.trans hsome)
  have hcall : (replyCall cfg d.message ticket result message id timestamp).runId =
      some ticket.runId := congrArg some hrun
  refine h.addRow hd hticket hcall rfl ⟨trivial, ?_, htracked.routed, htracked.inbound,
    htracked.result, htracked.outbound, ?_⟩
  · intro ticket' hsome
    obtain rfl := Option.some.inj (hticket.symm.trans hsome)
    rw [rowsOf_append hcall, if_pos rfl, htracked.rows ticket hticket, hreply]
    simp
  · intro call hsome
    obtain rfl := Option.some.inj hsome
    exact ⟨ticket, result, message, hticket, hresult, hmessage, rfl⟩

/-- The caller is told of the reply. -/
theorem sound_finish (h : Sound cfg s) {i : ℕ} (hd : s.dispatches.get? i = some d)
    {ticket : Ticket} (hticket : d.ticket = some ticket) {inbound : StoreCall}
    (hinbound : d.inbound = some inbound) {result : ExecutionResult}
    (hresult : d.result = some result) {reply : StoreCall} (hreply : d.reply = some reply) :
    Sound cfg (s.setDispatch i
      { d with
        phase := .returned
          { runId := result.runId, status := result.status
            groupFolder := ticket.target.groupFolder, inboundMessageId := inbound.id
            outboundMessageId := some reply.id, finalOutput := result.finalOutput } }) := by
  have htracked := h.tracked i d hd
  -- Only the output of a completed run is replied with.
  obtain ⟨-, -, message, -, -, hmessage, -⟩ := htracked.reply reply hreply
  obtain ⟨-, result', -, -, hsome, hcompleted, -⟩ := htracked.outbound message hmessage
  obtain rfl := Option.some.inj (hresult.symm.trans hsome)
  refine h.pass hd rfl (htracked.pass ⟨⟨ticket, inbound, result, hticket, hinbound, hresult, rfl,
    rfl, rfl, rfl, rfl, ?_⟩, ?_⟩)
  · simp [hcompleted, hreply]
  · simp [hreply]

/-- **Every action keeps what is known of the dispatches.** -/
theorem sound_step {a : Action} (h : Sound cfg s) (hfresh : s.Fresh a)
    (hstep : step cfg s a = some t) : Sound cfg t := by
  have hadvance {i : ℕ} (hof : a.dispatch? = some i) {d : Dispatch}
      (hd : s.dispatches.get? i = some d) (hgoes : s.advance cfg i d a = some t) :
      Sound cfg t := by
    have htracked := h.tracked i d hd
    cases a with
    | receive | coordinate => cases hof
    | resolve j resolved runId =>
      simp only [advance] at hgoes
      split at hgoes
      · rename_i hphase
        obtain rfl := Option.some.inj hgoes
        exact sound_resolve h hd hphase hfresh.1 hfresh.2.1 hfresh.2.2
      · cases hgoes
    | storeInbound j id timestamp =>
      simp only [advance] at hgoes
      split at hgoes
      · rename_i ticket hphase hticket
        obtain rfl := Option.some.inj hgoes
        exact sound_storeInbound h hd hphase hticket id timestamp
      · cases hgoes
    | submit j uuid =>
      simp only [advance] at hgoes
      split at hgoes
      · rename_i ticket hphase hticket
        obtain rfl := Option.some.inj hgoes
        exact sound_submit h hd hphase hticket uuid
      · cases hgoes
    | wait j =>
      simp only [advance] at hgoes
      split at hgoes
      · rename_i ticket hphase hticket
        obtain rfl := Option.some.inj hgoes
        exact sound_wait h hd hphase hticket
      · cases hgoes
    | resume j timestamp =>
      simp only [advance] at hgoes
      split at hgoes
      · rename_i waiter ticket inbound hphase hticket hinbound
        exact sound_resume h hd hphase hticket hinbound hgoes
      · cases hgoes
    | deliver j =>
      simp only [advance] at hgoes
      split at hgoes
      · rename_i hphase
        obtain rfl := Option.some.inj hgoes
        have hreply : s.PhaseSound d .replying := by
          have hsound := htracked.phase
          rwa [hphase] at hsound
        exact h.pass hd rfl (htracked.pass hreply)
      · cases hgoes
    | storeReply j id timestamp =>
      simp only [advance] at hgoes
      split at hgoes
      · rename_i ticket result message hphase hticket hresult hmessage
        obtain rfl := Option.some.inj hgoes
        exact sound_storeReply h hd hphase hticket hresult hmessage id timestamp
      · cases hgoes
    | finish j =>
      simp only [advance] at hgoes
      split at hgoes
      · rename_i ticket inbound result reply hphase hticket hinbound hresult hreply
        obtain rfl := Option.some.inj hgoes
        exact sound_finish h hd hticket hinbound hresult hreply
      · cases hgoes
    | fail j =>
      simp only [advance] at hgoes
      split at hgoes
      · cases hgoes
      · cases hgoes
      · cases hgoes
      · obtain rfl := Option.some.inj hgoes
        exact h.pass hd rfl (htracked.pass trivial)
  cases a with
  | receive message executionMode =>
    obtain rfl := Option.some.inj hstep
    exact sound_receive h message executionMode
  | coordinate action =>
    obtain ⟨coordinator, hcoordinator, rfl⟩ := Option.map_eq_some_iff.mp hstep
    exact sound_coordinate h hfresh hcoordinator
  | _ =>
    simp only [step, Option.bind_eq_bind, Option.bind_eq_some_iff] at hstep
    obtain ⟨i, hof, d, hd, hgoes⟩ := hstep
    exact hadvance hof hd hgoes

end DispatchSystem

end Portex
