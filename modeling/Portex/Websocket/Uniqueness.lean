import Portex.Websocket.EndpointInvariant

/-!
# One end of a run for its client

The runs of the endpoint in which no client is told twice that a run has ended. A step that is not
disciplined is one too many: what the tasks of the route do next brings the client a second end.

## Main results

* `Lasting.step`: what every run keeps
* `exists_second`: a step that is not disciplined leads to a second end
* `atMostOnce_iff`: the steps after which each run ends once
* `exists_told_twice`: a cancel after the end
-/

namespace Portex

open Foundation

variable {ι : Type}

namespace Endpoint

variable {origin : ι} {s t : Endpoint ι} {runId : String}

/-! ## What every run keeps -/

/-- A socket that has left its room has lost its client, and only a result is dropped. -/
structure Lasting (s : Endpoint ι) : Prop where
  left : s.reader = .closed → s.gone = true
  dropped : ∀ runId, ∀ run ∈ s.runs runId, run.retained = false → run.result ≠ none

theorem lasting_empty (limits : PyLimits) : Lasting ({ limits } : Endpoint ι) where
  left h := by cases h
  dropped _ _ h := by cases h

theorem Lasting.setRun (h : Lasting s) {run' : EndpointRun ι}
    (hdropped : run'.retained = false → run'.result ≠ none) : Lasting (s.setRun runId run') where
  left := h.left
  dropped other new hnew := by
    rcases mem_setRun hnew with ⟨rfl, rfl⟩ | ⟨-, hold⟩
    · exact hdropped
    · exact h.dropped other new hold

theorem Lasting.setPhase (h : Lasting s) {phase : WaitingPhase ι} :
    Lasting (s.setPhase runId phase) :=
  ⟨h.left, h.dropped⟩

theorem Lasting.endTask (h : Lasting s) : Lasting (s.endTask runId) :=
  ⟨h.left, h.dropped⟩

theorem Lasting.emitTerminalEvent (h : Lasting s) {room : List ι} {result : ExecutionResult} :
    Lasting (s.emitTerminalEvent origin room runId result) := by
  unfold Endpoint.emitTerminalEvent
  split
  · exact h.endTask
  · exact h.setPhase

theorem Lasting.finishRun (h : Lasting s) {run : EndpointRun ι} {result : ExecutionResult}
    (hstep : s.finishRun runId result run = some t) : Lasting t := by
  have hset : Lasting (s.setRun runId { run with result := some result, stream := .closed }) :=
    h.setRun fun _ => Option.some_ne_none _
  unfold Endpoint.finishRun at hstep
  split at hstep
  · exact Option.some.inj (Option.ite_none_right_eq_some.mp hstep).2 ▸ hset
  · exact Option.some.inj (Option.ite_none_right_eq_some.mp hstep).2 ▸ hset
  · exact Option.some.inj (Option.ite_none_right_eq_some.mp hstep).2 ▸ hset
  · cases hstep

/-- A run of `s.cancelRun` was there, or is the one that was cancelled. -/
theorem mem_cancelRun {other : String} {new : EndpointRun ι}
    (hnew : new ∈ (s.cancelRun runId).runs other) :
    new ∈ s.runs other ∨ (other = runId ∧ new.result ≠ none) := by
  unfold Endpoint.cancelRun at hnew
  split at hnew
  · split at hnew
    · exact .inl hnew
    · rcases mem_setRun hnew with ⟨hsame, rfl⟩ | ⟨-, hold⟩
      · exact .inr ⟨hsame, Option.some_ne_none _⟩
      · exact .inl hold
  · exact .inl hnew

theorem Lasting.interrupt (h : Lasting s) {reader : EndpointReader} (hreader : reader ≠ .closed) :
    Lasting { (s.cancelRun runId).cancelTask with reader } := by
  refine ⟨fun hclosed => absurd hclosed hreader, fun other new hnew => ?_⟩
  rcases mem_cancelRun hnew with hold | ⟨-, hsome⟩
  · exact h.dropped other new hold
  · exact fun _ => hsome

theorem Lasting.disconnect (h : Lasting s) : Lasting s.disconnect := by
  unfold Endpoint.disconnect
  split
  · exact h.interrupt (by simp)
  · exact ⟨fun hclosed => (by cases hclosed), h.dropped⟩

theorem Lasting.receive (h : Lasting s) {message : String} {submission : Submission} :
    Lasting (s.receive message submission) := by
  unfold Endpoint.receive
  split
  · exact h.disconnect
  · split
    · split
      · exact h.interrupt (by simp)
      · exact h
    · exact h
  · split
    · exact h
    · split
      · exact h
      · refine ⟨h.left, fun other run hrun hdropped => ?_⟩
        rcases mem_setRun hrun with ⟨-, rfl⟩ | ⟨-, hold⟩
        · cases hdropped
        · exact h.dropped other run hold hdropped

section Sending

variable [DecidableEq ι]

theorem Lasting.deliver (h : Lasting s) {socket : ι} {event : RunEvent} {error : Option String} :
    Lasting (s.deliver origin socket event error) := by
  unfold Endpoint.deliver
  split
  · exact ⟨h.left, h.dropped⟩
  · exact h

theorem Lasting.waiterSend (h : Lasting s) {error : Option String} {room : List ι}
    {task : WaitingTask ι} (hstep : s.waiterSend origin error room task = some t) : Lasting t := by
  unfold Endpoint.waiterSend at hstep
  split at hstep
  · exact Option.some.inj hstep ▸ h.endTask
  · exact Option.some.inj hstep ▸ h.endTask
  · exact Option.some.inj hstep ▸ h.deliver.setPhase
  · exact Option.some.inj hstep ▸ h.setPhase
  · exact Option.some.inj hstep ▸ h.deliver.setPhase
  · exact Option.some.inj hstep ▸ h.endTask
  · cases hstep

theorem Lasting.handlerSend (h : Lasting s) {run : EndpointRun ι} (hrun : run ∈ s.runs runId)
    {error : Option String} (hstep : s.handlerSend origin runId error run = some t) :
    Lasting t := by
  have hdropped := h.dropped runId run hrun
  unfold Endpoint.handlerSend at hstep
  split at hstep
  · exact Option.some.inj hstep ▸ h.setRun hdropped
  · obtain rfl := Option.some.inj hstep
    rw [setRun_deliver]
    refine Lasting.deliver ?_
    exact h.setRun hdropped
  · exact Option.some.inj hstep ▸ h.setRun hdropped
  · cases hstep

theorem Lasting.answer (h : Lasting s) {error : Option String} :
    Lasting (s.answer origin runId error) := by
  unfold Endpoint.answer
  refine Lasting.deliver ?_
  refine ⟨fun hclosed => ?_, h.dropped⟩
  simp only at hclosed
  split at hclosed
  · cases hclosed
  · cases hclosed

/-- **Every step** keeps it. -/
theorem Lasting.step (h : Lasting s) {a : EndpointAction ι} (hstep : step origin s a = some t) :
    Lasting t := by
  cases steps_of_step hstep with
  | receive => exact h.receive
  | leave => exact ⟨fun _ => rfl, h.dropped⟩
  | disconnect => exact h.disconnect
  | answer => exact h.answer
  | close => exact ⟨fun _ => rfl, h.dropped⟩
  | waitForRun =>
    unfold Endpoint.waitForRun
    split
    · split
      · exact h.emitTerminalEvent
      · exact h.setPhase
    · exact h.setPhase
  | emit => exact h.emitTerminalEvent
  | waiterSend active isRoom canFail sent => exact h.waiterSend sent
  | @start runId run found => exact h.setRun (h.dropped runId run found)
  | @report event room run found =>
    have hset : Lasting (s.setRun event.runId
        { run with stream := .sending event (audience origin room (audienceOf event)) }) :=
      h.setRun (h.dropped event.runId run found)
    exact ⟨hset.left, hset.dropped⟩
  | handlerSend found canFail sent => exact h.handlerSend found sent
  | finish found finished => exact h.finishRun finished
  | @stop runId run found => exact h.setRun (h.dropped runId run found)
  | forget found ended => exact h.setRun fun _ => by rwa [Option.isSome_iff_ne_none] at ended

end Sending

/-! ## A second end -/

/-- A client that was told is told again. -/
theorem not_atMostOnce {u : Endpoint ι} {event : RunEvent} (h : s.Told runId)
    (hends : event.EndsRun runId) (hreceived : u.received = s.received ++ [event]) :
    ¬ u.AtMostOnce := by
  intro honce
  obtain ⟨first, hfirst, hfirst'⟩ := h
  have hcount := honce runId
  rw [hreceived, List.countP_append, List.countP_singleton, if_pos (by simpa using hends)] at hcount
  have hpos : 0 < s.received.countP (fun event => event.EndsRun runId) :=
    List.countP_pos_iff.mpr ⟨first, hfirst, by simpa using hfirst'⟩
  omega

theorem cancelledEvent_endsRun (runId : String) : (cancelledEvent runId).EndsRun runId :=
  ⟨.inr (.inl rfl), rfl⟩

theorem errorEvent_endsRun (runId error : String) : (errorEvent runId error).EndsRun runId :=
  ⟨.inr (.inl rfl), rfl⟩

theorem cancelRun_stream {run : EndpointRun ι} (hrun : run ∈ s.runs runId) :
    ∃ new ∈ (s.cancelRun runId).runs runId, new.stream = run.stream := by
  have hsome : s.runs runId = some run := hrun
  unfold Endpoint.cancelRun
  simp only [hsome]
  split
  · exact ⟨run, hrun, rfl⟩
  · exact ⟨_, setRun_runs_self runId _ s, rfl⟩

theorem canFail_none (sockets : List ι) : s.CanFail origin sockets none :=
  fun _ herror => absurd rfl herror

section Sending

variable [DecidableEq ι]

/-- What one of the tasks goes on to bring the client. -/
def Brings (origin : ι) (s : Endpoint ι) (event : RunEvent) (u : Endpoint ι) : Prop :=
  ∃ m, Run (step origin) (Disciplined origin) s m u ∧
    u.received = s.received ++ [event] ∧ u.gone = false ∧ u.reader = s.reader

theorem Brings.of_step {event : RunEvent} {a : EndpointAction ι} {u : Endpoint ι}
    (ha : s.Disciplined origin a) (hstep : step origin s a = some t)
    (hreceived : t.received = s.received) (hreader : t.reader = s.reader)
    (h : Brings origin t event u) : Brings origin s event u := by
  obtain ⟨m, hrun, hmore, hgone, hsame⟩ := h
  exact ⟨[a] ++ m, (Run.single ha hstep).append hrun, hmore.trans (by rw [hreceived]), hgone,
    hsame.trans hreader⟩

/-- An event handler comes to the socket. -/
theorem exists_brings_of_sending (origin : ι) {run : EndpointRun ι} {event : RunEvent}
    {sockets : List ι} (hrun : run ∈ s.runs runId) (hstream : run.stream = .sending event sockets)
    (horigin : origin ∈ sockets) (hgone : s.gone = false) : ∃ u, Brings origin s event u := by
  induction sockets generalizing s run with
  | nil => cases horigin
  | cons socket sockets ih =>
    have hstep : step origin s (.handlerSend runId none) = some
        ((s.deliver origin socket event none).setRun runId
          { run with stream := .sending event sockets }) := by
      have hsome : s.runs runId = some run := hrun
      simp only [step, hsome]
      rw [if_pos (canFail_none _)]
      simp only [handlerSend, hstream]
    have ha : s.Disciplined origin (.handlerSend runId none) := fun _ => trivial
    by_cases hsocket : socket = origin
    · rw [Endpoint.deliver, if_pos ⟨hsocket, rfl, hgone⟩] at hstep
      exact ⟨_, [.handlerSend runId none], .single ha hstep, rfl, hgone, rfl⟩
    · rw [Endpoint.deliver, if_neg fun h => hsocket h.1] at hstep
      obtain ⟨u, hu⟩ := ih
        (setRun_runs_self runId { run with stream := .sending event sockets } s) rfl
        (List.mem_of_ne_of_mem (Ne.symm hsocket) horigin) hgone
      exact ⟨u, hu.of_step ha hstep rfl rfl⟩

/-- The report of an exception comes to the socket. -/
theorem exists_brings_of_failing {event : RunEvent} {sockets : List ι}
    (htask : s.activeTask = some { runId, phase := .failing event sockets })
    (horigin : origin ∈ sockets) (hreader : s.reader ≠ .closed) (hgone : s.gone = false) :
    ∃ u, Brings origin s event u := by
  induction sockets generalizing s with
  | nil => cases horigin
  | cons socket sockets ih =>
    have hroom : s.IsRoom origin [origin] := by simp [IsRoom, hreader]
    have hstep : step origin s (.waiterSend runId none [origin]) = some
        ((s.deliver origin socket event none).setPhase runId (.failing event sockets)) := by
      simp only [step, htask]
      rw [if_pos ⟨trivial, hroom, canFail_none _⟩]
      simp only [waiterSend]
    have ha : s.Disciplined origin (.waiterSend runId none [origin]) :=
      fun _ herror => absurd rfl herror
    by_cases hsocket : socket = origin
    · rw [Endpoint.deliver, if_pos ⟨hsocket, rfl, hgone⟩] at hstep
      exact ⟨_, [.waiterSend runId none [origin]], .single ha hstep, rfl, hgone, rfl⟩
    · rw [Endpoint.deliver, if_neg fun h => hsocket h.1] at hstep
      obtain ⟨u, hu⟩ := ih (s := s.setPhase runId (.failing event sockets)) rfl
        (List.mem_of_ne_of_mem (Ne.symm hsocket) horigin) hreader hgone
      exact ⟨u, hu.of_step ha hstep rfl rfl⟩

/-- The answer to a cancel. -/
theorem exists_answer (origin : ι) (hreader : s.reader = .cleaning runId) (hgone : s.gone = false) :
    ∃ u, Run (step origin) (Disciplined origin) s [.answer runId none] u ∧
      u.received = s.received ++ [cancelledEvent runId] := by
  have hstep : step origin s (.answer runId none) = some (s.answer origin runId none) :=
    if_pos ⟨hreader, canFail_none _⟩
  rw [Endpoint.answer, Endpoint.deliver, if_pos ⟨rfl, rfl, hgone⟩] at hstep
  exact ⟨_, .single (fun _ => trivial) hstep, rfl⟩

/-- A cancel of a run that has ended, or is about to. -/
theorem exists_second_of_cancel (hinv : Inv origin s) (hgone : s.gone = false)
    (hended : s.Told runId ∨ s.Telling origin runId) :
    ∃ m u, Run (step origin) (Disciplined origin)
      { (s.cancelRun runId).cancelTask with reader := .cleaning runId } m u ∧ ¬ u.AtMostOnce := by
  have hreceived := congrArg received (cancelRun_eq runId s)
  have hgone' := (congrArg gone (cancelRun_eq runId s)).trans hgone
  rcases hended with htold | ⟨run, hrun, htelling⟩
  · obtain ⟨u, hu, hmore⟩ := exists_answer origin
      (s := { (s.cancelRun runId).cancelTask with reader := .cleaning runId }) rfl hgone'
    refine ⟨_, u, hu, not_atMostOnce htold (cancelledEvent_endsRun runId) (hmore.trans ?_)⟩
    exact congrArg (· ++ [cancelledEvent runId]) hreceived
  · cases hstream : run.stream with
    | sending event sockets =>
      rw [hstream] at htelling
      obtain ⟨new, hnew, hsame⟩ := cancelRun_stream hrun
      obtain ⟨v, m, hv, hmore, hgone, hreader⟩ := exists_brings_of_sending origin
        (s := { (s.cancelRun runId).cancelTask with reader := .cleaning runId }) hnew
        (hsame.trans hstream) htelling.2 hgone'
      obtain ⟨u, hu, hlast⟩ := exists_answer origin hreader hgone
      refine ⟨_, u, hv.append hu, not_atMostOnce ?_ (cancelledEvent_endsRun runId) hlast⟩
      rw [Told, hmore]
      exact ⟨event, by simp, htelling.1, ((hinv.runs runId run hrun).event _ _ hstream).1⟩
    | queued | streaming | closed =>
      rw [hstream] at htelling
      exact htelling.elim

/-- A report of an end that comes after an end or a cancel. -/
theorem exists_second_of_report (hlasting : Lasting s) {run : EndpointRun ι} {event : RunEvent}
    {room : List ι} (hid : event.runId = runId)
    (hroom : s.IsRoom origin room) (hends : event.Ends) (hgone : s.gone = false)
    (hlate : s.Told runId ∨ s.reader = .cleaning runId) :
    ∃ m u, Run (step origin) (Disciplined origin) (s.report origin runId event room run) m u ∧
      ¬ u.AtMostOnce := by
  have horigin : origin ∈ room := by
    refine hroom.2.mpr fun hclosed => ?_
    cases (hlasting.left hclosed).symm.trans hgone
  obtain ⟨v, m, hv, hmore, hgone', hreader⟩ := exists_brings_of_sending origin
    (s := s.report origin runId event room run) (setRun_runs_self runId _ s) rfl
    (by rw [hends.audienceOf]; exact horigin) hgone
  by_cases htold : s.Told runId
  · exact ⟨m, v, hv, not_atMostOnce htold ⟨hends, hid⟩ hmore⟩
  · -- The answer to the cancel is still to come.
    have hcleaning := hlate.resolve_left htold
    obtain ⟨u, hu, hlast⟩ := exists_answer origin (hreader.trans hcleaning) hgone'
    refine ⟨_, u, hv.append hu, not_atMostOnce ?_ (cancelledEvent_endsRun runId) hlast⟩
    rw [Told, hmore]
    exact ⟨event, by simp, hends, hid⟩

/-- The report of an exception to a client that was told. -/
theorem exists_second_of_failing {error : String} {room : List ι}
    (hreader : s.reader = .receiving) (hroom : s.IsRoom origin room) (hgone : s.gone = false)
    (htold : s.Told runId) :
    ∃ m u, Run (step origin) (Disciplined origin)
      (s.setPhase runId (.failing (errorEvent runId error) room)) m u ∧ ¬ u.AtMostOnce := by
  have hopen : s.reader ≠ .closed := by simp [hreader]
  obtain ⟨u, m, hu, hmore, -⟩ := exists_brings_of_failing
    (s := s.setPhase runId (.failing (errorEvent runId error) room)) rfl (hroom.2.mpr hopen)
    hopen hgone
  exact ⟨m, u, hu, not_atMostOnce htold (errorEvent_endsRun runId error) hmore⟩

/-- **A step that is not disciplined** leads to a second end. -/
theorem exists_second (hinv : Inv origin s) (hlasting : Lasting s) {a : EndpointAction ι}
    (hstep : step origin s a = some t) (ha : ¬ s.Disciplined origin a) :
    ∃ m u, Run (step origin) (Disciplined origin) t m u ∧ ¬ u.AtMostOnce := by
  obtain ⟨hgone, hwrong⟩ := Classical.not_imp.mp ha
  cases steps_of_step hstep with
  | @receive message submission reader fresh =>
    push Not at hwrong
    obtain ⟨runId, hactive, hcancel, hended⟩ := hwrong
    have hparsed : parseCancelRunId s.limits message = .ok (some (.ofString runId)) := hcancel
    have hrunId : s.activeRunId = some runId := hactive
    simp only [Endpoint.receive, hparsed, hrunId, if_true]
    -- The client cancels a run of which it has been told the end, or is about to be.
    exact exists_second_of_cancel hinv hgone (Classical.or_iff_not_imp_left.mpr hended)
  | report found stream isRoom =>
    push Not at hwrong
    obtain ⟨hends, hlate⟩ := hwrong
    -- The stream reports an end of a run that has ended, or whose cancel is answered later.
    exact exists_second_of_report hlasting rfl isRoom hends hgone
      (Classical.or_iff_not_imp_left.mpr hlate)
  | @waiterSend task error room t active isRoom canFail sent =>
    push Not at hwrong
    obtain ⟨herror, hemitting, htold⟩ := hwrong
    have hphase := hemitting task active
    obtain ⟨text, rfl⟩ := Option.ne_none_iff_exists'.mp herror
    unfold Endpoint.waiterSend at sent
    cases hold : task.phase with
    | emitting event sockets =>
      -- The handler of the exception tells the room again that the run has failed.
      rw [hold] at hphase
      obtain ⟨socket, sockets, rfl⟩ := List.exists_cons_of_ne_nil hphase
      simp only [hold] at sent
      obtain rfl := Option.some.inj sent
      exact exists_second_of_failing (hinv.live task active (by rw [hold]; trivial)) isRoom hgone
        htold
    | starting | awaiting | failing | cancelled =>
      rw [hold] at hphase
      exact hphase.elim
  | @waitForRun task run room active found isRoom phase =>
    push Not at hwrong
    -- The result is gone, and the `KeyError` becomes a second end.
    obtain ⟨-, hdropped, htold⟩ := hwrong
    obtain ⟨result, hresult⟩ := Option.ne_none_iff_exists'.mp
      (hlasting.dropped _ run found (hdropped run found))
    simp only [Endpoint.waitForRun, hresult, hdropped run found]
    exact exists_second_of_failing (hinv.live task active (by rw [phase]; trivial)) isRoom hgone
      htold
  | emit active found isRoom phase ended =>
    push Not at hwrong
    have hphase := hwrong.1 _ active
    rw [phase] at hphase
    exact hphase.elim
  | leave | disconnect | answer | close | start | handlerSend | finish | stop | forget =>
    exact absurd trivial hwrong

variable {l : List (EndpointAction ι)} {limits : PyLimits}

theorem lasting_of_run (h : Run (step origin) (Disciplined origin) { limits } l s) : Lasting s :=
  h.invariant (lasting_empty limits) fun hlasting _ hstep => hlasting.step hstep

/-- **One end of a run for its client**: a disciplined run of the endpoint tells it of one end at
most of each run; and a step is disciplined just if this stays so. -/
theorem atMostOnce_iff (h : Run (step origin) (Disciplined origin) { limits } l s) :
    s.AtMostOnce ∧ ∀ a t, step origin s a = some t → (s.Disciplined origin a ↔
      ∀ m u, Run (step origin) (Disciplined origin) t m u → u.AtMostOnce) := by
  have hinv := inv_of_run h
  refine ⟨hinv.once, fun a t hstep => ⟨fun ha m u hu => ?_, fun honce => ?_⟩⟩
  · exact (inv_of_run ((h.snoc ha hstep).append hu)).once
  · by_contra ha
    obtain ⟨m, u, hu, htwice⟩ := exists_second hinv (lasting_of_run h) hstep ha
    exact htwice (honce m u hu)

end Sending

/-! ## Two runs -/

/-- A prompt whose run has reported its end to the client. -/
def completedRun : List (EndpointAction ℕ) :=
  [.receive "hello" ⟨"r1", "home", "openai_runtime", "s1"⟩, .start "r1", .wait "r1" [0],
    .report "r1" (completedEvent "r1" (some "hi")) [0], .handlerSend "r1" none]

/-- The result of the coordinator finds that the client has been told. -/
theorem atMostOnce_completed : ∃ s,
    Run (step 0) (Disciplined 0) {} (completedRun ++
      [.handlerSend "r1" none, .finish "r1"
        { runId := "r1", status := .completed, groupFolder := "home", backend := "openai_runtime",
          sessionId := "s1" }, .wait "r1" [0]]) s ∧
    s.received.map RunEvent.eventType = [.runCompleted] ∧ s.AtMostOnce := by
  have h : Run (step 0) (Disciplined 0) {} (completedRun ++
      [.handlerSend "r1" none, .finish "r1"
        { runId := "r1", status := .completed, groupFolder := "home", backend := "openai_runtime",
          sessionId := "s1" }, .wait "r1" [0]]) _ := .of_execute (by decide +kernel)
  exact ⟨_, h, by decide +kernel, (atMostOnce_iff h).1⟩

/-- **A cancel after the end**: the client is told that the run has completed, and then that it has
failed. -/
theorem exists_told_twice : ∃ s,
    Run (step 0) (fun _ _ => True) {} (completedRun ++
      [.receive "\x7b\"type\": \"cancel\", \"run_id\": \"r1\"\x7d"
        ⟨"r2", "home", "openai_runtime", "s2"⟩, .answer "r1" none]) s ∧
    s.received.map (fun event => (event.eventType, event.runId)) =
      [(.runCompleted, "r1"), (.runFailed, "r1")] ∧
    ¬ s.AtMostOnce := by
  have h : Run (step 0) (fun _ _ => True) {} (completedRun ++
      [.receive "\x7b\"type\": \"cancel\", \"run_id\": \"r1\"\x7d"
        ⟨"r2", "home", "openai_runtime", "s2"⟩, .answer "r1" none]) _ :=
    .of_execute (by decide +kernel)
  refine ⟨_, h, by decide +kernel, fun honce => ?_⟩
  exact absurd (honce "r1") (by decide +kernel)

end Endpoint

end Portex
