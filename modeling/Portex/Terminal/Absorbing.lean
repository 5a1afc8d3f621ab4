import Portex.Terminal.Invariant

/-!
# Closed and exited sessions

`closed` and `exited` are the statuses a session is archived with, and the expiry timer looks at
the status before it closes a session. The other operations do not look: an attach or a detach
takes an ended session back, a close overwrites an exit, and an exit a close. In every other run
the two statuses are final.

## Main definitions

* `Absorbing`: the ended sessions of one state have the same status in a later one
* `Respectful`: a step does not meet an ended session it would overwrite

## Main results

* `absorbing_iff_respectful`: the runs in which the two statuses are final
* `exists_revival`: a run in which an exited session is detached
-/

namespace Portex

open Foundation

/-- The statuses that an assignment may meet without overwriting the end of a session. -/
def Effect.Respects (effect : Effect) (status : TerminalSessionStatus) : Prop :=
  match effect with
  | attach _ | attachRaising _ | detach => status.isTerminal = false
  | close | failAttach => status ≠ .exited
  | exit => status ≠ .closed
  | expire | output => True

instance (effect : Effect) : DecidablePred effect.Respects := fun status => by
  cases effect <;> unfold Effect.Respects <;> infer_instance

namespace TerminalSessionService

variable {s t u : TerminalSessionService}

/-- A record that is closed or exited in `s` has the same status in `t`, wherever a record of its
session id is found. -/
def Absorbing (s t : TerminalSessionService) : Prop :=
  ∀ managed ∈ s.sessions.cells, ∀ managed' ∈ t.sessions.cells,
    managed'.record.sessionId = managed.record.sessionId →
      managed.record.status.isTerminal = true → managed'.record.status = managed.record.status

instance (s t : TerminalSessionService) : Decidable (Absorbing s t) :=
  inferInstanceAs (Decidable (∀ managed ∈ s.sessions.cells, ∀ managed' ∈ t.sessions.cells, _))

/-- No attach or detach finds an ended session, no close and no failing start an exited one, and
no exit event a closed one. -/
def Respectful (s : TerminalSessionService) (a : Action) : Prop :=
  ∀ found ∈ s.target a, found.2.2.Respects found.2.1.record.status

instance (s : TerminalSessionService) : DecidablePred s.Respectful := fun a =>
  inferInstanceAs (Decidable (∀ found ∈ s.target a, _))

/-- The sessions of `s` are in `t` at their places, the ended ones with their status. -/
def Kept (s t : TerminalSessionService) : Prop :=
  ∀ i managed, s.sessions.get? i = some managed → ∃ managed', t.sessions.get? i = some managed' ∧
    managed'.record.sessionId = managed.record.sessionId ∧
      (managed.record.status.isTerminal = true → managed'.record.status = managed.record.status)

theorem Kept.refl (s : TerminalSessionService) : Kept s s := fun _ managed h =>
  ⟨managed, h, rfl, fun _ => rfl⟩

theorem Kept.trans (h : Kept s t) (k : Kept t u) : Kept s u := by
  intro i managed hi
  obtain ⟨managed', hi', hid', hstatus'⟩ := h i managed hi
  obtain ⟨managed'', hi'', hid'', hstatus''⟩ := k i managed' hi'
  refine ⟨managed'', hi'', hid''.trans hid', fun hended => ?_⟩
  have heq := hstatus' hended
  exact (hstatus'' (heq ▸ hended)).trans heq

/-- Sessions are told apart by their ids, so what holds at each place holds of each id. -/
theorem Kept.absorbing (h : Kept s t) (hinv : Inv t) : Absorbing s t := by
  intro managed hm managed' hm' hid hended
  obtain ⟨i, hi⟩ := List.getElem?_of_mem hm
  obtain ⟨j, hj⟩ := List.getElem?_of_mem hm'
  obtain ⟨m, hi', hid', hstatus⟩ := h i managed hi
  obtain rfl := hinv.unique i j m managed' hi' hj (hid'.trans hid.symm)
  obtain rfl := Option.some.inj (hi'.symm.trans hj)
  exact hstatus hended

/-- An assignment respects the status it meets just if it leaves an ended session with it. Where
an expiry is concerned, the timer has looked. -/
theorem respects_iff {a : Action} {i : ℕ} {effect : Effect}
    {managed managed' : ManagedTerminalSession} (hfound : Found s a i managed effect)
    (h : effect.Rewritten managed managed') :
    effect.Respects managed.record.status ↔
      (managed.record.status.isTerminal = true →
        managed'.record.status = managed.record.status) := by
  have hexpire := hfound.expire
  rw [h.status]
  generalize managed.record.status = status at hexpire ⊢
  cases effect with
  | expire =>
    obtain rfl := hexpire rfl
    simp [Effect.Respects, TerminalSessionStatus.isTerminal]
  | _ =>
    cases status <;> simp [Effect.Respects, Effect.status, TerminalSessionStatus.isTerminal]

theorem kept_of_modify {i : ℕ} {f : ManagedTerminalSession → ManagedTerminalSession}
    (hs : t.sessions = s.sessions.modify i f)
    (hf : ∀ managed, s.sessions.get? i = some managed →
      (f managed).record.sessionId = managed.record.sessionId ∧
        (managed.record.status.isTerminal = true →
          (f managed).record.status = managed.record.status)) : Kept s t := by
  intro j managed hj
  rw [hs]
  simp only [Heap.get?_modify, hj]
  split
  · rename_i hji
    subst hji
    exact ⟨f managed, rfl, hf managed hj⟩
  · exact ⟨managed, rfl, rfl, fun _ => rfl⟩

theorem Vacated.kept {groupFolder : String} (h : Vacated s groupFolder t) : Kept s t := by
  cases h with
  | free => exact .refl s
  | @drop i managed found ended =>
    exact kept_of_modify (frame_dropSession i managed s).sessions fun _ _ => ⟨rfl, fun _ => rfl⟩

theorem kept_opened (managed : ManagedTerminalSession) (s : TerminalSessionService) :
    Kept s (s.opened managed) := by
  intro i m hi
  refine ⟨m, ?_, rfl, fun _ => rfl⟩
  show (s.sessions.alloc managed).get? i = some m
  rw [Heap.get?_alloc, if_neg (Nat.ne_of_lt (Heap.lt_size_of_get? hi)), hi]

theorem SameSessions.kept (h : SameSessions s t) : Kept s t := by
  intro i managed hi
  exact ⟨managed, h.sessions ▸ hi, rfl, fun _ => rfl⟩

theorem kept_of_create {a : Action} (ha : a.isCreate = true) (hstep : s.step a = some t) :
    Kept s t := by
  cases a with
  | create groupId groupFolder ownerUserId requestedMode sessionId factory =>
    rcases step_create hstep with hframe | ⟨v, hv, hframe | ⟨managed, -, hframe⟩⟩
    · exact hframe.toSameSessions.kept
    · exact hv.kept.trans hframe.toSameSessions.kept
    · exact (hv.kept.trans (kept_opened managed v)).trans hframe.toSameSessions.kept
  | _ => cases ha

/-- **Steps.** A step keeps the ended sessions if and only if it is respectful. -/
theorem Inv.kept_iff (h : Inv s) {a : Action} (hfresh : s.Fresh a) (hstep : s.step a = some t) :
    s.Respectful a ∧ Kept s t ∨ ¬ s.Respectful a ∧ ¬ Absorbing s t := by
  cases hcreate : a.isCreate with
  -- A creation has no target, and keeps what it finds.
  | true =>
    refine .inl ⟨fun found hfound => ?_, kept_of_create hcreate hstep⟩
    cases a with
    | create => cases hfound
    | _ => cases hcreate
  | false =>
    have hsessions := step_sessions hcreate hstep
    cases htarget : s.target a with
    -- Nor has a step without a target anything to break.
    | none =>
      rw [htarget] at hsessions
      refine .inl ⟨fun found hfound => ?_, hsessions.kept⟩
      rw [htarget] at hfound
      cases hfound
    | some found =>
      obtain ⟨i, managed, effect⟩ := found
      rw [htarget] at hsessions
      obtain ⟨managed', hm, hsame⟩ := hsessions
      have hfound := h.found htarget
      have hi := hfound.get?
      have hresp : s.Respectful a ↔ effect.Respects managed.record.status := by
        simp [Respectful, htarget]
      -- With a target, the effect decides.
      by_cases hr : effect.Respects managed.record.status
      · refine .inl ⟨hresp.mpr hr, kept_of_modify hsame.sessions fun m hm' => ?_⟩
        obtain rfl := Option.some.inj (hm'.symm.trans hi)
        exact ⟨hm.sessionId, (respects_iff hfound hm).mp hr⟩
      · refine .inr ⟨fun hr' => hr (hresp.mp hr'), fun habs => hr ((respects_iff hfound hm).mpr ?_)⟩
        have hi' : t.sessions.get? i = some managed' := by
          rw [hsame.sessions]
          show (s.sessions.modify i fun _ => managed').get? i = some managed'
          simp [hi]
        exact habs managed (List.mem_of_getElem? hi) managed' (List.mem_of_getElem? hi')
          hm.sessionId

/-- **Final statuses.** In a run of a recovered service, a session id whose record is closed or
exited keeps that status for ever if and only if every step of the run is respectful. -/
theorem absorbing_iff_respectful {reconnectTimeoutSeconds : ℕ} {historyMaxBytes : Int}
    {snapshots : List TerminalSessionHistorySnapshot} {l : List Action}
    (h : Run step Fresh
      (recoverActiveSessions reconnectTimeoutSeconds historyMaxBytes snapshots) l t) :
    (∀ l₁ l₂ l₃ u v, l = l₁ ++ l₂ ++ l₃ →
      Run step Fresh (recoverActiveSessions reconnectTimeoutSeconds historyMaxBytes snapshots)
        l₁ u → Run step Fresh u l₂ v → Absorbing u v) ↔
      Run step (fun s a => s.Fresh a ∧ s.Respectful a)
        (recoverActiveSessions reconnectTimeoutSeconds historyMaxBytes snapshots) l t := by
  have hinit := (inv_recoverActiveSessions reconnectTimeoutSeconds historyMaxBytes snapshots).1
  refine h.related_iff_of_kept (K := Kept) hinit (fun hs ha hstep => hs.step ha hstep) .refl
    .trans (fun hu hkept => hkept.absorbing hu) (fun hs ha hrespect hstep => ?_)
    fun hs ha hC hstep => ?_
  · rcases hs.kept_iff ha hstep with ⟨-, hkept⟩ | ⟨hnot, -⟩
    · exact hkept
    · exact absurd hrespect hnot
  · -- A step that is not respectful changes the status of the session it finds.
    rcases hs.kept_iff ha hstep with ⟨hrespect, -⟩ | ⟨-, hnot⟩
    · exact absurd hrespect hC
    · exact hnot

/-- The workspace `home` gets a session with the id `s`, a websocket attaches to it, and `last`
happens. -/
def attachedRun (last : List Action) : List Action :=
  [.create "home" "home" "alice" .container "s" (.ok none), .resume 0 none, .write 0 false,
    .resume 0 none, .attach "s" "alice" (.ok none), .write 1 false, .resume 1 none] ++ last

theorem absorbing_iff_respectful_expired :
    ∃ t, Run step Fresh (recoverActiveSessions 30 32768 [])
        (attachedRun [.disconnect 0, .resume 2 none]) t ∧
      ∀ l₁ l₂ l₃ u v, attachedRun [.disconnect 0, .resume 2 none] = l₁ ++ l₂ ++ l₃ →
        Run step Fresh (recoverActiveSessions 30 32768 []) l₁ u → Run step Fresh u l₂ v →
          Absorbing u v := by
  have h : Run step (fun s a => s.Fresh a ∧ s.Respectful a) (recoverActiveSessions 30 32768 [])
    (attachedRun [.disconnect 0, .resume 2 none]) _ := .of_execute (by decide)
  have hrun := h.mono fun _ _ ha => ha.1
  exact ⟨_, hrun, (absorbing_iff_respectful hrun).mpr h⟩

/-- An exited session is detached: the shell exits, and then the websocket leaves. -/
theorem exists_revival :
    ∃ u v, Run step Fresh (recoverActiveSessions 30 32768 [])
        (attachedRun [.bridgeEvent 0 { type := .exit, exitCode := some 0 }]) u ∧
      Run step Fresh u [.disconnect 0] v ∧
      (u.record "s").map TerminalSessionRecord.status = some .exited ∧
      (v.record "s").map TerminalSessionRecord.status = some .detached ∧ ¬ Absorbing u v := by
  have hu : Run step Fresh (recoverActiveSessions 30 32768 [])
    (attachedRun [.bridgeEvent 0 { type := .exit, exitCode := some 0 }]) _ :=
    .of_execute (by decide)
  have hv : Run step Fresh ((execute step Fresh (recoverActiveSessions 30 32768 [])
    (attachedRun [.bridgeEvent 0 { type := .exit, exitCode := some 0 }])).get (by decide))
    [.disconnect 0] _ := .of_execute (by decide)
  exact ⟨_, _, hu, hv, by decide, by decide, by decide⟩

end TerminalSessionService

end Portex
