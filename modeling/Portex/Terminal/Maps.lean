import Portex.Terminal.Invariant

/-!
# The maps of the terminal session service

The two maps of the service are inverse to each other in every run, also right after a recovery.
A session id stays with one owner and one workspace, whether or not its session is in the maps,
and a session that leaves the maps has ended before.

## Main definitions

* `MapsInverse`: the two maps are inverse to each other
* `Extends`: the sessions of one state are in a later one, with their identities
* `SameOwners`, `DropsEnded`: what no operation changes

## Main results

* `maps_inverse`: the maps, the owners and the removals in every run
-/

namespace Portex

open Foundation

namespace TerminalSessionService

variable {s t u : TerminalSessionService}

/-- Each session in the maps is found by its own id and its own workspace, so that a workspace
has at most one. -/
structure MapsInverse (s : TerminalSessionService) : Prop where
  by_group : ∀ groupFolder i, s.sessionsByGroup.get? groupFolder = some i →
    ∃ managed, s.sessions.get? i = some managed ∧ managed.record.groupFolder = groupFolder ∧
      s.sessionsById.get? managed.record.sessionId = some i
  by_id : ∀ sessionId i, s.sessionsById.get? sessionId = some i →
    ∃ managed, s.sessions.get? i = some managed ∧ managed.record.sessionId = sessionId ∧
      s.sessionsByGroup.get? managed.record.groupFolder = some i
  one_of_group : ∀ sessionId sessionId' record record', s.record sessionId = some record →
    s.record sessionId' = some record' → record.groupFolder = record'.groupFolder →
      sessionId = sessionId'

/-- A session id has the same owner and the same workspace in both states. -/
def SameOwners (s t : TerminalSessionService) : Prop :=
  ∀ sessionId record record', s.record sessionId = some record →
    t.record sessionId = some record' →
      record'.ownerUserId = record.ownerUserId ∧ record'.groupFolder = record.groupFolder

/-- A session that is in the maps of `s` and not in those of `t` has ended in `s`, whoever owns
it. -/
def DropsEnded (s t : TerminalSessionService) : Prop :=
  ∀ sessionId record, s.record sessionId = some record → t.record sessionId = none →
    record.status.isTerminal = true

theorem record_eq_some {sessionId : String} {record : TerminalSessionRecord} :
    s.record sessionId = some record ↔ ∃ i managed, s.sessionsById.get? sessionId = some i ∧
      s.sessions.get? i = some managed ∧ managed.record = record := by
  unfold TerminalSessionService.record
  rw [Option.map_eq_some_iff]
  constructor
  · rintro ⟨⟨i, managed⟩, hs, rfl⟩
    obtain ⟨hid, hi⟩ := session_eq_some.mp hs
    exact ⟨i, managed, hid, hi, rfl⟩
  · rintro ⟨i, managed, hid, hi, rfl⟩
    exact ⟨(i, managed), session_eq_some.mpr ⟨hid, hi⟩, rfl⟩

theorem Inv.mapsInverse (h : Inv s) : MapsInverse s where
  by_group := h.by_group
  by_id := h.by_id
  one_of_group sessionId sessionId' record record' hr hr' heq := by
    obtain ⟨i, managed, hid, hi, rfl⟩ := record_eq_some.mp hr
    obtain ⟨j, managed', hid', hj, rfl⟩ := record_eq_some.mp hr'
    obtain ⟨m, hm, hsid, hg⟩ := h.by_id sessionId i hid
    obtain ⟨m', hm', hsid', hg'⟩ := h.by_id sessionId' j hid'
    obtain rfl := Option.some.inj (hm.symm.trans hi)
    obtain rfl := Option.some.inj (hm'.symm.trans hj)
    -- Both are the session of the one workspace.
    rw [heq, hg'] at hg
    obtain rfl := Option.some.inj hg
    obtain rfl := Option.some.inj (hi.symm.trans hj)
    exact hsid.symm.trans hsid'

/-! ## Identities in a run -/

/-- The sessions of `s` are in `t` at their places, with their identities. -/
def Extends (s t : TerminalSessionService) : Prop :=
  ∀ i managed, s.sessions.get? i = some managed →
    ∃ managed', t.sessions.get? i = some managed' ∧ identity managed' = identity managed

theorem Extends.refl (s : TerminalSessionService) : Extends s s := fun _ managed h =>
  ⟨managed, h, rfl⟩

theorem Extends.trans (h : Extends s t) (k : Extends t u) : Extends s u := by
  intro i managed hi
  obtain ⟨managed', hi', hid⟩ := h i managed hi
  obtain ⟨managed'', hi'', hid'⟩ := k i managed' hi'
  exact ⟨managed'', hi'', hid'.trans hid⟩

theorem SameIdentities.extends (h : SameIdentities s t) : Extends s t := fun _ _ hi =>
  h.exists_right hi

theorem extends_opened (managed : ManagedTerminalSession) (s : TerminalSessionService) :
    Extends s (s.opened managed) := by
  intro i m hi
  refine ⟨m, ?_, rfl⟩
  show (s.sessions.alloc managed).get? i = some m
  rw [Heap.get?_alloc, if_neg (Nat.ne_of_lt (Heap.lt_size_of_get? hi)), hi]

/-- **Steps** keep the identities of the sessions. -/
theorem Inv.extends_step (h : Inv s) {a : Action} (hstep : s.step a = some t) : Extends s t := by
  cases hcreate : a.isCreate with
  | false => exact (sameIdentities_step h hcreate hstep).1.extends
  | true =>
    cases a with
    | create groupId groupFolder ownerUserId requestedMode sessionId factory =>
      rcases step_create hstep with hframe | ⟨v, hv, hframe | ⟨managed, -, hframe⟩⟩
      · exact hframe.toSameSessions.sameIdentities.extends
      · exact (h.vacated hv).2.2.extends.trans hframe.toSameSessions.sameIdentities.extends
      · exact ((h.vacated hv).2.2.extends.trans (extends_opened managed v)).trans
          hframe.toSameSessions.sameIdentities.extends
    | _ => cases hcreate

/-- Where ids are unique, a session id has one identity. -/
theorem Extends.sameOwners (h : Extends s t) (hs : Inv s) (ht : Inv t) : SameOwners s t := by
  intro sessionId record record' hr hr'
  obtain ⟨i, managed, hid, hi, rfl⟩ := record_eq_some.mp hr
  obtain ⟨j, managed', hid', hj, rfl⟩ := record_eq_some.mp hr'
  obtain ⟨m, hm, hidentity⟩ := h i managed hi
  obtain ⟨hsid, hgroup, howner⟩ := identity_eq_iff.mp hidentity
  have hid₁ := hs.sessionId_eq (session_eq_some.mpr ⟨hid, hi⟩)
  have hid₂ := ht.sessionId_eq (session_eq_some.mpr ⟨hid', hj⟩)
  obtain rfl := ht.unique i j m managed' hm hj (by rw [hsid, hid₁, hid₂])
  obtain rfl := Option.some.inj (hm.symm.trans hj)
  exact ⟨howner, hgroup⟩

/-! ## Removals -/

theorem dropsEnded_of_maps (hids : ∀ sessionId i, s.sessionsById.get? sessionId = some i →
    t.sessionsById.get? sessionId = some i) (h : Extends s t) : DropsEnded s t := by
  intro sessionId record hr hnone
  obtain ⟨i, managed, hid, hi, -⟩ := record_eq_some.mp hr
  obtain ⟨managed', hi', -⟩ := h i managed hi
  rw [record_eq_some.mpr ⟨i, managed', hids sessionId i hid, hi', rfl⟩] at hnone
  cases hnone

theorem DropsEnded.trans_maps (h : DropsEnded s t)
    (hids : ∀ sessionId i, t.sessionsById.get? sessionId = some i →
      u.sessionsById.get? sessionId = some i) (k : Extends t u) : DropsEnded s u := by
  intro sessionId record hr hnone
  refine h sessionId record hr ?_
  by_contra hne
  obtain ⟨record', hr'⟩ := Option.ne_none_iff_exists'.mp hne
  obtain ⟨i, managed, hid, hi, -⟩ := record_eq_some.mp hr'
  obtain ⟨managed', hi', -⟩ := k i managed hi
  rw [record_eq_some.mpr ⟨i, managed', hids sessionId i hid, hi', rfl⟩] at hnone
  cases hnone

/-- The session that makes room for a new one has ended. -/
theorem Inv.dropsEnded_vacated (h : Inv s) {groupFolder : String} (k : Vacated s groupFolder t) :
    DropsEnded s t := by
  have hextends := (h.vacated k).2.2.extends
  cases k with
  | free => exact dropsEnded_of_maps (fun _ _ h => h) hextends
  | @drop i managed found ended =>
    intro sessionId record hr hnone
    obtain ⟨j, m, hid, hj, rfl⟩ := record_eq_some.mp hr
    obtain ⟨m', hj', -⟩ := hextends j m hj
    have hgone : (s.dropSession i managed).sessionsById.get? sessionId = none := by
      by_contra hne
      obtain ⟨k, hk⟩ := Option.ne_none_iff_exists'.mp hne
      have hkj : k = j := by
        rw [(frame_dropSession i managed s).sessionsById, Dict.get?_erase] at hk
        split at hk
        · cases hk
        · exact Option.some.inj (hk.symm.trans hid)
      rw [record_eq_some.mpr ⟨k, m', hk, hkj ▸ hj', rfl⟩] at hnone
      cases hnone
    rw [(frame_dropSession i managed s).sessionsById, Dict.get?_erase] at hgone
    split at hgone
    · rename_i heq
      -- It is the session of the workspace, which was found to be ended.
      obtain ⟨hg, hi⟩ := sessionOfGroup_eq_some.mp found
      obtain ⟨m₁, hm₁, -, hsid⟩ := h.by_group groupFolder i hg
      obtain rfl := Option.some.inj (hm₁.symm.trans hi)
      rw [← heq, hid] at hsid
      obtain rfl := Option.some.inj hsid
      obtain rfl := Option.some.inj (hi.symm.trans hj)
      exact ended
    · rw [hid] at hgone
      cases hgone

theorem Inv.dropsEnded_step (h : Inv s) {a : Action} (hfresh : s.Fresh a)
    (hstep : s.step a = some t) : DropsEnded s t := by
  cases hcreate : a.isCreate with
  | false =>
    obtain ⟨hsame, hids, -⟩ := sameIdentities_step h hcreate hstep
    exact dropsEnded_of_maps (fun _ _ h => hids ▸ h) hsame.extends
  | true =>
    cases a with
    | create groupId groupFolder ownerUserId requestedMode sessionId factory =>
      rcases step_create hstep with hframe | ⟨v, hv, hframe | ⟨managed, hm, hframe⟩⟩
      · exact dropsEnded_of_maps (fun _ _ h => hframe.sessionsById ▸ h)
          hframe.toSameSessions.sameIdentities.extends
      · exact (h.dropsEnded_vacated hv).trans_maps (fun _ _ h => hframe.sessionsById ▸ h)
          hframe.toSameSessions.sameIdentities.extends
      · have hdrop := h.dropsEnded_vacated hv
        obtain ⟨hinv, -, hsame⟩ := h.vacated hv
        refine (hdrop.trans_maps (u := v.opened managed) (fun sid i hid => ?_)
          (extends_opened managed v)).trans_maps (fun _ _ h => hframe.sessionsById ▸ h)
            hframe.toSameSessions.sameIdentities.extends
        show (v.sessionsById.insert managed.record.sessionId v.sessions.size).get? sid = some i
        rw [Dict.get?_insert, if_neg ?_, hid]
        rintro rfl
        -- The id of the new session is fresh.
        obtain ⟨m, hi, hsid, -⟩ := hinv.by_id _ i hid
        obtain ⟨m', hi', hidentity⟩ := hsame.exists_left hi
        refine hfresh m' (List.mem_of_getElem? hi') ?_
        rw [(identity_eq_iff.mp hidentity).1, hsid, hm.sessionId]
    | _ => cases hcreate

/-- **The maps of the service.** In every run of a recovered service the maps are inverse to each
other, a session id keeps its owner and its workspace, and only ended sessions leave the maps. -/
theorem maps_inverse {reconnectTimeoutSeconds : ℕ} {historyMaxBytes : Int}
    {snapshots : List TerminalSessionHistorySnapshot} {l : List Action}
    (h : Run step Fresh
      (recoverActiveSessions reconnectTimeoutSeconds historyMaxBytes snapshots) l t) :
    MapsInverse t ∧
      (∀ l₁ l₂ u, l = l₁ ++ l₂ → Run step Fresh
        (recoverActiveSessions reconnectTimeoutSeconds historyMaxBytes snapshots) l₁ u →
          SameOwners u t) ∧
      ∀ a u, t.Fresh a → t.step a = some u → DropsEnded t u := by
  have hinit := (inv_recoverActiveSessions reconnectTimeoutSeconds historyMaxBytes snapshots).1
  have hinv : Inv t := inv_of_run (fun _ _ h => h) hinit h
  refine ⟨hinv.mapsInverse, ?_, fun a u hfresh hstep => hinv.dropsEnded_step hfresh hstep⟩
  -- The owners from the first state on: the run from there extends the maps.
  rintro l₁ l₂ u rfl hu
  obtain ⟨u', hu', hut⟩ := h.split
  obtain rfl := hu.unique hu'
  have huinv : Inv u := inv_of_run (fun _ _ h => h) hinit hu
  obtain ⟨-, hextends⟩ := hut.invariant (I := fun v => Inv v ∧ Extends u v) ⟨huinv, .refl u⟩
    fun hv ha hstep => ⟨hv.1.step ha hstep, hv.2.trans (hv.1.extends_step hstep)⟩
  exact hextends.sameOwners huinv hinv

theorem maps_inverse_succeeding : ∃ t,
    Run step Fresh (recoverActiveSessions 30 32768 []) succeedingRun t ∧
      t.record "a" = none ∧ (t.record "b").map TerminalSessionRecord.ownerUserId = some "bob" ∧
      MapsInverse t ∧
      (∀ l₁ l₂ u, succeedingRun = l₁ ++ l₂ →
        Run step Fresh (recoverActiveSessions 30 32768 []) l₁ u → SameOwners u t) ∧
      ∀ a u, t.Fresh a → t.step a = some u → DropsEnded t u := by
  have h : Run step Fresh (recoverActiveSessions 30 32768 []) succeedingRun _ :=
    .of_execute (by decide)
  exact ⟨_, h, by decide, by decide, maps_inverse h⟩

end TerminalSessionService

end Portex
