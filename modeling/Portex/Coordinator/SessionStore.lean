import Portex.Foundation.Dict

/-!
# The workspace session store

`services/workspace_lifecycle.py`: the committed session of each workspace, and the session id
the next run of a workspace is to use.

## Main definitions

* `buildSlotWorkspaceKey`: the workspace key of a group folder and a slot
* `WorkspaceSessionStore.previewSessionId`, `commitSuccess`, `invalidate`: the operations

## Main results

* `WorkspaceSessionStore.previewSessionId_cases`: the three answers of a preview
-/

namespace Portex

open Foundation

structure WorkspaceSessionState where
  workspaceKey : String
  sessionId : Option String := none
  backend : Option String := none
  everCommitted : Bool := false
  deriving DecidableEq

def buildSlotWorkspaceKey (groupFolder slotId : String) : String :=
  groupFolder ++ "#slot:" ++ slotId

/-- The `_states` of the store. -/
structure WorkspaceSessionStore where
  states : Dict String WorkspaceSessionState := ∅

namespace WorkspaceSessionStore

variable (store : WorkspaceSessionStore) (workspaceKey backend sessionId : String)

/-- The entry of a workspace, or the default one that `setdefault` leaves there. -/
def state : WorkspaceSessionState := store.states.getD workspaceKey { workspaceKey }

/-- The session id a run is to use; `fresh` is the id factory's answer to this call. -/
def previewSessionId (freshSession : Bool) (fresh : String) : String × WorkspaceSessionStore :=
  let state := store.state workspaceKey
  let sessionId := match state.sessionId with
    | some committed => if !freshSession && state.backend == some backend then committed else fresh
    | none => if state.everCommitted then fresh else workspaceKey
  (sessionId, { store with states := store.states.setdefault workspaceKey { workspaceKey } })

def commitSuccess : WorkspaceSessionStore :=
  { store with
    states := store.states.insert workspaceKey
      { store.state workspaceKey with
        sessionId := some sessionId, backend := some backend, everCommitted := true } }

def invalidate : WorkspaceSessionStore :=
  { store with
    states := store.states.insert workspaceKey
      { store.state workspaceKey with
        sessionId := none, backend := none, everCommitted := true } }

/-- A preview answers the committed session, the bare workspace key, or the factory's id. -/
theorem previewSessionId_cases (freshSession : Bool) (fresh : String) :
    (store.state workspaceKey).sessionId =
        some (store.previewSessionId workspaceKey backend freshSession fresh).1 ∨
      (store.previewSessionId workspaceKey backend freshSession fresh).1 = workspaceKey ∨
      (store.previewSessionId workspaceKey backend freshSession fresh).1 = fresh := by
  simp only [previewSessionId]
  cases h : (store.state workspaceKey).sessionId with
  | some committed =>
    simp only
    split
    · exact .inl rfl
    · exact .inr (.inr rfl)
  | none =>
    simp only
    split
    · exact .inr (.inr rfl)
    · exact .inr (.inl rfl)

@[simp] theorem state_previewSessionId (freshSession : Bool) (fresh key : String) :
    (store.previewSessionId workspaceKey backend freshSession fresh).2.state key =
      store.state key := by
  simp only [previewSessionId, state, Dict.getD, Dict.get?_setdefault]
  split
  · rename_i h
    subst h
    rfl
  · rfl

@[simp] theorem state_commitSuccess (key : String) :
    (store.commitSuccess workspaceKey backend sessionId).state key =
      if key = workspaceKey then
        { store.state workspaceKey with
          sessionId := some sessionId, backend := some backend, everCommitted := true }
      else store.state key := by
  simp only [commitSuccess, state, Dict.getD, Dict.get?_insert]
  split <;> rfl

@[simp] theorem state_invalidate (key : String) :
    (store.invalidate workspaceKey).state key =
      if key = workspaceKey then
        { store.state workspaceKey with
          sessionId := none, backend := none, everCommitted := true }
      else store.state key := by
  simp only [invalidate, state, Dict.getD, Dict.get?_insert]
  split <;> rfl

end WorkspaceSessionStore

end Portex
