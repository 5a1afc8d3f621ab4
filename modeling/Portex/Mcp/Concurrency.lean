import Portex.Foundation.ReadModifyWrite
import Portex.Mcp.Refinement
import Mathlib.Data.List.Permutation

/-!
# Concurrent requests on one server file

The operations of `McpServersService` run in worker threads, and nothing serialises the requests of
one user: each reads `servers.json`, works out the new servers, and writes the whole file. A request
whose read is followed by the write of another one overwrites what that one has stored.

A step is the read or the write of a whole file.

## Main definitions

* `mcpAccess requests`: the steps of concurrent requests, an instance of `Sharing.access`
* `McpRequest.oneByOne`: requests one after another

## Main results

* `exists_oneByOne`: where every write overwrites the file that its request has read, the file is
  that of the requests one after another
* `exists_lostUpdate`: two servers are upserted, and only one of them is stored
-/

namespace Portex

open Foundation

/-- The file after the write of a request that has read `file`, where it writes. -/
def McpRequest.update (service : McpServersService) (request : McpRequest) (file : ServersFile) :
    Option ServersFile :=
  (request.written service file).map some

/-- The steps of concurrent requests of one user. -/
def mcpAccess (service : McpServersService) (requests : ℕ → McpRequest) :
    Sharing ℕ ServersFile → Access ℕ → Option (Sharing ℕ ServersFile) :=
  Sharing.access fun i => (requests i).update service

/-- The file after requests one after another. -/
def McpRequest.oneByOne (service : McpServersService) (file : ServersFile)
    (requests : List McpRequest) : ServersFile :=
  requests.foldl (fun file request => request.perform service file) file

/-- A request that is not interleaved reads and writes at once. -/
theorem oneByOne_eq_serially (service : McpServersService) (requests : ℕ → McpRequest)
    (file : ServersFile) (order : List ℕ) :
    McpRequest.oneByOne service file (order.map requests) =
      Sharing.serially (fun i => (requests i).update service) file order := by
  unfold McpRequest.oneByOne Sharing.serially
  induction order generalizing file with
  | nil => rfl
  | cons i order ih =>
    have hstep : (requests i).perform service file =
        ((requests i).update service file).getD file := by
      rw [McpRequest.perform_eq, McpRequest.update]
      cases (requests i).written service file <;> rfl
    simp only [List.map_cons, List.foldl_cons]
    rw [ih, hstep]

/-- **Updates are not lost** where every write overwrites the file that its request has read: the
file is that of the requests one after another. -/
theorem exists_oneByOne {service : McpServersService} {requests : ℕ → McpRequest} {n : ℕ}
    {file : ServersFile} {l : List (Access ℕ)} {t : Sharing ℕ ServersFile}
    (hrun : Run (mcpAccess service requests)
      (fun s a => Sharing.Among (List.range n) s a ∧ Sharing.Fresh s a) (.start file) l t)
    (hended : t.AllEnded (List.range n)) :
    ∃ order, order.Perm ((List.range n).map requests) ∧
      t.store = McpRequest.oneByOne service file order := by
  obtain ⟨order, hperm, hstore⟩ := Sharing.exists_serial List.nodup_range hrun hended
  exact ⟨order.map requests, hperm.map requests, hstore.trans (oneByOne_eq_serially ..).symm⟩

/-! ### Two upserts -/

def exampleService : McpServersService := { fromisoformat := readIso }

/-- Upserts of two servers. -/
def upsertTwo : ℕ → McpRequest
  | 0 => .upsert docsTime "docs".toList docsArguments
  | _ => .upsert docsTime "wiki".toList docsArguments

/-- One request after the other. -/
def apart : List (Access ℕ) := [.read 0, .write 0, .read 1, .write 1]

/-- Both requests read before either of them writes. -/
def overlapping : List (Access ℕ) := [.read 0, .read 1, .write 0, .write 1]

theorem exists_oneByOne_apart : ∃ t : Sharing ℕ ServersFile, ∃ order : List McpRequest,
    order.Perm [upsertTwo 0, upsertTwo 1] ∧
      t.store = McpRequest.oneByOne exampleService none order := by
  have hrun : Run (mcpAccess exampleService upsertTwo)
      (fun s a => Sharing.Among (List.range 2) s a ∧ Sharing.Fresh s a) (.start none) apart _ :=
    Run.of_execute (by decide +kernel)
  exact ⟨_, exists_oneByOne hrun (by decide +kernel)⟩

theorem oneByOne_upsertTwo {order : List McpRequest}
    (hperm : order.Perm [upsertTwo 0, upsertTwo 1]) :
    McpRequest.oneByOne exampleService none order ≠ (upsertTwo 1).perform exampleService none := by
  rcases List.perm_pair.mp hperm with rfl | rfl
  · decide +kernel
  · decide +kernel

/-- **A lost update**: both requests end, and one of the servers is gone. -/
theorem exists_lostUpdate : ∃ t, Run (mcpAccess exampleService upsertTwo)
      (Sharing.Among (List.range 2)) (.start none) overlapping t ∧ t.AllEnded (List.range 2) ∧
    ∀ order : List McpRequest, order.Perm ((List.range 2).map upsertTwo) →
      t.store ≠ McpRequest.oneByOne exampleService none order := by
  refine ⟨_, Run.of_execute (by decide +kernel), by decide +kernel, fun order hperm hstore => ?_⟩
  refine oneByOne_upsertTwo hperm (hstore.symm.trans ?_)
  decide +kernel

end Portex
