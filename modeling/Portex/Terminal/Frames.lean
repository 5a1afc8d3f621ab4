import Portex.Foundation.PythonJson
import Portex.Terminal.Operations

/-!
# The frames of a terminal websocket

The receive loop of `terminal_websocket_endpoint`, and what it calls: the session service and the
bridge. The loop answers what it rejects, but not what is raised below it: the errors of
`json.loads` that are no `JSONDecodeError`, the encoding of a lone surrogate, and the packing of a
size that is no 16-bit number end it.

## Main definitions

* `DockerExecTerminalBridge`, `sendInput`, `resize`: what a bridge does with a frame
* `handleFrame`, `receiveLoop`: one frame, and the loop
* `Handled`: the frame is performed, answered or a close
* `Gentle`: nothing is raised below the loop

## Main results

* `handled_iff_gentle`: the frames that the loop handles
* `gentle_iff_of_length_le`: what a frame within the limits of the interpreter can still raise
* `receiveLoop_of_gentle`: the loop over gentle frames
* `not_handled_resize`: a size that ends the loop
-/

namespace Portex

open Foundation

/-! ## The bridge -/

structure DockerExecTerminalBridge where
  /-- `_exec_process` is not `None`. -/
  execProcess : Bool
  ptyMasterFd : Option ℕ

/-- What a frame leads to where nothing is raised. -/
inductive FrameEffect
  /-- A `terminal.error` message is sent. -/
  | replied (error : String)
  /-- `os.write`. -/
  | wrote (fd : ℕ) (payload : List UInt8)
  /-- `fcntl.ioctl` with `TIOCSWINSZ`. -/
  | resized (fd : ℕ) (winsize : List UInt8)
  /-- The bridge has no terminal. -/
  | ignored
  deriving DecidableEq

inductive FrameError
  | loads (error : LoadsError)
  | session (error : TerminalSessionError)
  | unicodeEncode
  | value (detail : String)
  /-- `struct.error`. -/
  | struct
  deriving DecidableEq

/-- The format `H` of `struct`, in the byte order of the machine. -/
def packShort (n : ℤ) : Option (List UInt8) :=
  if 0 ≤ n ∧ n ≤ 65535 then some [UInt8.ofNat (n.toNat % 256), UInt8.ofNat (n.toNat / 256)]
  else none

/-- `struct.pack("HHHH", …)`; `none` is the `struct.error`. -/
def packShorts (values : List ℤ) : Option (List UInt8) := (values.mapM packShort).map List.flatten

namespace DockerExecTerminalBridge

def sendInput (data : PyStr) (bridge : DockerExecTerminalBridge) :
    Except FrameError FrameEffect :=
  match bridge.execProcess, bridge.ptyMasterFd with
  | true, some fd =>
    match data.encode? with
    | some payload => .ok (.wrote fd payload)
    | none => .error .unicodeEncode
  | _, _ => .ok .ignored

def resize (cols rows : ℤ) (bridge : DockerExecTerminalBridge) : Except FrameError FrameEffect :=
  if cols ≤ 0 ∨ rows ≤ 0 then .error (.value "terminal size must be positive")
  else
    match bridge.ptyMasterFd with
    | none => .ok .ignored
    | some fd =>
      match packShorts [rows, cols, 0, 0] with
      | some winsize => .ok (.resized fd winsize)
      | none => .error .struct

end DockerExecTerminalBridge

/-! ## The service -/

namespace TerminalSessionService

def requireLiveBridge (managed : ManagedTerminalSession) : Except TerminalSessionError ℕ :=
  match managed.bridge with
  | none => .error .notFound
  | some bridge => .ok bridge

/-- The bridge of a session, for its owner. -/
def bridgeOf (sessionId ownerUserId : String) (s : TerminalSessionService) :
    Except FrameError ℕ :=
  ((s.requireOwned sessionId ownerUserId).bind fun entry =>
    requireLiveBridge entry.2).mapError .session

variable (bridges : ℕ → DockerExecTerminalBridge)

def sendInput (sessionId ownerUserId : String) (data : PyStr) (s : TerminalSessionService) :
    Except FrameError FrameEffect := do
  let bridge ← s.bridgeOf sessionId ownerUserId
  (bridges bridge).sendInput data

def resize (sessionId ownerUserId : String) (cols rows : ℤ) (s : TerminalSessionService) :
    Except FrameError FrameEffect := do
  let bridge ← s.bridgeOf sessionId ownerUserId
  (bridges bridge).resize cols rows

end TerminalSessionService

/-! ## The loop -/

inductive FrameOutcome
  | continues (effect : FrameEffect)
  /-- The session is closed, and the loop left. -/
  | closes
  | raises (error : FrameError)
  deriving DecidableEq

def FrameOutcome.of : Except FrameError FrameEffect → FrameOutcome
  | .ok effect => .continues effect
  | .error error => .raises error

/-- The endpoint of one websocket, with the service and the bridges it finds. -/
structure TerminalEndpoint where
  service : TerminalSessionService
  bridges : ℕ → DockerExecTerminalBridge
  sessionId : String
  ownerUserId : String

section Frames

variable {φ : Type} (limits : PyLimits) (parseFloat : List Char → φ)

namespace TerminalEndpoint

def handlePayload (members : List (PyStr × PyValue φ)) (e : TerminalEndpoint) : FrameOutcome :=
  match PyValue.getD members "type" with
  | .str kind =>
    if kind = .ofString "terminal.input" then
      match (PyValue.getD members "data").str? with
      | none => .continues (.replied "terminal.input requires string data")
      | some data => .of (e.service.sendInput e.bridges e.sessionId e.ownerUserId data)
    else if kind = .ofString "terminal.resize" then
      match (PyValue.getD members "cols").int?, (PyValue.getD members "rows").int? with
      | some cols, some rows =>
        if cols ≤ 0 ∨ rows ≤ 0 then
          .continues (.replied "terminal.resize requires positive integer cols and rows")
        else .of (e.service.resize e.bridges e.sessionId e.ownerUserId cols rows)
      | _, _ => .continues (.replied "terminal.resize requires positive integer cols and rows")
    else if kind = .ofString "terminal.close" then .closes
    else .continues (.replied "unsupported terminal message type")
  | _ => .continues (.replied "unsupported terminal message type")

/-- The body of the receive loop. -/
def handleFrame (message : List Char) (e : TerminalEndpoint) : FrameOutcome :=
  match pyLoads limits parseFloat message with
  | .error .decode => .continues (.replied "invalid terminal message payload")
  | .error error => .raises (.loads error)
  | .ok (.dict members) => e.handlePayload members
  | .ok _ => .continues (.replied "invalid terminal message payload")

end TerminalEndpoint

/-- How the receive loop is left. -/
inductive LoopEnd
  /-- It waits for the next frame. -/
  | receiving
  | closed
  | raised (error : FrameError)
  deriving DecidableEq

/-- The receive loop over some frames, each with what the endpoint finds when it comes. -/
def receiveLoop : List (TerminalEndpoint × List Char) → List FrameEffect × LoopEnd
  | [] => ([], .receiving)
  | (e, message) :: frames =>
    match e.handleFrame limits parseFloat message with
    | .continues effect => (effect :: (receiveLoop frames).1, (receiveLoop frames).2)
    | .closes => ([], .closed)
    | .raises error => ([], .raised error)

/-! ## The property and its condition -/

/-- The session is attached, and its bridge has a process and a terminal. -/
structure TerminalEndpoint.Live (e : TerminalEndpoint) (fd : ℕ) : Prop where
  session : ∃ entry bridge, e.service.requireOwned e.sessionId e.ownerUserId = .ok entry ∧
    entry.2.record.status = .attached ∧ entry.2.bridge = some bridge ∧
    e.bridges bridge = { execProcess := true, ptyMasterFd := some fd }

/-- The message is an object with that type. -/
def IsMessage (message : List Char) (kind : String) (members : List (PyStr × PyValue φ)) : Prop :=
  pyLoads limits parseFloat message = .ok (.dict members) ∧
    PyValue.getD members "type" = .str (.ofString kind)

/-- The frame is performed on the terminal, or answered with an error, and the loop goes on; or it
is a close. -/
inductive Handled (fd : ℕ) (message : List Char) : FrameOutcome → Prop
  | input {members : List (PyStr × PyValue φ)} {data : PyStr} {payload : List UInt8}
      (hkind : IsMessage limits parseFloat message "terminal.input" members)
      (hdata : (PyValue.getD members "data").str? = some data)
      (hpayload : data.encode? = some payload) :
      Handled fd message (.continues (.wrote fd payload))
  | resize {members : List (PyStr × PyValue φ)} {cols rows : ℤ} {winsize : List UInt8}
      (hkind : IsMessage limits parseFloat message "terminal.resize" members)
      (hcols : (PyValue.getD members "cols").int? = some cols)
      (hrows : (PyValue.getD members "rows").int? = some rows)
      (hwinsize : packShorts [rows, cols, 0, 0] = some winsize) :
      Handled fd message (.continues (.resized fd winsize))
  | replied (error : String) : Handled fd message (.continues (.replied error))
  | close {members : List (PyStr × PyValue φ)}
      (hkind : IsMessage limits parseFloat message "terminal.close" members) :
      Handled fd message .closes

/-- The object raises nothing below the loop: an input has no lone surrogate, and no positive size
is over 65535. -/
structure GentlePayload (members : List (PyStr × PyValue φ)) : Prop where
  input : PyValue.getD members "type" = .str (.ofString "terminal.input") →
    ∀ data, (PyValue.getD members "data").str? = some data → data.Encodable
  resize : PyValue.getD members "type" = .str (.ofString "terminal.resize") →
    ∀ cols rows, (PyValue.getD members "cols").int? = some cols →
      (PyValue.getD members "rows").int? = some rows → 0 < cols → 0 < rows →
      cols ≤ 65535 ∧ rows ≤ 65535

/-- `json.loads` raises a `JSONDecodeError` at most, and the object it gives is gentle. -/
def Gentle (message : List Char) : Prop :=
  (∀ error, pyLoads limits parseFloat message = .error error → error = .decode) ∧
    ∀ members, pyLoads limits parseFloat message = .ok (.dict members) → GentlePayload members

/-! ## One frame -/

variable {limits parseFloat} {e : TerminalEndpoint} {fd : ℕ} {message : List Char}
  {members : List (PyStr × PyValue φ)} {cols rows : ℤ} {data : PyStr}

/-- A size is packed where both numbers have 16 bits. -/
theorem packShorts_eq_none_iff (hcols : 0 < cols) (hrows : 0 < rows) :
    packShorts [rows, cols, 0, 0] = none ↔ ¬ (cols ≤ 65535 ∧ rows ≤ 65535) := by
  by_cases hc : cols ≤ 65535
  · by_cases hr : rows ≤ 65535
    · simp [packShorts, packShort, hc, hr, Int.le_of_lt hcols, Int.le_of_lt hrows]
    · simp [packShorts, packShort, hr]
  · by_cases hr : rows ≤ 65535
    · simp [packShorts, packShort, hc, hr, Int.le_of_lt hrows]
    · simp [packShorts, packShort, hr]

namespace TerminalEndpoint

theorem Live.bridgeOf (h : e.Live fd) : ∃ bridge,
    e.service.bridgeOf e.sessionId e.ownerUserId = .ok bridge ∧
      e.bridges bridge = { execProcess := true, ptyMasterFd := some fd } := by
  obtain ⟨entry, bridge, hentry, -, hbridge, hlive⟩ := h.session
  refine ⟨bridge, ?_, hlive⟩
  simp [TerminalSessionService.bridgeOf, hentry, Except.bind, Except.mapError,
    TerminalSessionService.requireLiveBridge, hbridge]

/-- An input on a live bridge. -/
theorem Live.sendInput (h : e.Live fd) (data : PyStr) {payload : List UInt8}
    (hencode : data.encode? = some payload) :
    e.service.sendInput e.bridges e.sessionId e.ownerUserId data = .ok (.wrote fd payload) := by
  obtain ⟨bridge, hbridge, hlive⟩ := h.bridgeOf
  simp only [TerminalSessionService.sendInput, hbridge, bind, Except.bind, hlive,
    DockerExecTerminalBridge.sendInput, hencode]

theorem Live.sendInput_error (h : e.Live fd) {data : PyStr} (hencode : data.encode? = none) :
    e.service.sendInput e.bridges e.sessionId e.ownerUserId data = .error .unicodeEncode := by
  obtain ⟨bridge, hbridge, hlive⟩ := h.bridgeOf
  simp only [TerminalSessionService.sendInput, hbridge, bind, Except.bind, hlive,
    DockerExecTerminalBridge.sendInput, hencode]

/-- A size on a live bridge. -/
theorem Live.resize (h : e.Live fd) (hcols : 0 < cols) (hrows : 0 < rows) {winsize : List UInt8}
    (hpack : packShorts [rows, cols, 0, 0] = some winsize) :
    e.service.resize e.bridges e.sessionId e.ownerUserId cols rows = .ok (.resized fd winsize) := by
  obtain ⟨bridge, hbridge, hlive⟩ := h.bridgeOf
  have hsize : ¬ (cols ≤ 0 ∨ rows ≤ 0) := by omega
  simp only [TerminalSessionService.resize, hbridge, bind, Except.bind, hlive,
    DockerExecTerminalBridge.resize, if_neg hsize, hpack]

theorem Live.resize_error (h : e.Live fd) (hcols : 0 < cols) (hrows : 0 < rows)
    (hpack : packShorts [rows, cols, 0, 0] = none) :
    e.service.resize e.bridges e.sessionId e.ownerUserId cols rows = .error .struct := by
  obtain ⟨bridge, hbridge, hlive⟩ := h.bridgeOf
  have hsize : ¬ (cols ≤ 0 ∨ rows ≤ 0) := by omega
  simp only [TerminalSessionService.resize, hbridge, bind, Except.bind, hlive,
    DockerExecTerminalBridge.resize, if_neg hsize, hpack]

end TerminalEndpoint

theorem not_handled_raises (error : FrameError) :
    ¬ Handled limits parseFloat fd message (.raises error) := by
  intro h
  cases h

/-- An input is handled just if it can be encoded. -/
theorem handled_input_iff (h : e.Live fd)
    (hkind : IsMessage limits parseFloat message "terminal.input" members)
    (hdata : (PyValue.getD members "data").str? = some data) :
    Handled limits parseFloat fd message
      (.of (e.service.sendInput e.bridges e.sessionId e.ownerUserId data)) ↔ data.Encodable := by
  cases hencode : data.encode? with
  | none =>
    rw [h.sendInput_error hencode]
    exact iff_of_false (not_handled_raises _) (PyStr.encode?_eq_none_iff.mp hencode)
  | some payload =>
    rw [h.sendInput data hencode]
    refine iff_of_true (.input hkind hdata hencode) ?_
    by_contra hnot
    rw [PyStr.encode?_eq_none_iff.mpr hnot] at hencode
    cases hencode

/-- A size is handled just if it can be packed. -/
theorem handled_resize_iff (h : e.Live fd)
    (hkind : IsMessage limits parseFloat message "terminal.resize" members)
    (hcols : (PyValue.getD members "cols").int? = some cols)
    (hrows : (PyValue.getD members "rows").int? = some rows) (hc : 0 < cols) (hr : 0 < rows) :
    Handled limits parseFloat fd message
      (.of (e.service.resize e.bridges e.sessionId e.ownerUserId cols rows)) ↔
        cols ≤ 65535 ∧ rows ≤ 65535 := by
  cases hpack : packShorts [rows, cols, 0, 0] with
  | none =>
    rw [h.resize_error hc hr hpack]
    exact iff_of_false (not_handled_raises _) ((packShorts_eq_none_iff hc hr).mp hpack)
  | some winsize =>
    rw [h.resize hc hr hpack]
    refine iff_of_true (.resize hkind hcols hrows hpack) ?_
    by_contra hnot
    rw [(packShorts_eq_none_iff hc hr).mpr hnot] at hpack
    cases hpack

/-- An object is handled just if it is gentle. -/
theorem handled_payload_iff (h : e.Live fd)
    (hloads : pyLoads limits parseFloat message = .ok (.dict members)) :
    Handled limits parseFloat fd message (e.handlePayload members) ↔ GentlePayload members := by
  have hresize : PyStr.ofString "terminal.resize" ≠ .ofString "terminal.input" := by decide
  unfold TerminalEndpoint.handlePayload
  split
  · rename_i kind hkind
    split
    · -- An input.
      rename_i hinput
      rw [hinput] at hkind
      have hno (cols rows : ℤ) (hres : PyValue.getD members "type" =
          .str (.ofString "terminal.resize")) : False :=
        hresize (PyValue.str.inj (hres.symm.trans hkind))
      split
      · rename_i hdata
        refine iff_of_true (.replied _) ⟨fun _ data h => ?_, fun hres cols rows => ?_⟩
        · rw [hdata] at h
          cases h
        · exact (hno cols rows hres).elim
      · rename_i data hdata
        refine (handled_input_iff h ⟨hloads, hkind⟩ hdata).trans ⟨fun hencodable => ?_, fun hg => ?_⟩
        · refine ⟨fun _ data' h => ?_, fun hres cols rows => (hno cols rows hres).elim⟩
          obtain rfl := Option.some.inj (hdata.symm.trans h)
          exact hencodable
        · exact hg.input hkind data hdata
    rename_i hinput
    have hnotInput (hin : PyValue.getD members "type" = .str (.ofString "terminal.input")) : False :=
      hinput (PyValue.str.inj (hkind.symm.trans hin))
    split
    · -- A resize.
      rename_i hres
      rw [hres] at hkind
      split
      · rename_i cols rows hcols hrows
        split
        · rename_i hsize
          refine iff_of_true (.replied _) ⟨fun hin => (hnotInput hin).elim, ?_⟩
          intro _ cols' rows' hcols' hrows' hc hr
          obtain rfl := Option.some.inj (hcols.symm.trans hcols')
          obtain rfl := Option.some.inj (hrows.symm.trans hrows')
          omega
        · rename_i hsize
          refine (handled_resize_iff h ⟨hloads, hkind⟩ hcols hrows (by omega) (by omega)).trans
            ⟨fun hshort => ⟨fun hin => (hnotInput hin).elim, ?_⟩, fun hg => ?_⟩
          · intro _ cols' rows' hcols' hrows' _ _
            obtain rfl := Option.some.inj (hcols.symm.trans hcols')
            obtain rfl := Option.some.inj (hrows.symm.trans hrows')
            exact hshort
          · exact hg.resize hkind cols rows hcols hrows (by omega) (by omega)
      · rename_i hnone
        refine iff_of_true (.replied _) ⟨fun hin => (hnotInput hin).elim, ?_⟩
        intro _ cols rows hcols hrows
        exact (hnone cols rows hcols hrows).elim
    · rename_i hres
      -- Neither of the two.
      have hgentle : GentlePayload members :=
        ⟨fun hin => (hnotInput hin).elim, fun hres' => absurd (PyValue.str.inj (hkind.symm.trans hres')) hres⟩
      split
      · rename_i hclose
        exact iff_of_true (.close ⟨hloads, hclose ▸ hkind⟩) hgentle
      · exact iff_of_true (.replied _) hgentle
  · rename_i hkind
    refine iff_of_true (.replied _) ⟨fun hin => ?_, fun hres => ?_⟩
    · exact (hkind _ hin).elim
    · exact (hkind _ hres).elim

/-- **Terminal frames.** On an attached session with a live bridge, the loop performs or answers a
frame and goes on, or leaves at a close, if and only if the frame is gentle. -/
theorem handled_iff_gentle (limits : PyLimits) (parseFloat : List Char → φ) (h : e.Live fd)
    (message : List Char) : Handled limits parseFloat fd message
      (e.handleFrame limits parseFloat message) ↔ Gentle limits parseFloat message := by
  unfold TerminalEndpoint.handleFrame Gentle
  split
  · rename_i hloads
    refine iff_of_true (.replied _) ⟨fun error h => ?_, fun members h => ?_⟩
    · rw [hloads] at h
      exact (Except.error.inj h).symm
    · rw [hloads] at h
      cases h
  · rename_i error hne hloads
    refine iff_of_false (not_handled_raises _) fun hg => ?_
    exact hne (hg.1 error hloads)
  · rename_i members hloads
    refine (handled_payload_iff h hloads).trans ⟨fun hg => ⟨fun error h => ?_, fun members' h => ?_⟩,
      fun hg => hg.2 members hloads⟩
    · rw [hloads] at h
      cases h
    · obtain rfl := PyValue.dict.inj (Except.ok.inj (hloads.symm.trans h))
      exact hg
  · rename_i value hne hloads
    refine iff_of_true (.replied _) ⟨fun error h => ?_, fun members h => ?_⟩
    · rw [hloads] at h
      cases h
    · exact (hne members (Except.ok.inj (hloads.symm.trans h))).elim

/-- A frame within the limits of the interpreter is gentle just if its object is. -/
theorem gentle_iff_of_length_le (hdepth : message.length ≤ limits.depth)
    (hdigits : message.length ≤ limits.digits) : Gentle limits parseFloat message ↔
      ∀ members, pyLoads limits parseFloat message = .ok (.dict members) →
        GentlePayload members :=
  ⟨fun h => h.2, fun h => ⟨fun _ herror => pyLoads_of_length_le hdepth hdigits herror, h⟩⟩

/-! ## The loop -/

/-- **The receive loop.** Nothing is raised over gentle frames, and where none of them is a close
each has its effect, and the loop waits for the next. -/
theorem receiveLoop_of_gentle (limits : PyLimits) (parseFloat : List Char → φ)
    (frames : List (TerminalEndpoint × List Char))
    (h : ∀ frame ∈ frames, (∃ fd, frame.1.Live fd) ∧ Gentle limits parseFloat frame.2) :
    (∀ error, (receiveLoop limits parseFloat frames).2 ≠ .raised error) ∧
      ((∀ frame ∈ frames, ∀ members,
          ¬ IsMessage limits parseFloat frame.2 "terminal.close" members) →
        (receiveLoop limits parseFloat frames).2 = .receiving ∧
          (receiveLoop limits parseFloat frames).1.length = frames.length) := by
  induction frames with
  | nil => exact ⟨fun _ => nofun, fun _ => ⟨rfl, rfl⟩⟩
  | cons frame frames ih =>
    obtain ⟨e, message⟩ := frame
    obtain ⟨⟨fd, hlive⟩, hgentle⟩ := h _ List.mem_cons_self
    obtain ⟨hraised, hreceiving⟩ := ih fun frame hmem => h frame (List.mem_cons_of_mem _ hmem)
    have hhandled := (handled_iff_gentle limits parseFloat hlive message).mpr hgentle
    unfold receiveLoop
    cases houtcome : e.handleFrame limits parseFloat message with
    | continues effect =>
      refine ⟨hraised, fun hclose => ?_⟩
      obtain ⟨hend, hlength⟩ := hreceiving fun frame hmem =>
        hclose frame (List.mem_cons_of_mem _ hmem)
      exact ⟨hend, by simpa using hlength⟩
    | closes =>
      rw [houtcome] at hhandled
      refine ⟨fun _ => nofun, fun hclose => ?_⟩
      cases hhandled with
      | close hkind => exact (hclose _ List.mem_cons_self _ hkind).elim
    | raises error =>
      rw [houtcome] at hhandled
      exact (not_handled_raises error hhandled).elim

end Frames

/-- A session of Alice with a live bridge, whose terminal is the file descriptor 7. -/
def shellEndpoint : TerminalEndpoint where
  service :=
    { sessionsById := Dict.insert ∅ "s" 0
      sessions := ⟨[{
        record := {
          sessionId := "s", groupId := "home", groupFolder := "home", ownerUserId := "alice"
          status := .attached, createdAt := 0 }
        bridge := some 0 }]⟩ }
  bridges _ := { execProcess := true, ptyMasterFd := some 7 }
  sessionId := "s"
  ownerUserId := "alice"

theorem shellEndpoint_live : shellEndpoint.Live 7 := ⟨⟨_, 0, rfl, rfl, rfl, rfl⟩⟩

/-- A `terminal.resize` message with 24 rows. -/
def resizeFrame (cols : String) : List Char :=
  "\x7b\"type\":\"terminal.resize\",\"cols\":".toList ++ cols.toList ++ ",\"rows\":24\x7d".toList

/-- The message is a `terminal.resize` of that size. -/
def isResize (message : List Char) (cols rows : ℤ) : Bool :=
  match pyLoads defaultLimits (id : List Char → List Char) message with
  | .ok (.dict members) =>
    (PyValue.getD members "type").str? = some (.ofString "terminal.resize") &&
      (PyValue.getD members "cols").int? = some cols &&
      (PyValue.getD members "rows").int? = some rows
  | _ => false

theorem handled_iff_gentle_resize :
    shellEndpoint.handleFrame defaultLimits id (resizeFrame "80") =
        .continues (.resized 7 [24, 0, 80, 0, 0, 0, 0, 0]) ∧
      Gentle defaultLimits id (resizeFrame "80") := by
  have houtcome : shellEndpoint.handleFrame defaultLimits id (resizeFrame "80") =
    .continues (.resized 7 [24, 0, 80, 0, 0, 0, 0, 0]) := by decide +kernel
  have hresize : isResize (resizeFrame "80") 80 24 = true := by decide +kernel
  refine ⟨houtcome, (handled_iff_gentle defaultLimits id shellEndpoint_live _).mp ?_⟩
  rw [houtcome]
  unfold isResize at hresize
  split at hresize
  · rename_i members hloads
    simp only [Bool.and_eq_true, decide_eq_true_eq] at hresize
    obtain ⟨⟨hkind, hcols⟩, hrows⟩ := hresize
    exact .resize ⟨hloads, PyValue.str?_eq_some.mp hkind⟩ hcols hrows rfl
  · cases hresize

/-- A size of 70000 columns ends the loop with the `struct.error`. -/
theorem not_handled_resize :
    shellEndpoint.handleFrame defaultLimits id (resizeFrame "70000") = .raises .struct ∧
      ¬ Handled defaultLimits id 7 (resizeFrame "70000")
        (shellEndpoint.handleFrame defaultLimits id (resizeFrame "70000")) := by
  have houtcome : shellEndpoint.handleFrame defaultLimits id (resizeFrame "70000") =
    .raises .struct := by decide +kernel
  exact ⟨houtcome, by rw [houtcome]; exact not_handled_raises _⟩

end Portex
