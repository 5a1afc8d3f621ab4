import Portex.Coordinator.Completed
import Portex.Messages.Records

/-!
# The dispatch of messages

`MessageDispatchService.dispatch_inbound_message` of `services/message_dispatch.py`, as many of them
at a time as there are messages, on one coordinator. What a dispatch does between two suspension
points is one action, and any order of enabled actions is a run.

## Main definitions

* `UnifiedMessage`: a message of a channel
* `Dispatch`, `DispatchPhase`: a call of `dispatch_inbound_message`, with its local variables
* `DispatchSystem`, `DispatchSystem.step`: the dispatches and the coordinator
* `DispatchSystem.Fresh`: run ids are drawn from uuids, and backends conform
-/

namespace Portex

open Foundation

/-! ## Messages -/

inductive MessageChannel
  | web | feishu | telegram
  deriving DecidableEq

def MessageChannel.name : MessageChannel → String
  | .web => "web"
  | .feishu => "feishu"
  | .telegram => "telegram"

structure UnifiedMessage where
  channel : MessageChannel
  chatJid : String
  senderId : String
  groupFolder : Option String := none
  slotId : String := "main"
  content : String
  messageId : String
  timestamp : ℤ
  deriving DecidableEq

/-- The lengths that the schema asks for. -/
def UnifiedMessage.Valid (message : UnifiedMessage) : Prop :=
  message.chatJid ≠ "" ∧ message.senderId ≠ "" ∧ message.slotId ≠ "" ∧ message.messageId ≠ ""

instance : DecidablePred UnifiedMessage.Valid := fun _ => inferInstanceAs (Decidable (_ ∧ _))

structure ResolvedMessageTarget where
  groupFolder : String
  chatJid : String
  deriving DecidableEq

structure DispatchResult where
  runId : String
  status : ExecutionStatus
  groupFolder : String
  inboundMessageId : String
  outboundMessageId : Option String := none
  finalOutput : Option String := none
  error : Option String := none
  deriving DecidableEq

inductive DispatchError
  /-- A `MessageDispatchError`. -/
  | dispatch (detail : String)
  /-- A validation error of `UnifiedMessage`. -/
  | validation
  /-- The `KeyError` of `wait_for_run`. -/
  | unknownRun (runId : String)
  | cancelled
  /-- An error of the resolver, the registry, the database, the coordinator or a channel. -/
  | external
  deriving DecidableEq

/-- Where the code stands. -/
inductive DispatchPhase
  /-- At the target, which is then registered. -/
  | resolving
  /-- At the record of the message. -/
  | storing
  | submitting
  | submitted
  | waiting (waiter : ℕ)
  /-- At the handler of the channel. -/
  | routing
  /-- At the record of the reply. -/
  | replying
  | recorded
  | returned (result : DispatchResult)
  | raised (error : DispatchError)
  deriving DecidableEq

/-- The target and the run id of a dispatch. -/
structure Ticket where
  target : ResolvedMessageTarget
  runId : String
  deriving DecidableEq

/-- A call of `dispatch_inbound_message`, with the local variables that were assigned. -/
structure Dispatch where
  message : UnifiedMessage
  executionMode : Option String
  phase : DispatchPhase := .resolving
  ticket : Option Ticket := none
  inbound : Option StoreCall := none
  result : Option ExecutionResult := none
  outbound : Option UnifiedMessage := none
  reply : Option StoreCall := none
  deriving DecidableEq

structure DispatchConfig where
  coordinator : Config
  assistantSenderId : String := "portex"

/-! ## The parts of a dispatch -/

/-- `_resolve_target`: a message that has a group needs no resolver. -/
def UnifiedMessage.resolveTarget (message : UnifiedMessage) (resolved : ResolvedMessageTarget) :
    ResolvedMessageTarget :=
  match message.groupFolder with
  | some groupFolder => { groupFolder, chatJid := message.chatJid }
  | none => resolved

/-- `_resolve_slot_id`. -/
def UnifiedMessage.resolveSlotId (message : UnifiedMessage) : String :=
  match message.channel with
  | .web => message.slotId
  | .feishu | .telegram => "main"

/-- `_build_execution_request`. -/
def buildExecutionRequest (message : UnifiedMessage) (executionMode : Option String)
    (ticket : Ticket) : ExecutionRequest where
  groupFolder := ticket.target.groupFolder
  chatJid := ticket.target.chatJid
  userId := message.senderId
  prompt := message.content
  source := if message.channel = .web then .web else .im
  slotId := message.resolveSlotId
  requestedMode := executionMode
  requestId := some ticket.runId

/-- The record of the message. -/
def inboundCall (message : UnifiedMessage) (ticket : Ticket) (id : String) (timestamp : ℤ) :
    StoreCall where
  id := id
  timestamp := timestamp
  chatJid := ticket.target.chatJid
  sender := message.senderId
  content := message.content
  isFromMe := false
  slotId := message.resolveSlotId
  channel := some message.channel.name
  groupFolder := some ticket.target.groupFolder
  runId := some ticket.runId
  externalMessageId := some message.messageId

/-- The message that is sent back, with the output of the run. -/
def outboundMessage (cfg : DispatchConfig) (message : UnifiedMessage) (ticket : Ticket)
    (result : ExecutionResult) (output : String) (timestamp : ℤ) : UnifiedMessage where
  channel := message.channel
  chatJid := ticket.target.chatJid
  senderId := cfg.assistantSenderId
  groupFolder := some ticket.target.groupFolder
  slotId := result.slotId
  content := output
  messageId := "out-" ++ result.runId
  timestamp := timestamp

/-- The record of the reply. -/
def replyCall (cfg : DispatchConfig) (message : UnifiedMessage) (ticket : Ticket)
    (result : ExecutionResult) (outbound : UnifiedMessage) (id : String) (timestamp : ℤ) :
    StoreCall where
  id := id
  timestamp := timestamp
  chatJid := ticket.target.chatJid
  sender := cfg.assistantSenderId
  content := outbound.content
  isFromMe := true
  slotId := result.slotId
  channel := some message.channel.name
  groupFolder := some ticket.target.groupFolder
  runId := some result.runId
  externalMessageId := some outbound.messageId

/-! ## The system -/

structure DispatchSystem where
  coordinator : Coordinator := {}
  dispatches : Heap Dispatch := ∅
  /-- The rows of the table, in the order of the commits. -/
  rows : List StoreCall := []
  /-- The messages that were handed to the handler of their channel. -/
  routed : List UnifiedMessage := []

namespace DispatchSystem

variable (cfg : DispatchConfig)

inductive Action
  /-- A message comes in. -/
  | receive (message : UnifiedMessage) (executionMode : Option String)
  /-- The target is found and registered, and a run id is drawn. -/
  | resolve (dispatch : ℕ) (resolved : ResolvedMessageTarget) (runId : String)
  | storeInbound (dispatch : ℕ) (id : String) (timestamp : ℤ)
  | submit (dispatch : ℕ) (uuid : String)
  | wait (dispatch : ℕ)
  /-- The task that waited for the run goes on. -/
  | resume (dispatch : ℕ) (timestamp : ℤ)
  /-- The handler of the channel returns. -/
  | deliver (dispatch : ℕ)
  | storeReply (dispatch : ℕ) (id : String) (timestamp : ℤ)
  | finish (dispatch : ℕ)
  /-- What is awaited raises an error. -/
  | fail (dispatch : ℕ)
  /-- Anything else that happens to the coordinator. -/
  | coordinate (action : Coordinator.Action)
  deriving DecidableEq

def setDispatch (i : ℕ) (dispatch : Dispatch) (s : DispatchSystem) : DispatchSystem :=
  { s with dispatches := s.dispatches.modify i fun _ => dispatch }

def receive (message : UnifiedMessage) (executionMode : Option String) (s : DispatchSystem) :
    DispatchSystem :=
  let phase : DispatchPhase :=
    if isBlank message.content then .raised (.dispatch "message content cannot be empty")
    else .resolving
  { s with dispatches := s.dispatches.alloc { message, executionMode, phase } }

def submit (i : ℕ) (d : Dispatch) (ticket : Ticket) (uuid : String) (s : DispatchSystem) :
    DispatchSystem :=
  let request := buildExecutionRequest d.message d.executionMode ticket
  let (handle, coordinator) := s.coordinator.submitExecution request uuid
  { s with coordinator }.setDispatch i
    { d with phase := .submitted, ticket := some { ticket with runId := handle.runId } }

/-- A run that the coordinator does not know is an error. -/
def wait (i : ℕ) (d : Dispatch) (ticket : Ticket) (s : DispatchSystem) : DispatchSystem :=
  let coordinator := s.coordinator.waitForRun ticket.runId
  let phase : DispatchPhase :=
    if coordinator.waiters.size = s.coordinator.waiters.size then .raised (.unknownRun ticket.runId)
    else .waiting s.coordinator.waiters.size
  { s with coordinator }.setDispatch i { d with phase }

/-- What is done with the result of the run, up to the handler of the channel. -/
def takeResult (i : ℕ) (d : Dispatch) (ticket : Ticket) (inbound : StoreCall)
    (result : ExecutionResult) (timestamp : ℤ) (s : DispatchSystem) : DispatchSystem :=
  let d := { d with result := some result }
  if result.status ≠ .completed then
    s.setDispatch i
      { d with
        phase := .returned
          { runId := result.runId, status := result.status
            groupFolder := ticket.target.groupFolder, inboundMessageId := inbound.id
            finalOutput := result.finalOutput, error := result.error } }
  else
    match result.finalOutput.filter fun output => ¬ isBlank output with
    | none =>
      s.setDispatch i
        { d with phase := .raised (.dispatch "runtime completed without final output") }
    | some output =>
      let outbound := outboundMessage cfg d.message ticket result output timestamp
      if outbound.Valid then
        { s with routed := s.routed ++ [outbound] }.setDispatch i
          { d with phase := .routing, outbound := some outbound }
      else s.setDispatch i { d with phase := .raised .validation }

/-- The task goes on with what it waited for. -/
def resume (i : ℕ) (d : Dispatch) (ticket : Ticket) (inbound : StoreCall) (waiter : ℕ)
    (timestamp : ℤ) (s : DispatchSystem) : Option DispatchSystem :=
  match (s.coordinator.waiters.get? waiter).map Waiter.state with
  | some (.returned result) => some (s.takeResult cfg i d ticket inbound result timestamp)
  | some .cancelledError => some (s.setDispatch i { d with phase := .raised .cancelled })
  | _ => none

/-- The actions of a dispatch. -/
def advance (i : ℕ) (d : Dispatch) (s : DispatchSystem) : Action → Option DispatchSystem
  | .resolve _ resolved runId =>
    match d.phase with
    | .resolving =>
      let ticket : Ticket := { target := d.message.resolveTarget resolved, runId }
      some (s.setDispatch i { d with phase := .storing, ticket := some ticket })
    | _ => none
  | .storeInbound _ id timestamp =>
    match d.phase, d.ticket with
    | .storing, some ticket =>
      let call := inboundCall d.message ticket id timestamp
      some ({ s with rows := s.rows ++ [call] }.setDispatch i
        { d with phase := .submitting, inbound := some call })
    | _, _ => none
  | .submit _ uuid =>
    match d.phase, d.ticket with
    | .submitting, some ticket => some (s.submit i d ticket uuid)
    | _, _ => none
  | .wait _ =>
    match d.phase, d.ticket with
    | .submitted, some ticket => some (s.wait i d ticket)
    | _, _ => none
  | .resume _ timestamp =>
    match d.phase, d.ticket, d.inbound with
    | .waiting waiter, some ticket, some inbound =>
      s.resume cfg i d ticket inbound waiter timestamp
    | _, _, _ => none
  | .deliver _ =>
    match d.phase with
    | .routing => some (s.setDispatch i { d with phase := .replying })
    | _ => none
  | .storeReply _ id timestamp =>
    match d.phase, d.ticket, d.result, d.outbound with
    | .replying, some ticket, some result, some outbound =>
      let call := replyCall cfg d.message ticket result outbound id timestamp
      some ({ s with rows := s.rows ++ [call] }.setDispatch i
        { d with phase := .recorded, reply := some call })
    | _, _, _, _ => none
  | .finish _ =>
    match d.phase, d.ticket, d.inbound, d.result, d.reply with
    | .recorded, some ticket, some inbound, some result, some reply =>
      some (s.setDispatch i
        { d with
          phase := .returned
            { runId := result.runId, status := result.status
              groupFolder := ticket.target.groupFolder, inboundMessageId := inbound.id
              outboundMessageId := some reply.id, finalOutput := result.finalOutput } })
    | _, _, _, _, _ => none
  | .fail _ =>
    match d.phase with
    | .waiting _ | .returned _ | .raised _ => none
    | _ => some (s.setDispatch i { d with phase := .raised .external })
  | .receive _ _ | .coordinate _ => none

/-- The dispatch that an action is of. -/
def Action.dispatch? : Action → Option ℕ
  | .receive _ _ | .coordinate _ => none
  | .resolve i _ _ | .storeInbound i _ _ | .submit i _ | .wait i | .resume i _ | .deliver i
  | .storeReply i _ _ | .finish i | .fail i => some i

def step (s : DispatchSystem) (a : Action) : Option DispatchSystem :=
  match a with
  | .receive message executionMode => some (s.receive message executionMode)
  | .coordinate action =>
    (s.coordinator.step cfg.coordinator action).map fun coordinator => { s with coordinator }
  | a => do
    let i ← a.dispatch?
    let d ← s.dispatches.get? i
    s.advance cfg i d a

/-- The run ids that were drawn. -/
def runIds (s : DispatchSystem) : List String :=
  s.dispatches.cells.filterMap fun d => d.ticket.map Ticket.runId

/-- Run ids are new, and backends conform. -/
def Fresh (s : DispatchSystem) : Action → Prop
  | .resolve _ _ runId =>
    Unpadded runId ∧ runId ∉ s.runIds ∧ runId ∉ s.coordinator.submittedIds
  | .coordinate (.submit request uuid) =>
    Coordinator.runIdOf request uuid ∉ s.runIds ∧
      s.coordinator.Ordinary (.submit request uuid)
  | .coordinate action => s.coordinator.Ordinary action
  | _ => True

instance (s : DispatchSystem) : DecidablePred s.Fresh
  | .resolve _ _ runId => inferInstanceAs (Decidable (Unpadded runId ∧ runId ∉ s.runIds ∧ _))
  | .coordinate (.submit request uuid) =>
    inferInstanceAs (Decidable (Coordinator.runIdOf request uuid ∉ s.runIds ∧
      s.coordinator.Ordinary (.submit request uuid)))
  | .coordinate (.backendEnds task ending) =>
    inferInstanceAs (Decidable (s.coordinator.Ordinary (.backendEnds task ending)))
  | .coordinate (.cancel _) | .coordinate (.worker _) | .coordinate (.execution _)
  | .coordinate (.wait _) | .coordinate (.waiter _) | .coordinate (.cancelWaiter _)
  | .coordinate .tick | .receive _ _ | .storeInbound _ _ _ | .submit _ _ | .wait _ | .resume _ _
  | .deliver _ | .storeReply _ _ _ | .finish _ | .fail _ => inferInstanceAs (Decidable True)

end DispatchSystem

end Portex
