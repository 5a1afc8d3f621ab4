import Portex.Messages.Replies
import Portex.Messages.Usage

/-!
# What comes of a message

Whatever the order in which the dispatches and the coordinator go on, the table has for each run its
question and at most one reply after it, and the reply is the output of the completed run that was
asked for with this question, handed once to the channel that the question came from.

## Main definitions

* `Output`: a content is the output of the run of a question
* `Carries`: a message carries an output to where its question came from
* `Answers`: a reply belongs to a question
* `Conversations`: what the table, the channels and the callers show

## Main results

* `conversations_of_run`: they show this in every run
* `runs_of_channels`: no run is counted under two channels
-/

namespace Portex

open Foundation

namespace DispatchSystem

variable {cfg : DispatchConfig} {s : DispatchSystem} {d : Dispatch}

/-- The content is the output of the completed run that was asked for with the question. -/
structure Output (s : DispatchSystem) (question : StoreCall) (runId content slotId : String) :
    Prop where
  /-- The question is the prompt of the run. -/
  asked : ∃ request, (runId, request) ∈ s.coordinator.history.submitted ∧
    request.prompt = question.content ∧ request.userId = question.sender ∧
      some request.groupFolder = question.groupFolder ∧ request.chatJid = question.chatJid ∧
        request.slotId = question.slotId
  completed : ∃ result ∈ s.coordinator.history.stored, result.runId = runId ∧
    result.status = .completed ∧ result.finalOutput = some content ∧ result.slotId = slotId
  slot : slotId = question.slotId
  visible : isBlank content = false

/-- The message carries the output of the run to where the question came from. -/
structure Carries (s : DispatchSystem) (question : StoreCall) (runId : String)
    (message : UnifiedMessage) : Prop where
  output : s.Output question runId message.content message.slotId
  chat : message.chatJid = question.chatJid
  folder : message.groupFolder = question.groupFolder
  channel : some message.channel.name = question.channel

/-- A reply belongs to a question: it is what was sent back to where the question came from. -/
structure Answers (s : DispatchSystem) (question reply : StoreCall) (runId : String) : Prop where
  sides : question.isFromMe = false ∧ reply.isFromMe = true
  run : reply.runId = question.runId
  chat : reply.chatJid = question.chatJid
  folder : reply.groupFolder = question.groupFolder
  channel : reply.channel = question.channel
  slot : reply.slotId = question.slotId
  sent : ∃ message, s.routedOf runId = [message] ∧ s.Carries question runId message ∧
    message.content = reply.content ∧ reply.externalMessageId = some message.messageId

/-- What the table, the channels and the callers show. -/
structure Conversations (s : DispatchSystem) : Prop where
  /-- The rows of a run are its question and at most one reply, in this order. -/
  rows : ∀ row ∈ s.rows, ∃ runId question, ∃ reply? : Option StoreCall,
    row.runId = some runId ∧ s.rowsOf runId = question :: reply?.toList ∧
      question.isFromMe = false ∧ ∀ reply ∈ reply?, s.Answers question reply runId
  /-- What goes out goes out once, after its question was recorded. -/
  messages : ∀ message ∈ s.routed, ∃ runId, ∃ question ∈ s.rowsOf runId,
    question.isFromMe = false ∧ s.routedOf runId = [message] ∧ s.Carries question runId message
  /-- A caller is told of its rows, and of a completed run just where there is a reply. -/
  told : ∀ i d told, s.dispatches.get? i = some d → d.phase = .returned told →
    ∃ question, ∃ reply? : Option StoreCall, s.rowsOf told.runId = question :: reply?.toList ∧
      told.inboundMessageId = question.id ∧ told.outboundMessageId = reply?.map StoreCall.id ∧
        (told.status = .completed ↔ reply?.isSome = true)

/-- What a dispatch sends out. -/
theorem Sound.carries (h : Sound cfg s) {i : ℕ} (hd : s.dispatches.get? i = some d)
    {message : UnifiedMessage} (hmessage : d.outbound = some message) :
    ∃ ticket question, d.ticket = some ticket ∧ d.inbound = some question ∧
      question.isFromMe = false ∧ s.Carries question ticket.runId message := by
  have htracked := h.tracked i d hd
  obtain ⟨ticket, result, output, hticket, hresult, hcompleted, houtput, hblank, hshape⟩ :=
    htracked.outbound message hmessage
  obtain ⟨hsome, ticket', hticket', hasked, hstored, hrun⟩ := htracked.result result hresult
  obtain rfl := Option.some.inj (hticket.symm.trans hticket')
  obtain ⟨question, hquestion⟩ := Option.isSome_iff_exists.mp hsome
  obtain ⟨ticket', hticket', hcall⟩ := htracked.inbound question hquestion
  obtain rfl := Option.some.inj (hticket.symm.trans hticket')
  -- The result is filed under the slot that was asked for.
  have hlisted : (result.runId, buildExecutionRequest d.message d.executionMode ticket) ∈
      s.coordinator.history.submitted := by
    rw [hrun]
    exact hasked
  have hfiled := h.trusted.filed result hstored hcompleted _ hlisted
  refine ⟨ticket, question, hticket, hquestion, ?_, ⟨⟨?_, ?_, ?_, ?_⟩, ?_, ?_, ?_⟩⟩
  · rw [hcall]
    rfl
  · refine ⟨_, hasked, ?_⟩
    rw [hcall]
    exact ⟨rfl, rfl, rfl, rfl, rfl⟩
  · rw [hshape]
    exact ⟨result, hstored, hrun, hcompleted, houtput, rfl⟩
  · rw [hshape, hcall]
    exact hfiled.2
  · rw [hshape]
    exact hblank
  · rw [hshape, hcall]
    rfl
  · rw [hshape, hcall]
    rfl
  · rw [hshape, hcall]
    rfl

/-- What a dispatch replies with. -/
theorem Sound.answers (h : Sound cfg s) {i : ℕ} (hd : s.dispatches.get? i = some d)
    {ticket : Ticket} (hticket : d.ticket = some ticket) {question : StoreCall}
    (hquestion : d.inbound = some question) {reply : StoreCall} (hreply : d.reply = some reply) :
    s.Answers question reply ticket.runId := by
  have htracked := h.tracked i d hd
  obtain ⟨ticket', result, message, hticket', hresult, hmessage, hcall⟩ :=
    htracked.reply reply hreply
  obtain rfl := Option.some.inj (hticket.symm.trans hticket')
  obtain ⟨ticket', question', hticket', hquestion', hside, hcarries⟩ := h.carries hd hmessage
  obtain rfl := Option.some.inj (hticket.symm.trans hticket')
  obtain rfl := Option.some.inj (hquestion.symm.trans hquestion')
  obtain ⟨ticket', result', output, hticket', hresult', -, -, -, hshape⟩ :=
    htracked.outbound message hmessage
  obtain rfl := Option.some.inj (hticket.symm.trans hticket')
  obtain rfl := Option.some.inj (hresult.symm.trans hresult')
  obtain ⟨-, ticket', hticket', -, -, hrun⟩ := htracked.result result hresult
  obtain rfl := Option.some.inj (hticket.symm.trans hticket')
  obtain ⟨ticket', hticket', hinbound⟩ := htracked.inbound question hquestion
  obtain rfl := Option.some.inj (hticket.symm.trans hticket')
  refine ⟨⟨hside, ?_⟩, ?_, ?_, ?_, ?_, ?_, ⟨message, ?_, hcarries, ?_, ?_⟩⟩
  · rw [hcall]
    rfl
  · rw [hcall, hinbound]
    exact congrArg some hrun
  · rw [hcall, hinbound]
    rfl
  · rw [hcall, hinbound]
    rfl
  · rw [hcall, hinbound]
    rfl
  · rw [← hcarries.output.slot, hcall, hshape]
    rfl
  · rw [htracked.routed ticket hticket, hmessage]
    rfl
  · rw [hcall]
    rfl
  · rw [hcall]
    rfl

theorem Sound.conversations (h : Sound cfg s) : s.Conversations where
  rows row hrow := by
    obtain ⟨runId, hmem, hrun⟩ := h.rows_from row hrow
    obtain ⟨i, d, ticket, hd, hticket, rfl⟩ := mem_runIds.mp hmem
    have htracked := h.tracked i d hd
    have hin : row ∈ d.inbound.toList ++ d.reply.toList := by
      rw [← htracked.rows ticket hticket]
      exact List.mem_filter.mpr ⟨hrow, decide_eq_true hrun⟩
    -- A dispatch that has a row has its question.
    have hquestion : ∃ question, d.inbound = some question := by
      rw [← Option.ne_none_iff_exists']
      intro hnone
      have hreply := htracked.reply_none (htracked.outbound_none (htracked.result_none hnone))
      rw [hnone, hreply] at hin
      cases hin
    obtain ⟨question, hquestion⟩ := hquestion
    obtain ⟨ticket', -, hcall⟩ := htracked.inbound question hquestion
    refine ⟨ticket.runId, question, d.reply, hrun, ?_, ?_, fun reply hreply => ?_⟩
    · rw [htracked.rows ticket hticket, hquestion]
      rfl
    · rw [hcall]
      rfl
    · exact h.answers hd hticket hquestion hreply
  messages message hmessage := by
    obtain ⟨runId, hmem, hid⟩ := h.routed_from message hmessage
    obtain ⟨i, d, ticket, hd, hticket, rfl⟩ := mem_runIds.mp hmem
    have htracked := h.tracked i d hd
    have hin : message ∈ d.outbound.toList := by
      rw [← htracked.routed ticket hticket]
      exact List.mem_filter.mpr ⟨hmessage, decide_eq_true hid⟩
    have houtbound := Option.mem_toList.mp hin
    obtain ⟨ticket', question, hticket', hquestion, hside, hcarries⟩ := h.carries hd houtbound
    obtain rfl := Option.some.inj (hticket.symm.trans hticket')
    refine ⟨ticket.runId, question, ?_, hside, ?_, hcarries⟩
    · rw [htracked.rows ticket hticket, hquestion]
      exact List.mem_cons_self
    · rw [htracked.routed ticket hticket, houtbound]
      rfl
  told i d told hd hphase := by
    have htracked := h.tracked i d hd
    obtain ⟨⟨ticket, question, result, hticket, hquestion, hresult, hrunId, hstatus, -, hinbound, -,
      hiff⟩, houtbound⟩ : Reported d told := by
      have hsound := htracked.phase
      rwa [hphase] at hsound
    obtain ⟨-, ticket', hticket', -, -, hrun⟩ := htracked.result result hresult
    obtain rfl := Option.some.inj (hticket.symm.trans hticket')
    refine ⟨question, d.reply, ?_, hinbound, houtbound, hstatus ▸ hiff⟩
    rw [hrunId, hrun, htracked.rows ticket hticket, hquestion]
    rfl

/-! ## The runs of the channels -/

/-- What is read of the rows of a run is one channel. -/
theorem Sound.oneKey_channel (h : Sound cfg s) :
    OneKey Message.channel (s.rows.map storeMessage) := by
  intro message hmem message' hmem' hrun _
  obtain ⟨row, hrow, rfl⟩ := List.mem_map.mp hmem
  obtain ⟨row', hrow', rfl⟩ := List.mem_map.mp hmem'
  -- A run id is read as it was stored.
  have hread {row : StoreCall} (hrow : row ∈ s.rows) :
      Message.runId (storeMessage row) = row.runId := by
    obtain ⟨runId, hown, hsome⟩ := h.rows_from row hrow
    rw [Message.runId, extractMetadata_storeMessage, hsome]
    exact (h.runIds_plain runId hown).trimmed
  rw [hread hrow, hread hrow'] at hrun
  obtain ⟨runId, question, reply?, hsome, hrows, -, hreply⟩ := h.conversations.rows row hrow
  have hplace {row : StoreCall} (hrow : row ∈ s.rows) (hown : row.runId = some runId) :
      row.chatJid = question.chatJid ∧ row.channel = question.channel := by
    have hin : row ∈ s.rowsOf runId := List.mem_filter.mpr ⟨hrow, decide_eq_true hown⟩
    rw [hrows, List.mem_cons, Option.mem_toList] at hin
    rcases hin with rfl | hlast
    · exact ⟨rfl, rfl⟩
    · exact ⟨(hreply row hlast).chat, (hreply row hlast).channel⟩
  obtain ⟨hchat, hchannel⟩ := hplace hrow hsome
  obtain ⟨hchat', hchannel'⟩ := hplace hrow' (hrun ▸ hsome)
  simp only [Message.channel, extractMetadata_storeMessage, hchat, hchannel, hchat', hchannel']

theorem sound_of_run {actions : List Action} (h : Run (step cfg) Fresh {} actions s) :
    Sound cfg s :=
  h.invariant (sound_empty cfg) fun hsound hfresh hstep => sound_step hsound hfresh hstep

end DispatchSystem

/-- **What comes of a message**, in every run: the table has for each run its question and at most
one reply after it, with the output of the completed run that was asked for with this question; the
reply went out once, to where the question came from; and a caller is told that its run completed
if and only if there is a reply. -/
theorem conversations_of_run {cfg : DispatchConfig} {actions : List DispatchSystem.Action}
    {s : DispatchSystem}
    (h : Run (DispatchSystem.step cfg) DispatchSystem.Fresh {} actions s) : s.Conversations :=
  (DispatchSystem.sound_of_run h).conversations

/-- A message of the web, from the question to the end of its dispatch. -/
def questionAndReply : List DispatchSystem.Action :=
  [.receive
      { channel := .web, chatJid := "web:home", senderId := "alice", groupFolder := some "home"
        content := "hello", messageId := "m1", timestamp := 0 } none,
    .resolve 0 { groupFolder := "home", chatJid := "web:home" } "first",
    .storeInbound 0 "question" 1, .submit 0 "", .wait 0,
    .coordinate (.worker 0), .coordinate (.execution 0),
    .coordinate (.backendEnds 0 (.dict { finalOutput := some "hi" })),
    .coordinate (.worker 0), .coordinate (.waiter 0),
    .resume 0 2, .deliver 0, .storeReply 0 "reply" 3, .finish 0]

theorem conversations_of_questionAndReply :
    ∃ s, Run (DispatchSystem.step { coordinator := .sample }) DispatchSystem.Fresh {}
        questionAndReply s ∧
      s.rows.map StoreCall.content = ["hello", "hi"] ∧ s.Conversations := by
  have h : Run (DispatchSystem.step { coordinator := .sample }) DispatchSystem.Fresh {}
    questionAndReply _ := .of_execute (by decide)
  exact ⟨_, h, by decide, conversations_of_run h⟩

/-- **The runs of the channels** add up in the usage statistics of every table that dispatches have
made, whatever the window. -/
theorem runs_of_channels {cfg : DispatchConfig} {actions : List DispatchSystem.Action}
    {s : DispatchSystem} (h : Run (DispatchSystem.step cfg) DispatchSystem.Fresh {} actions s)
    (now days : ℤ) :
    (getUsageStats (s.rows.map storeMessage) now days).summary.totalRuns =
      ((getUsageStats (s.rows.map storeMessage) now days).channels.map
        UsageChannelBreakdownSnapshot.runCount).sum := by
  refine (balances_getUsageStats _ now days).runChannels.mpr ?_
  intro message hmem message' hmem'
  exact (DispatchSystem.sound_of_run h).oneKey_channel message (List.mem_filter.mp hmem).1 message'
    (List.mem_filter.mp hmem').1

theorem runs_of_channels_questionAndReply :
    ∃ s, Run (DispatchSystem.step { coordinator := .sample }) DispatchSystem.Fresh {}
        questionAndReply s ∧
      (getUsageStats (s.rows.map storeMessage) 5 1).summary.totalRuns =
        ((getUsageStats (s.rows.map storeMessage) 5 1).channels.map
          UsageChannelBreakdownSnapshot.runCount).sum := by
  have h : Run (DispatchSystem.step { coordinator := .sample }) DispatchSystem.Fresh {}
    questionAndReply _ := .of_execute (by decide)
  exact ⟨_, h, runs_of_channels h 5 1⟩

end Portex
