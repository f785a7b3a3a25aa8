import Mathlib.Data.List.Nodup
import SimpleAsset.Vcx.ConnectionGuard

/-! What an inviter and an invitee agree on, over a network that delays, repeats, reorders and loses
messages. -/
namespace SimpleAsset.Vcx
open SimpleAsset.Library

section System

/-- The agent that a step has created, if it has. -/
def ExchangeCalls.created (calls : ExchangeCalls) : List AgentInfo :=
  match calls.createAgent with
  | .ok agent => [agent]
  | .error _ => []

def ConnectionEvent.agents : ConnectionEvent → List AgentInfo
  | .command _ calls _ => calls.created
  | .updateState current previous => previous.calls.created ++ current.calls.created

/-- Both machines, everything that was sent so far, and all agents that either party has created. -/
structure Handshake where
  inviter : DidExchangeSM
  invitee : DidExchangeSM
  network : List Packet
  inviterAgents : List AgentInfo
  inviteeAgents : List AgentInfo

inductive HandshakeStep
  | inviter (event : ConnectionEvent)
  | invitee (event : ConnectionEvent)

namespace Handshake

/-- No two agents share their key. -/
def DistinctKeys (w : Handshake) : Prop :=
  ((w.inviterAgents ++ w.inviteeAgents).map AgentInfo.pwVk).Nodup

instance (w : Handshake) : Decidable w.DistinctKeys :=
  inferInstanceAs (Decidable ((w.inviterAgents ++ w.inviteeAgents).map AgentInfo.pwVk).Nodup)

def inviterDoes (w : Handshake) (s : DidExchangeSM) (sent : List Packet) (agents : List AgentInfo) :
    Handshake :=
  { w with inviter := s, network := w.network ++ sent, inviterAgents := agents ++ w.inviterAgents }

def inviteeDoes (w : Handshake) (s : DidExchangeSM) (sent : List Packet) (agents : List AgentInfo) :
    Handshake :=
  { w with invitee := s, network := w.network ++ sent, inviteeAgents := agents ++ w.inviteeAgents }

def next (w : Handshake) : HandshakeStep → Handshake
  | .inviter event =>
    w.inviterDoes (w.inviter.perform event).1 (w.inviter.perform event).2 event.agents
  | .invitee event =>
    w.inviteeDoes (w.invitee.perform event).1 (w.invitee.perform event).2 event.agents

end Handshake

/-- A mailbox holds only what was sent to its key, in any order and any number of times. -/
def Delivered (network : List Packet) (key : String) (reading : Reading) : Prop :=
  ∀ envelopes, reading.answer = .ok envelopes →
    ∀ entry ∈ envelopes, ∀ message, entry.2.open = .ok message →
    ∃ packet ∈ network, packet.recipient = key ∧ packet.message = message

/-- The party keeps its settings, and the mailboxes that it reads are those of its keys. -/
def Genuine (settings : Settings) (network : List Packet) (s : DidExchangeSM) :
    ConnectionEvent → Prop
  | .command _ calls _ => calls.settings = settings
  | .updateState current previous =>
    current.calls.settings = settings ∧ previous.calls.settings = settings ∧
      Delivered network s.agentInfo.pwVk current ∧
      ∀ agent, (s.read current).1.1.prevAgentInfo = some agent →
        Delivered (network ++ (s.read current).2) agent.pwVk previous

variable (inviterSettings inviteeSettings : Settings)

def GenuineStep (w : Handshake) : HandshakeStep → Prop
  | .inviter event => Genuine inviterSettings w.network w.inviter event
  | .invitee event => Genuine inviteeSettings w.network w.invitee event

/-- The handshakes that can come about. Every agent is created with a key of its own. -/
inductive ReachableHandshake (sourceId sourceId' : String) : Handshake → Prop
  | start : ReachableHandshake sourceId sourceId'
      ⟨.newInviter sourceId, .newInvitee sourceId', [], [], []⟩
  | next {w : Handshake} {step : HandshakeStep} (h : ReachableHandshake sourceId sourceId' w)
    (hstep : GenuineStep inviterSettings inviteeSettings w step)
    (hkeys : (w.next step).DistinctKeys) :
    ReachableHandshake sourceId sourceId' (w.next step)

/-- A completed inviter has a completed invitee, and each holds the document of the other's
agent. -/
def ConnectionAgreement (w : Handshake) : Prop :=
  ∀ state, w.inviter.state = .inviter (.completed state) →
    ∃ state', w.invitee.state = .invitee (.completed state') ∧
      state.didDoc = w.invitee.agentInfo.didDoc inviteeSettings ∧
      state'.didDoc = w.inviter.agentInfo.didDoc inviterSettings

end System

section Messages

/-- A message that makes an end of a handshake. -/
def A2AMessage.confirms : A2AMessage → Prop
  | .ack _ => True
  | .ping _ => True
  | .pingResponse _ => True
  | _ => False

/-- A message that tells the document of its sender. -/
def A2AMessage.introduces : A2AMessage → Prop
  | .connectionRequest _ => True
  | .connectionResponse _ => True
  | _ => False

def DidExchangeMessages.confirms : DidExchangeMessages → Prop
  | .ackReceived _ => True
  | .pingReceived _ => True
  | .pingResponseReceived _ => True
  | _ => False

theorem confirms_of_ofMessage {m : A2AMessage} (h : (DidExchangeMessages.ofMessage m).confirms) :
    m.confirms := by
  cases m with
  | ack m => trivial
  | ping m => trivial
  | pingResponse m => trivial
  | _ => exact h

theorem eq_connectionRequest {m : A2AMessage} {request : Request}
    (h : DidExchangeMessages.ofMessage m = .exchangeRequestReceived request) :
    m = .connectionRequest request := by
  cases m with
  | connectionRequest m =>
    obtain rfl := DidExchangeMessages.exchangeRequestReceived.inj h
    rfl
  | _ => exact DidExchangeMessages.noConfusion h

theorem eq_connectionResponse {m : A2AMessage} {response : SignedResponse}
    (h : DidExchangeMessages.ofMessage m = .exchangeResponseReceived response) :
    m = .connectionResponse response := by
  cases m with
  | connectionResponse m =>
    obtain rfl := DidExchangeMessages.exchangeResponseReceived.inj h
    rfl
  | _ => exact DidExchangeMessages.noConfusion h

/-- Only messages that introduce no one are sent, and those that confirm go to the key of this
document. -/
def Talks (doc : Option DidDoc) (sent : List Packet) : Prop :=
  ∀ packet ∈ sent, ¬ packet.message.introduces ∧
    (packet.message.confirms → ∃ d, doc = some d ∧ d.recipientKeys.head? = some packet.recipient)

variable {doc : Option DidDoc} {didDoc : DidDoc} {agent : AgentInfo} {message : A2AMessage}
    {sent : List Packet}

theorem talks_nil : Talks doc [] := fun _ hmem => absurd hmem List.not_mem_nil

/-- Either the message goes to the first key of the document, or nothing is sent. -/
theorem ends_sendMessage {r : VcxResult Unit} (h : (agent.sendMessage message didDoc).Ends r sent) :
    (∃ key, didDoc.recipientKeys.head? = some key ∧ r = .ok () ∧
      sent = [⟨key, agent.pwVk, message⟩]) ∨
      ∃ e, r = .error e ∧ sent = [] := by
  unfold AgentInfo.sendMessage at h
  cases hkeys : didDoc.recipientKeys with
  | nil =>
    rw [hkeys] at h
    obtain ⟨hr, hsent⟩ := Sending.ends_ofExcept h
    exact Or.inr ⟨_, hr, hsent⟩
  | cons key keys =>
    rw [hkeys] at h
    rcases Sending.ends_send h with ⟨hr, hsent⟩ | ⟨e, hr, hsent⟩
    · exact Or.inl ⟨key, rfl, hr, hsent⟩
    · exact Or.inr ⟨e, hr, hsent⟩

theorem talks_sendMessage {r : VcxResult Unit} (h : (agent.sendMessage message didDoc).Ends r sent)
    (hmessage : ¬ message.introduces) : Talks (some didDoc) sent := by
  rcases ends_sendMessage h with ⟨key, hkey, -, rfl⟩ | ⟨e, -, rfl⟩
  · intro packet hmem
    rw [List.mem_singleton.mp hmem]
    exact ⟨hmessage, fun _ => ⟨didDoc, rfl, hkey⟩⟩
  · exact talks_nil

variable {calls : ExchangeCalls}

theorem talks_reportProblem {code : ProblemCode} {err : VcxError} {threadId : String}
    {r : VcxResult Unit} (h : (reportProblem calls code err threadId agent didDoc).Ends r sent) :
    Talks none sent ∧ r = .ok () := by
  obtain ⟨⟨x, hends⟩, hr⟩ := Sending.ends_attempt_pure h
  refine ⟨?_, hr⟩
  rcases ends_sendMessage hends with ⟨key, -, -, rfl⟩ | ⟨e, -, rfl⟩
  · intro packet hmem
    rw [List.mem_singleton.mp hmem]
    exact ⟨id, False.elim⟩
  · exact talks_nil

theorem talks_handlePing {ping : Ping} {r : VcxResult Unit}
    (h : (handlePing calls ping agent didDoc).Ends r sent) :
    Talks (some didDoc) sent := by
  unfold handlePing at h
  by_cases hrequested : ping.responseRequested
  · rw [if_pos hrequested] at h
    exact talks_sendMessage h id
  · rw [if_neg hrequested] at h
    obtain ⟨-, rfl⟩ := Sending.ends_pure h
    exact talks_nil

theorem talks_handleSendPing {comment : Option String} {r : VcxResult Unit}
    (h : (handleSendPing calls comment agent didDoc).Ends r sent) : Talks (some didDoc) sent := by
  obtain ⟨⟨x, hends⟩, -⟩ := Sending.ends_attempt_pure h
  exact talks_sendMessage hends id

/-- A party that has told something and goes on as `a`, or has failed to. -/
theorem talks_then {α : Type} {f : Connecting Unit} {a : α} {r : VcxResult α} {d : Option DidDoc}
    (hf : ∀ r sent, f.Ends r sent → Talks d sent)
    (h : (f >>= fun _ => pure a : Connecting α).Ends r sent) :
    Talks d sent ∧ (r = .ok a ∨ ∃ e, r = .error e) := by
  rcases Sending.ends_bind_pure h with ⟨u, hends, hr⟩ | ⟨e, hends, hr⟩
  · exact ⟨hf _ _ hends, Or.inl hr⟩
  · exact ⟨hf _ _ hends, Or.inr ⟨e, hr⟩⟩

/-- A completed party stays so, and talks to no one but the other one. -/
theorem ends_handleMessage {state : CompleteState} {message : DidExchangeMessages}
    {r : VcxResult DidExchangeState} (h : (state.handleMessage calls agent message).Ends r sent) :
    Talks (some state.didDoc) sent ∧
      ∀ next, r = .ok next → ∃ state', next = .completed state' ∧ state'.didDoc = state.didDoc := by
  have htalks : ∀ {f : Connecting Unit},
      (∀ r sent, f.Ends r sent → Talks (some state.didDoc) sent) →
      (f >>= fun _ => pure (.completed state) : Connecting DidExchangeState).Ends r sent →
      Talks (some state.didDoc) sent ∧
        ∀ next, r = .ok next → ∃ state', next = .completed state' ∧
          state'.didDoc = state.didDoc := by
    intro f hf hends
    obtain ⟨htalks, hr⟩ := talks_then hf hends
    refine ⟨htalks, ?_⟩
    intro next hnext
    rcases hr with hr | ⟨e, hr⟩
    · exact ⟨state, (Except.ok.inj (hr.symm.trans hnext)).symm, rfl⟩
    · exact nomatch hr.symm.trans hnext
  have hquiet : ∀ {state' : CompleteState}, state'.didDoc = state.didDoc →
      (pure (.completed state') : Connecting DidExchangeState).Ends r sent →
      Talks (some state.didDoc) sent ∧
        ∀ next, r = .ok next → ∃ state', next = .completed state' ∧
          state'.didDoc = state.didDoc := by
    intro state' hdoc hends
    obtain ⟨rfl, rfl⟩ := Sending.ends_pure hends
    exact ⟨talks_nil, fun next hnext => ⟨state', (Except.ok.inj hnext).symm, hdoc⟩⟩
  cases message with
  | sendPing comment => exact htalks (fun _ _ => talks_handleSendPing) h
  | pingReceived ping => exact htalks (fun _ _ => talks_handlePing) h
  | discoverFeatures query comment => exact htalks (fun _ _ hends => talks_sendMessage hends id) h
  | queryReceived query => exact htalks (fun _ _ hends => talks_sendMessage hends id) h
  | discloseReceived disclose => exact @hquiet ⟨state.didDoc, some disclose.protocols⟩ rfl h
  | _ => exact hquiet rfl h

end Messages

section Inviter

/-- The document of the other party, once it is known for sure. -/
def DidExchangeSM.theirDoc (s : DidExchangeSM) : Option DidDoc :=
  match s.state with
  | .inviter (.responded state) => some state.didDoc
  | .inviter (.completed state) => some state.didDoc
  | .invitee (.completed state) => some state.didDoc
  | _ => none

/-- What a step of the inviter on this message can do. -/
inductive InviterMoves (calls : ExchangeCalls) (message : DidExchangeMessages) :
    DidExchangeSM → DidExchangeSM → List Packet → Prop
  | stays {s : DidExchangeSM} {sent : List Packet} (hsent : Talks s.theirDoc sent) :
    InviterMoves calls message s s sent
  | invites {s : DidExchangeSM} {agent : AgentInfo} {state : InvitedState}
      (hagent : calls.createAgent = .ok agent) :
    InviterMoves calls message s ((s.withAgent agent).toInviter (.invited state)) []
  | responds {s : DidExchangeSM} {state : InvitedState} {request : Request} {agent : AgentInfo}
      {key : String}
    (hinvited : s.state = .inviter (.invited state))
    (hmessage : message = .exchangeRequestReceived request) (hagent : calls.createAgent = .ok agent)
    (hkey : request.connection.didDoc.recipientKeys.head? = some key) :
    InviterMoves calls message s
      ((s.withAgent agent).toInviter (.responded
        ⟨createResponse calls request agent s.agentInfo.pwVk, request.connection.didDoc,
          s.agentInfo⟩))
      [⟨key, agent.pwVk, .connectionResponse (createResponse calls request agent s.agentInfo.pwVk)⟩]
  | resets {s : DidExchangeSM} {sent : List Packet} (hsent : Talks none sent) :
    InviterMoves calls message s (s.toInviter .null) sent
  | completes {s : DidExchangeSM} {state : RespondedState} {sent : List Packet}
    (hresponded : s.state = .inviter (.responded state)) (hmessage : message.confirms)
    (hsent : Talks (some state.didDoc) sent) :
    InviterMoves calls message s (s.toInviter (.completed ⟨state.didDoc, none⟩)) sent
  | goesOn {s : DidExchangeSM} {state state' : CompleteState} {sent : List Packet}
    (hcompleted : s.state = .inviter (.completed state)) (hdoc : state'.didDoc = state.didDoc)
    (hsent : Talks (some state.didDoc) sent) :
    InviterMoves calls message s (s.toInviter (.completed state')) sent

variable {calls : ExchangeCalls} {message : DidExchangeMessages} {s : DidExchangeSM}
    {sent : List Packet}
  {r : VcxResult DidExchangeSM}

theorem inviterMoves_pure (h : (pure s : Connecting DidExchangeSM).Ends r sent) :
    InviterMoves calls message s (Sending.keep s r) sent := by
  obtain ⟨rfl, rfl⟩ := Sending.ends_pure h
  exact .stays talks_nil

theorem inviterMoves_connect (h : (s.stepInviter calls .null .connect).Ends r sent) :
    InviterMoves calls message s (Sending.keep s r) sent := by
  rcases Sending.ends_bind h with ⟨agent, sent₁, sent₂, hcreate, hrest, rfl⟩ | ⟨e, hcreate, rfl⟩
  · obtain ⟨hagent, rfl⟩ := Sending.ends_ofExcept hcreate
    obtain ⟨rfl, rfl⟩ := Sending.ends_pure hrest
    exact .invites hagent.symm
  · obtain ⟨-, rfl⟩ := Sending.ends_ofExcept hcreate
    exact .stays talks_nil

/-- A request is answered with a new agent, or nothing is sent. -/
theorem ends_handleConnectionRequest {request : Request} {agentInfo : AgentInfo}
    {r : VcxResult (SignedResponse × AgentInfo)}
    (h : (handleConnectionRequest calls request agentInfo).Ends r sent) :
    (∃ agent key, calls.createAgent = .ok agent ∧
      request.connection.didDoc.recipientKeys.head? = some key ∧
      r = .ok (createResponse calls request agent agentInfo.pwVk, agent) ∧
      sent = [⟨key, agent.pwVk,
        .connectionResponse (createResponse calls request agent agentInfo.pwVk)⟩]) ∨
      ∃ e, r = .error e ∧ sent = [] := by
  rcases Sending.ends_bind h with ⟨_, _, sent₁, hvalid, hcreates, rfl⟩ | ⟨e, hvalid, hr⟩
  · obtain ⟨-, rfl⟩ := Sending.ends_ofExcept hvalid
    rcases Sending.ends_bind hcreates
      with ⟨agent, _, sent₂, hcreate, hsigns, rfl⟩ | ⟨e, hcreate, hr⟩
    · obtain ⟨hagent, rfl⟩ := Sending.ends_ofExcept hcreate
      rcases Sending.ends_bind hsigns with ⟨_, _, sent₃, hsign, hsends, rfl⟩ | ⟨e, hsign, hr⟩
      · obtain ⟨-, rfl⟩ := Sending.ends_ofExcept hsign
        rcases Sending.ends_bind_pure hsends with ⟨_, hsend, hr⟩ | ⟨e, hsend, hr⟩
        · rcases ends_sendMessage hsend with ⟨key, hkey, -, hsent⟩ | ⟨e, hfailed, -⟩
          · exact Or.inl ⟨agent, key, hagent.symm, hkey, hr, hsent⟩
          · exact nomatch hfailed
        · rcases ends_sendMessage hsend with ⟨key, -, hok, -⟩ | ⟨e', -, hsent⟩
          · exact nomatch hok
          · exact Or.inr ⟨e, hr, hsent⟩
      · obtain ⟨-, hsent⟩ := Sending.ends_ofExcept hsign
        exact Or.inr ⟨e, hr, hsent⟩
    · obtain ⟨-, hsent⟩ := Sending.ends_ofExcept hcreate
      exact Or.inr ⟨e, hr, hsent⟩
  · obtain ⟨-, hsent⟩ := Sending.ends_ofExcept hvalid
    exact Or.inr ⟨e, hr, hsent⟩

theorem inviterMoves_request {state : InvitedState} {request : Request}
    (hinvited : s.state = .inviter (.invited state))
    (h : (s.stepInviter calls (.invited state) (.exchangeRequestReceived request)).Ends r sent) :
    InviterMoves calls (.exchangeRequestReceived request) s (Sending.keep s r) sent := by
  rcases Sending.ends_bind h with ⟨result, sent₁, sent₂, hattempt, hrespond, rfl⟩ | ⟨e, hattempt, -⟩
  · obtain ⟨result', hends, hresult⟩ := Sending.ends_attempt hattempt
    obtain rfl := Except.ok.inj hresult
    rcases ends_handleConnectionRequest hends
      with ⟨agent, key, hagent, hkey, rfl, rfl⟩ | ⟨err, rfl, rfl⟩
    · obtain ⟨rfl, rfl⟩ := Sending.ends_pure hrespond
      exact .responds hinvited rfl hagent hkey
    · rcases Sending.ends_bind_pure hrespond with ⟨_, hreport, rfl⟩ | ⟨e, hreport, -⟩
      · exact .resets (talks_reportProblem hreport).1
      · exact nomatch (talks_reportProblem hreport).2
  · obtain ⟨_, -, hok⟩ := Sending.ends_attempt hattempt
    exact nomatch hok

theorem inviterMoves_completed {state : CompleteState}
    (hcompleted : s.state = .inviter (.completed state))
    (h : (s.stepInviter calls (.completed state) message).Ends r sent) :
    InviterMoves calls message s (Sending.keep s r) sent := by
  have hdoc : s.theirDoc = some state.didDoc := by rw [DidExchangeSM.theirDoc, hcompleted]
  rcases Sending.ends_bind h with ⟨next, sent₁, sent₂, hhandle, hrest, rfl⟩ | ⟨e, hhandle, rfl⟩
  · obtain ⟨htalks, hnext⟩ := ends_handleMessage hhandle
    obtain ⟨state', rfl, hsame⟩ := hnext next rfl
    obtain ⟨rfl, rfl⟩ := Sending.ends_pure hrest
    rw [List.append_nil]
    exact .goesOn hcompleted hsame htalks
  · apply InviterMoves.stays
    rw [hdoc]
    exact (ends_handleMessage hhandle).1

theorem inviterMoves_responded {state : RespondedState}
    (hresponded : s.state = .inviter (.responded state))
    (h : (s.stepInviter calls (.responded state) message).Ends r sent) :
    InviterMoves calls message s (Sending.keep s r) sent := by
  have hdoc : s.theirDoc = some state.didDoc := by rw [DidExchangeSM.theirDoc, hresponded]
  cases message with
  | ackReceived ack =>
    obtain ⟨rfl, rfl⟩ := Sending.ends_pure h
    exact .completes hresponded trivial talks_nil
  | pingResponseReceived pingResponse =>
    obtain ⟨rfl, rfl⟩ := Sending.ends_pure h
    exact .completes hresponded trivial talks_nil
  | pingReceived ping =>
    obtain ⟨htalks, hr⟩ := talks_then (fun _ _ => talks_handlePing) h
    rcases hr with rfl | ⟨e, rfl⟩
    · exact .completes hresponded trivial htalks
    · apply InviterMoves.stays
      rwa [hdoc]
  | sendPing comment =>
    obtain ⟨htalks, hr⟩ := talks_then (fun _ _ => talks_handleSendPing) h
    rcases hr with rfl | ⟨e, rfl⟩
    · apply InviterMoves.stays
      rwa [hdoc]
    · apply InviterMoves.stays
      rwa [hdoc]
  | problemReportReceived problemReport =>
    obtain ⟨rfl, rfl⟩ := Sending.ends_pure h
    exact .resets talks_nil
  | _ => exact inviterMoves_pure h

theorem inviterMoves_step {state : DidExchangeState} (hstate : s.state = .inviter state)
    (h : (s.step calls message).Ends r sent) :
    InviterMoves calls message s (Sending.keep s r) sent := by
  unfold DidExchangeSM.step at h
  rw [hstate] at h
  cases state with
  | null =>
    cases message with
    | connect => exact inviterMoves_connect h
    | _ => exact inviterMoves_pure h
  | invited state =>
    cases message with
    | exchangeRequestReceived request => exact inviterMoves_request hstate h
    | problemReportReceived problemReport =>
      obtain ⟨rfl, rfl⟩ := Sending.ends_pure h
      exact .resets talks_nil
    | _ => exact inviterMoves_pure h
  | requested state => exact inviterMoves_pure h
  | responded state => exact inviterMoves_responded hstate h
  | completed state => exact inviterMoves_completed hstate h

end Inviter

section Invitee

/-- What a step of the invitee on this message can do. -/
inductive InviteeMoves (calls : ExchangeCalls) (message : DidExchangeMessages) :
    DidExchangeSM → DidExchangeSM → List Packet → Prop
  | stays {s : DidExchangeSM} {sent : List Packet} (hsent : Talks s.theirDoc sent) :
    InviteeMoves calls message s s sent
  | accepts {s : DidExchangeSM} {state : InvitedState} (hnull : s.state = .invitee .null) :
    InviteeMoves calls message s (s.toInvitee (.invited state)) []
  | requests {s : DidExchangeSM} {state : InvitedState} {agent : AgentInfo} {request : Request}
      {didDoc : DidDoc}
    {key : String} (hinvited : s.state = .invitee (.invited state))
    (hagent : calls.createAgent = .ok agent)
    (hdoc : request.connection.didDoc = agent.didDoc calls.settings) :
    InviteeMoves calls message s ((s.withAgent agent).toInvitee (.requested ⟨request, didDoc⟩))
      [⟨key, agent.pwVk, .connectionRequest request⟩]
  | resets {s : DidExchangeSM} {sent : List Packet} (hbefore : s.theirDoc = none)
      (hsent : Talks none sent) :
    InviteeMoves calls message s (s.toInvitee .null) sent
  | completes {s : DidExchangeSM} {state : RequestedState} {response : SignedResponse}
      {sent : List Packet}
    (hrequested : s.state = .invitee (.requested state))
    (hmessage : message = .exchangeResponseReceived response)
    (hsent : Talks (some response.connectionSig.connection.didDoc) sent) :
    InviteeMoves calls message s
    (s.toInvitee (.completed ⟨response.connectionSig.connection.didDoc, none⟩)) sent
  | goesOn {s : DidExchangeSM} {state state' : CompleteState} {sent : List Packet}
    (hcompleted : s.state = .invitee (.completed state)) (hdoc : state'.didDoc = state.didDoc)
    (hsent : Talks (some state.didDoc) sent) :
    InviteeMoves calls message s (s.toInvitee (.completed state')) sent

variable {calls : ExchangeCalls} {message : DidExchangeMessages} {s : DidExchangeSM}
    {sent : List Packet}
  {r : VcxResult DidExchangeSM}

theorem inviteeMoves_pure (h : (pure s : Connecting DidExchangeSM).Ends r sent) :
    InviteeMoves calls message s (Sending.keep s r) sent := by
  obtain ⟨rfl, rfl⟩ := Sending.ends_pure h
  exact .stays talks_nil

theorem inviteeMoves_connect {state : InvitedState} (hinvited : s.state = .invitee (.invited state))
    (h : (s.stepInvitee calls (.invited state) .connect).Ends r sent) :
    InviteeMoves calls message s (Sending.keep s r) sent := by
  rcases Sending.ends_bind h with ⟨agent, sent₁, sent₂, hcreate, hrest, rfl⟩ | ⟨e, hcreate, rfl⟩
  · obtain ⟨hagent, rfl⟩ := Sending.ends_ofExcept hcreate
    rcases Sending.ends_bind_pure hrest with ⟨_, hsend, rfl⟩ | ⟨e, hsend, rfl⟩
    · rcases ends_sendMessage hsend with ⟨key, -, -, rfl⟩ | ⟨e, hfailed, -⟩
      · exact .requests hinvited hagent.symm rfl
      · exact nomatch hfailed
    · rcases ends_sendMessage hsend with ⟨key, -, hok, -⟩ | ⟨e', -, rfl⟩
      · exact nomatch hok
      · exact .stays talks_nil
  · obtain ⟨-, rfl⟩ := Sending.ends_ofExcept hcreate
    exact .stays talks_nil

/-- A response is taken for what it says. -/
theorem eq_of_checkResponse {state : RequestedState} {signed : SignedResponse} {response : Response}
    (h : checkResponse state signed = .ok response) :
    response.connection.didDoc = signed.connectionSig.connection.didDoc := by
  unfold checkResponse at h
  cases hkeys : state.didDoc.recipientKeys with
  | nil =>
    rw [hkeys] at h
    exact nomatch h
  | cons key keys =>
    rw [hkeys] at h
    obtain ⟨remoteVk, -, hdecode⟩ := except_bind_eq_ok.mp h
    obtain ⟨decoded, hdecoded, hthread⟩ := except_bind_eq_ok.mp hdecode
    have hsame : decoded = response := by
      split at hthread
      · exact Except.ok.inj hthread
      · exact nomatch hthread
    unfold SignedResponse.decode at hdecoded
    split at hdecoded
    · rw [← hsame, ← Except.ok.inj hdecoded]
    · exact nomatch hdecoded

/-- A response is confirmed to the party that it names, or nothing is sent. -/
theorem ends_handleConnectionResponse {state : RequestedState} {signed : SignedResponse}
    {agentInfo : AgentInfo} {r : VcxResult Response}
    (h : (handleConnectionResponse calls state signed agentInfo).Ends r sent) :
    (∃ response, r = .ok response ∧
      response.connection.didDoc = signed.connectionSig.connection.didDoc ∧
      Talks (some signed.connectionSig.connection.didDoc) sent) ∨ ∃ e, r = .error e ∧
        sent = [] := by
  rcases Sending.ends_bind h with ⟨response, _, sent₂, hcheck, hconfirm, rfl⟩ | ⟨e, hcheck, hr⟩
  · obtain ⟨hresponse, rfl⟩ := Sending.ends_ofExcept hcheck
    have hdoc := eq_of_checkResponse hresponse.symm
    have hquiet : ¬ (confirmation calls response).introduces := by
      unfold confirmation
      split
      · exact id
      · exact id
    rcases Sending.ends_bind_pure hconfirm with ⟨_, hsend, hr⟩ | ⟨e, hsend, hr⟩
    · refine Or.inl ⟨response, hr, hdoc, ?_⟩
      rw [← hdoc]
      exact talks_sendMessage hsend hquiet
    · rcases ends_sendMessage hsend with ⟨key, -, hok, -⟩ | ⟨e', -, hsent⟩
      · exact nomatch hok
      · exact Or.inr ⟨e, hr, hsent⟩
  · obtain ⟨-, hsent⟩ := Sending.ends_ofExcept hcheck
    exact Or.inr ⟨e, hr, hsent⟩

theorem inviteeMoves_response {state : RequestedState} {response : SignedResponse}
    (hrequested : s.state = .invitee (.requested state))
    (h : (s.stepInvitee calls (.requested state) (.exchangeResponseReceived response)).Ends r
      sent) :
    InviteeMoves calls (.exchangeResponseReceived response) s (Sending.keep s r) sent := by
  rcases Sending.ends_bind h
    with ⟨result, sent₁, sent₂, hattempt, hcomplete, rfl⟩ | ⟨e, hattempt, -⟩
  · obtain ⟨result', hends, hresult⟩ := Sending.ends_attempt hattempt
    obtain rfl := Except.ok.inj hresult
    rcases ends_handleConnectionResponse hends with ⟨response', rfl, hdoc, htalks⟩ | ⟨err, rfl, rfl⟩
    · obtain ⟨rfl, rfl⟩ := Sending.ends_pure hcomplete
      rw [List.append_nil, Sending.keep, hdoc]
      exact .completes hrequested rfl htalks
    · rcases Sending.ends_bind_pure hcomplete with ⟨_, hreport, rfl⟩ | ⟨e, hreport, -⟩
      · refine .resets ?_ (talks_reportProblem hreport).1
        rw [DidExchangeSM.theirDoc, hrequested]
      · exact nomatch (talks_reportProblem hreport).2
  · obtain ⟨_, -, hok⟩ := Sending.ends_attempt hattempt
    exact nomatch hok

theorem inviteeMoves_completed {state : CompleteState}
    (hcompleted : s.state = .invitee (.completed state))
    (h : (s.stepInvitee calls (.completed state) message).Ends r sent) :
    InviteeMoves calls message s (Sending.keep s r) sent := by
  have hdoc : s.theirDoc = some state.didDoc := by rw [DidExchangeSM.theirDoc, hcompleted]
  rcases Sending.ends_bind h with ⟨next, sent₁, sent₂, hhandle, hrest, rfl⟩ | ⟨e, hhandle, rfl⟩
  · obtain ⟨htalks, hnext⟩ := ends_handleMessage hhandle
    obtain ⟨state', rfl, hsame⟩ := hnext next rfl
    obtain ⟨rfl, rfl⟩ := Sending.ends_pure hrest
    rw [List.append_nil]
    exact .goesOn hcompleted hsame htalks
  · apply InviteeMoves.stays
    rw [hdoc]
    exact (ends_handleMessage hhandle).1

theorem inviteeMoves_step {state : DidExchangeState} (hstate : s.state = .invitee state)
    (h : (s.step calls message).Ends r sent) :
    InviteeMoves calls message s (Sending.keep s r) sent := by
  unfold DidExchangeSM.step at h
  rw [hstate] at h
  have hreset : ∀ {report : ConnectionProblemReport}, s.theirDoc = none →
      (pure (s.toInvitee .null) : Connecting DidExchangeSM).Ends r sent →
      InviteeMoves calls (.problemReportReceived report) s (Sending.keep s r) sent := by
    intro report hdoc hends
    obtain ⟨rfl, rfl⟩ := Sending.ends_pure hends
    exact .resets hdoc talks_nil
  cases state with
  | null =>
    cases message with
    | invitationReceived invitation =>
      obtain ⟨rfl, rfl⟩ := Sending.ends_pure h
      exact .accepts hstate
    | _ => exact inviteeMoves_pure h
  | invited state =>
    cases message with
    | connect => exact inviteeMoves_connect hstate h
    | problemReportReceived problemReport =>
      refine hreset ?_ h
      rw [DidExchangeSM.theirDoc, hstate]
    | _ => exact inviteeMoves_pure h
  | requested state =>
    cases message with
    | exchangeResponseReceived response => exact inviteeMoves_response hstate h
    | problemReportReceived problemReport =>
      refine hreset ?_ h
      rw [DidExchangeSM.theirDoc, hstate]
    | _ => exact inviteeMoves_pure h
  | responded state => exact inviteeMoves_pure h
  | completed state => exact inviteeMoves_completed hstate h

end Invitee

section Reads
variable {s : DidExchangeSM} {reading : Reading}

/-- What reading a mailbox comes to: nothing, or a step on one of its messages. -/
theorem read_cases : ((s.read reading).1.1 = s ∧ (s.read reading).2 = []) ∨
    ∃ envelopes entry message r, reading.answer = .ok envelopes ∧ entry ∈ envelopes ∧
      entry.2.open = .ok message ∧
      (s.step reading.calls (.ofMessage message)).Ends r (s.read reading).2 ∧
      (s.read reading).1.1 = Sending.keep s r := by
  have hread : (s.read reading).1.1 =
      (s.afterHandling reading.updated ((s.handleFound reading).run reading.outcomes).1).1 := rfl
  have hends : (s.handleFound reading).Ends ((s.handleFound reading).run reading.outcomes).1
      (s.read reading).2 :=
    Sending.ends_run _ _
  rw [hread]
  generalize ((s.handleFound reading).run reading.outcomes).1 = result at hends
  rcases Sending.ends_bind hends with ⟨messages, sent₁, sent₂, hget, hrest, hsent⟩ | ⟨e, hget, rfl⟩
  · obtain ⟨hmessages, rfl⟩ := Sending.ends_ofExcept hget
    cases hanswer : reading.answer with
    | error e =>
      rw [hanswer] at hmessages
      exact nomatch hmessages
    | ok envelopes =>
      rw [hanswer] at hmessages
      rcases findMessageToHandle_of_handledEnvelope hmessages.symm with
        ⟨hnone, -⟩ | ⟨entry, message, hhandled, hopen, hfound⟩
      · rw [hnone] at hrest
        obtain ⟨rfl, rfl⟩ := Sending.ends_pure hrest
        exact Or.inl ⟨rfl, hsent⟩
      · rw [hfound] at hrest
        rw [hsent, List.nil_append]
        refine Or.inr ⟨envelopes, entry, message, ?_⟩
        have hmem := (mem_of_handledEnvelope hhandled hopen).1
        rcases Sending.ends_bind hrest
          with ⟨next, sent₃, sent₄, hstep, hlast, rfl⟩ | ⟨e, hstep, rfl⟩
        · obtain ⟨rfl, rfl⟩ := Sending.ends_pure hlast
          rw [List.append_nil]
          exact ⟨.ok next, rfl, hmem, hopen, hstep, rfl⟩
        · exact ⟨.error e, rfl, hmem, hopen, hstep, rfl⟩
  · obtain ⟨-, hsent⟩ := Sending.ends_ofExcept hget
    exact Or.inl ⟨rfl, hsent⟩

/-- One mailbox is read, or a second one after it if there is an agent before. -/
theorem updateState_cases (current previous : Reading) :
    s.updateState current previous = ((s.read current).1.1, (s.read current).2) ∨
      ∃ agent, (s.read current).1.1.prevAgentInfo = some agent ∧
        s.updateState current previous = (((s.read current).1.1.read previous).1.1,
          (s.read current).2 ++ ((s.read current).1.1.read previous).2) := by
  unfold DidExchangeSM.updateState
  dsimp only
  cases hprev : (s.read current).1.1.prevAgentInfo with
  | none => exact Or.inl rfl
  | some agent =>
    cases (s.read current).1.2 with
    | false => exact Or.inl rfl
    | true => exact Or.inr ⟨agent, rfl, rfl⟩

end Reads

section Network
variable {network sent : List Packet} {key : String} {didDoc : DidDoc}

/-- A response with this document was sent to this key. -/
def RespondedTo (network : List Packet) (key : String) (didDoc : DidDoc) : Prop :=
  ∃ packet ∈ network, packet.recipient = key ∧
    ∃ response, packet.message = .connectionResponse response ∧
    response.connectionSig.connection.didDoc = didDoc

theorem respondedTo_append :
    RespondedTo (network ++ sent) key didDoc ↔ RespondedTo network key didDoc ∨
    RespondedTo sent key didDoc := by
  constructor
  · rintro ⟨packet, hmem, hpacket⟩
    rcases List.mem_append.mp hmem with hold | hnew
    · exact Or.inl ⟨packet, hold, hpacket⟩
    · exact Or.inr ⟨packet, hnew, hpacket⟩
  · rintro (⟨packet, hmem, hpacket⟩ | ⟨packet, hmem, hpacket⟩)
    · exact ⟨packet, List.mem_append_left _ hmem, hpacket⟩
    · exact ⟨packet, List.mem_append_right _ hmem, hpacket⟩

theorem not_respondedTo_nil : ¬ RespondedTo [] key didDoc := by
  rintro ⟨packet, hmem, -⟩
  exact absurd hmem List.not_mem_nil

theorem Talks.not_respondedTo {doc : Option DidDoc} (h : Talks doc sent) :
    ¬ RespondedTo sent key didDoc := by
  rintro ⟨packet, hmem, -, response, hresponse, -⟩
  have hquiet := (h packet hmem).1
  rw [hresponse] at hquiet
  exact hquiet trivial

theorem Talks.not_request {doc : Option DidDoc} (h : Talks doc sent) {packet : Packet}
    (hmem : packet ∈ sent) (request : Request) : packet.message ≠ .connectionRequest request := by
  intro hrequest
  have hquiet := (h packet hmem).1
  rw [hrequest] at hquiet
  exact hquiet trivial

theorem respondedTo_singleton {packet : Packet} (h : RespondedTo [packet] key didDoc) :
    packet.recipient = key ∧ ∃ response, packet.message = .connectionResponse response ∧
      response.connectionSig.connection.didDoc = didDoc := by
  obtain ⟨packet', hmem, hpacket⟩ := h
  rwa [List.mem_singleton.mp hmem] at hpacket

/-- The message is a command, or was sent to a mailbox of the machine. -/
def Heard (network : List Packet) (s : DidExchangeSM) (message : DidExchangeMessages) : Prop :=
  (∃ command : ConnectionCommand, message = command.message) ∨
    ∃ packet ∈ network, message = .ofMessage packet.message ∧
      (packet.recipient = s.agentInfo.pwVk ∨ ∃ agent, s.prevAgentInfo = some agent ∧
        packet.recipient = agent.pwVk)

variable {s : DidExchangeSM} {message : DidExchangeMessages}

theorem Heard.of_confirms (h : Heard network s message) (hconfirms : message.confirms) :
    ∃ packet ∈ network, packet.message.confirms ∧
      (packet.recipient = s.agentInfo.pwVk ∨ ∃ agent, s.prevAgentInfo = some agent ∧
        packet.recipient = agent.pwVk) := by
  rcases h with ⟨command, rfl⟩ | ⟨packet, hmem, rfl, hkey⟩
  · cases command with
    | _ => exact False.elim hconfirms
  · exact ⟨packet, hmem, confirms_of_ofMessage hconfirms, hkey⟩

theorem Heard.of_request {request : Request}
    (h : Heard network s (.exchangeRequestReceived request)) :
    ∃ packet ∈ network, packet.message = .connectionRequest request := by
  rcases h with ⟨command, hcommand⟩ | ⟨packet, hmem, hmessage, -⟩
  · cases command with
    | _ => exact DidExchangeMessages.noConfusion hcommand
  · exact ⟨packet, hmem, eq_connectionRequest hmessage.symm⟩

theorem Heard.of_response {response : SignedResponse}
    (h : Heard network s (.exchangeResponseReceived response)) (hprev : s.prevAgentInfo = none) :
    RespondedTo network s.agentInfo.pwVk response.connectionSig.connection.didDoc := by
  rcases h with ⟨command, hcommand⟩ | ⟨packet, hmem, hmessage, hkey | ⟨agent, hagent, -⟩⟩
  · cases command with
    | _ => exact DidExchangeMessages.noConfusion hcommand
  · exact ⟨packet, hmem, hkey, response, eq_connectionResponse hmessage.symm, rfl⟩
  · rw [hprev] at hagent
    exact nomatch hagent

end Network

section Invariant
variable (inviterSettings inviteeSettings : Settings)

/-- No response names this agent of the inviter. -/
def Unanswered (w : Handshake) (agent : AgentInfo) : Prop :=
  agent ∈ w.inviterAgents ∧ ∀ key, ¬ RespondedTo w.network key (agent.didDoc inviterSettings)

/-- The document is that of an agent of the invitee, to which a response with this agent of the
inviter was sent. -/
def Answered (w : Handshake) (agent : AgentInfo) (didDoc : DidDoc) : Prop :=
  agent ∈ w.inviterAgents ∧ ∃ theirs ∈ w.inviteeAgents, didDoc = theirs.didDoc inviteeSettings ∧
    RespondedTo w.network theirs.pwVk (agent.didDoc inviterSettings)

structure HandshakeInvariant (w : Handshake) : Prop where
  keys : w.DistinctKeys
  inviterActs : ∃ state, w.inviter.state = .inviter state
  inviteeActs : ∃ state, w.invitee.state = .invitee state
  /-- Requests are made by agents of the invitee. -/
  requests : ∀ packet ∈ w.network, ∀ request, packet.message = .connectionRequest request →
    ∃ agent ∈ w.inviteeAgents, request.connection.didDoc = agent.didDoc inviteeSettings
  /-- Responses are made by agents of the inviter, each by one of its own. -/
  responses : ∀ key didDoc, RespondedTo w.network key didDoc →
    ∃ agent ∈ w.inviterAgents, didDoc = agent.didDoc inviterSettings
  once : ∀ key key' didDoc, RespondedTo w.network key didDoc →
    RespondedTo w.network key' didDoc → key = key'
  /-- What confirms goes to the invitee, or to the party that a completed invitee knows. -/
  confirmations : ∀ packet ∈ w.network, packet.message.confirms →
    (∃ agent ∈ w.inviteeAgents, packet.recipient = agent.pwVk) ∨
      ∃ didDoc, w.invitee.theirDoc = some didDoc ∧
        didDoc.recipientKeys.head? = some packet.recipient
  invited : ∀ state, w.inviter.state = .inviter (.invited state) →
    Unanswered inviterSettings w w.inviter.agentInfo
  responded : ∀ state, w.inviter.state = .inviter (.responded state) →
    Unanswered inviterSettings w state.prevAgentInfo ∧
      Answered inviterSettings inviteeSettings w w.inviter.agentInfo state.didDoc
  requested : ∀ state, w.invitee.state = .invitee (.requested state) →
    w.invitee.agentInfo ∈ w.inviteeAgents
  /-- A completed invitee knows the party that has responded to it. -/
  completed : ∀ didDoc, w.invitee.theirDoc = some didDoc →
    w.invitee.agentInfo ∈ w.inviteeAgents ∧ RespondedTo w.network w.invitee.agentInfo.pwVk didDoc
  agreement : ConnectionAgreement inviterSettings inviteeSettings w

variable {inviterSettings inviteeSettings} {w : Handshake}

theorem Handshake.DistinctKeys.eq (h : w.DistinctKeys) {agent agent' : AgentInfo}
    (hmem : agent ∈ w.inviterAgents ++ w.inviteeAgents)
    (hmem' : agent' ∈ w.inviterAgents ++ w.inviteeAgents)
    (hkey : agent.pwVk = agent'.pwVk) : agent = agent' := List.inj_on_of_nodup_map h hmem hmem' hkey

theorem Handshake.DistinctKeys.ne (h : w.DistinctKeys) {agent theirs : AgentInfo}
    (hmem : agent ∈ w.inviterAgents)
    (htheirs : theirs ∈ w.inviteeAgents) : agent.pwVk ≠ theirs.pwVk := by
  intro hkey
  unfold Handshake.DistinctKeys at h
  rw [List.map_append] at h
  have hdisjoint := List.disjoint_of_nodup_append h
  refine hdisjoint (List.mem_map_of_mem hmem) ?_
  rw [hkey]
  exact List.mem_map_of_mem htheirs

/-- The document of an agent tells its key. -/
theorem pwVk_of_didDoc_eq {settings : Settings} {agent agent' : AgentInfo}
    (h : agent.didDoc settings = agent'.didDoc settings) : agent.pwVk = agent'.pwVk :=
  List.head_eq_of_cons_eq (congrArg DidDoc.recipientKeys h)

theorem completed_of_theirDoc {s : DidExchangeSM} (hs : ∃ state, s.state = .invitee state)
    {didDoc : DidDoc}
    (h : s.theirDoc = some didDoc) : ∃ state, s.state = .invitee (.completed state) ∧
      state.didDoc = didDoc := by
  obtain ⟨state, hstate⟩ := hs
  unfold DidExchangeSM.theirDoc at h
  rw [hstate] at h
  cases state with
  | completed state => exact ⟨state, hstate, Option.some.inj h⟩
  | _ => exact nomatch h

theorem theirDoc_of_completed {s : DidExchangeSM} {state : CompleteState}
    (h : s.state = .invitee (.completed state)) : s.theirDoc = some state.didDoc := by
  rw [DidExchangeSM.theirDoc, h]

/-- Whom the inviter talks to is an agent of the invitee. -/
theorem HandshakeInvariant.theirDoc (h : HandshakeInvariant inviterSettings inviteeSettings w)
    {didDoc : DidDoc} (hdoc : w.inviter.theirDoc = some didDoc) :
    ∃ theirs ∈ w.inviteeAgents, didDoc = theirs.didDoc inviteeSettings := by
  obtain ⟨state, hstate⟩ := h.inviterActs
  have hcases := hdoc
  unfold DidExchangeSM.theirDoc at hcases
  rw [hstate] at hcases
  cases state with
  | responded state =>
    obtain ⟨-, -, theirs, hmem, heq, -⟩ := h.responded state hstate
    rw [← Option.some.inj hcases]
    exact ⟨theirs, hmem, heq⟩
  | completed state =>
    obtain ⟨state', hstate', heq, -⟩ := h.agreement state hstate
    rw [← Option.some.inj hcases]
    exact ⟨_, (h.completed _ (theirDoc_of_completed hstate')).1, heq⟩
  | _ => exact nomatch hcases

/-- An inviter that is sent a confirmation has been completed with by the invitee. -/
theorem HandshakeInvariant.confirmed (h : HandshakeInvariant inviterSettings inviteeSettings w)
    {state : RespondedState}
    (hresponded : w.inviter.state = .inviter (.responded state)) {packet : Packet}
    (hmem : packet ∈ w.network) (hconfirms : packet.message.confirms)
    (hkey : packet.recipient = w.inviter.agentInfo.pwVk ∨
      ∃ agent, w.inviter.prevAgentInfo = some agent ∧ packet.recipient = agent.pwVk) :
    ∃ state', w.invitee.state = .invitee (.completed state') ∧
      state.didDoc = w.invitee.agentInfo.didDoc inviteeSettings ∧
      state'.didDoc = w.inviter.agentInfo.didDoc inviterSettings := by
  obtain ⟨⟨hprev, hunanswered⟩, hagent, theirs, htheirs, hdoc, hanswer⟩ :=
    h.responded state hresponded
  -- the mailbox is that of the new agent or that of the invitation
  have hmine : ∃ agent ∈ w.inviterAgents, packet.recipient = agent.pwVk ∧
      (agent = w.inviter.agentInfo ∨ agent = state.prevAgentInfo) := by
    rcases hkey with hkey | ⟨agent, hsome, hkey⟩
    · exact ⟨_, hagent, hkey, Or.inl rfl⟩
    · rw [DidExchangeSM.prevAgentInfo, hresponded] at hsome
      rw [← Option.some.inj hsome] at hkey
      exact ⟨_, hprev, hkey, Or.inr rfl⟩
  obtain ⟨agent, hin, hrecipient, hwhich⟩ := hmine
  rcases h.confirmations packet hmem hconfirms
    with ⟨other, hother, heq⟩ | ⟨didDoc, htheirDoc, hhead⟩
  · exact absurd (hrecipient.symm.trans heq) (h.keys.ne hin hother)
  · obtain ⟨hinvitee, hto⟩ := h.completed didDoc htheirDoc
    obtain ⟨sender, hsender, rfl⟩ := h.responses _ _ hto
    have hsame : sender = agent := by
      apply h.keys.eq (List.mem_append_left _ hsender) (List.mem_append_left _ hin)
      rw [← hrecipient]
      exact Option.some.inj hhead
    rw [hsame] at hto htheirDoc
    rcases hwhich with rfl | rfl
    · have hinviteeAgent : w.invitee.agentInfo = theirs :=
        h.keys.eq (List.mem_append_right _ hinvitee) (List.mem_append_right _ htheirs)
          (h.once _ _ _ hto hanswer)
      obtain ⟨state', hstate', heq⟩ := completed_of_theirDoc h.inviteeActs htheirDoc
      refine ⟨state', hstate', ?_, heq⟩
      rw [hinviteeAgent]
      exact hdoc
    · exact absurd hto (hunanswered _)

end Invariant

section InviterPreserves
variable {inviterSettings inviteeSettings : Settings} {w : Handshake} {s : DidExchangeSM}
    {sent : List Packet}
  {agents : List AgentInfo} {agent : AgentInfo} {didDoc : DidDoc}

theorem Unanswered.inviterDoes (h : Unanswered inviterSettings w agent)
    (hsent : ∀ key, ¬ RespondedTo sent key (agent.didDoc inviterSettings)) :
    Unanswered inviterSettings (w.inviterDoes s sent agents) agent := by
  refine ⟨List.mem_append_right _ h.1, ?_⟩
  intro key hto
  rcases respondedTo_append.mp hto with hold | hnew
  · exact h.2 key hold
  · exact hsent key hnew

theorem Answered.inviterDoes (h : Answered inviterSettings inviteeSettings w agent didDoc) :
    Answered inviterSettings inviteeSettings (w.inviterDoes s sent agents) agent didDoc := by
  obtain ⟨hmem, theirs, htheirs, hdoc, hto⟩ := h
  exact ⟨List.mem_append_right _ hmem, theirs, htheirs, hdoc, respondedTo_append.mpr (Or.inl hto)⟩

/-- Whatever the inviter does keeps what does not depend on its own state. -/
theorem HandshakeInvariant.inviterDoes (h : HandshakeInvariant inviterSettings inviteeSettings w)
    (hkeys : (w.inviterDoes s sent agents).DistinctKeys) (hacts : ∃ state, s.state = .inviter state)
    (hrequests : ∀ packet ∈ sent, ∀ request, packet.message ≠ .connectionRequest request)
    (hresponses : ∀ key didDoc, RespondedTo sent key didDoc →
      ∃ agent ∈ agents, didDoc = agent.didDoc inviterSettings)
    (honce : ∀ key key' didDoc, RespondedTo (w.network ++ sent) key didDoc →
      RespondedTo (w.network ++ sent) key' didDoc → key = key')
    (hconfirmations : ∀ packet ∈ sent, packet.message.confirms →
      ∃ agent ∈ w.inviteeAgents, packet.recipient = agent.pwVk)
    (hinvited : ∀ state, s.state = .inviter (.invited state) →
      Unanswered inviterSettings (w.inviterDoes s sent agents) s.agentInfo)
    (hresponded : ∀ state, s.state = .inviter (.responded state) →
      Unanswered inviterSettings (w.inviterDoes s sent agents) state.prevAgentInfo ∧
        Answered inviterSettings inviteeSettings
        (w.inviterDoes s sent agents) s.agentInfo state.didDoc)
    (hagreement : ConnectionAgreement inviterSettings inviteeSettings
      (w.inviterDoes s sent agents)) :
    HandshakeInvariant inviterSettings inviteeSettings (w.inviterDoes s sent agents) where
  keys := hkeys
  inviterActs := hacts
  inviteeActs := h.inviteeActs
  requests := by
    intro packet hmem request hrequest
    rcases List.mem_append.mp hmem with hold | hnew
    · exact h.requests packet hold request hrequest
    · exact absurd hrequest (hrequests packet hnew request)
  responses := by
    intro key didDoc hto
    rcases respondedTo_append.mp hto with hold | hnew
    · obtain ⟨agent, hmem, hdoc⟩ := h.responses key didDoc hold
      exact ⟨agent, List.mem_append_right _ hmem, hdoc⟩
    · obtain ⟨agent, hmem, hdoc⟩ := hresponses key didDoc hnew
      exact ⟨agent, List.mem_append_left _ hmem, hdoc⟩
  once := honce
  confirmations := by
    intro packet hmem hconfirms
    rcases List.mem_append.mp hmem with hold | hnew
    · exact h.confirmations packet hold hconfirms
    · exact Or.inl (hconfirmations packet hnew hconfirms)
  invited := hinvited
  responded := hresponded
  requested := h.requested
  completed := by
    intro didDoc hdoc
    obtain ⟨hmem, hto⟩ := h.completed didDoc hdoc
    exact ⟨hmem, respondedTo_append.mpr (Or.inl hto)⟩
  agreement := hagreement

/-- An inviter that only talks to the invitee has to keep what depends on its own state. -/
theorem HandshakeInvariant.inviterTalks (h : HandshakeInvariant inviterSettings inviteeSettings w)
    (hkeys : (w.inviterDoes s sent agents).DistinctKeys) (hacts : ∃ state, s.state = .inviter state)
    (hsent : Talks w.inviter.theirDoc sent)
    (hinvited : ∀ state, s.state = .inviter (.invited state) →
      Unanswered inviterSettings (w.inviterDoes s sent agents) s.agentInfo)
    (hresponded : ∀ state, s.state = .inviter (.responded state) →
      Unanswered inviterSettings (w.inviterDoes s sent agents) state.prevAgentInfo ∧
        Answered inviterSettings inviteeSettings
        (w.inviterDoes s sent agents) s.agentInfo state.didDoc)
    (hagreement : ConnectionAgreement inviterSettings inviteeSettings
      (w.inviterDoes s sent agents)) :
    HandshakeInvariant inviterSettings inviteeSettings (w.inviterDoes s sent agents) := by
  refine h.inviterDoes hkeys hacts ?_ ?_ ?_ ?_ hinvited hresponded hagreement
  · exact fun packet hmem request => hsent.not_request hmem request
  · intro key didDoc hto
    exact absurd hto hsent.not_respondedTo
  · intro key key' didDoc hto hto'
    have hold := (respondedTo_append.mp hto).resolve_right hsent.not_respondedTo
    have hold' := (respondedTo_append.mp hto').resolve_right hsent.not_respondedTo
    exact h.once key key' didDoc hold hold'
  · intro packet hmem hconfirms
    obtain ⟨didDoc, hdoc, hhead⟩ := (hsent packet hmem).2 hconfirms
    obtain ⟨theirs, htheirs, rfl⟩ := h.theirDoc hdoc
    exact ⟨theirs, htheirs, (Option.some.inj hhead).symm⟩

theorem Talks.of_none {doc : Option DidDoc} (h : Talks none sent) : Talks doc sent := by
  intro packet hmem
  obtain ⟨hquiet, hconfirms⟩ := h packet hmem
  refine ⟨hquiet, ?_⟩
  intro hconfirm
  obtain ⟨didDoc, hnone, -⟩ := hconfirms hconfirm
  exact nomatch hnone

theorem HandshakeInvariant.inviterStays (h : HandshakeInvariant inviterSettings inviteeSettings w)
    (hkeys : (w.inviterDoes w.inviter sent agents).DistinctKeys)
    (hsent : Talks w.inviter.theirDoc sent) :
    HandshakeInvariant inviterSettings inviteeSettings (w.inviterDoes w.inviter sent agents) := by
  refine h.inviterTalks hkeys h.inviterActs hsent ?_ ?_ h.agreement
  · intro state hstate
    exact (h.invited state hstate).inviterDoes fun _ => hsent.not_respondedTo
  · intro state hstate
    obtain ⟨hprev, hanswered⟩ := h.responded state hstate
    exact ⟨hprev.inviterDoes fun _ => hsent.not_respondedTo, hanswered.inviterDoes⟩

variable {calls : ExchangeCalls} {message : DidExchangeMessages}

theorem mem_created (h : calls.createAgent = .ok agent) : agent ∈ calls.created := by
  rw [ExchangeCalls.created, h]
  exact List.mem_cons_self

/-- An agent that is created now has not been responded with. -/
theorem HandshakeInvariant.fresh (h : HandshakeInvariant inviterSettings inviteeSettings w)
    (hkeys : (w.inviterDoes s sent calls.created).DistinctKeys)
    (hagent : calls.createAgent = .ok agent) :
    agent.pwVk ∉ w.inviterAgents.map AgentInfo.pwVk ∧
      ∀ key, ¬ RespondedTo w.network key (agent.didDoc inviterSettings) := by
  have hcreated : calls.created = [agent] := by rw [ExchangeCalls.created, hagent]
  have hnew : agent.pwVk ∉ w.inviterAgents.map AgentInfo.pwVk := by
    intro hmem
    unfold Handshake.DistinctKeys at hkeys
    rw [Handshake.inviterDoes, hcreated, List.map_append] at hkeys
    have hnodup := (List.nodup_append.mp hkeys).1
    exact (List.nodup_cons.mp hnodup).1 hmem
  refine ⟨hnew, ?_⟩
  intro key hto
  obtain ⟨agent', hmem, hdoc⟩ := h.responses key _ hto
  apply hnew
  rw [pwVk_of_didDoc_eq hdoc]
  exact List.mem_map_of_mem hmem

theorem HandshakeInvariant.inviterResponds
    (h : HandshakeInvariant inviterSettings inviteeSettings w)
    (hsettings : calls.settings = inviterSettings) {state : InvitedState} {request : Request}
    {key : String} {packet : Packet} (hmem : packet ∈ w.network)
    (hrequest : packet.message = .connectionRequest request)
    (hinvited : w.inviter.state = .inviter (.invited state))
    (hagent : calls.createAgent = .ok agent)
    (hkey : request.connection.didDoc.recipientKeys.head? = some key) {response : SignedResponse}
    (hresponse : response.connectionSig.connection.didDoc = agent.didDoc calls.settings)
    (hs : s = (w.inviter.withAgent agent).toInviter
      (.responded ⟨response, request.connection.didDoc, w.inviter.agentInfo⟩))
    (hkeys : (w.inviterDoes s [⟨key, agent.pwVk, .connectionResponse response⟩]
      calls.created).DistinctKeys) :
    HandshakeInvariant inviterSettings inviteeSettings
      (w.inviterDoes s [⟨key, agent.pwVk, .connectionResponse response⟩] calls.created) := by
  obtain ⟨hnew, hfresh⟩ := h.fresh hkeys hagent
  rw [hsettings] at hresponse
  -- what is responded now names the new agent and goes to the key of the request
  have honly : ∀ key' didDoc,
      RespondedTo [⟨key, agent.pwVk, .connectionResponse response⟩] key' didDoc →
      key = key' ∧ didDoc = agent.didDoc inviterSettings := by
    intro key' didDoc hto
    obtain ⟨hrecipient, response', hmessage, hdoc⟩ := respondedTo_singleton hto
    obtain rfl := A2AMessage.connectionResponse.inj hmessage
    exact ⟨hrecipient, hdoc.symm.trans hresponse⟩
  refine h.inviterDoes hkeys ⟨_, congrArg DidExchangeSM.state hs⟩ ?_ ?_ ?_ ?_ ?_ ?_ ?_
  · intro packet' hpacket request'
    rw [List.mem_singleton.mp hpacket]
    exact A2AMessage.noConfusion
  · intro key' didDoc hto
    exact ⟨agent, mem_created hagent, (honly key' didDoc hto).2⟩
  · intro key' key'' didDoc hto hto'
    rcases respondedTo_append.mp hto with hold | hnow
    · rcases respondedTo_append.mp hto' with hold' | hnow'
      · exact h.once key' key'' didDoc hold hold'
      · rw [(honly key'' didDoc hnow').2] at hold
        exact absurd hold (hfresh key')
    · obtain ⟨rfl, rfl⟩ := honly key' didDoc hnow
      rcases respondedTo_append.mp hto' with hold' | hnow'
      · exact absurd hold' (hfresh key'')
      · exact (honly key'' _ hnow').1
  · intro packet' hpacket hconfirms
    rw [List.mem_singleton.mp hpacket] at hconfirms
    exact False.elim hconfirms
  · intro state' hstate'
    rw [hs] at hstate'
    exact nomatch hstate'
  · intro state' hstate'
    rw [hs] at hstate'
    obtain rfl := DidExchangeState.responded.inj (ActorDidExchangeState.inviter.inj hstate')
    have hunanswered := h.invited state hinvited
    constructor
    · apply hunanswered.inviterDoes
      intro key' hto
      apply hnew
      rw [← pwVk_of_didDoc_eq (honly key' _ hto).2]
      exact List.mem_map_of_mem hunanswered.1
    · obtain ⟨theirs, htheirs, hdoc⟩ := h.requests packet hmem request hrequest
      rw [hs]
      refine ⟨List.mem_append_left _ (mem_created hagent), theirs, htheirs, hdoc, ?_⟩
      rw [hdoc] at hkey
      refine respondedTo_append.mpr (Or.inr ⟨_, List.mem_cons_self, ?_, response, rfl, hresponse⟩)
      exact (Option.some.inj hkey).symm
  · intro state' hstate'
    change s.state = _ at hstate'
    rw [hs] at hstate'
    exact nomatch hstate'

/-- The inviter keeps the invariant with every step on what it was told. -/
theorem HandshakeInvariant.inviterMoves (h : HandshakeInvariant inviterSettings inviteeSettings w)
    (hsettings : calls.settings = inviterSettings) (hheard : Heard w.network w.inviter message)
    (hmoves : InviterMoves calls message w.inviter s sent)
    (hkeys : (w.inviterDoes s sent calls.created).DistinctKeys) :
    HandshakeInvariant inviterSettings inviteeSettings (w.inviterDoes s sent calls.created) := by
  cases hmoves with
  | stays hsent => exact h.inviterStays hkeys hsent
  | @invites agent state hagent =>
    refine h.inviterTalks hkeys ⟨_, rfl⟩ talks_nil ?_ (fun _ hstate => nomatch hstate)
      (fun _ hstate => nomatch hstate)
    intro state' _
    refine ⟨List.mem_append_left _ (mem_created hagent), ?_⟩
    intro key hto
    have hold := (respondedTo_append.mp hto).resolve_right not_respondedTo_nil
    exact (h.fresh hkeys hagent).2 key hold
  | @responds state request agent key hinvited hmessage hagent hkey =>
    rw [hmessage] at hheard
    obtain ⟨packet, hmem, hrequest⟩ := hheard.of_request
    exact h.inviterResponds hsettings hmem hrequest hinvited hagent hkey rfl rfl hkeys
  | resets hsent =>
    exact h.inviterTalks hkeys ⟨_, rfl⟩ hsent.of_none (fun _ hstate => nomatch hstate)
      (fun _ hstate => nomatch hstate) (fun _ hstate => nomatch hstate)
  | @completes state sent hresponded hmessage hsent =>
    have hdoc : w.inviter.theirDoc = some state.didDoc := by rw [DidExchangeSM.theirDoc, hresponded]
    rw [← hdoc] at hsent
    refine h.inviterTalks hkeys ⟨_, rfl⟩ hsent (fun _ hstate => nomatch hstate)
      (fun _ hstate => nomatch hstate) ?_
    intro state' hstate'
    obtain rfl := DidExchangeState.completed.inj (ActorDidExchangeState.inviter.inj hstate')
    obtain ⟨packet, hmem, hconfirms, hkey⟩ := hheard.of_confirms hmessage
    exact h.confirmed hresponded hmem hconfirms hkey
  | @goesOn state state' sent hcompleted hsame hsent =>
    have hdoc : w.inviter.theirDoc = some state.didDoc := by rw [DidExchangeSM.theirDoc, hcompleted]
    rw [← hdoc] at hsent
    refine h.inviterTalks hkeys ⟨_, rfl⟩ hsent (fun _ hstate => nomatch hstate)
      (fun _ hstate => nomatch hstate) ?_
    intro state'' hstate''
    obtain rfl := DidExchangeState.completed.inj (ActorDidExchangeState.inviter.inj hstate'')
    rw [hsame]
    exact h.agreement state hcompleted

end InviterPreserves

section InviteePreserves
variable {inviterSettings inviteeSettings : Settings} {w : Handshake} {s : DidExchangeSM}
    {sent : List Packet}
  {agents : List AgentInfo} {calls : ExchangeCalls} {message : DidExchangeMessages}

/-- Whatever the invitee does keeps the invariant, if it stays with the party that it has completed
with. -/
theorem HandshakeInvariant.inviteeDoes (h : HandshakeInvariant inviterSettings inviteeSettings w)
    (hkeys : (w.inviteeDoes s sent agents).DistinctKeys) (hacts : ∃ state, s.state = .invitee state)
    (hrequests : ∀ packet ∈ sent, ∀ request, packet.message = .connectionRequest request →
      ∃ agent ∈ agents, request.connection.didDoc = agent.didDoc inviteeSettings)
    (hresponses : ∀ key didDoc, ¬ RespondedTo sent key didDoc)
    (hconfirmations : ∀ packet ∈ sent, packet.message.confirms →
      ∃ didDoc, s.theirDoc = some didDoc ∧ didDoc.recipientKeys.head? = some packet.recipient)
    (hframe : ∀ didDoc, w.invitee.theirDoc = some didDoc →
      s.theirDoc = some didDoc ∧ s.agentInfo = w.invitee.agentInfo)
    (hrequested : ∀ state, s.state = .invitee (.requested state) → s.agentInfo ∈ agents ++
      w.inviteeAgents)
    (hcompleted : ∀ didDoc, s.theirDoc = some didDoc →
      s.agentInfo ∈ w.inviteeAgents ∧ RespondedTo w.network s.agentInfo.pwVk didDoc) :
    HandshakeInvariant inviterSettings inviteeSettings (w.inviteeDoes s sent agents) where
  keys := hkeys
  inviterActs := h.inviterActs
  inviteeActs := hacts
  requests := by
    intro packet hmem request hrequest
    rcases List.mem_append.mp hmem with hold | hnew
    · obtain ⟨agent, hagent, hdoc⟩ := h.requests packet hold request hrequest
      exact ⟨agent, List.mem_append_right _ hagent, hdoc⟩
    · obtain ⟨agent, hagent, hdoc⟩ := hrequests packet hnew request hrequest
      exact ⟨agent, List.mem_append_left _ hagent, hdoc⟩
  responses := by
    intro key didDoc hto
    exact h.responses key didDoc ((respondedTo_append.mp hto).resolve_right (hresponses _ _))
  once := by
    intro key key' didDoc hto hto'
    have hold := (respondedTo_append.mp hto).resolve_right (hresponses _ _)
    have hold' := (respondedTo_append.mp hto').resolve_right (hresponses _ _)
    exact h.once key key' didDoc hold hold'
  confirmations := by
    intro packet hmem hconfirms
    rcases List.mem_append.mp hmem with hold | hnew
    · rcases h.confirmations packet hold hconfirms
        with ⟨agent, hagent, hkey⟩ | ⟨didDoc, hdoc, hhead⟩
      · exact Or.inl ⟨agent, List.mem_append_right _ hagent, hkey⟩
      · exact Or.inr ⟨didDoc, (hframe didDoc hdoc).1, hhead⟩
    · exact Or.inr (hconfirmations packet hnew hconfirms)
  invited := by
    intro state hstate
    obtain ⟨hmem, hnone⟩ := h.invited state hstate
    exact ⟨hmem, fun key hto =>
      hnone key ((respondedTo_append.mp hto).resolve_right (hresponses _ _))⟩
  responded := by
    intro state hstate
    obtain ⟨⟨hprev, hnone⟩, hmem, theirs, htheirs, hdoc, hto⟩ := h.responded state hstate
    constructor
    · exact ⟨hprev, fun key hto =>
        hnone key ((respondedTo_append.mp hto).resolve_right (hresponses _ _))⟩
    · exact ⟨hmem, theirs, List.mem_append_right _ htheirs, hdoc,
        respondedTo_append.mpr (Or.inl hto)⟩
  requested := hrequested
  completed := by
    intro didDoc hdoc
    obtain ⟨hmem, hto⟩ := hcompleted didDoc hdoc
    exact ⟨List.mem_append_right _ hmem, respondedTo_append.mpr (Or.inl hto)⟩
  agreement := by
    intro state hstate
    obtain ⟨state', hstate', hdoc, hdoc'⟩ := h.agreement state hstate
    obtain ⟨htheirDoc, hagent⟩ := hframe _ (theirDoc_of_completed hstate')
    obtain ⟨state'', hstate'', hsame⟩ := completed_of_theirDoc hacts htheirDoc
    refine ⟨state'', hstate'', ?_, hsame.trans hdoc'⟩
    change state.didDoc = s.agentInfo.didDoc inviteeSettings
    rw [hagent]
    exact hdoc

/-- An invitee that only talks to the inviter has to stay with it. -/
theorem HandshakeInvariant.inviteeTalks (h : HandshakeInvariant inviterSettings inviteeSettings w)
    (hkeys : (w.inviteeDoes s sent agents).DistinctKeys) (hacts : ∃ state, s.state = .invitee state)
    (hsent : Talks s.theirDoc sent)
    (hframe : ∀ didDoc, w.invitee.theirDoc = some didDoc →
      s.theirDoc = some didDoc ∧ s.agentInfo = w.invitee.agentInfo)
    (hrequested : ∀ state, s.state = .invitee (.requested state) → s.agentInfo ∈ agents ++
      w.inviteeAgents)
    (hcompleted : ∀ didDoc, s.theirDoc = some didDoc →
      s.agentInfo ∈ w.inviteeAgents ∧ RespondedTo w.network s.agentInfo.pwVk didDoc) :
    HandshakeInvariant inviterSettings inviteeSettings (w.inviteeDoes s sent agents) := by
  refine h.inviteeDoes hkeys hacts ?_ ?_ ?_ hframe hrequested hcompleted
  · intro packet hmem request hrequest
    exact absurd hrequest (hsent.not_request hmem request)
  · exact fun key didDoc => hsent.not_respondedTo
  · exact fun packet hmem => (hsent packet hmem).2

theorem HandshakeInvariant.inviteeStays (h : HandshakeInvariant inviterSettings inviteeSettings w)
    (hkeys : (w.inviteeDoes w.invitee sent agents).DistinctKeys)
    (hsent : Talks w.invitee.theirDoc sent) :
    HandshakeInvariant inviterSettings inviteeSettings (w.inviteeDoes w.invitee sent agents) := by
  refine h.inviteeTalks hkeys h.inviteeActs hsent (fun _ hdoc => ⟨hdoc, rfl⟩) ?_ h.completed
  intro state hstate
  exact List.mem_append_right _ (h.requested state hstate)

/-- The invitee keeps the invariant with every step on what it was told. -/
theorem HandshakeInvariant.inviteeMoves (h : HandshakeInvariant inviterSettings inviteeSettings w)
    (hsettings : calls.settings = inviteeSettings) (hheard : Heard w.network w.invitee message)
    (hmoves : InviteeMoves calls message w.invitee s sent)
    (hkeys : (w.inviteeDoes s sent calls.created).DistinctKeys) :
    HandshakeInvariant inviterSettings inviteeSettings (w.inviteeDoes s sent calls.created) := by
  have hnone : ∀ {state : DidExchangeState}, w.invitee.state = .invitee state →
      (∀ state', state ≠ .completed state') → w.invitee.theirDoc = none := by
    intro state hstate hbefore
    rw [DidExchangeSM.theirDoc, hstate]
    cases state with
    | completed state' => exact absurd rfl (hbefore state')
    | _ => rfl
  have hfree : ∀ {s' : DidExchangeSM}, w.invitee.theirDoc = none →
      ∀ didDoc, w.invitee.theirDoc = some didDoc →
      s'.theirDoc = some didDoc ∧ s'.agentInfo = w.invitee.agentInfo := by
    intro s' hnone didDoc hdoc
    rw [hnone] at hdoc
    exact nomatch hdoc
  cases hmoves with
  | stays hsent => exact h.inviteeStays hkeys hsent
  | accepts hnull =>
    exact h.inviteeTalks hkeys ⟨_, rfl⟩ talks_nil
      (hfree (hnone hnull fun _ => DidExchangeState.noConfusion))
      (fun _ hstate => nomatch hstate) (fun _ hdoc => nomatch hdoc)
  | @requests state agent request didDoc key hinvited hagent hdoc =>
    refine h.inviteeDoes hkeys ⟨_, rfl⟩ ?_ ?_ ?_
      (hfree (hnone hinvited fun _ => DidExchangeState.noConfusion)) ?_ (fun _ hdoc => nomatch hdoc)
    · intro packet hmem request' hrequest
      rw [List.mem_singleton.mp hmem] at hrequest
      obtain rfl := A2AMessage.connectionRequest.inj hrequest
      rw [hsettings] at hdoc
      exact ⟨agent, mem_created hagent, hdoc⟩
    · intro key' didDoc' hto
      obtain ⟨-, response, hresponse, -⟩ := respondedTo_singleton hto
      exact A2AMessage.noConfusion hresponse
    · intro packet hmem hconfirms
      rw [List.mem_singleton.mp hmem] at hconfirms
      exact False.elim hconfirms
    · intro state' _
      exact List.mem_append_left _ (mem_created hagent)
  | resets hbefore hsent =>
    exact h.inviteeTalks hkeys ⟨_, rfl⟩ hsent.of_none (hfree hbefore)
      (fun _ hstate => nomatch hstate) (fun _ hdoc => nomatch hdoc)
  | @completes state response sent hrequested hmessage hsent =>
    refine h.inviteeTalks hkeys ⟨_, rfl⟩ hsent
      (hfree (hnone hrequested fun _ => DidExchangeState.noConfusion))
      (fun _ hstate => nomatch hstate) ?_
    intro didDoc hdoc
    rw [← Option.some.inj hdoc]
    refine ⟨h.requested state hrequested, ?_⟩
    rw [hmessage] at hheard
    apply hheard.of_response
    rw [DidExchangeSM.prevAgentInfo, hrequested]
  | @goesOn state state' sent hcompleted hsame hsent =>
    have hdoc : w.invitee.theirDoc = some state.didDoc := theirDoc_of_completed hcompleted
    have hdoc' : (w.invitee.toInvitee (.completed state')).theirDoc = some state.didDoc :=
      congrArg some hsame
    rw [← hdoc'] at hsent
    refine h.inviteeTalks hkeys ⟨_, rfl⟩ hsent ?_ (fun _ hstate => nomatch hstate) ?_
    · intro didDoc hold
      exact ⟨hdoc'.trans (hdoc.symm.trans hold), rfl⟩
    · intro didDoc hnew
      exact h.completed didDoc (hdoc.trans (hdoc'.symm.trans hnew))

end InviteePreserves

section Events
variable {inviterSettings inviteeSettings : Settings} {w : Handshake} {reading : Reading}
    {key : String}

/-- A message of a mailbox is one that was heard. -/
theorem heard_of_delivered {network : List Packet} {s : DidExchangeSM}
    (hdelivered : Delivered network key reading)
    (hkey : key = s.agentInfo.pwVk ∨ ∃ agent, s.prevAgentInfo = some agent ∧ key = agent.pwVk)
    {envelopes : List (String × Envelope)} {entry : String × Envelope} {message : A2AMessage}
    (hanswer : reading.answer = .ok envelopes) (hentry : entry ∈ envelopes)
    (hopen : entry.2.open = .ok message) :
    Heard network s (.ofMessage message) := by
  obtain ⟨packet, hmem, hrecipient, hmessage⟩ :=
    hdelivered envelopes hanswer entry hentry message hopen
  rw [← hmessage]
  refine Or.inr ⟨packet, hmem, rfl, ?_⟩
  rwa [hrecipient]

theorem HandshakeInvariant.inviterReads (h : HandshakeInvariant inviterSettings inviteeSettings w)
    (hsettings : reading.calls.settings = inviterSettings)
    (hdelivered : Delivered w.network key reading)
    (hkey : key = w.inviter.agentInfo.pwVk ∨ ∃ agent, w.inviter.prevAgentInfo = some agent ∧
      key = agent.pwVk)
    (hkeys : (w.inviterDoes (w.inviter.read reading).1.1 (w.inviter.read reading).2
      reading.calls.created).DistinctKeys) :
    HandshakeInvariant inviterSettings inviteeSettings
      (w.inviterDoes (w.inviter.read reading).1.1
        (w.inviter.read reading).2 reading.calls.created) := by
  rcases read_cases
    with ⟨hsame, hnone⟩ | ⟨envelopes, entry, message, r, hanswer, hentry, hopen, hstep, hnext⟩
  · rw [hsame, hnone] at hkeys ⊢
    exact h.inviterStays hkeys talks_nil
  · rw [hnext] at hkeys ⊢
    obtain ⟨state, hstate⟩ := h.inviterActs
    have hheard := heard_of_delivered hdelivered hkey hanswer hentry hopen
    exact h.inviterMoves hsettings hheard (inviterMoves_step hstate hstep) hkeys

theorem HandshakeInvariant.inviteeReads (h : HandshakeInvariant inviterSettings inviteeSettings w)
    (hsettings : reading.calls.settings = inviteeSettings)
    (hdelivered : Delivered w.network w.invitee.agentInfo.pwVk reading)
    (hkeys : (w.inviteeDoes (w.invitee.read reading).1.1 (w.invitee.read reading).2
      reading.calls.created).DistinctKeys) :
    HandshakeInvariant inviterSettings inviteeSettings
      (w.inviteeDoes (w.invitee.read reading).1.1
        (w.invitee.read reading).2 reading.calls.created) := by
  rcases read_cases
    with ⟨hsame, hnone⟩ | ⟨envelopes, entry, message, r, hanswer, hentry, hopen, hstep, hnext⟩
  · rw [hsame, hnone] at hkeys ⊢
    exact h.inviteeStays hkeys talks_nil
  · rw [hnext] at hkeys ⊢
    obtain ⟨state, hstate⟩ := h.inviteeActs
    have hheard := heard_of_delivered hdelivered (Or.inl rfl) hanswer hentry hopen
    exact h.inviteeMoves hsettings hheard (inviteeMoves_step hstate hstep) hkeys

/-- What is done in two parts. -/
theorem Handshake.inviterDoes_twice (s s' : DidExchangeSM) (sent sent' : List Packet)
    (agents agents' : List AgentInfo) :
    (w.inviterDoes s sent agents).inviterDoes s' sent' agents' =
      w.inviterDoes s' (sent ++ sent') (agents' ++ agents) := by
  unfold Handshake.inviterDoes
  rw [List.append_assoc, List.append_assoc]

theorem Handshake.inviteeDoes_twice (s s' : DidExchangeSM) (sent sent' : List Packet)
    (agents agents' : List AgentInfo) :
    (w.inviteeDoes s sent agents).inviteeDoes s' sent' agents' =
      w.inviteeDoes s' (sent ++ sent') (agents' ++ agents) := by
  unfold Handshake.inviteeDoes
  rw [List.append_assoc, List.append_assoc]

/-- Keys are distinct also among fewer agents. -/
theorem Handshake.DistinctKeys.inviterBefore {s s' : DidExchangeSM} {sent sent' : List Packet}
    {agents agents' : List AgentInfo}
    (h : (w.inviterDoes s sent (agents' ++ agents)).DistinctKeys) :
    (w.inviterDoes s' sent' agents).DistinctKeys := by
  refine List.Nodup.sublist (List.Sublist.map _ ?_) h
  refine List.Sublist.append_right ?_ _
  exact (List.sublist_append_right agents' agents).append_right _

theorem Handshake.DistinctKeys.inviteeBefore {s s' : DidExchangeSM} {sent sent' : List Packet}
    {agents agents' : List AgentInfo}
    (h : (w.inviteeDoes s sent (agents' ++ agents)).DistinctKeys) :
    (w.inviteeDoes s' sent' agents).DistinctKeys := by
  refine List.Nodup.sublist (List.Sublist.map _ ?_) h
  refine List.Sublist.append_left ?_ _
  exact (List.sublist_append_right agents' agents).append_right _

theorem HandshakeInvariant.inviterEvent (h : HandshakeInvariant inviterSettings inviteeSettings w)
    {event : ConnectionEvent} (hgenuine : Genuine inviterSettings w.network w.inviter event)
    (hkeys : (w.next (.inviter event)).DistinctKeys) :
    HandshakeInvariant inviterSettings inviteeSettings (w.next (.inviter event)) := by
  cases event with
  | command command calls outcomes =>
    obtain ⟨state, hstate⟩ := h.inviterActs
    exact h.inviterMoves hgenuine (Or.inl ⟨command, rfl⟩)
      (inviterMoves_step hstate (Sending.ends_run _ _)) hkeys
  | updateState current previous =>
    obtain ⟨hcurrent, hprevious, hdelivered, hdelivered'⟩ := hgenuine
    have hfirst := h.inviterReads hcurrent hdelivered (Or.inl rfl) hkeys.inviterBefore
    change (w.inviterDoes (w.inviter.updateState current previous).1
      (w.inviter.updateState current previous).2
      (previous.calls.created ++ current.calls.created)).DistinctKeys at hkeys
    change HandshakeInvariant _ _ (w.inviterDoes (w.inviter.updateState current previous).1
      (w.inviter.updateState current previous).2 (previous.calls.created ++ current.calls.created))
    rcases updateState_cases current previous with hupdate | ⟨agent, hagent, hupdate⟩
    · rw [hupdate] at hkeys ⊢
      rw [← List.append_nil (w.inviter.read current).2, ← Handshake.inviterDoes_twice] at hkeys ⊢
      exact hfirst.inviterStays hkeys talks_nil
    · rw [hupdate, ← Handshake.inviterDoes_twice] at hkeys ⊢
      exact hfirst.inviterReads hprevious (hdelivered' agent hagent)
        (Or.inr ⟨agent, hagent, rfl⟩) hkeys

theorem HandshakeInvariant.inviteeEvent (h : HandshakeInvariant inviterSettings inviteeSettings w)
    {event : ConnectionEvent} (hgenuine : Genuine inviteeSettings w.network w.invitee event)
    (hkeys : (w.next (.invitee event)).DistinctKeys) :
    HandshakeInvariant inviterSettings inviteeSettings (w.next (.invitee event)) := by
  cases event with
  | command command calls outcomes =>
    obtain ⟨state, hstate⟩ := h.inviteeActs
    exact h.inviteeMoves hgenuine (Or.inl ⟨command, rfl⟩)
      (inviteeMoves_step hstate (Sending.ends_run _ _)) hkeys
  | updateState current previous =>
    obtain ⟨hcurrent, -, hdelivered, -⟩ := hgenuine
    have hfirst := h.inviteeReads hcurrent hdelivered hkeys.inviteeBefore
    change (w.inviteeDoes (w.invitee.updateState current previous).1
      (w.invitee.updateState current previous).2
      (previous.calls.created ++ current.calls.created)).DistinctKeys at hkeys
    change HandshakeInvariant _ _ (w.inviteeDoes (w.invitee.updateState current previous).1
      (w.invitee.updateState current previous).2 (previous.calls.created ++ current.calls.created))
    rcases updateState_cases current previous with hupdate | ⟨agent, hagent, -⟩
    · rw [hupdate] at hkeys ⊢
      rw [← List.append_nil (w.invitee.read current).2, ← Handshake.inviteeDoes_twice] at hkeys ⊢
      exact hfirst.inviteeStays hkeys talks_nil
    · -- an invitee has no agent before
      obtain ⟨state, hstate⟩ := hfirst.inviteeActs
      change (w.invitee.read current).1.1.state = _ at hstate
      rw [DidExchangeSM.prevAgentInfo, hstate] at hagent
      exact nomatch hagent

theorem handshakeInvariant_start (sourceId sourceId' : String) :
    HandshakeInvariant inviterSettings inviteeSettings
      ⟨.newInviter sourceId, .newInvitee sourceId', [], [], []⟩ where
  keys := List.nodup_nil
  inviterActs := ⟨_, rfl⟩
  inviteeActs := ⟨_, rfl⟩
  requests := fun _ hmem => absurd hmem List.not_mem_nil
  responses := fun _ _ hto => absurd hto not_respondedTo_nil
  once := fun _ _ _ hto => absurd hto not_respondedTo_nil
  confirmations := fun _ hmem => absurd hmem List.not_mem_nil
  invited := fun _ hstate => nomatch hstate
  responded := fun _ hstate => nomatch hstate
  requested := fun _ hstate => nomatch hstate
  completed := fun _ hdoc => nomatch hdoc
  agreement := fun _ hstate => nomatch hstate

theorem ReachableHandshake.invariant {sourceId sourceId' : String}
    (h : ReachableHandshake inviterSettings inviteeSettings sourceId sourceId' w) :
    HandshakeInvariant inviterSettings inviteeSettings w := by
  induction h with
  | start => exact handshakeInvariant_start _ _
  | @next w step _ hstep hkeys ih =>
    cases step with
    | inviter event => exact ih.inviterEvent hstep hkeys
    | invitee event => exact ih.inviteeEvent hstep hkeys

/-- Whenever the inviter is completed the invitee is, and each knows the other's agent. -/
theorem connection_agreement {sourceId sourceId' : String}
    (h : ReachableHandshake inviterSettings inviteeSettings sourceId sourceId' w) :
    ConnectionAgreement inviterSettings inviteeSettings w := h.invariant.agreement

end Events

section Sample

/-- Everything that was sent to a key. -/
def mailboxOf (network : List Packet) (key : String) : List (String × Envelope) :=
  (network.filter fun packet => packet.recipient = key).map fun packet =>
    ("", ⟨some packet.sender, .ok packet.message⟩)

theorem delivered_mailboxOf (network : List Packet) (key : String) (calls : ExchangeCalls) :
    Delivered network key ⟨.ok (mailboxOf network key), calls, [], .ok ()⟩ := by
  intro envelopes hanswer entry hentry message hopen
  rw [← Except.ok.inj hanswer] at hentry
  obtain ⟨packet, hmem, rfl⟩ := List.mem_map.mp hentry
  obtain ⟨hin, hkey⟩ := List.mem_filter.mp hmem
  exact ⟨packet, hin, of_decide_eq_true hkey, Except.ok.inj hopen⟩

theorem delivered_empty (network : List Packet) (key : String) (calls : ExchangeCalls) :
    Delivered network key ⟨.ok [], calls, [], .ok ()⟩ := by
  intro envelopes hanswer entry hentry
  rw [← Except.ok.inj hanswer] at hentry
  exact absurd hentry List.not_mem_nil

/-- No agent is created. -/
def idleCalls : ExchangeCalls :=
  { exchangeCalls "" with createAgent := .error (.fromMsg .invalidState "") }

/-- All of the party's mailbox is there to be read. -/
def updates (network : List Packet) (s : DidExchangeSM) (calls : ExchangeCalls) : ConnectionEvent :=
  .updateState ⟨.ok (mailboxOf network s.agentInfo.pwVk), calls, [], .ok ()⟩
    ⟨.ok [], idleCalls, [], .ok ()⟩

theorem genuine_updates {settings : Settings} (network : List Packet) (s : DidExchangeSM)
    {calls : ExchangeCalls}
    (hsettings : calls.settings = settings) (hidle : sampleSettings = settings) :
    Genuine settings network s (updates network s calls) :=
  ⟨hsettings, hidle, delivered_mailboxOf _ _ _, fun _ _ => delivered_empty _ _ _⟩

/-- Alice invites Bob, who asks to connect. -/
def requestedHandshake : Handshake :=
  let w : Handshake := ⟨.newInviter "alice", .newInvitee "bob", [], [], []⟩
  let w := w.next (.inviter (.command .connect (exchangeCalls "alice") []))
  let w := w.next (.invitee (.command
    (.processInvite
      ⟨"id of alice", "alice", ["alice"], ["agent key", "agency key"], "http://agency/agency/msg"⟩)
    idleCalls []))
  w.next (.invitee (.command .connect (exchangeCalls "bob") []))

/-- Alice responds, Bob confirms, and Alice reads that. -/
def completedHandshake : Handshake :=
  let w := requestedHandshake
  let w := w.next (.inviter (updates w.network w.inviter (exchangeCalls "alice again")))
  let w := w.next (.invitee (updates w.network w.invitee idleCalls))
  w.next (.inviter (updates w.network w.inviter idleCalls))

theorem reachable_completedHandshake :
    ReachableHandshake sampleSettings sampleSettings "alice" "bob" completedHandshake := by
  unfold completedHandshake requestedHandshake
  extract_lets w₁ w₂ w₃ w₄ w₅ w₆
  refine .next (.next (.next (.next (.next (.next .start ?_ ?_) ?_ ?_) ?_ ?_) ?_ ?_) ?_ ?_) ?_ ?_
  · exact rfl
  · decide
  · exact rfl
  · decide
  · exact rfl
  · decide
  · exact genuine_updates _ _ rfl rfl
  · decide
  · exact genuine_updates _ _ rfl rfl
  · decide
  · exact genuine_updates _ _ rfl rfl
  · decide

theorem connection_agreement_completed :
    ∃ w, ReachableHandshake sampleSettings sampleSettings "alice" "bob" w ∧
    (∃ state, w.inviter.state = .inviter (.completed state)) ∧
      ConnectionAgreement sampleSettings sampleSettings w :=
  ⟨completedHandshake, reachable_completedHandshake, ⟨_, rfl⟩,
    connection_agreement reachable_completedHandshake⟩

end Sample

end SimpleAsset.Vcx
