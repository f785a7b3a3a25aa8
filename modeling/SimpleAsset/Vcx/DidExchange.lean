import SimpleAsset.Vcx.Issuance

/-! Establishing a connection, on both sides (libvcx, v3/handlers/connection). -/
namespace SimpleAsset.Vcx
open SimpleAsset.Library

section Agents

structure AgentInfo where
  pwDid : String
  pwVk : String
  agentDid : String
  agentVk : String
  deriving DecidableEq, Repr

/-- The settings that an agent's addresses are made of. -/
structure Settings where
  agencyEndpoint : String
  agencyVerkey : String
  deriving DecidableEq, Repr

variable (settings : Settings)

namespace AgentInfo

def agencyEndpoint : String := settings.agencyEndpoint ++ "/agency/msg"

def routingKeys (agent : AgentInfo) : List String := [agent.agentVk, settings.agencyVerkey]

def recipientKeys (agent : AgentInfo) : List String := [agent.pwVk]

/-- The DID document by which an agent makes itself known. -/
def didDoc (agent : AgentInfo) : DidDoc :=
  ⟨agent.pwDid, agent.recipientKeys, agent.routingKeys settings, agencyEndpoint settings⟩

end AgentInfo

def DidDoc.ofInvitation (invite : Invitation) : DidDoc :=
  ⟨invite.id, invite.recipientKeys, invite.routingKeys, invite.serviceEndpoint⟩

/-- A message on its way to the mailbox of a key, packed by the sender's key. -/
structure Packet where
  recipient : String
  sender : String
  message : A2AMessage

abbrev Connecting := Sending VcxError Packet

/-- `AgentInfo::send_message`. It is packed for the recipient keys and goes to the mailbox of the
first one. -/
def AgentInfo.sendMessage (agent : AgentInfo) (message : A2AMessage) (didDoc : DidDoc) :
    Connecting Unit :=
  match didDoc.recipientKeys with
  | [] => Sending.ofExcept
      (.error (.fromMsg (.other "Invalid Connection Handle") "Recipient Key not found in DIDDoc"))
  | key :: _ => Sending.send ⟨key, agent.pwVk, message⟩

/-- What lies in a mailbox: who has packed it, and what is read from it. -/
structure Envelope where
  sender : Option String
  payload : VcxResult A2AMessage

/-- `EncryptionEnvelope::open`. Only the message is taken from what is unpacked, not the key of the
sender. -/
def Envelope.open (envelope : Envelope) : VcxResult A2AMessage := envelope.payload

/-- `AgentInfo::get_messages`, for what the agency has answered. -/
def getMessages (answer : VcxResult (List (String × Envelope))) : VcxResult Mailbox := do
  let envelopes ← answer
  envelopes.mapM fun entry => do
    let message ← entry.2.open
    return (entry.1, message)

end Agents

section Machine

structure InvitedState where
  invitation : Invitation

structure RequestedState where
  request : Request
  didDoc : DidDoc

structure RespondedState where
  response : SignedResponse
  didDoc : DidDoc
  prevAgentInfo : AgentInfo

structure CompleteState where
  didDoc : DidDoc
  protocols : Option (List String)

inductive DidExchangeState
  | null
  | invited (state : InvitedState)
  | requested (state : RequestedState)
  | responded (state : RespondedState)
  | completed (state : CompleteState)

inductive ActorDidExchangeState
  | inviter (state : DidExchangeState)
  | invitee (state : DidExchangeState)

structure DidExchangeSM where
  sourceId : String
  agentInfo : AgentInfo
  state : ActorDidExchangeState

inductive DidExchangeMessages
  | connect
  | invitationReceived (invitation : Invitation)
  | exchangeRequestReceived (request : Request)
  | exchangeResponseReceived (response : SignedResponse)
  | ackReceived (ack : Ack)
  | problemReportReceived (problemReport : ConnectionProblemReport)
  | sendPing (comment : Option String)
  | pingReceived (ping : Ping)
  | pingResponseReceived (pingResponse : PingResponse)
  | discoverFeatures (query comment : Option String)
  | queryReceived (query : Query)
  | discloseReceived (disclose : Disclose)
  | unknown

def DidExchangeMessages.ofMessage : A2AMessage → DidExchangeMessages
  | .connectionInvitation m => .invitationReceived m
  | .connectionRequest m => .exchangeRequestReceived m
  | .connectionResponse m => .exchangeResponseReceived m
  | .ping m => .pingReceived m
  | .pingResponse m => .pingResponseReceived m
  | .ack m => .ackReceived m
  | .query m => .queryReceived m
  | .disclose m => .discloseReceived m
  | .connectionProblemReport m => .problemReportReceived m
  | _ => .unknown

/-- What a step gets from libindy and from other modules. -/
structure ExchangeCalls where
  settings : Settings
  createAgent : VcxResult AgentInfo
  /-- The id of the message that is created. -/
  newId : String
  validate (didDoc : DidDoc) : VcxResult Unit
  /-- Whether libindy can sign. -/
  sign (key : String) : VcxResult Unit
  getProtocolsForQuery (query : Option String) : List String

variable (calls : ExchangeCalls)

/-- The answer to a request, with the new agent that it names. -/
def createResponse (request : Request) (newAgentInfo : AgentInfo) (signer : String) :
    SignedResponse :=
  ⟨calls.newId, .ofId request.id,
    ⟨signer, newAgentInfo.pwDid, newAgentInfo.didDoc calls.settings⟩, true⟩

/-- `InvitedState::handle_connection_request`. -/
def handleConnectionRequest (request : Request) (agentInfo : AgentInfo) :
    Connecting (SignedResponse × AgentInfo) := do
  Sending.ofExcept (calls.validate request.connection.didDoc)
  let newAgentInfo ← Sending.ofExcept calls.createAgent
  Sending.ofExcept (calls.sign agentInfo.pwVk)
  let signedResponse := createResponse calls request newAgentInfo agentInfo.pwVk
  newAgentInfo.sendMessage (.connectionResponse signedResponse) request.connection.didDoc
  return (signedResponse, newAgentInfo)

/-- `SignedResponse::decode`. -/
def SignedResponse.decode (response : SignedResponse) (key : String) : VcxResult Response :=
  if response.connectionSig.signer = key then
    .ok ⟨response.id, response.thread, response.connectionSig.connection, response.pleaseAck⟩
  else .error (.fromMsg .invalidJson
    "ConnectionResponse signature is invalid for original Invite recipient key")

/-- The message that confirms a response. -/
def confirmation (response : Response) : A2AMessage :=
  if response.pleaseAck then .ack ⟨calls.newId, .ofId (response.thread.thid.getD "")⟩
  else .ping ⟨calls.newId, false, none, some (.ofId (response.thread.thid.getD ""))⟩

/-- What of a response is checked. -/
def checkResponse (state : RequestedState) (response : SignedResponse) : VcxResult Response := do
  let remoteVk ← match state.didDoc.recipientKeys with
    | [] => .error (.fromMsg .invalidState "Cannot handle Response: Remote Verkey not found")
    | key :: _ => .ok key
  let response ← response.decode remoteVk
  if response.thread.isReply state.request.id then return response
  else .error (.fromMsg .invalidJson "Cannot handle Response: thread id does not match")

/-- `RequestedState::handle_connection_response`. -/
def handleConnectionResponse (state : RequestedState) (response : SignedResponse)
    (agentInfo : AgentInfo) :
    Connecting Response := do
  let response ← Sending.ofExcept (checkResponse state response)
  agentInfo.sendMessage (confirmation calls response) response.connection.didDoc
  return response

/-- `_handle_ping`. -/
def handlePing (ping : Ping) (agentInfo : AgentInfo) (didDoc : DidDoc) : Connecting Unit :=
  if ping.responseRequested then
    agentInfo.sendMessage
      (.pingResponse ⟨calls.newId, .ofId ((ping.thread.bind Thread.thid).getD ping.id)⟩) didDoc
  else pure ()

/-- A ping is sent, and it does not matter whether that succeeds. -/
def handleSendPing (comment : Option String) (agentInfo : AgentInfo) (didDoc : DidDoc) :
    Connecting Unit := do
  let _ ← (agentInfo.sendMessage (.ping ⟨calls.newId, true, comment, none⟩) didDoc).attempt
  return ()

/-- `CompleteState::handle_message`. -/
def CompleteState.handleMessage (state : CompleteState) (agentInfo : AgentInfo) :
    DidExchangeMessages → Connecting DidExchangeState
  | .sendPing comment => do
    handleSendPing calls comment agentInfo state.didDoc
    return .completed state
  | .pingReceived ping => do
    handlePing calls ping agentInfo state.didDoc
    return .completed state
  | .discoverFeatures query comment => do
    agentInfo.sendMessage (.query ⟨calls.newId, query, comment⟩) state.didDoc
    return .completed state
  | .queryReceived query => do
    let protocols := calls.getProtocolsForQuery query.query
    agentInfo.sendMessage (.disclose ⟨calls.newId, protocols, .ofId query.id⟩) state.didDoc
    return .completed state
  | .discloseReceived disclose =>
    pure (.completed { state with protocols := some disclose.protocols })
  | _ => pure (.completed state)

/-- A problem is reported, and it does not matter whether that succeeds. -/
def reportProblem (problemCode : ProblemCode) (err : VcxError) (threadId : String)
    (agentInfo : AgentInfo) (didDoc : DidDoc) : Connecting Unit := do
  let _ ← (agentInfo.sendMessage
    (.connectionProblemReport ⟨calls.newId, some problemCode, some err.text, .ofId threadId⟩)
    didDoc).attempt
  return ()

namespace DidExchangeSM

def toInviter (s : DidExchangeSM) (state : DidExchangeState) : DidExchangeSM :=
  { s with state := .inviter state }

def toInvitee (s : DidExchangeSM) (state : DidExchangeState) : DidExchangeSM :=
  { s with state := .invitee state }

def withAgent (s : DidExchangeSM) (agentInfo : AgentInfo) : DidExchangeSM := { s with agentInfo }

/-- The inviter takes a request, or gives up. -/
def respond (s : DidExchangeSM) (request : Request) :
    VcxResult (SignedResponse × AgentInfo) → Connecting DidExchangeSM
  | .ok (response, newAgentInfo) =>
    pure ((s.withAgent newAgentInfo).toInviter
      (.responded ⟨response, request.connection.didDoc, s.agentInfo⟩))
  | .error err => do
    reportProblem calls .requestProcessingError err request.id s.agentInfo request.connection.didDoc
    return s.toInviter .null

def stepInviter (s : DidExchangeSM) : DidExchangeState → DidExchangeMessages →
    Connecting DidExchangeSM
  | .null, .connect => do
    let agentInfo ← Sending.ofExcept calls.createAgent
    let invite : Invitation := ⟨calls.newId, s.sourceId, agentInfo.recipientKeys,
      agentInfo.routingKeys calls.settings, AgentInfo.agencyEndpoint calls.settings⟩
    return (s.withAgent agentInfo).toInviter (.invited ⟨invite⟩)
  | .null, _ => pure s
  | .invited _, .exchangeRequestReceived request => do
    let result ← (handleConnectionRequest calls request s.agentInfo).attempt
    s.respond calls request result
  | .invited _, .problemReportReceived _ => pure (s.toInviter .null)
  | .invited _, _ => pure s
  | .requested _, _ => pure s
  | .responded state, .ackReceived _ => pure (s.toInviter (.completed ⟨state.didDoc, none⟩))
  | .responded state, .pingReceived ping => do
    handlePing calls ping s.agentInfo state.didDoc
    return s.toInviter (.completed ⟨state.didDoc, none⟩)
  | .responded _, .problemReportReceived _ => pure (s.toInviter .null)
  | .responded state, .sendPing comment => do
    handleSendPing calls comment s.agentInfo state.didDoc
    return s
  | .responded state, .pingResponseReceived _ =>
    pure (s.toInviter (.completed ⟨state.didDoc, none⟩))
  | .responded _, _ => pure s
  | .completed state, message => do
    let state ← state.handleMessage calls s.agentInfo message
    return s.toInviter state

/-- The invitee takes a response, or gives up. -/
def complete (s : DidExchangeSM) (state : RequestedState) :
    VcxResult Response → Connecting DidExchangeSM
  | .ok response => pure (s.toInvitee (.completed ⟨response.connection.didDoc, none⟩))
  | .error err => do
    reportProblem calls .responseProcessingError err state.request.id s.agentInfo state.didDoc
    return s.toInvitee .null

def stepInvitee (s : DidExchangeSM) : DidExchangeState → DidExchangeMessages →
    Connecting DidExchangeSM
  | .null, .invitationReceived invitation => pure (s.toInvitee (.invited ⟨invitation⟩))
  | .null, _ => pure s
  | .invited state, .connect => do
    let agentInfo ← Sending.ofExcept calls.createAgent
    let request : Request :=
      ⟨calls.newId, s.sourceId, ⟨agentInfo.pwDid, agentInfo.didDoc calls.settings⟩⟩
    agentInfo.sendMessage (.connectionRequest request) (.ofInvitation state.invitation)
    return (s.withAgent agentInfo).toInvitee (.requested ⟨request, .ofInvitation state.invitation⟩)
  | .invited _, .problemReportReceived _ => pure (s.toInvitee .null)
  | .invited _, _ => pure s
  | .requested state, .exchangeResponseReceived response => do
    let result ← (handleConnectionResponse calls state response s.agentInfo).attempt
    s.complete calls state result
  | .requested _, .problemReportReceived _ => pure (s.toInvitee .null)
  | .requested _, _ => pure s
  | .responded _, _ => pure s
  | .completed state, message => do
    let state ← state.handleMessage calls s.agentInfo message
    return s.toInvitee state

def step (s : DidExchangeSM) (message : DidExchangeMessages) : Connecting DidExchangeSM :=
  match s.state with
  | .inviter state => s.stepInviter calls state message
  | .invitee state => s.stepInvitee calls state message

/-- Which messages of the mailbox a machine in this state takes. -/
def picks (s : DidExchangeSM) (message : A2AMessage) : Bool :=
  match s.state, message with
  | .inviter (.invited _), .connectionRequest _ => true
  | .inviter (.invited _), .connectionProblemReport _ => true
  | .invitee (.requested _), .connectionResponse _ => true
  | .invitee (.requested _), .connectionProblemReport _ => true
  | .inviter (.responded _), .ack _ => true
  | .inviter (.responded _), .ping _ => true
  | .inviter (.responded _), .pingResponse _ => true
  | .inviter (.responded _), .connectionProblemReport _ => true
  | .inviter (.completed _), .ping _ => true
  | .inviter (.completed _), .pingResponse _ => true
  | .inviter (.completed _), .query _ => true
  | .inviter (.completed _), .disclose _ => true
  | .invitee (.completed _), .ping _ => true
  | .invitee (.completed _), .pingResponse _ => true
  | .invitee (.completed _), .query _ => true
  | .invitee (.completed _), .disclose _ => true
  | _, _ => false

def findMessageToHandle (s : DidExchangeSM) (messages : Mailbox) : Option (String × A2AMessage) :=
  messages.find? fun entry => s.picks entry.2

def prevAgentInfo (s : DidExchangeSM) : Option AgentInfo :=
  match s.state with
  | .inviter (.responded state) => some state.prevAgentInfo
  | _ => none

/-- `DidExchangeSM::new`. -/
def newInviter (sourceId : String) : DidExchangeSM := ⟨sourceId, ⟨"", "", "", ""⟩, .inviter .null⟩

def newInvitee (sourceId : String) : DidExchangeSM := ⟨sourceId, ⟨"", "", "", ""⟩, .invitee .null⟩

end DidExchangeSM

end Machine

section Connection

/-- How a mailbox is read: what the agency answers, what the calls of the step give, how its sends
end, and whether the message that is handled can be marked as read. -/
structure Reading where
  answer : VcxResult (List (String × Envelope))
  calls : ExchangeCalls
  outcomes : List (Except VcxError Unit)
  updated : VcxResult Unit

namespace DidExchangeSM

/-- The message that is found in a mailbox is handled. -/
def handleFound (s : DidExchangeSM) (reading : Reading) :
    Connecting (Option String × DidExchangeSM) := do
  let messages ← Sending.ofExcept (getMessages reading.answer)
  match s.findMessageToHandle messages with
  | some (uid, message) => do
    let next ← s.step reading.calls (.ofMessage message)
    return (some uid, next)
  | none => return (none, s)

/-- The machine after a message was handled, and whether what follows is still done. -/
def afterHandling (s : DidExchangeSM) (updated : VcxResult Unit) :
    VcxResult (Option String × DidExchangeSM) → DidExchangeSM × Bool
  | .error _ => (s, false)
  | .ok (none, next) => (next, true)
  | .ok (some _, next) => (next, updated.isOk)

/-- The machine after a mailbox was read, whether what follows is still done, and what was sent. -/
def read (s : DidExchangeSM) (reading : Reading) : (DidExchangeSM × Bool) × List Packet :=
  let r := (s.handleFound reading).run reading.outcomes
  (s.afterHandling reading.updated r.1, r.2)

/-- `Connection::update_state`: the mailbox of the agent is read, and then that of the one before,
if there is one. -/
def updateState (s : DidExchangeSM) (current previous : Reading) : DidExchangeSM × List Packet :=
  let first := s.read current
  match first.1.1.prevAgentInfo, first.1.2 with
  | some _, true =>
    let second := first.1.1.read previous
    (second.1.1, first.2 ++ second.2)
  | _, _ => (first.1.1, first.2)

end DidExchangeSM

/-- What the user of a connection asks for. -/
inductive ConnectionCommand
  | processInvite (invitation : Invitation)
  | connect
  | sendPing (comment : Option String)
  | discoverFeatures (query comment : Option String)

def ConnectionCommand.message : ConnectionCommand → DidExchangeMessages
  | .processInvite invitation => .invitationReceived invitation
  | .connect => .connect
  | .sendPing comment => .sendPing comment
  | .discoverFeatures query comment => .discoverFeatures query comment

inductive ConnectionEvent
  | command (command : ConnectionCommand) (calls : ExchangeCalls)
      (outcomes : List (Except VcxError Unit))
  /-- The mailboxes hold whatever anyone has sent to them. -/
  | updateState (current previous : Reading)

/-- The machine after an event, which is the old one where the step fails, and what was sent. -/
def DidExchangeSM.perform (s : DidExchangeSM) : ConnectionEvent → DidExchangeSM × List Packet
  | .command command calls outcomes =>
    let r := (s.step calls command.message).run outcomes
    (Sending.keep s r.1, r.2)
  | .updateState current previous => s.updateState current previous

end Connection

end SimpleAsset.Vcx
