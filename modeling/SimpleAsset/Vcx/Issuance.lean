import SimpleAsset.Vcx.Messages

/-! Issuing a credential, on both sides (libvcx, v3/handlers/issuance). -/
namespace SimpleAsset.Vcx
open SimpleAsset.Library

/-- What an exchange does outside of its machine. -/
inductive IssuanceEvent
  /-- The issuer's libindy has made a credential, with this revocation index. -/
  | created (credRevId : Option String)
  /-- The holder's libindy has stored a credential under this id. -/
  | stored (credId : String)
  | sent (connectionHandle : ℕ) (message : A2AMessage)
  /-- The agency has marked the message as read. -/
  | reviewed (connectionHandle : ℕ) (uid : String)

abbrev Issuance := Sending VcxError IssuanceEvent

namespace Issuance

def sendMessage (connectionHandle : ℕ) (message : A2AMessage) : Issuance Unit :=
  Sending.send (.sent connectionHandle message)

def updateMessageStatus (connectionHandle : ℕ) (uid : String) : Issuance Unit :=
  Sending.send (.reviewed connectionHandle uid)

end Issuance

inductive CredentialIssuanceMessage
  | credentialInit (connectionHandle : ℕ)
  | credentialSend
  | credentialProposal (proposal : CredentialProposal)
  | credentialOffer (offer : CredentialOffer)
  | credentialRequestSend (connectionHandle : ℕ)
  | credentialRequest (request : CredentialRequest)
  | credential (credential : Credential)
  | credentialAck (ack : Ack)
  | problemReport (problemReport : ProblemReport)
  | unknown

def CredentialIssuanceMessage.ofMessage : A2AMessage → CredentialIssuanceMessage
  | .credentialProposal proposal => .credentialProposal proposal
  | .credentialOffer offer => .credentialOffer offer
  | .credentialRequest request => .credentialRequest request
  | .credential issued => .credential issued
  | .ack ack => .credentialAck ack
  | .credentialAck ack => .credentialAck ack
  | .commonProblemReport report => .problemReport report
  | _ => .unknown

/-- The first message of a mailbox that is picked, in the form in which it is handled. -/
def findMessage (pick : A2AMessage → Option A2AMessage) (messages : Mailbox) :
    Option (String × A2AMessage) :=
  messages.findSome? fun entry => (pick entry.2).map (Prod.mk entry.1)

section Issuer

structure InitialState where
  credDefId : String
  credentialJson : String
  revRegId : Option String
  tailsFile : Option String

structure OfferSentState where
  offer : String
  credData : String
  revRegId : Option String
  tailsFile : Option String
  connectionHandle : ℕ
  threadId : String

structure RequestReceivedState where
  offer : String
  credData : String
  revRegId : Option String
  tailsFile : Option String
  connectionHandle : ℕ
  request : CredentialRequest
  threadId : String

structure RevocationInfoV1 where
  credRevId : Option String
  revRegId : Option String
  tailsFile : Option String

structure CredentialSentState where
  connectionHandle : ℕ
  revocationInfoV1 : Option RevocationInfoV1
  threadId : String

structure FinishedState where
  credId : Option String
  threadId : String
  revocationInfoV1 : Option RevocationInfoV1
  status : Status

def OfferSentState.requestReceived (state : OfferSentState) (request : CredentialRequest) :
    RequestReceivedState :=
  ⟨state.offer, state.credData, state.revRegId, state.tailsFile, state.connectionHandle, request,
    state.threadId⟩

def OfferSentState.failed (state : OfferSentState) (err : ProblemReport) : FinishedState :=
  ⟨none, state.threadId, some ⟨none, state.revRegId, state.tailsFile⟩, .failed err⟩

def RequestReceivedState.succeeded (state : RequestReceivedState) (credRevId : Option String) :
    FinishedState :=
  ⟨none, state.threadId, some ⟨credRevId, state.revRegId, state.tailsFile⟩, .success⟩

def RequestReceivedState.failed (state : RequestReceivedState) (err : ProblemReport) :
    FinishedState :=
  ⟨none, state.threadId, some ⟨none, state.revRegId, state.tailsFile⟩, .failed err⟩

def CredentialSentState.finished (state : CredentialSentState) : FinishedState :=
  ⟨none, state.threadId, state.revocationInfoV1, .success⟩

inductive IssuerState
  | initial (state : InitialState)
  | offerSent (state : OfferSentState)
  | requestReceived (state : RequestReceivedState)
  | credentialSent (state : CredentialSentState)
  | finished (state : FinishedState)

def IssuerState.getConnectionHandle : IssuerState → ℕ
  | .initial _ => 0
  | .offerSent state => state.connectionHandle
  | .requestReceived state => state.connectionHandle
  | .credentialSent state => state.connectionHandle
  | .finished _ => 0

/-- What an operation of the issuer gets from libindy and from other modules. -/
structure IssuerCalls where
  /-- The id of the message that is created. -/
  newId : String
  issuerCreateCredentialOffer (credDefId : String) : VcxResult String
  appendCredentialPreview (offer : CredentialOffer) (credentialJson : String) :
    VcxResult CredentialOffer
  encodeAttributes (credData : String) : VcxResult String
  /-- The credential and its revocation index. -/
  issuerCreateCredential (credOffer credReq credValues : String)
    (revRegId tailsFile : Option String) :
    VcxResult (String × Option String)
  getMessages (connectionHandle : ℕ) : VcxResult Mailbox

variable (calls : IssuerCalls)

/-- `_create_credential`. Once libindy has succeeded, nothing in here fails. -/
def createCredential (state : RequestReceivedState) : VcxResult (Credential × Option String) := do
  let request ← state.request.requestsAttach.content
  let credData ← calls.encodeAttributes state.credData
  let (serCredential, credRevId) ←
    calls.issuerCreateCredential state.offer request credData state.revRegId state.tailsFile
  return (⟨calls.newId, ⟨.ok serCredential⟩, .ofId state.threadId, false⟩, credRevId)

namespace IssuerState

/-- The problem report of the issuer to a message or an error. -/
def problemReport (comment threadId : String) : ProblemReport :=
  ⟨calls.newId, .ofId threadId, some comment⟩

/-- A request is answered with the credential, or with what went wrong. -/
def answer (state : RequestReceivedState) :
    VcxResult (Credential × Option String) → Issuance IssuerState
  | .ok (credentialMsg, credRevId) => do
    Sending.emit (.created credRevId)
    Issuance.sendMessage state.connectionHandle (.credential credentialMsg)
    return .finished (state.succeeded credRevId)
  | .error err => do
    let report := problemReport calls err.text state.threadId
    Issuance.sendMessage state.connectionHandle (.commonProblemReport report)
    return .finished (state.failed report)

def handleMessage : IssuerState → CredentialIssuanceMessage → Issuance IssuerState
  | .initial state, .credentialInit connectionHandle => do
    let credOffer ← Sending.ofExcept (calls.issuerCreateCredentialOffer state.credDefId)
    let credOfferMsg ←
      Sending.ofExcept
      (calls.appendCredentialPreview ⟨calls.newId, ⟨.ok credOffer⟩⟩ state.credentialJson)
    Issuance.sendMessage connectionHandle (.credentialOffer credOfferMsg)
    return .offerSent
      ⟨credOffer, state.credentialJson, state.revRegId, state.tailsFile, connectionHandle,
        credOfferMsg.id⟩
  | .initial state, _ => pure (.initial state)
  | .offerSent state, .credentialRequest request =>
    pure (.requestReceived (state.requestReceived request))
  | .offerSent state, .credentialProposal _ => do
    let report := problemReport calls "CredentialProposal is not supported" state.threadId
    Issuance.sendMessage state.connectionHandle (.commonProblemReport report)
    return .finished (state.failed report)
  | .offerSent state, .problemReport report => pure (.finished (state.failed report))
  | .offerSent state, _ => pure (.offerSent state)
  | .requestReceived state, .credentialSend => answer calls state (createCredential calls state)
  | .requestReceived state, _ => pure (.requestReceived state)
  | .credentialSent state, .problemReport _ => pure (.finished state.finished)
  | .credentialSent state, .credentialAck _ => pure (.finished state.finished)
  | .credentialSent state, _ => pure (.credentialSent state)
  | .finished state, _ => pure (.finished state)

/-- Which message of the mailbox the issuer takes. -/
def picks : IssuerState → A2AMessage → Option A2AMessage
  | .offerSent state, .credentialRequest request =>
    if request.thread.isReply state.threadId then some (.credentialRequest request) else none
  | .offerSent state, .credentialProposal proposal =>
    if proposal.thread.any (·.isReply state.threadId)
      then some (.credentialProposal proposal) else none
  | .offerSent state, .commonProblemReport report =>
    if report.thread.isReply state.threadId then some (.commonProblemReport report) else none
  | .credentialSent state, .ack ack =>
    if ack.thread.isReply state.threadId then some (.credentialAck ack) else none
  | .credentialSent state, .credentialAck ack =>
    if ack.thread.isReply state.threadId then some (.credentialAck ack) else none
  | .credentialSent state, .commonProblemReport report =>
    if report.thread.isReply state.threadId then some (.commonProblemReport report) else none
  | _, _ => none

def findMessageToHandle (s : IssuerState) (messages : Mailbox) : Option (String × A2AMessage) :=
  findMessage s.picks messages

def isTerminalState : IssuerState → Bool
  | .finished _ => true
  | _ => false

def updateState (s : IssuerState) : Issuance IssuerState :=
  if s.isTerminalState then pure s
  else do
    let messages ← Sending.ofExcept (calls.getMessages s.getConnectionHandle)
    match s.findMessageToHandle messages with
    | some (uid, msg) => do
      let next ← s.handleMessage calls (.ofMessage msg)
      Issuance.updateMessageStatus s.getConnectionHandle uid
      return next
    | none => pure s

end IssuerState

/-- The operations of `Issuer` that may change its machine. A message that is handed over has been
read as one. -/
inductive IssuerOperation
  | sendCredentialOffer (connectionHandle : ℕ)
  | sendCredential
  | updateStatus (msg : Option A2AMessage)

def IssuerState.operate (s : IssuerState) : IssuerOperation → Issuance IssuerState
  | .sendCredentialOffer connectionHandle =>
    s.handleMessage calls (.credentialInit connectionHandle)
  | .sendCredential => s.handleMessage calls .credentialSend
  | .updateStatus (some msg) => s.handleMessage calls (.ofMessage msg)
  | .updateStatus none => s.updateState calls

/-- `IssuerSM::new`. -/
def newIssuer (credDefId credentialData : String) (revRegId tailsFile : Option String) :
    IssuerState :=
  .initial ⟨credDefId, credentialData, revRegId, tailsFile⟩

end Issuer

section Holder

structure OfferReceivedState where
  offer : CredentialOffer

structure RequestSentState where
  reqMeta : String
  credDefJson : String
  connectionHandle : ℕ

structure FinishedHolderState where
  credId : Option String
  credential : Option Credential
  status : Status
  revRegDefJson : Option String

inductive HolderState
  | offerReceived (state : OfferReceivedState)
  | requestSent (state : RequestSentState)
  | finished (state : FinishedHolderState)

def HolderState.getConnectionHandle : HolderState → ℕ
  | .offerReceived _ => 0
  | .requestSent state => state.connectionHandle
  | .finished _ => 0

def FinishedHolderState.succeeded (credId : String) (credential : Credential)
    (revRegDefJson : Option String) :
    FinishedHolderState :=
  ⟨some credId, some credential, .success, revRegDefJson⟩

def FinishedHolderState.failedWith (problemReport : ProblemReport) : FinishedHolderState :=
  ⟨none, none, .failed problemReport, none⟩

structure HolderSM where
  state : HolderState
  threadId : String

/-- What an operation of the holder gets from libindy and from other modules. -/
structure HolderCalls where
  newId : String
  getPwDid (connectionHandle : ℕ) : VcxResult String
  parseCredDefFromCredOffer (credOffer : String) : VcxResult String
  /-- The request, its metadata and the credential definition. -/
  createCredentialRequest (credDefId proverDid credOffer : String) : VcxResult
    (String × String × String)
  parseRevRegIdFromCredential (credential : String) : VcxResult (Option String)
  getRevRegDefJson (revRegId : String) : VcxResult (String × String)
  /-- Stores under an id of its own. -/
  proverStoreCredential (reqMeta credJson credDefJson : String) (revRegDefJson : Option String) :
    VcxResult String
  getMessages (connectionHandle : ℕ) : VcxResult Mailbox

variable (calls : HolderCalls)

/-- `_make_credential_request`. -/
def makeCredentialRequest (connectionHandle : ℕ) (offer : CredentialOffer) (threadId : String) :
    VcxResult (CredentialRequest × String × String) := do
  let myDid ← calls.getPwDid connectionHandle
  let credOffer ← offer.offersAttach.content
  let credDefId ← calls.parseCredDefFromCredOffer credOffer
  let (req, reqMeta, credDefJson) ← calls.createCredentialRequest credDefId myDid credOffer
  return (⟨calls.newId, ⟨.ok req⟩, .ofId threadId⟩, reqMeta, credDefJson)

def revRegDefOf : Option String → VcxResult (Option String)
  | some revRegId => do
    let (_, json) ← calls.getRevRegDefJson revRegId
    return some json
  | none => return none

/-- `_store_credential`. -/
def storeCredential (credential : Credential) (state : RequestSentState) :
    VcxResult (String × Option String) := do
  let credentialJson ← credential.credentialsAttach.content
  let revRegId ← calls.parseRevRegIdFromCredential credentialJson
  let revRegDefJson ← revRegDefOf calls revRegId
  let credId ← calls.proverStoreCredential state.reqMeta credentialJson state.credDefJson
      revRegDefJson
  return (credId, revRegDefJson)

namespace HolderSM

def new (offer : CredentialOffer) : HolderSM := ⟨.offerReceived ⟨offer⟩, offer.id⟩

def problemReport (s : HolderSM) (err : VcxError) : ProblemReport :=
  ⟨calls.newId, .ofId s.threadId, some err.text⟩

/-- The ack that a credential asks for. -/
def acknowledge (s : HolderSM) (credential : Credential) (connectionHandle : ℕ) : Issuance Unit :=
  if credential.pleaseAck then
    Issuance.sendMessage connectionHandle (.credentialAck ⟨calls.newId, .ofId s.threadId⟩)
  else pure ()

/-- The report of an error, with which the exchange ends. -/
def fail (s : HolderSM) (connectionHandle : ℕ) (err : VcxError) : Issuance HolderSM := do
  Issuance.sendMessage connectionHandle (.commonProblemReport (s.problemReport calls err))
  return { s with state := .finished (.failedWith (s.problemReport calls err)) }

def request (s : HolderSM) (connectionHandle : ℕ) :
    VcxResult (CredentialRequest × String × String) → Issuance HolderSM
  | .ok (credRequest, reqMeta, credDefJson) => do
    Issuance.sendMessage connectionHandle (.credentialRequest credRequest)
    return { s with state := .requestSent ⟨reqMeta, credDefJson, connectionHandle⟩ }
  | .error err => s.fail calls connectionHandle err

/-- A credential was received, with this result of storing it. -/
def receive (s : HolderSM) (credential : Credential) (state : RequestSentState) :
    VcxResult (String × Option String) → Issuance HolderSM
  | .ok (credId, revRegDefJson) => do
    Sending.emit (.stored credId)
    s.acknowledge calls credential state.connectionHandle
    return { s with state := .finished (.succeeded credId credential revRegDefJson) }
  | .error err => s.fail calls state.connectionHandle err

def handleMessage (s : HolderSM) (cim : CredentialIssuanceMessage) : Issuance HolderSM :=
  match s.state, cim with
  | .offerReceived state, .credentialRequestSend connectionHandle =>
    s.request calls connectionHandle
      (makeCredentialRequest calls connectionHandle state.offer s.threadId)
  | .offerReceived _, _ => pure s
  | .requestSent state, .credential credential =>
    s.receive calls credential state (storeCredential calls credential state)
  | .requestSent _, .problemReport problemReport =>
    pure { s with state := .finished (.failedWith problemReport) }
  | .requestSent _, _ => pure s
  | .finished _, _ => pure s

/-- Which message of the mailbox the holder takes. -/
def picks (s : HolderSM) (message : A2AMessage) : Option A2AMessage :=
  match s.state, message with
  | .requestSent _, .credential credential =>
    if credential.thread.isReply s.threadId then some (.credential credential) else none
  | .requestSent _, .commonProblemReport report =>
    if report.thread.isReply s.threadId then some (.commonProblemReport report) else none
  | _, _ => none

def findMessageToHandle (s : HolderSM) (messages : Mailbox) : Option (String × A2AMessage) :=
  findMessage s.picks messages

def isTerminalState (s : HolderSM) : Bool :=
  match s.state with
  | .finished _ => true
  | _ => false

def updateState (s : HolderSM) : Issuance HolderSM :=
  if s.isTerminalState then pure s
  else do
    let messages ← Sending.ofExcept (calls.getMessages s.state.getConnectionHandle)
    match s.findMessageToHandle messages with
    | some (uid, msg) => do
      let next ← s.handleMessage calls (.ofMessage msg)
      Issuance.updateMessageStatus s.state.getConnectionHandle uid
      return next
    | none => pure s

end HolderSM

/-- The operations of `Holder` that may change its machine. -/
inductive HolderOperation
  | sendRequest (connectionHandle : ℕ)
  | updateState (msg : Option A2AMessage)

def HolderSM.operate (s : HolderSM) : HolderOperation → Issuance HolderSM
  | .sendRequest connectionHandle => s.handleMessage calls (.credentialRequestSend connectionHandle)
  | .updateState (some msg) => s.handleMessage calls (.ofMessage msg)
  | .updateState none => s.updateState calls

end Holder

section Runs

/-- An operation with what its calls give and how its sends end. -/
structure IssuerStep where
  operation : IssuerOperation
  calls : IssuerCalls
  outcomes : List (Except VcxError Unit)

structure HolderStep where
  operation : HolderOperation
  calls : HolderCalls
  outcomes : List (Except VcxError Unit)

/-- The machine is replaced only when the operation succeeds. -/
def kept {σ : Type} (s : σ) (r : VcxResult σ × List IssuanceEvent) :
    VcxResult (σ × List IssuanceEvent) :=
  match r.1 with
  | .ok s' => .ok (s', r.2)
  | .error _ => .ok (s, r.2)

def issuerStep (s : IssuerState) (step : IssuerStep) :
    VcxResult (IssuerState × List IssuanceEvent) :=
  kept s ((s.operate step.calls step.operation).run step.outcomes)

def holderStep (s : HolderSM) (step : HolderStep) : VcxResult (HolderSM × List IssuanceEvent) :=
  kept s ((s.operate step.calls step.operation).run step.outcomes)

end Runs

end SimpleAsset.Vcx
