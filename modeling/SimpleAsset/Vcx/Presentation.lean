import SimpleAsset.Vcx.Issuance

/-! Presenting a proof, on both sides (libvcx, v3/handlers/proof_presentation). -/
namespace SimpleAsset.Vcx
open SimpleAsset.Library

/-- What a machine does outside of itself. -/
inductive PresentationEvent
  | sent (message : A2AMessage)
  /-- The result of the check of a presentation. -/
  | validated (presentation : Presentation) (valid : Bool)

abbrev Presenting := Sending VcxError PresentationEvent

/-- `send_message`. What connection is used does not matter to the machine. -/
def Presenting.sendMessage (message : A2AMessage) : Presenting Unit := Sending.send (.sent message)

/-- The data of a proof request, by its name and by its text. -/
structure PresentationRequestData where
  name : String
  json : String
  deriving DecidableEq, Repr

namespace Verifier

structure PresentationRequestSentState where
  connectionHandle : ℕ
  presentationRequest : PresentationRequest

inductive RevocationStatus
  | revoked
  | nonRevoked
  deriving DecidableEq, Repr

structure FinishedState where
  connectionHandle : ℕ
  presentationRequest : PresentationRequest
  presentation : Option Presentation
  status : Status
  revocationStatus : Option RevocationStatus

inductive VerifierState
  | initiated (presentationRequestData : PresentationRequestData)
  | presentationRequestSent (state : PresentationRequestSentState)
  | finished (state : FinishedState)

def PresentationRequestSentState.verified (state : PresentationRequestSentState)
    (presentation : Presentation) (wasRevoked : RevocationStatus) : FinishedState :=
  ⟨state.connectionHandle, state.presentationRequest, some presentation, .success, some wasRevoked⟩

def PresentationRequestSentState.failed (state : PresentationRequestSentState)
    (problemReport : ProblemReport) :
    FinishedState :=
  ⟨state.connectionHandle, state.presentationRequest, none, .failed problemReport, none⟩

inductive VerifierMessages
  | sendPresentationRequest (connectionHandle : ℕ)
  | verifyPresentation (presentation : Presentation)
  | presentationProposalReceived (proposal : PresentationProposal)
  | presentationRejectReceived (problemReport : ProblemReport)
  | unknown

def VerifierMessages.ofMessage : A2AMessage → VerifierMessages
  | .presentation presentation => .verifyPresentation presentation
  | .presentationProposal proposal => .presentationProposalReceived proposal
  | .commonProblemReport report => .presentationRejectReceived report
  | _ => .unknown

/-- What a step of the verifier gets from libindy and from other modules. -/
structure Calls where
  /-- The ids of the messages that a step creates, one after another. -/
  newId : ℕ → String
  getPwDid (connectionHandle : ℕ) : VcxResult String
  getTheirPwVerkey (connectionHandle : ℕ) : VcxResult String
  setFormatVersionForDid (data : PresentationRequestData) (myDid remoteDid : String) :
    VcxResult PresentationRequestData
  institutionName : VcxResult String
  validateIndyProof (proof proofReq : String) : VcxResult Bool

variable (calls : Calls)

/-- The request that is sent to ask for a presentation. -/
def createRequest (data : PresentationRequestData) (connectionHandle : ℕ) :
    VcxResult PresentationRequest := do
  let myDid ← calls.getPwDid connectionHandle
  let remoteDid ← calls.getTheirPwVerkey connectionHandle
  let data ← calls.setFormatVersionForDid data myDid remoteDid
  let institutionName ← calls.institutionName
  return ⟨calls.newId 0, some (institutionName ++ " wants you to share " ++ data.name),
    ⟨.ok data.json⟩, none⟩

def validate (state : PresentationRequestSentState) (presentation : Presentation) :
    VcxResult Bool := do
  let proof ← presentation.presentationsAttach.content
  let proofReq ← state.presentationRequest.requestPresentationsAttach.content
  calls.validateIndyProof proof proofReq

def acknowledge (state : PresentationRequestSentState) (presentation : Presentation) :
    Presenting Unit :=
  if presentation.pleaseAck then
    Presenting.sendMessage (.presentationAck ⟨calls.newId 0, .ofId state.presentationRequest.id⟩)
  else pure ()

def verifyPresentation (state : PresentationRequestSentState) (presentation : Presentation) :
    Presenting Unit := do
  let valid ← Sending.ofExcept (validate calls state presentation)
  Sending.emit (.validated presentation valid)
  if valid then acknowledge calls state presentation
  else Sending.ofExcept (.error (.fromMsg .invalidProof "Presentation verification failed"))

/-- The report with which the verifier answers a message of the thread. -/
def problemReport (state : PresentationRequestSentState) (comment : String) : ProblemReport :=
  ⟨calls.newId 1, .ofId state.presentationRequest.id, some comment⟩

/-- The end after a verification with this result. -/
def conclude (state : PresentationRequestSentState) (presentation : Presentation) :
    VcxResult Unit → Presenting VerifierState
  | .ok () => pure (.finished (state.verified presentation .nonRevoked))
  | .error err => do
    Presenting.sendMessage (.commonProblemReport (problemReport calls state err.text))
    match err.kind with
    | .invalidProof => return .finished (state.verified presentation .revoked)
    | _ => return .finished (state.failed (problemReport calls state err.text))

def step : VerifierState → VerifierMessages → Presenting VerifierState
  | .initiated data, .sendPresentationRequest connectionHandle => do
    let presentationRequest ← Sending.ofExcept (createRequest calls data connectionHandle)
    Presenting.sendMessage (.presentationRequest presentationRequest)
    return .presentationRequestSent ⟨connectionHandle, presentationRequest⟩
  | .initiated data, _ => pure (.initiated data)
  | .presentationRequestSent state, .verifyPresentation presentation => do
    let result ← (verifyPresentation calls state presentation).attempt
    conclude calls state presentation result
  | .presentationRequestSent state, .presentationRejectReceived report =>
    pure (.finished (state.failed report))
  | .presentationRequestSent state, .presentationProposalReceived _ => do
    let report := problemReport calls state "PresentationProposal is not supported"
    Presenting.sendMessage (.commonProblemReport report)
    return .finished (state.failed report)
  | .presentationRequestSent state, _ => pure (.presentationRequestSent state)
  | .finished state, _ => pure (.finished state)

/-- Which message of the mailbox the verifier takes. -/
def picks : VerifierState → A2AMessage → Option A2AMessage
  | .presentationRequestSent state, .presentation presentation =>
    if presentation.thread.isReply state.presentationRequest.id
      then some (.presentation presentation) else none
  | .presentationRequestSent state, .presentationProposal proposal =>
    if proposal.thread.isReply state.presentationRequest.id
      then some (.presentationProposal proposal) else none
  | .presentationRequestSent state, .commonProblemReport report =>
    if report.thread.isReply state.presentationRequest.id
      then some (.commonProblemReport report) else none
  | _, _ => none

def findMessageToHandle (s : VerifierState) (messages : Mailbox) : Option (String × A2AMessage) :=
  findMessage (picks s) messages

/-- `update_state` of the verifier on this mailbox. The machine is replaced before the message is
marked as read, so that a failure of that changes nothing; and only a machine that has sent a
request reads messages. -/
def updateState (s : VerifierState) (messages : VcxResult Mailbox) : Presenting VerifierState :=
  match s with
  | .presentationRequestSent _ => do
    let messages ← Sending.ofExcept messages
    match findMessageToHandle s messages with
    | some (_, message) => step calls s (.ofMessage message)
    | none => pure s
  | _ => pure s

end Verifier

namespace Prover

structure PresentationPreparedState where
  presentationRequest : PresentationRequest
  presentation : Presentation

structure PresentationPreparationFailedState where
  presentationRequest : PresentationRequest
  problemReport : ProblemReport

structure PresentationSentState where
  connectionHandle : ℕ
  presentationRequest : PresentationRequest
  presentation : Presentation

structure FinishedState where
  connectionHandle : ℕ
  presentationRequest : PresentationRequest
  presentation : Presentation
  status : Status

inductive ProverState
  | initiated (presentationRequest : PresentationRequest)
  | presentationPrepared (state : PresentationPreparedState)
  | presentationPreparationFailed (state : PresentationPreparationFailedState)
  | presentationSent (state : PresentationSentState)
  | finished (state : FinishedState)

structure ProverSM where
  threadId : String
  state : ProverState

def ProverSM.new (presentationRequest : PresentationRequest) : ProverSM :=
  ⟨presentationRequest.id, .initiated presentationRequest⟩

def ProverSM.moveTo (s : ProverSM) (state : ProverState) : ProverSM := { s with state }

inductive ProverMessages
  | presentationRequestReceived
  | rejectPresentationRequest (connectionHandle : ℕ) (reason : String)
  | setPresentation (presentation : Presentation)
  | preparePresentation (credentials selfAttestedAttrs : String)
  | sendPresentation (connectionHandle : ℕ)
  | presentationAckReceived (ack : Ack)
  | presentationRejectReceived (problemReport : ProblemReport)
  | proposePresentation (connectionHandle : ℕ) (preview : String)
  | unknown

def ProverMessages.ofMessage : A2AMessage → ProverMessages
  | .ack ack => .presentationAckReceived ack
  | .presentationAck ack => .presentationAckReceived ack
  | .commonProblemReport report => .presentationRejectReceived report
  | _ => .unknown

/-- What a step of the prover gets from libindy and from other modules. -/
structure Calls where
  newId : String
  generateIndyProof (credentials selfAttestedAttrs proofReq : String) : VcxResult String

variable (calls : Calls)

/-- A presentation with nothing in it. -/
def emptyPresentation : Presentation :=
  ⟨calls.newId, none, ⟨.error (.fromMsg .invalidJson "Unsupported Attachment type")⟩, ⟨none⟩, false⟩

def buildPresentation (presentationRequest : PresentationRequest)
    (credentials selfAttestedAttrs : String) :
    VcxResult String := do
  let proofReq ← presentationRequest.requestPresentationsAttach.content
  calls.generateIndyProof credentials selfAttestedAttrs proofReq

/-- The state in which the exchange is left to itself, also by a presentation that goes to a
service. -/
def declined (presentationRequest : PresentationRequest) : FinishedState :=
  ⟨0, presentationRequest, emptyPresentation calls, .declined⟩

/-- `_handle_reject_presentation_request`. -/
def handleRejectPresentationRequest (reason threadId : String) : Presenting Unit :=
  Presenting.sendMessage (.commonProblemReport ⟨calls.newId, .ofId threadId, some reason⟩)

/-- `_handle_presentation_proposal`. -/
def handlePresentationProposal (preview threadId : String) : Presenting Unit :=
  Presenting.sendMessage (.presentationProposal ⟨calls.newId, preview, .ofId threadId⟩)

/-- How a request is prepared to be answered. -/
def prepare (s : ProverSM) (presentationRequest : PresentationRequest) : VcxResult String → ProverSM
  | .ok presentation =>
    s.moveTo (.presentationPrepared
      ⟨presentationRequest, ⟨calls.newId, none, ⟨.ok presentation⟩, .ofId s.threadId, true⟩⟩)
  | .error err =>
    s.moveTo (.presentationPreparationFailed
      ⟨presentationRequest, ⟨calls.newId, .ofId s.threadId, some err.text⟩⟩)

/-- Prepared presentations are sent over the connection, or to the service that the request
names. -/
def sendPrepared (s : ProverSM) (state : PresentationPreparedState) (connectionHandle : ℕ) :
    Presenting ProverSM := do
  Presenting.sendMessage (.presentation state.presentation)
  match state.presentationRequest.service with
  | none =>
    return s.moveTo
      (.presentationSent ⟨connectionHandle, state.presentationRequest, state.presentation⟩)
  | some _ => return s.moveTo (.finished (declined calls state.presentationRequest))

def step (s : ProverSM) (message : ProverMessages) : Presenting ProverSM :=
  match s.state, message with
  | .initiated presentationRequest, .setPresentation presentation =>
    pure <| s.moveTo (.presentationPrepared
      ⟨presentationRequest, { presentation with thread := .ofId s.threadId }⟩)
  | .initiated presentationRequest, .preparePresentation credentials selfAttestedAttrs =>
    pure (prepare calls s presentationRequest
      (buildPresentation calls presentationRequest credentials selfAttestedAttrs))
  | .initiated presentationRequest, .rejectPresentationRequest _ reason => do
    handleRejectPresentationRequest calls reason s.threadId
    return s.moveTo (.finished (declined calls presentationRequest))
  | .initiated presentationRequest, .proposePresentation _ preview => do
    handlePresentationProposal calls preview s.threadId
    return s.moveTo (.finished (declined calls presentationRequest))
  | .initiated _, _ => pure s
  | .presentationPrepared state, .sendPresentation connectionHandle =>
    sendPrepared calls s state connectionHandle
  | .presentationPrepared state, .rejectPresentationRequest _ reason => do
    handleRejectPresentationRequest calls reason s.threadId
    return s.moveTo (.finished (declined calls state.presentationRequest))
  | .presentationPrepared state, .proposePresentation _ preview => do
    handlePresentationProposal calls preview s.threadId
    return s.moveTo (.finished (declined calls state.presentationRequest))
  | .presentationPrepared _, _ => pure s
  | .presentationPreparationFailed state, .sendPresentation connectionHandle => do
    Presenting.sendMessage (.commonProblemReport state.problemReport)
    return s.moveTo (.finished
      ⟨connectionHandle, state.presentationRequest, emptyPresentation calls,
        .failed state.problemReport⟩)
  | .presentationPreparationFailed _, _ => pure s
  | .presentationSent state, .presentationAckReceived _ =>
    pure <| s.moveTo (.finished
      ⟨state.connectionHandle, state.presentationRequest, state.presentation, .success⟩)
  | .presentationSent state, .presentationRejectReceived problemReport =>
    pure <| s.moveTo (.finished
      ⟨state.connectionHandle, state.presentationRequest, state.presentation,
        .failed problemReport⟩)
  | .presentationSent _, .rejectPresentationRequest _ _ =>
    Sending.ofExcept (.error (.fromMsg .actionNotSupported "Presentation is already sent"))
  | .presentationSent _, _ => pure s
  | .finished _, _ => pure s

/-- Which message of the mailbox the prover takes. -/
def picks (s : ProverSM) (message : A2AMessage) : Option A2AMessage :=
  match s.state, message with
  | .presentationSent _, .ack ack =>
    if ack.thread.isReply s.threadId then some (.presentationAck ack) else none
  | .presentationSent _, .presentationAck ack =>
    if ack.thread.isReply s.threadId then some (.presentationAck ack) else none
  | .presentationSent _, .commonProblemReport report =>
    if report.thread.isReply s.threadId then some (.commonProblemReport report) else none
  | _, _ => none

def findMessageToHandle (s : ProverSM) (messages : Mailbox) : Option (String × A2AMessage) :=
  findMessage (picks s) messages

def notReady : VcxError :=
  .fromMsg (.other "Object not ready for specified action") "Connection handle isn't set"

/-- `update_state` of the prover on this mailbox. Only a prover that has sent its presentation has a
connection to read from. -/
def updateState (s : ProverSM) (messages : VcxResult Mailbox) : Presenting ProverSM :=
  match s.state with
  | .initiated _ => pure s
  | .presentationPrepared _ => Sending.ofExcept (.error notReady)
  | .presentationPreparationFailed _ => Sending.ofExcept (.error notReady)
  | .presentationSent _ => do
    let messages ← Sending.ofExcept messages
    match findMessageToHandle s messages with
    | some (_, message) => step calls s (.ofMessage message)
    | none => pure s
  | .finished _ => pure s

/-- What the user of the prover asks for. -/
inductive Action
  | setPresentation (presentation : Presentation)
  | generatePresentation (credentials selfAttestedAttrs : String)
  | sendPresentation (connectionHandle : ℕ)
  | rejectPresentationRequest (connectionHandle : ℕ) (reason : String)
  | proposePresentation (connectionHandle : ℕ) (preview : String)

def Action.message : Action → ProverMessages
  | .setPresentation presentation => .setPresentation presentation
  | .generatePresentation credentials selfAttestedAttrs =>
    .preparePresentation credentials selfAttestedAttrs
  | .sendPresentation connectionHandle => .sendPresentation connectionHandle
  | .rejectPresentationRequest connectionHandle reason =>
    .rejectPresentationRequest connectionHandle reason
  | .proposePresentation connectionHandle preview => .proposePresentation connectionHandle preview

end Prover

end SimpleAsset.Vcx
