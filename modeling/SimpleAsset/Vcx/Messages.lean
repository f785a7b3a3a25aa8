import Mathlib.Data.Nat.Notation
import SimpleAsset.Library.Effects

/-! The messages that agents exchange (libvcx, v3/messages). -/
namespace SimpleAsset.Vcx
open SimpleAsset.Library

section Errors

inductive VcxErrorKind
  | invalidState
  | invalidJson
  | invalidProof
  | actionNotSupported
  /-- Any other kind, with its text. -/
  | other (display : String)
  deriving DecidableEq, Repr

def VcxErrorKind.display : VcxErrorKind → String
  | .invalidState => "Object is in invalid state for requested operation"
  | .invalidJson => "Invalid JSON string"
  | .invalidProof => "Proof had invalid format"
  | .actionNotSupported => "Action is not supported"
  | .other display => display

structure VcxError where
  kind : VcxErrorKind
  /-- What `to_string` gives. -/
  text : String
  deriving DecidableEq, Repr

def VcxError.fromMsg (kind : VcxErrorKind) (msg : String) : VcxError :=
  ⟨kind, "Error: " ++ kind.display ++ "\n  Caused by: " ++ msg ++ "\n"⟩

abbrev VcxResult := Except VcxError

end Errors

structure Thread where
  thid : Option String
  deriving DecidableEq, Repr

def Thread.isReply (thread : Thread) (id : String) : Bool := thread.thid.getD "" = id

/-- `set_thread_id` on a message that had no thread id. -/
def Thread.ofId (id : String) : Thread := ⟨some id⟩

/-- An attachment, by what `content` reads from it. -/
structure Attachments where
  content : VcxResult String

structure Ack where
  id : String
  thread : Thread

/-- `ProblemReport` of v3/messages/error.rs. -/
structure ProblemReport where
  id : String
  thread : Thread
  comment : Option String

inductive Status
  | undefined
  | success
  | failed (problemReport : ProblemReport)
  | declined

section Connection

structure DidDoc where
  id : String
  /-- The keys that its references stand for. -/
  recipientKeys : List String
  routingKeys : List String
  serviceEndpoint : String
  deriving DecidableEq, Repr

structure Invitation where
  id : String
  label : String
  recipientKeys : List String
  routingKeys : List String
  serviceEndpoint : String
  deriving DecidableEq, Repr

structure ConnectionData where
  did : String
  didDoc : DidDoc
  deriving DecidableEq, Repr

structure Request where
  id : String
  label : String
  connection : ConnectionData
  deriving DecidableEq, Repr

/-- A signature, by the key that made it and what it signs. -/
structure ConnectionSignature where
  signer : String
  connection : ConnectionData
  deriving DecidableEq, Repr

structure SignedResponse where
  id : String
  thread : Thread
  connectionSig : ConnectionSignature
  pleaseAck : Bool
  deriving DecidableEq, Repr

structure Response where
  id : String
  thread : Thread
  connection : ConnectionData
  pleaseAck : Bool
  deriving DecidableEq, Repr

inductive ProblemCode
  | requestProcessingError
  | responseProcessingError
  | other (code : String)
  deriving DecidableEq, Repr

/-- `ProblemReport` of v3/messages/connection/problem_report.rs. -/
structure ConnectionProblemReport where
  id : String
  problemCode : Option ProblemCode
  explain : Option String
  thread : Thread
  deriving DecidableEq, Repr

structure Ping where
  id : String
  responseRequested : Bool
  comment : Option String
  thread : Option Thread
  deriving DecidableEq, Repr

structure PingResponse where
  id : String
  thread : Thread
  deriving DecidableEq, Repr

structure Query where
  id : String
  query : Option String
  comment : Option String
  deriving DecidableEq, Repr

structure Disclose where
  id : String
  protocols : List String
  thread : Thread
  deriving DecidableEq, Repr

end Connection

section Issuance

structure CredentialOffer where
  id : String
  offersAttach : Attachments

structure CredentialProposal where
  id : String
  thread : Option Thread

structure CredentialRequest where
  id : String
  requestsAttach : Attachments
  thread : Thread

structure Credential where
  id : String
  credentialsAttach : Attachments
  thread : Thread
  pleaseAck : Bool

end Issuance

section Presentation

structure PresentationRequest where
  id : String
  comment : Option String
  requestPresentationsAttach : Attachments
  /-- The service of a request without connection. -/
  service : Option String

structure PresentationProposal where
  id : String
  /-- `PresentationPreview`. -/
  presentationProposal : String
  thread : Thread

structure Presentation where
  id : String
  comment : Option String
  presentationsAttach : Attachments
  thread : Thread
  pleaseAck : Bool

end Presentation

inductive A2AMessage
  | connectionInvitation (invitation : Invitation)
  | connectionRequest (request : Request)
  | connectionResponse (response : SignedResponse)
  | connectionProblemReport (problemReport : ConnectionProblemReport)
  | ping (ping : Ping)
  | pingResponse (pingResponse : PingResponse)
  | ack (ack : Ack)
  | commonProblemReport (problemReport : ProblemReport)
  | credentialProposal (proposal : CredentialProposal)
  | credentialOffer (offer : CredentialOffer)
  | credentialRequest (request : CredentialRequest)
  | credential (credential : Credential)
  | credentialAck (ack : Ack)
  | presentationProposal (proposal : PresentationProposal)
  | presentationRequest (request : PresentationRequest)
  | presentation (presentation : Presentation)
  | presentationAck (ack : Ack)
  | query (query : Query)
  | disclose (disclose : Disclose)
  /-- Forwards, basic messages and raw messages. -/
  | other (text : String)

/-- The messages of a mailbox with their uids, in the order in which the map is iterated. -/
abbrev Mailbox := List (String × A2AMessage)

end SimpleAsset.Vcx
