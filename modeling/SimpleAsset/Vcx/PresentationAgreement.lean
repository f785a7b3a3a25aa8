import SimpleAsset.Vcx.Presentation

/-! What a prover and a verifier agree on, over a network that delays, repeats, reorders and loses
messages. -/
namespace SimpleAsset.Vcx
open SimpleAsset.Library

section System

/-- The thread that a message names. -/
def A2AMessage.thread? : A2AMessage → Option Thread
  | .connectionResponse m => some m.thread
  | .connectionProblemReport m => some m.thread
  | .ping m => m.thread
  | .pingResponse m => some m.thread
  | .ack m => some m.thread
  | .commonProblemReport m => some m.thread
  | .credentialProposal m => m.thread
  | .credentialRequest m => some m.thread
  | .credential m => some m.thread
  | .credentialAck m => some m.thread
  | .presentationProposal m => some m.thread
  | .presentation m => some m.thread
  | .presentationAck m => some m.thread
  | .disclose m => some m.thread
  | _ => none

def A2AMessage.ofThread (message : A2AMessage) (id : String) : Bool :=
  message.thread?.any (·.isReply id)

/-- Both machines, everything that one has sent to the other so far, and the checks of the
verifier. -/
structure Exchange where
  verifier : Verifier.VerifierState
  prover : Option Prover.ProverSM
  toProver : List A2AMessage
  toVerifier : List A2AMessage
  validated : List (Presentation × Bool)

/-- A step of one of the machines, with what its calls give and how its sends end. A mailbox is what
is read of it. -/
inductive ExchangeStep
  | sendPresentationRequest (connectionHandle : ℕ) (calls : Verifier.Calls)
      (outcomes : List (SendOutcome VcxError))
  | verifierUpdates (messages : VcxResult Mailbox) (calls : Verifier.Calls)
      (outcomes : List (SendOutcome VcxError))
  | proverCreated (presentationRequest : PresentationRequest)
  | proverActs (action : Prover.Action) (calls : Prover.Calls)
      (outcomes : List (SendOutcome VcxError))
  | proverUpdates (messages : VcxResult Mailbox) (calls : Prover.Calls)
      (outcomes : List (SendOutcome VcxError))

def sentIn (events : List PresentationEvent) : List A2AMessage :=
  events.filterMap fun
    | .sent message => some message
    | .validated _ _ => none

def validatedIn (events : List PresentationEvent) : List (Presentation × Bool) :=
  events.filterMap fun
    | .sent _ => none
    | .validated presentation valid => some (presentation, valid)

namespace Exchange

def verifierDoes (x : Exchange)
    (r : VcxResult Verifier.VerifierState × List PresentationEvent) : Exchange :=
  { x with
    verifier := Sending.keep x.verifier r.1
    toProver := x.toProver ++ sentIn r.2
    validated := x.validated ++ validatedIn r.2 }

def proverDoes (x : Exchange) (p : Prover.ProverSM)
    (r : VcxResult Prover.ProverSM × List PresentationEvent) :
    Exchange :=
  { x with
    prover := some (Sending.keep p r.1)
    toVerifier := x.toVerifier ++ sentIn r.2 }

def next (x : Exchange) : ExchangeStep → Exchange
  | .sendPresentationRequest connectionHandle calls outcomes =>
    x.verifierDoes
      ((Verifier.step calls x.verifier (.sendPresentationRequest connectionHandle)).runOver
        outcomes)
  | .verifierUpdates messages calls outcomes =>
    x.verifierDoes ((Verifier.updateState calls x.verifier messages).runOver outcomes)
  | .proverCreated presentationRequest => { x with prover := some (.new presentationRequest) }
  | .proverActs action calls outcomes =>
    match x.prover with
    | none => x
    | some p => x.proverDoes p ((Prover.step calls p action.message).runOver outcomes)
  | .proverUpdates messages calls outcomes =>
    match x.prover with
    | none => x
    | some p => x.proverDoes p ((Prover.updateState calls p messages).runOver outcomes)

end Exchange

/-- The request that the verifier has sent. -/
def Verifier.VerifierState.request? : Verifier.VerifierState → Option PresentationRequest
  | .initiated _ => none
  | .presentationRequestSent state => some state.presentationRequest
  | .finished state => some state.presentationRequest

/-- A mailbox holds what was sent, and beyond that only messages of other threads. -/
def Authentic (sent : List A2AMessage) (threadId : String) (messages : VcxResult Mailbox) : Prop :=
  ∀ mailbox, messages = .ok mailbox → ∀ entry ∈ mailbox, entry.2 ∈ sent ∨
    ¬ entry.2.ofThread threadId

/-- Nothing of the thread is made up: not the request from which the prover is created, not the
messages read. -/
def NotForged (x : Exchange) : ExchangeStep → Prop
  | .sendPresentationRequest _ _ _ => True
  | .verifierUpdates messages _ _ =>
    ∀ request, x.verifier.request? = some request → Authentic x.toVerifier request.id messages
  | .proverCreated presentationRequest =>
    x.prover = none ∧ .presentationRequest presentationRequest ∈ x.toProver
  | .proverActs _ _ _ => True
  | .proverUpdates messages _ _ => ∀ p, x.prover = some p → Authentic x.toProver p.threadId messages

/-- An ack that the verifier sends is not delivered by a send that fails. -/
def AckAnswered (x : Exchange) : ExchangeStep → Prop
  | .verifierUpdates messages calls outcomes =>
    ∀ state mailbox uid presentation, x.verifier = .presentationRequestSent state →
      messages = .ok mailbox →
      Verifier.findMessageToHandle x.verifier mailbox = some (uid, .presentation presentation) →
      Verifier.validate calls state presentation = .ok true → presentation.pleaseAck = true →
        ∀ e rest, outcomes ≠ .unanswered e :: rest
  | _ => True

/-- The exchanges that can come about for this request in steps that are allowed. -/
inductive ReachableExchange (Allowed : Exchange → ExchangeStep → Prop)
    (data : PresentationRequestData) :
    Exchange → Prop
  | start : ReachableExchange Allowed data ⟨.initiated data, none, [], [], []⟩
  | next {x : Exchange} {step : ExchangeStep} (h : ReachableExchange Allowed data x)
      (hstep : NotForged x step)
    (hallowed : Allowed x step) : ReachableExchange Allowed data (x.next step)

/-- The verifier has checked the presentation, holds it and has found nothing wrong. -/
structure Accepted (x : Exchange) (presentation : Presentation) : Prop where
  validated : (presentation, true) ∈ x.validated
  holds : ∃ state, x.verifier = .finished state ∧ state.presentation = some presentation ∧
    state.revocationStatus = some .nonRevoked

structure PresentationAgreement (x : Exchange) : Prop where
  /-- What the prover has succeeded with is what the verifier has accepted. -/
  success : ∀ p state, x.prover = some p → p.state = .finished state → state.status = .success →
    Accepted x state.presentation
  /-- What the verifier holds is what the prover has sent in the thread. -/
  held : ∀ state presentation, x.verifier = .finished state →
    state.presentation = some presentation →
    .presentation presentation ∈ x.toVerifier ∧
    presentation.thread.isReply state.presentationRequest.id

end System

section Events

theorem sentIn_append (events events' : List PresentationEvent) :
    sentIn (events ++ events') = sentIn events ++ sentIn events' := List.filterMap_append

def A2AMessage.isAck : A2AMessage → Prop
  | .ack _ => True
  | .presentationAck _ => True
  | _ => False

def presentationsIn (messages : List A2AMessage) : List Presentation :=
  messages.filterMap fun
    | .presentation m => some m
    | _ => none

theorem presentationsIn_append (messages messages' : List A2AMessage) :
    presentationsIn (messages ++ messages') = presentationsIn messages ++
    presentationsIn messages' :=
  List.filterMap_append

theorem mem_presentationsIn {messages : List A2AMessage} {presentation : Presentation}
    (h : .presentation presentation ∈ messages) : presentation ∈ presentationsIn messages :=
  List.mem_filterMap.mpr ⟨_, h, rfl⟩

/-- What is found in a mailbox was picked from one of its messages. -/
theorem exists_of_findMessage {pick : A2AMessage → Option A2AMessage} {messages : Mailbox}
    {found : String × A2AMessage} (h : findMessage pick messages = some found) :
    ∃ entry ∈ messages, pick entry.2 = some found.2 := by
  obtain ⟨entry, hmem, hpick⟩ := List.exists_of_findSome?_eq_some h
  obtain ⟨message, hmessage, heq⟩ := Option.map_eq_some_iff.mp hpick
  refine ⟨entry, hmem, ?_⟩
  rw [hmessage, ← heq]

end Events

section Verifier
open Verifier
variable {calls : Verifier.Calls} {state : PresentationRequestSentState}
    {presentation : Presentation}
  {sent : List PresentationEvent}

theorem exec_verifyPresentation (outcomes : List (SendOutcome VcxError)) :
    (verifyPresentation calls state presentation).exec outcomes =
      match validate calls state presentation with
      | .error e => (.error e, [], outcomes)
      | .ok false => (.error (.fromMsg .invalidProof "Presentation verification failed"),
          [.validated presentation false], outcomes)
      | .ok true =>
        let (r, sent, rest) := (acknowledge calls state presentation).exec outcomes
        (r, .validated presentation true :: sent, rest) := by
  rw [verifyPresentation]
  cases validate calls state presentation with
  | error e => rfl
  | ok valid => cases valid <;> rfl

/-- A check that succeeds was one with the result true; one that fails has sent nothing. -/
theorem sent_verifyPresentation {outcomes : List (SendOutcome VcxError)}
    (hanswered : validate calls state presentation = .ok true → presentation.pleaseAck = true →
      ∀ e rest, outcomes ≠ .unanswered e :: rest) {r : VcxResult Unit}
        {rest : List (SendOutcome VcxError)}
    (h : (verifyPresentation calls state presentation).exec outcomes = (r, sent, rest)) :
    (r = .ok () ∧ (presentation, true) ∈ validatedIn sent) ∨ ∃ e, r = .error e ∧
      sentIn sent = [] := by
  rw [exec_verifyPresentation] at h
  cases hvalidate : validate calls state presentation with
  | error e =>
    rw [hvalidate] at h
    obtain ⟨rfl, rfl, -⟩ := h
    exact Or.inr ⟨e, rfl, rfl⟩
  | ok valid =>
    rw [hvalidate] at h hanswered
    cases valid with
    | false =>
      obtain ⟨rfl, rfl, -⟩ := h
      exact Or.inr ⟨_, rfl, rfl⟩
    | true =>
      simp only [acknowledge] at h
      by_cases hplease : presentation.pleaseAck = true
      · rw [if_pos hplease] at h
        rcases outcomes with _ | ⟨_ | e | e, outcomes⟩
        · obtain ⟨rfl, rfl, -⟩ := h
          exact Or.inl ⟨rfl, List.mem_cons_self⟩
        · obtain ⟨rfl, rfl, -⟩ := h
          exact Or.inl ⟨rfl, List.mem_cons_self⟩
        · obtain ⟨rfl, rfl, -⟩ := h
          exact Or.inr ⟨e, rfl, rfl⟩
        · exact absurd rfl (hanswered rfl hplease e outcomes)
      · rw [if_neg hplease] at h
        obtain ⟨rfl, rfl, -⟩ := h
        exact Or.inl ⟨rfl, List.mem_cons_self⟩

/-- What a step of the verifier can do: it sends no ack and comes to hold at most a presentation
that was given to it, with a fault; or it accepts a presentation that was given to it. -/
inductive VerifierMoves (given : PresentationRequest → Presentation → Prop) :
    VerifierState → VerifierState → List PresentationEvent → Prop
  | stays {v : VerifierState} {sent : List PresentationEvent}
      (hsent : ∀ m ∈ sentIn sent, ¬ m.isAck) :
    VerifierMoves given v v sent
  | requests {data : PresentationRequestData} {state : PresentationRequestSentState}
      {sent : List PresentationEvent}
    (hsent : ∀ m ∈ sentIn sent, ¬ m.isAck) : VerifierMoves given (.initiated data)
    (.presentationRequestSent state) sent
  | ends {state : PresentationRequestSentState} {problemReport : ProblemReport}
      {sent : List PresentationEvent}
    (hsent : ∀ m ∈ sentIn sent, ¬ m.isAck) :
    VerifierMoves given (.presentationRequestSent state)
    (.finished (state.failed problemReport)) sent
  | refuses {state : PresentationRequestSentState} {presentation : Presentation}
      {sent : List PresentationEvent}
    (hgiven : given state.presentationRequest presentation) (hsent : ∀ m ∈ sentIn sent, ¬ m.isAck) :
    VerifierMoves given (.presentationRequestSent state)
    (.finished (state.verified presentation .revoked)) sent
  | accepts {state : PresentationRequestSentState} {presentation : Presentation}
      {sent : List PresentationEvent}
    (hgiven : given state.presentationRequest presentation)
    (hvalidated : (presentation, true) ∈ validatedIn sent) :
    VerifierMoves given (.presentationRequestSent state)
    (.finished (state.verified presentation .nonRevoked)) sent

theorem not_isAck_of_nil {messages : List A2AMessage} (h : messages = []) (m : A2AMessage)
    (hm : m ∈ messages) :
    ¬ m.isAck := by
  rw [h] at hm
  exact absurd hm List.not_mem_nil

variable {given : PresentationRequest → Presentation → Prop} {r : VcxResult VerifierState}

theorem moves_pure {v : VerifierState} (h : (pure v : Presenting VerifierState).EndsAnyhow r sent) :
    VerifierMoves given v (Sending.keep v r) sent := by
  obtain ⟨rfl, rfl⟩ := Sending.ends_pure h
  exact .stays (not_isAck_of_nil rfl)

/-- A message that is no ack is sent, or nothing. -/
theorem ends_notify {s : VerifierState} {message : A2AMessage} (hmessage : ¬ message.isAck)
    (h : (do Presenting.sendMessage message; pure s : Presenting _).EndsAnyhow r sent) :
    (r = .ok s ∨ ∃ e, r = .error e) ∧ ∀ m ∈ sentIn sent, ¬ m.isAck := by
  have hone : ∀ m ∈ sentIn [PresentationEvent.sent message], ¬ m.isAck := by
    intro m hm
    rwa [List.mem_singleton.mp hm]
  rcases Sending.endsIn_send_pure h with ⟨hr, rfl⟩ | ⟨e, hr, rfl | ⟨rfl, -⟩⟩
  · exact ⟨Or.inl hr, hone⟩
  · exact ⟨Or.inr ⟨e, hr⟩, not_isAck_of_nil rfl⟩
  · exact ⟨Or.inr ⟨e, hr⟩, hone⟩

theorem moves_verifyPresentation {outcomes : List (SendOutcome VcxError)}
    (hanswered : validate calls state presentation = .ok true → presentation.pleaseAck = true →
      ∀ e rest, outcomes ≠ .unanswered e :: rest)
        (hgiven : given state.presentationRequest presentation)
    (h : (Verifier.step calls (.presentationRequestSent state)
      (.verifyPresentation presentation)).runOver outcomes = (r, sent)) :
    VerifierMoves given (.presentationRequestSent state)
      (Sending.keep (.presentationRequestSent state) r) sent := by
  rcases hexec : (verifyPresentation calls state presentation).exec outcomes
    with ⟨result, sent₁, rest⟩
  have hattempt : (verifyPresentation calls state presentation).attempt.exec outcomes =
      (.ok result, sent₁, rest) := by
    simp only [Sending.attempt, hexec]
  have hends := Sending.ends_runOver (conclude calls state presentation result) rest
  have hstep : (Verifier.step calls (.presentationRequestSent state)
      (.verifyPresentation presentation)).exec outcomes =
      _ := Sending.exec_bind_ok hattempt
  obtain ⟨rfl, rfl⟩ : r = ((conclude calls state presentation result).runOver rest).1 ∧
      sent = sent₁ ++ ((conclude calls state presentation result).runOver rest).2 := by
    rw [Sending.runOver, hstep] at h
    exact ⟨(Prod.mk.inj h).1.symm, (Prod.mk.inj h).2.symm⟩
  generalize ((conclude calls state presentation result).runOver rest).1 = r at hends ⊢
  generalize ((conclude calls state presentation result).runOver rest).2 = sent₂ at hends ⊢
  rcases sent_verifyPresentation hanswered hexec with ⟨rfl, hvalidated⟩ | ⟨err, rfl, hnone⟩
  · obtain ⟨rfl, rfl⟩ := Sending.ends_pure hends
    rw [List.append_nil]
    exact .accepts hgiven hvalidated
  · -- the failed check has sent nothing, so only the report counts
    have hsent : ∀ m ∈ sentIn (sent₁ ++ sent₂), m ∈ sentIn sent₂ := by
      intro m hm
      rwa [sentIn_append, hnone, List.nil_append] at hm
    cases hkind : err.kind with
    | invalidProof =>
      simp only [conclude, hkind] at hends
      obtain ⟨hr, hack⟩ := ends_notify id hends
      have hack' : ∀ m ∈ sentIn (sent₁ ++ sent₂), ¬ m.isAck := fun m hm => hack m (hsent m hm)
      rcases hr with rfl | ⟨e, rfl⟩
      · exact .refuses hgiven hack'
      · exact .stays hack'
    | _ =>
      simp only [conclude, hkind] at hends
      obtain ⟨hr, hack⟩ := ends_notify id hends
      have hack' : ∀ m ∈ sentIn (sent₁ ++ sent₂), ¬ m.isAck := fun m hm => hack m (hsent m hm)
      rcases hr with rfl | ⟨e, rfl⟩
      · exact .ends hack'
      · exact .stays hack'

/-- A message of the thread is handled. -/
theorem moves_ofMessage {message : A2AMessage} {outcomes : List (SendOutcome VcxError)}
    (hanswered : ∀ presentation, message = .presentation presentation →
      validate calls state presentation = .ok true → presentation.pleaseAck = true →
        ∀ e rest, outcomes ≠ .unanswered e :: rest)
    (hgiven : ∀ presentation, message = .presentation presentation →
      given state.presentationRequest presentation)
    (h : (Verifier.step calls (.presentationRequestSent state) (.ofMessage message)).runOver
      outcomes = (r, sent)) :
    VerifierMoves given (.presentationRequestSent state)
      (Sending.keep (.presentationRequestSent state) r) sent := by
  have hends : (Verifier.step calls (.presentationRequestSent state)
      (.ofMessage message)).EndsAnyhow r sent :=
    ⟨outcomes, fun _ _ => trivial, h⟩
  cases message with
  | presentation presentation =>
    exact moves_verifyPresentation (hanswered presentation rfl) (hgiven presentation rfl) h
  | presentationProposal proposal =>
    obtain ⟨hr, hack⟩ := ends_notify id hends
    rcases hr with rfl | ⟨e, rfl⟩
    · exact .ends hack
    · exact .stays hack
  | commonProblemReport report =>
    obtain ⟨rfl, rfl⟩ := Sending.ends_pure hends
    exact .ends (not_isAck_of_nil rfl)
  | _ => exact moves_pure hends

/-- The verifier takes messages as they are, and only those of its thread. -/
theorem eq_of_picks {message message' : A2AMessage}
    (h : Verifier.picks (.presentationRequestSent state) message = some message') :
    message' = message ∧ message.ofThread state.presentationRequest.id := by
  cases message with
  | presentation m =>
    obtain ⟨hthread, hm⟩ := Option.ite_none_right_eq_some.mp h
    exact ⟨(Option.some.inj hm).symm, hthread⟩
  | presentationProposal m =>
    obtain ⟨hthread, hm⟩ := Option.ite_none_right_eq_some.mp h
    exact ⟨(Option.some.inj hm).symm, hthread⟩
  | commonProblemReport m =>
    obtain ⟨hthread, hm⟩ := Option.ite_none_right_eq_some.mp h
    exact ⟨(Option.some.inj hm).symm, hthread⟩
  | _ => exact nomatch h

theorem moves_updateState {v : VerifierState} {toVerifier : List A2AMessage}
    {messages : VcxResult Mailbox} {outcomes : List (SendOutcome VcxError)}
    (hanswered : ∀ state mailbox uid presentation, v = .presentationRequestSent state →
      messages = .ok mailbox →
      Verifier.findMessageToHandle v mailbox = some (uid, .presentation presentation) →
      validate calls state presentation = .ok true → presentation.pleaseAck = true →
        ∀ e rest, outcomes ≠ .unanswered e :: rest)
    (hauthentic : ∀ request, v.request? = some request → Authentic toVerifier request.id messages)
    (h : (Verifier.updateState calls v messages).runOver outcomes = (r, sent)) :
    VerifierMoves (fun request presentation =>
      .presentation presentation ∈ toVerifier ∧ presentation.thread.isReply request.id) v
        (Sending.keep v r) sent := by
  have hends : (Verifier.updateState calls v messages).EndsAnyhow r sent :=
    ⟨outcomes, fun _ _ => trivial, h⟩
  cases v with
  | initiated data => exact moves_pure hends
  | finished state => exact moves_pure hends
  | presentationRequestSent state =>
    cases messages with
    | error e =>
      obtain ⟨rfl, rfl⟩ := Prod.mk.inj h
      exact .stays (not_isAck_of_nil rfl)
    | ok mailbox =>
      rw [Verifier.updateState, Sending.runOver_ofExcept_bind] at h
      cases hfound : Verifier.findMessageToHandle (.presentationRequestSent state) mailbox with
      | none =>
        rw [hfound] at h
        exact moves_pure ⟨outcomes, fun _ _ => trivial, h⟩
      | some found =>
        rw [hfound] at h
        obtain ⟨entry, hentry, hpick⟩ := exists_of_findMessage hfound
        obtain ⟨hsame, hthread⟩ := eq_of_picks hpick
        refine moves_ofMessage ?_ ?_ h
        · intro presentation hpresentation
          exact hanswered state mailbox found.1 presentation rfl rfl
            (by rw [hfound, ← hpresentation])
        · intro presentation hpresentation
          have heq : entry.2 = .presentation presentation := hsame.symm.trans hpresentation
          rcases hauthentic _ rfl mailbox rfl entry hentry with hmem | hother
          · rw [heq] at hmem hthread
            exact ⟨hmem, hthread⟩
          · exact absurd hthread hother

theorem moves_sendPresentationRequest {v : VerifierState} {connectionHandle : ℕ}
    (h : (Verifier.step calls v (.sendPresentationRequest connectionHandle)).EndsAnyhow r sent) :
    VerifierMoves given v (Sending.keep v r) sent := by
  cases v with
  | presentationRequestSent state => exact moves_pure h
  | finished state => exact moves_pure h
  | initiated data =>
    rcases Sending.ends_bind h
      with ⟨request, sent₁, sent₂, hrequest, hrest, rfl⟩ | ⟨e, hrequest, rfl⟩
    · obtain ⟨-, rfl⟩ := Sending.ends_ofExcept hrequest
      obtain ⟨hr, hack⟩ := ends_notify id hrest
      rcases hr with rfl | ⟨e, rfl⟩
      · exact .requests hack
      · exact .stays hack
    · obtain ⟨-, rfl⟩ := Sending.ends_ofExcept hrequest
      exact .stays (not_isAck_of_nil rfl)

end Verifier

section Prover
open Prover
variable {calls : Prover.Calls} {p : ProverSM} {sent : List PresentationEvent} {acked : Prop}
  {r : VcxResult ProverSM}

/-- The prover has not sent its presentation, and may still do so. -/
def BeforeSending (p : ProverSM) : Prop :=
  match p.state with
  | .initiated _ => True
  | .presentationPrepared _ => True
  | .presentationPreparationFailed _ => True
  | .presentationSent _ => False
  | .finished _ => False

/-- What a step of the prover can do. It succeeds only when an ack is there. -/
inductive ProverMoves (acked : Prop) : ProverSM → ProverSM → List PresentationEvent → Prop
  | stays {p : ProverSM} {sent : List PresentationEvent}
      (hsent : presentationsIn (sentIn sent) = []) :
    ProverMoves acked p p sent
  | prepares {p p' : ProverSM} {presentationRequest : PresentationRequest}
      (hbefore : p.state = .initiated presentationRequest)
    (hafter : BeforeSending p') : ProverMoves acked p p' []
  /-- A presentation is delivered, and the prover does not know. -/
  | delivers {p : ProverSM} {state : PresentationPreparedState}
      (hbefore : p.state = .presentationPrepared state) :
    ProverMoves acked p p [.sent (.presentation state.presentation)]
  | sends {p p' : ProverSM} {state : PresentationPreparedState} {state' : PresentationSentState}
    (hbefore : p.state = .presentationPrepared state) (hafter : p'.state = .presentationSent state')
    (hpresentation : state'.presentation = state.presentation) :
    ProverMoves acked p p' [.sent (.presentation state.presentation)]
  | leaves {p p' : ProverSM} {state : Prover.FinishedState} {sent : List PresentationEvent}
    (hafter : p'.state = .finished state) (hstatus : state.status ≠ .success) :
    ProverMoves acked p p' sent
  | succeeds {p p' : ProverSM} {state : PresentationSentState} {state' : Prover.FinishedState}
      (hacked : acked)
    (hbefore : p.state = .presentationSent state) (hafter : p'.state = .finished state')
    (hpresentation : state'.presentation = state.presentation) : ProverMoves acked p p' []

theorem moves_pure_prover (h : (pure p : Presenting ProverSM).EndsAnyhow r sent) :
    ProverMoves acked p (Sending.keep p r) sent := by
  obtain ⟨rfl, rfl⟩ := Sending.ends_pure h
  exact .stays rfl

/-- The prover tells something and leaves. -/
theorem moves_leave {message : A2AMessage} {state : Prover.FinishedState}
    (h : (do
        Presenting.sendMessage message
        pure (p.moveTo (.finished state)) : Presenting _).EndsAnyhow r sent)
    (hmessage : presentationsIn [message] = []) (hstatus : state.status ≠ .success) :
    ProverMoves acked p (Sending.keep p r) sent := by
  rcases Sending.endsIn_send_pure h with ⟨rfl, rfl⟩ | ⟨e, rfl, rfl | ⟨rfl, -⟩⟩
  · exact .leaves rfl hstatus
  · exact .stays rfl
  · exact .stays hmessage

theorem moves_sendPrepared {state : PresentationPreparedState} {connectionHandle : ℕ}
    (hstate : p.state = .presentationPrepared state)
    (h : (sendPrepared calls p state connectionHandle).EndsAnyhow r sent) :
    ProverMoves acked p (Sending.keep p r) sent := by
  unfold sendPrepared at h
  cases hservice : state.presentationRequest.service with
  | none =>
    simp only [hservice] at h
    rcases Sending.endsIn_send_pure h with ⟨rfl, rfl⟩ | ⟨e, rfl, rfl | ⟨rfl, -⟩⟩
    · exact .sends hstate rfl rfl
    · exact .stays rfl
    · exact .delivers hstate
  | some service =>
    simp only [hservice] at h
    rcases Sending.endsIn_send_pure h with ⟨rfl, rfl⟩ | ⟨e, rfl, rfl | ⟨rfl, -⟩⟩
    · exact .leaves rfl Status.noConfusion
    · exact .stays rfl
    · exact .delivers hstate

theorem beforeSending_prepare {presentationRequest : PresentationRequest}
    (result : VcxResult String) :
    BeforeSending (prepare calls p presentationRequest result) := by
  cases result with
  | ok presentation => exact trivial
  | error err => exact trivial

/-- What the user asks for never leads to a success. -/
theorem moves_action {action : Action}
    (h : (Prover.step calls p action.message).EndsAnyhow r sent) :
    ProverMoves acked p (Sending.keep p r) sent := by
  obtain ⟨threadId, state⟩ := p
  cases state with
  | initiated presentationRequest =>
    cases action with
    | setPresentation presentation =>
      obtain ⟨rfl, rfl⟩ := Sending.ends_pure h
      exact .prepares rfl trivial
    | generatePresentation credentials selfAttestedAttrs =>
      obtain ⟨rfl, rfl⟩ := Sending.ends_pure h
      exact .prepares rfl (beforeSending_prepare _)
    | sendPresentation connectionHandle => exact moves_pure_prover h
    | rejectPresentationRequest connectionHandle reason =>
      exact moves_leave h rfl Status.noConfusion
    | proposePresentation connectionHandle preview => exact moves_leave h rfl Status.noConfusion
  | presentationPrepared state =>
    cases action with
    | sendPresentation connectionHandle => exact moves_sendPrepared rfl h
    | rejectPresentationRequest connectionHandle reason =>
      exact moves_leave h rfl Status.noConfusion
    | proposePresentation connectionHandle preview => exact moves_leave h rfl Status.noConfusion
    | _ => exact moves_pure_prover h
  | presentationPreparationFailed state =>
    cases action with
    | sendPresentation connectionHandle => exact moves_leave h rfl Status.noConfusion
    | _ => exact moves_pure_prover h
  | presentationSent state =>
    cases action with
    | rejectPresentationRequest connectionHandle reason =>
      obtain ⟨rfl, rfl⟩ := Sending.ends_ofExcept h
      exact .stays rfl
    | _ => exact moves_pure_prover h
  | finished state => exact moves_pure_prover h

/-- The prover takes only messages of its thread, and acks only for what they are. -/
theorem isAck_of_picks {message message' : A2AMessage}
    (h : Prover.picks p message = some message') :
    message.ofThread p.threadId ∧ (message'.isAck → message.isAck) := by
  obtain ⟨threadId, state⟩ := p
  cases state with
  | presentationSent state =>
    cases message with
    | ack m =>
      obtain ⟨hthread, -⟩ := Option.ite_none_right_eq_some.mp h
      exact ⟨hthread, fun _ => trivial⟩
    | presentationAck m =>
      obtain ⟨hthread, -⟩ := Option.ite_none_right_eq_some.mp h
      exact ⟨hthread, fun _ => trivial⟩
    | commonProblemReport m =>
      obtain ⟨hthread, hm⟩ := Option.ite_none_right_eq_some.mp h
      rw [← Option.some.inj hm]
      exact ⟨hthread, id⟩
    | _ => exact nomatch h
  | _ => exact nomatch h

theorem moves_ofMessage_prover {state : PresentationSentState}
    (hstate : p.state = .presentationSent state)
    {message : A2AMessage} (hacked : message.isAck → acked)
    (h : (Prover.step calls p (.ofMessage message)).EndsAnyhow r sent) :
    ProverMoves acked p (Sending.keep p r) sent := by
  obtain ⟨threadId, _⟩ := p
  obtain rfl := hstate
  cases message with
  | ack m =>
    obtain ⟨rfl, rfl⟩ := Sending.ends_pure h
    exact .succeeds (hacked trivial) rfl rfl rfl
  | presentationAck m =>
    obtain ⟨rfl, rfl⟩ := Sending.ends_pure h
    exact .succeeds (hacked trivial) rfl rfl rfl
  | commonProblemReport m =>
    obtain ⟨rfl, rfl⟩ := Sending.ends_pure h
    exact .leaves rfl nofun
  | _ => exact moves_pure_prover h

theorem moves_updateState_prover {toProver : List A2AMessage} {messages : VcxResult Mailbox}
    (hauthentic : Authentic toProver p.threadId messages)
    (h : (Prover.updateState calls p messages).EndsAnyhow r sent) :
    ProverMoves (∃ m ∈ toProver, m.isAck) p (Sending.keep p r) sent := by
  unfold Prover.updateState at h
  cases hstate : p.state with
  | initiated presentationRequest =>
    rw [hstate] at h
    exact moves_pure_prover h
  | presentationPrepared state =>
    rw [hstate] at h
    obtain ⟨rfl, rfl⟩ := Sending.ends_ofExcept h
    exact .stays rfl
  | presentationPreparationFailed state =>
    rw [hstate] at h
    obtain ⟨rfl, rfl⟩ := Sending.ends_ofExcept h
    exact .stays rfl
  | finished state =>
    rw [hstate] at h
    exact moves_pure_prover h
  | presentationSent state =>
    rw [hstate] at h
    rcases Sending.ends_bind h
      with ⟨mailbox, sent₁, sent₂, hmailbox, hrest, rfl⟩ | ⟨e, hmailbox, rfl⟩
    · obtain ⟨hmessages, rfl⟩ := Sending.ends_ofExcept hmailbox
      cases hfound : Prover.findMessageToHandle p mailbox with
      | none =>
        rw [hfound] at hrest
        exact moves_pure_prover hrest
      | some found =>
        rw [hfound] at hrest
        obtain ⟨entry, hentry, hpick⟩ := exists_of_findMessage hfound
        obtain ⟨hthread, hack⟩ := isAck_of_picks hpick
        refine moves_ofMessage_prover hstate ?_ hrest
        intro hfoundAck
        rcases hauthentic mailbox hmessages.symm entry hentry with hmem | hother
        · exact ⟨entry.2, hmem, hack hfoundAck⟩
        · exact absurd hthread hother
    · obtain ⟨-, rfl⟩ := Sending.ends_ofExcept hmailbox
      exact .stays rfl

end Prover

section Invariant
variable {x x' : Exchange} {presentation : Presentation}

/-- The presentations that the prover has sent: none before it has prepared one, and only that one
until it succeeds. -/
def Presented : Option Prover.ProverSM → List Presentation → Prop
  | none, sent => sent = []
  | some p, sent =>
    match p.state with
    | .presentationPrepared state => ∀ presentation ∈ sent, presentation = state.presentation
    | .presentationSent state => ∀ presentation ∈ sent, presentation = state.presentation
    | .finished state => state.status = .success →
        ∀ presentation ∈ sent, presentation = state.presentation
    | _ => sent = []

structure ExchangeInvariant (x : Exchange) : Prop where
  /-- An ack is sent only by a verifier that has accepted what the prover has sent. -/
  acked : ∀ m ∈ x.toProver, m.isAck → ∃ presentation, Accepted x presentation ∧
    .presentation presentation ∈ x.toVerifier
  presented : Presented x.prover (presentationsIn x.toVerifier)
  agreement : PresentationAgreement x

theorem presented_nil {p : Prover.ProverSM} (hp : BeforeSending p) : Presented (some p) [] := by
  obtain ⟨threadId, state⟩ := p
  cases state with
  | presentationPrepared state => exact fun _ h => absurd h List.not_mem_nil
  | presentationSent state => exact hp.elim
  | finished state => exact hp.elim
  | _ => rfl

theorem Accepted.mono (h : Accepted x presentation) (hverifier : x'.verifier = x.verifier)
    (hvalidated : x.validated ⊆ x'.validated) : Accepted x' presentation := by
  obtain ⟨state, hstate, hholds⟩ := h.holds
  exact ⟨hvalidated h.validated, state, hverifier.trans hstate, hholds⟩

/-- What the prover does can change nothing about what is accepted. -/
theorem accepted_proverDoes {p : Prover.ProverSM}
    {r : VcxResult Prover.ProverSM × List PresentationEvent}
    (h : Accepted x presentation) : Accepted (x.proverDoes p r) presentation :=
  h.mono rfl (List.Subset.refl _)

/-- Nothing is accepted before the verifier has ended. -/
theorem Accepted.ne_finished (h : Accepted x presentation)
    (hverifier : ∀ state, x.verifier ≠ .finished state) :
    False := by
  obtain ⟨state, hstate, -⟩ := h.holds
  exact hverifier state hstate

theorem ExchangeInvariant.no_ack (h : ExchangeInvariant x)
    (hverifier : ∀ state, x.verifier ≠ .finished state)
    (m : A2AMessage) (hm : m ∈ x.toProver) : ¬ m.isAck := by
  intro hack
  obtain ⟨presentation, haccepted, -⟩ := h.acked m hm hack
  exact haccepted.ne_finished hverifier

/-- A verifier that goes on without an ack is not finished before, and what it then holds was given
to it. -/
theorem ExchangeInvariant.verifierGoesOn (h : ExchangeInvariant x) {v : Verifier.VerifierState}
    {sent : List PresentationEvent} (hverifier : ∀ state, x.verifier ≠ .finished state)
    (hsent : ∀ m ∈ sentIn sent, ¬ m.isAck)
    (hheld : ∀ state presentation, v = .finished state → state.presentation = some presentation →
      .presentation presentation ∈ x.toVerifier ∧
        presentation.thread.isReply state.presentationRequest.id) :
    ExchangeInvariant (x.verifierDoes (.ok v, sent)) where
  acked m hm hack := by
    rcases List.mem_append.mp hm with hm | hm
    · exact absurd hack (h.no_ack hverifier m hm)
    · exact absurd hack (hsent m hm)
  presented := h.presented
  agreement := ⟨fun p state hp hstate hstatus =>
    ((h.agreement.success p state hp hstate hstatus).ne_finished hverifier).elim, hheld⟩

theorem ExchangeInvariant.verifierStays (h : ExchangeInvariant x) {sent : List PresentationEvent}
    (hsent : ∀ m ∈ sentIn sent, ¬ m.isAck) :
    ExchangeInvariant (x.verifierDoes (.ok x.verifier, sent)) where
  acked m hm hack := by
    rcases List.mem_append.mp hm with hm | hm
    · obtain ⟨presentation, haccepted, hmem⟩ := h.acked m hm hack
      exact ⟨presentation, haccepted.mono rfl (List.subset_append_left _ _), hmem⟩
    · exact absurd hack (hsent m hm)
  presented := h.presented
  agreement := ⟨fun p state hp hstate hstatus =>
    (h.agreement.success p state hp hstate hstatus).mono rfl (List.subset_append_left _ _),
      h.agreement.held⟩

theorem ExchangeInvariant.verifierAccepts (h : ExchangeInvariant x)
    {state : Verifier.PresentationRequestSentState}
    {sent : List PresentationEvent} (hverifier : x.verifier = .presentationRequestSent state)
    (hgiven : .presentation presentation ∈ x.toVerifier ∧
      presentation.thread.isReply state.presentationRequest.id)
    (hvalidated : (presentation, true) ∈ validatedIn sent) :
    ExchangeInvariant
      (x.verifierDoes (.ok (.finished (state.verified presentation .nonRevoked)), sent)) where
  acked m hm hack :=
    ⟨presentation, ⟨List.mem_append_right _ hvalidated, _, rfl, rfl, rfl⟩, hgiven.1⟩
  presented := h.presented
  agreement := by
    have hbefore : ∀ state, x.verifier ≠ .finished state := by
      intro state' hfinished
      exact Verifier.VerifierState.noConfusion (hverifier.symm.trans hfinished)
    refine ⟨?_, ?_⟩
    · intro p state hp hstate hstatus
      exact ((h.agreement.success p state hp hstate hstatus).ne_finished hbefore).elim
    · intro state' presentation' hfinished hholds
      rw [← Verifier.VerifierState.finished.inj hfinished] at hholds ⊢
      rw [← Option.some.inj hholds]
      exact hgiven

theorem ExchangeInvariant.verifierMoves (h : ExchangeInvariant x) {v v' : Verifier.VerifierState}
    {sent : List PresentationEvent} (hv : x.verifier = v)
    (hmoves : VerifierMoves (fun request presentation =>
      .presentation presentation ∈ x.toVerifier ∧ presentation.thread.isReply request.id)
        v v' sent) :
    ExchangeInvariant (x.verifierDoes (.ok v', sent)) := by
  cases hmoves with
  | stays hsent =>
    rw [← hv]
    exact h.verifierStays hsent
  | requests hsent =>
    refine h.verifierGoesOn ?_ hsent ?_
    · intro state hstate
      exact Verifier.VerifierState.noConfusion (hv.symm.trans hstate)
    · intro state presentation hstate
      exact Verifier.VerifierState.noConfusion hstate
  | ends hsent =>
    refine h.verifierGoesOn ?_ hsent ?_
    · intro state hstate
      exact Verifier.VerifierState.noConfusion (hv.symm.trans hstate)
    · intro state presentation hstate hholds
      rw [← Verifier.VerifierState.finished.inj hstate] at hholds
      exact nomatch hholds
  | refuses hgiven hsent =>
    refine h.verifierGoesOn ?_ hsent ?_
    · intro state hstate
      exact Verifier.VerifierState.noConfusion (hv.symm.trans hstate)
    · intro state presentation hstate hholds
      rw [← Verifier.VerifierState.finished.inj hstate] at hholds ⊢
      rw [← Option.some.inj hholds]
      exact hgiven
  | accepts hgiven hvalidated => exact h.verifierAccepts hv hgiven hvalidated

/-- What the prover does keeps what holds of the verifier; what is left is what it has sent and its
own success. -/
theorem ExchangeInvariant.proverDoes (h : ExchangeInvariant x) {p p' : Prover.ProverSM}
    {sent : List PresentationEvent}
    (hpresented : Presented (some p') (presentationsIn (x.toVerifier ++ sentIn sent)))
    (hsuccess : ∀ state, p'.state = .finished state → state.status = .success →
      Accepted x state.presentation) :
    ExchangeInvariant (x.proverDoes p (.ok p', sent)) where
  acked m hm hack := by
    obtain ⟨presentation, haccepted, hmem⟩ := h.acked m hm hack
    exact ⟨presentation, accepted_proverDoes haccepted, List.mem_append_left _ hmem⟩
  presented := hpresented
  agreement := by
    refine ⟨?_, ?_⟩
    · intro p₁ state hp hstate hstatus
      obtain rfl := Option.some.inj hp
      exact accepted_proverDoes (hsuccess state hstate hstatus)
    · intro state presentation hstate hholds
      obtain ⟨hmem, hthread⟩ := h.agreement.held state presentation hstate hholds
      exact ⟨List.mem_append_left _ hmem, hthread⟩

theorem ExchangeInvariant.proverMoves (h : ExchangeInvariant x) {p p' : Prover.ProverSM}
    {sent : List PresentationEvent} (hp : x.prover = some p)
    (hmoves : ProverMoves (∃ m ∈ x.toProver, m.isAck) p p' sent) :
    ExchangeInvariant (x.proverDoes p (.ok p', sent)) := by
  have hpresented := h.presented
  rw [hp] at hpresented
  cases hmoves with
  | stays hsent =>
    apply h.proverDoes
    · rwa [presentationsIn_append, hsent, List.append_nil]
    · intro state hstate hstatus
      exact h.agreement.success p state hp hstate hstatus
  | prepares hbefore hafter =>
    rw [Presented, hbefore] at hpresented
    apply h.proverDoes
    · rw [sentIn, List.filterMap_nil, List.append_nil, hpresented]
      exact presented_nil hafter
    · intro state hstate _
      rw [BeforeSending, hstate] at hafter
      exact hafter.elim
  | delivers hbefore =>
    rw [Presented, hbefore] at hpresented
    apply h.proverDoes
    · rw [presentationsIn_append, Presented, hbefore]
      exact List.forall_mem_append.mpr ⟨hpresented, by simp [sentIn, presentationsIn]⟩
    · intro state hstate _
      exact Prover.ProverState.noConfusion (hbefore.symm.trans hstate)
  | sends hbefore hafter hpresentation =>
    rw [Presented, hbefore] at hpresented
    apply h.proverDoes
    · rw [presentationsIn_append, Presented, hafter]
      refine List.forall_mem_append.mpr ⟨?_, by simp [sentIn, presentationsIn, hpresentation]⟩
      exact fun presentation hmem => (hpresented presentation hmem).trans hpresentation.symm
    · intro state hstate _
      exact Prover.ProverState.noConfusion (hafter.symm.trans hstate)
  | leaves hafter hstatus =>
    apply h.proverDoes
    · rw [Presented, hafter]
      exact fun hsuccess => absurd hsuccess hstatus
    · intro state hstate hsuccess
      rw [← Prover.ProverState.finished.inj (hafter.symm.trans hstate)] at hsuccess
      exact absurd hsuccess hstatus
  | succeeds hacked hbefore hafter hpresentation =>
    -- the prover has sent one presentation only, so that is the one which the verifier has accepted
    rw [Presented, hbefore] at hpresented
    apply h.proverDoes
    · rw [sentIn, List.filterMap_nil, List.append_nil, Presented, hafter]
      intro _
      rw [hpresentation]
      exact hpresented
    · intro state hstate _
      obtain ⟨m, hm, hack⟩ := hacked
      obtain ⟨presentation, haccepted, hmem⟩ := h.acked m hm hack
      rw [← Prover.ProverState.finished.inj (hafter.symm.trans hstate), hpresentation,
        ← hpresented presentation (mem_presentationsIn hmem)]
      exact haccepted

theorem exchangeInvariant_start (data : PresentationRequestData) :
    ExchangeInvariant ⟨.initiated data, none, [], [], []⟩ where
  acked m hm := absurd hm List.not_mem_nil
  presented := rfl
  agreement := by
    refine ⟨?_, ?_⟩
    · intro p state hp
      exact nomatch hp
    · intro state presentation hstate
      exact Verifier.VerifierState.noConfusion hstate

theorem ExchangeInvariant.next (h : ExchangeInvariant x) {step : ExchangeStep}
    (hstep : NotForged x step)
    (hanswered : AckAnswered x step) : ExchangeInvariant (x.next step) := by
  cases step with
  | sendPresentationRequest connectionHandle calls outcomes =>
    exact h.verifierMoves rfl (moves_sendPresentationRequest (Sending.ends_runOver _ outcomes))
  | verifierUpdates messages calls outcomes =>
    exact h.verifierMoves rfl (moves_updateState hanswered hstep rfl)
  | proverCreated presentationRequest =>
    have hpresented := h.presented
    rw [hstep.1] at hpresented
    refine ⟨?_, hpresented, ?_, h.agreement.held⟩
    · intro m hm hack
      obtain ⟨presentation, haccepted, hmem⟩ := h.acked m hm hack
      exact ⟨presentation, haccepted.mono rfl (List.Subset.refl _), hmem⟩
    · intro p state hp hstate
      obtain rfl := Option.some.inj hp
      exact Prover.ProverState.noConfusion hstate
  | proverActs action calls outcomes =>
    cases hp : x.prover with
    | none =>
      rw [Exchange.next, hp]
      exact h
    | some p =>
      rw [Exchange.next, hp]
      exact h.proverMoves hp (moves_action (Sending.ends_runOver _ outcomes))
  | proverUpdates messages calls outcomes =>
    cases hp : x.prover with
    | none =>
      rw [Exchange.next, hp]
      exact h
    | some p =>
      rw [Exchange.next, hp]
      exact h.proverMoves hp
        (moves_updateState_prover (hstep p hp) (Sending.ends_runOver _ outcomes))

end Invariant

section Agreement
variable {data : PresentationRequestData}

theorem ReachableExchange.invariant {x : Exchange} (h : ReachableExchange AckAnswered data x) :
    ExchangeInvariant x := by
  induction h with
  | start => exact exchangeInvariant_start data
  | next h hstep hanswered ih => exact ih.next hstep hanswered

/-- In every exchange in which no ack is delivered by a send that fails, what the prover has
succeeded with is what the verifier has checked, accepted and holds, and what the verifier holds is
what the prover has sent. -/
theorem presentation_agreement_of_answered {x : Exchange}
    (h : ReachableExchange AckAnswered data x) :
    PresentationAgreement x := h.invariant.agreement

end Agreement

section Sample

def sampleData : PresentationRequestData := ⟨"age", "proof request"⟩

/-- Every call of the verifier succeeds, and every proof is valid. -/
def verifierCalls : Verifier.Calls where
  newId n := if n = 0 then "v0" else "v1"
  getPwDid _ := .ok "did"
  getTheirPwVerkey _ := .ok "verkey"
  setFormatVersionForDid data _ _ := .ok data
  institutionName := .ok "Bank"
  validateIndyProof _ _ := .ok true

def proverCalls : Prover.Calls where
  newId := "p0"
  generateIndyProof _ _ _ := .ok "proof"

def sampleRequest : PresentationRequest :=
  ⟨"v0", some "Bank wants you to share age", ⟨.ok "proof request"⟩, none⟩

def samplePresentation : Presentation := ⟨"p0", none, ⟨.ok "proof"⟩, .ofId "v0", true⟩

def sampleAck : A2AMessage := .presentationAck ⟨"v0", .ofId "v0"⟩

def noAnswer : SendOutcome VcxError :=
  .unanswered (.fromMsg (.other "Message failed in post") "could not read response")

/-- Whether the presentation was delivered is not known at the first attempt, and it is sent again;
the verifier reads it once, and its sends end in this way. -/
def presenting (acking : List (SendOutcome VcxError)) : List ExchangeStep :=
  [.sendPresentationRequest 1 verifierCalls [], .proverCreated sampleRequest,
    .proverActs (.generatePresentation "credentials" "attrs") proverCalls [],
    .proverActs (.sendPresentation 1) proverCalls [noAnswer],
    .proverActs (.sendPresentation 1) proverCalls [],
    .verifierUpdates (.ok [("1", .presentation samplePresentation)]) verifierCalls acking,
    .proverUpdates (.ok [("2", sampleAck)]) proverCalls []]

def presentedExchange (acking : List (SendOutcome VcxError)) : Exchange :=
  (presenting acking).foldl Exchange.next ⟨.initiated sampleData, none, [], [], []⟩

/-- A mailbox with a single message that was sent. -/
theorem authentic_single {sent : List A2AMessage} {message : A2AMessage} (h : message ∈ sent)
    (threadId uid : String) :
    Authentic sent threadId (.ok [(uid, message)]) := by
  intro mailbox hmailbox entry hentry
  rw [← Except.ok.inj hmailbox] at hentry
  rw [List.mem_singleton.mp hentry]
  exact Or.inl h

theorem reachable_presentedExchange {Allowed : Exchange → ExchangeStep → Prop}
    {acking : List (SendOutcome VcxError)}
    (hacking : sampleAck ∈ (presentedExchange acking).toProver)
    (hallowed : ∀ x step, step ∈ presenting acking → Allowed x step) :
    ReachableExchange Allowed sampleData (presentedExchange acking) := by
  have hallowed' : ∀ step ∈ presenting acking, ∀ x, Allowed x step :=
    fun step hstep x => hallowed x step hstep
  simp only [presenting, List.forall_mem_cons] at hallowed'
  obtain ⟨hrequest, hcreate, hprepare, hfirst, hsecond, hread, hend, -⟩ := hallowed'
  have hstart : ReachableExchange Allowed sampleData _ := .start
  have hrequested := hstart.next
    (show NotForged _ (.sendPresentationRequest 1 verifierCalls []) from trivial) (hrequest _)
  have hcreated :=
    hrequested.next (show NotForged _ (.proverCreated sampleRequest) from ⟨rfl, List.mem_cons_self⟩)
    (hcreate _)
  have hprepared := hcreated.next
    (show NotForged _ (.proverActs (.generatePresentation "credentials" "attrs") proverCalls [])
      from trivial)
    (hprepare _)
  have hfailed := hprepared.next
    (show NotForged _ (.proverActs (.sendPresentation 1) proverCalls [noAnswer]) from trivial)
    (hfirst _)
  have hsent :=
    hfailed.next (show NotForged _ (.proverActs (.sendPresentation 1) proverCalls []) from trivial)
    (hsecond _)
  have hverified := hsent.next
    (show NotForged _
      (.verifierUpdates (.ok [("1", .presentation samplePresentation)]) verifierCalls acking) from
      fun _ _ => authentic_single List.mem_cons_self _ _) (hread _)
  exact hverified.next
    (show NotForged _ (.proverUpdates (.ok [("2", sampleAck)]) proverCalls []) from
    fun _ _ => authentic_single hacking _ _) (hend _)

/-- The prover succeeds, so that the verifier has accepted its presentation. -/
theorem presentation_agreement_sample : PresentationAgreement (presentedExchange []) ∧
    ∃ p state, (presentedExchange []).prover = some p ∧ p.state = .finished state ∧
      state.status = .success ∧
      state.presentation = samplePresentation := by
  refine ⟨presentation_agreement_of_answered (reachable_presentedExchange ?_ ?_), _, _, rfl,
    rfl, rfl, rfl⟩
  · exact List.mem_cons_of_mem _ List.mem_cons_self
  · intro x step hstep
    simp only [presenting, List.mem_cons, List.not_mem_nil, or_false] at hstep
    rcases hstep with rfl | rfl | rfl | rfl | rfl | rfl | rfl
    all_goals try exact trivial
    exact fun _ _ _ _ _ _ _ _ _ _ _ => (List.cons_ne_nil _ _).symm

/-- The ack is delivered and its send fails: the prover succeeds, and the verifier has failed. -/
theorem prover_succeeds_alone :
    ReachableExchange (fun _ _ => True) sampleData (presentedExchange [noAnswer]) ∧
    ¬ PresentationAgreement (presentedExchange [noAnswer]) := by
  refine ⟨reachable_presentedExchange (List.mem_cons_of_mem _ List.mem_cons_self) fun _ _ _ =>
    trivial, ?_⟩
  intro h
  obtain ⟨state, hstate, hholds, -⟩ := (h.success _ _ rfl rfl rfl).holds
  rw [← Verifier.VerifierState.finished.inj hstate] at hholds
  cases hholds

end Sample

end SimpleAsset.Vcx
