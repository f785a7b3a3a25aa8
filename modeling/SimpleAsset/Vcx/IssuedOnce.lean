import SimpleAsset.Library.Runs
import SimpleAsset.Vcx.Issuance

/-! When an exchange issues and stores at most one credential. -/
namespace SimpleAsset.Vcx
open SimpleAsset.Library

section Property

/-- The revocation indices of the credentials that were made. -/
def createdIn (log : List IssuanceEvent) : List (Option String) :=
  log.filterMap fun
    | .created credRevId => some credRevId
    | _ => none

/-- The ids of the credentials that were stored. -/
def storedIn (log : List IssuanceEvent) : List String :=
  log.filterMap fun
    | .stored credId => some credId
    | _ => none

/-- At most one credential was made, and after a success the state names its index. -/
def IssuedOnce (log : List IssuanceEvent) (s : IssuerState) : Prop :=
  (createdIn log).length ≤ 1 ∧ ∀ state, s = .finished state → state.status = .success →
    ∃ info, state.revocationInfoV1 = some info ∧ createdIn log = [info.credRevId]

/-- At most one credential was stored, and after a success the state names its record. -/
def StoredOnce (log : List IssuanceEvent) (s : HolderSM) : Prop :=
  (storedIn log).length ≤ 1 ∧ ∀ state, s.state = .finished state → state.status = .success →
    ∃ credId, state.credId = some credId ∧ storedIn log = [credId]

theorem createdIn_append (log log' : List IssuanceEvent) :
    createdIn (log ++ log') = createdIn log ++ createdIn log' :=
  List.filterMap_append

theorem storedIn_append (log log' : List IssuanceEvent) :
    storedIn (log ++ log') = storedIn log ++ storedIn log' :=
  List.filterMap_append

end Property

section Condition

/-- The sends that come first all succeed. -/
def FirstSucceed (n : ℕ) (outcomes : List (Except VcxError Unit)) : Prop :=
  ∀ outcome ∈ outcomes.take n, outcome = .ok ()

/-- A credential that the issuer makes can be sent. -/
def IssuerDelivers (s : IssuerState) (step : IssuerStep) : Prop :=
  ∀ state, s = .requestReceived state → step.operation = .sendCredential →
    ∀ r, createCredential step.calls state = .ok r → FirstSucceed 1 step.outcomes

def acksAsked (credential : Credential) : ℕ := if credential.pleaseAck then 1 else 0

/-- The credential is handed over, or is the message that is found in the mailbox. The sends after
it are counted. -/
inductive Receives (s : HolderSM) (step : HolderStep) (credential : Credential) : ℕ → Prop
  | handed (h : step.operation = .updateState (some (.credential credential))) :
    Receives s step credential (acksAsked credential)
  | found {messages : Mailbox} {uid : String} (h : step.operation = .updateState none)
    (hmessages : step.calls.getMessages s.state.getConnectionHandle = .ok messages)
    (hfound : s.findMessageToHandle messages = some (uid, .credential credential)) :
    Receives s step credential (acksAsked credential + 1)

/-- When a credential is stored, the ack that it asks for can be sent, and its message can be marked
as read. -/
def HolderDelivers (s : HolderSM) (step : HolderStep) : Prop :=
  ∀ state, s.state = .requestSent state → ∀ credential n, Receives s step credential n →
    ∀ r, storeCredential step.calls credential state = .ok r → FirstSucceed n step.outcomes

end Condition

section Plain
variable {α β : Type}

/-- No credential is made or stored on the way, whatever sends fail. -/
def Plain (f : Issuance α) (P : α → Prop) : Prop :=
  ∀ r sent, f.Ends r sent → (createdIn sent = [] ∧ storedIn sent = []) ∧ ∀ a, r = .ok a → P a

theorem plain_pure {a : α} {P : α → Prop} (h : P a) : Plain (pure a) P := by
  intro r sent hends
  obtain ⟨hr, hsent⟩ := Sending.ends_pure hends
  rw [hr, hsent]
  refine ⟨⟨rfl, rfl⟩, ?_⟩
  intro a' ha'
  rwa [← Except.ok.inj ha']

theorem plain_ofExcept (x : VcxResult α) : Plain (Sending.ofExcept x) fun a => x = .ok a := by
  intro r sent hends
  obtain ⟨hr, hsent⟩ := Sending.ends_ofExcept hends
  rw [hsent]
  exact ⟨⟨rfl, rfl⟩, fun a ha => hr.symm.trans ha⟩

theorem plain_send {event : IssuanceEvent} (hcreated : createdIn [event] = [])
    (hstored : storedIn [event] = []) :
    Plain (Sending.send event : Issuance Unit) fun _ => True := by
  intro r sent hends
  rcases Sending.ends_send hends with ⟨-, hsent⟩ | ⟨e, -, hsent⟩
  · rw [hsent]
    exact ⟨⟨hcreated, hstored⟩, fun _ _ => trivial⟩
  · rw [hsent]
    exact ⟨⟨rfl, rfl⟩, fun _ _ => trivial⟩

theorem plain_sendMessage (connectionHandle : ℕ) (message : A2AMessage) :
    Plain (Issuance.sendMessage connectionHandle message) fun _ => True := plain_send rfl rfl

theorem plain_updateMessageStatus (connectionHandle : ℕ) (uid : String) :
    Plain (Issuance.updateMessageStatus connectionHandle uid) fun _ => True := plain_send rfl rfl

theorem plain_bind {f : Issuance α} {g : α → Issuance β} {Q : α → Prop} {P : β → Prop}
    (hf : Plain f Q) (hg : ∀ a, Q a → Plain (g a) P) : Plain (f >>= g) P := by
  intro r sent hends
  rcases Sending.ends_bind hends with ⟨a, sent₁, sent₂, hfirst, hrest, hsent⟩ | ⟨e, hfirst, hr⟩
  · obtain ⟨⟨hcreated₁, hstored₁⟩, hQ⟩ := hf _ _ hfirst
    obtain ⟨⟨hcreated₂, hstored₂⟩, hP⟩ := hg a (hQ a rfl) _ _ hrest
    rw [hsent, createdIn_append, storedIn_append, hcreated₁, hstored₁, hcreated₂, hstored₂]
    exact ⟨⟨rfl, rfl⟩, hP⟩
  · obtain ⟨hnone, -⟩ := hf _ _ hfirst
    refine ⟨hnone, ?_⟩
    intro b hb
    rw [hr] at hb
    exact nomatch hb

theorem plain_send_pure {connectionHandle : ℕ} {message : A2AMessage} {a : α}
    {P : α → Prop} (h : P a) :
    Plain (do Issuance.sendMessage connectionHandle message; return a) P :=
  plain_bind (plain_sendMessage _ _) fun _ _ => plain_pure h

end Plain

section Issuer
variable {calls : IssuerCalls} {s : IssuerState} {created : List (Option String)}

/-- Before the end nothing was made; at the end at most one, which the state then names. -/
def IssuerFine (created : List (Option String)) : IssuerState → Prop
  | .finished state => created.length ≤ 1 ∧
    (state.status = .success → ∃ info, state.revocationInfoV1 = some info ∧
      created = [info.credRevId])
  | .credentialSent _ => False
  | _ => created = []

theorem IssuerFine.issuedOnce {log : List IssuanceEvent} (h : IssuerFine (createdIn log) s) :
    IssuedOnce log s := by
  have hnil : createdIn log = [] → (createdIn log).length ≤ 1 := by
    intro hcreated
    rw [hcreated]
    exact Nat.zero_le 1
  cases s with
  | initial state => exact ⟨hnil h, fun _ hs => IssuerState.noConfusion hs⟩
  | offerSent state => exact ⟨hnil h, fun _ hs => IssuerState.noConfusion hs⟩
  | requestReceived state => exact ⟨hnil h, fun _ hs => IssuerState.noConfusion hs⟩
  | credentialSent state => exact h.elim
  | finished state =>
    refine ⟨h.1, ?_⟩
    intro state' hstate
    rw [← IssuerState.finished.inj hstate]
    exact h.2

theorem issuerFine_failed {state : FinishedState} {report : ProblemReport}
    (hstatus : state.status = .failed report)
    (hnil : created = []) : IssuerFine created (.finished state) := by
  refine ⟨?_, ?_⟩
  · rw [hnil]
    exact Nat.zero_le 1
  · intro hsuccess
    exact nomatch hstatus.symm.trans hsuccess

/-- Unless a credential is made, handling a message is plain. -/
theorem IssuerFine.handleMessage (h : IssuerFine created s) {cim : CredentialIssuanceMessage}
    (hnone : ∀ state, s = .requestReceived state → cim = .credentialSend →
      ∀ r, createCredential calls state ≠ .ok r) : Plain (s.handleMessage calls cim)
        (IssuerFine created) := by
  cases s with
  | initial state =>
    cases cim with
    | credentialInit connectionHandle =>
      apply plain_bind (plain_ofExcept _)
      intro credOffer _
      apply plain_bind (plain_ofExcept _)
      intro credOfferMsg _
      exact plain_send_pure h
    | _ => exact plain_pure h
  | offerSent state =>
    cases cim with
    | credentialRequest request => exact plain_pure h
    | credentialProposal proposal => exact plain_send_pure (issuerFine_failed rfl h)
    | problemReport report => exact plain_pure (issuerFine_failed rfl h)
    | _ => exact plain_pure h
  | requestReceived state =>
    cases cim with
    | credentialSend =>
      change Plain (IssuerState.answer calls state (createCredential calls state)) _
      cases hcreate : createCredential calls state with
      | ok r => exact absurd hcreate (hnone state rfl rfl r)
      | error err => exact plain_send_pure (issuerFine_failed rfl h)
    | _ => exact plain_pure h
  | credentialSent state => exact h.elim
  | finished state => exact plain_pure h

/-- The mailbox gives the issuer no credential to make. -/
theorem ofMessage_ne_credentialSend (msg : A2AMessage) :
    CredentialIssuanceMessage.ofMessage msg ≠ .credentialSend := by
  cases msg <;> exact nofun

theorem IssuerFine.updateState (h : IssuerFine created s) :
    Plain (s.updateState calls) (IssuerFine created) := by
  unfold IssuerState.updateState
  by_cases hterminal : s.isTerminalState
  · rw [if_pos hterminal]
    exact plain_pure h
  · rw [if_neg hterminal]
    apply plain_bind (plain_ofExcept _)
    intro messages _
    cases s.findMessageToHandle messages with
    | none => exact plain_pure h
    | some found =>
      apply plain_bind
        (h.handleMessage fun _ _ hsend => absurd hsend (ofMessage_ne_credentialSend found.2))
      intro s' hs'
      exact plain_bind (plain_updateMessageStatus _ _) fun _ _ => plain_pure hs'

theorem IssuerFine.operate (h : IssuerFine created s) {operation : IssuerOperation}
    (hnone : ∀ state, s = .requestReceived state → operation = .sendCredential →
      ∀ r, createCredential calls state ≠ .ok r) : Plain (s.operate calls operation)
        (IssuerFine created) := by
  cases operation with
  | sendCredentialOffer connectionHandle => exact h.handleMessage fun _ _ hsend => nomatch hsend
  | sendCredential => exact h.handleMessage fun state hs _ => hnone state hs rfl
  | updateStatus msg =>
    cases msg with
    | none => exact h.updateState
    | some msg =>
      exact h.handleMessage fun _ _ hsend => absurd hsend (ofMessage_ne_credentialSend msg)

/-- A credential that is made and sent ends the exchange with its index. -/
theorem succeeds_credentialSend {state : RequestReceivedState} {r : Credential × Option String}
    (h : createCredential calls state = .ok r) :
    ((IssuerState.requestReceived state).handleMessage calls .credentialSend).Succeeds 1
      (.finished (state.succeeded r.2))
      [.created r.2, .sent state.connectionHandle (.credential r.1)] := by
  change (IssuerState.answer calls state (createCredential calls state)).Succeeds _ _ _
  rw [h]
  apply Sending.Succeeds.emit_bind
  apply Sending.Succeeds.send_bind
  exact Sending.succeeds_pure _

theorem kept_ok {σ : Type} {s s₁ s' : σ} {r : VcxResult σ × List IssuanceEvent}
    {out : List IssuanceEvent}
    (hr : r.1 = .ok s₁) (h : kept s r = .ok (s', out)) : s' = s₁ ∧ out = r.2 := by
  rw [kept, hr] at h
  obtain ⟨hs, hout⟩ := Prod.mk.inj (Except.ok.inj h)
  exact ⟨hs.symm, hout.symm⟩

/-- A plain operation keeps what it keeps on success, since its failure changes nothing. -/
theorem Plain.kept {σ : Type} {f : Issuance σ} {P : σ → Prop} (h : Plain f P) {s s' : σ} (hs : P s)
    {outcomes : List (Except VcxError Unit)} {out : List IssuanceEvent}
    (hkept : kept s (f.run outcomes) = .ok (s', out)) :
    createdIn out = [] ∧ storedIn out = [] ∧ P s' := by
  obtain ⟨⟨hcreated, hstored⟩, hP⟩ := h _ _ (Sending.ends_run f outcomes)
  cases hr : (f.run outcomes).1 with
  | ok s₁ =>
    obtain ⟨hs', hout⟩ := kept_ok hr hkept
    rw [hs', hout]
    exact ⟨hcreated, hstored, hP s₁ hr⟩
  | error e =>
    rw [Vcx.kept, hr] at hkept
    obtain ⟨hs', hout⟩ := Prod.mk.inj (Except.ok.inj hkept)
    rw [← hs', ← hout]
    exact ⟨hcreated, hstored, hs⟩

theorem IssuerFine.step {log out : List IssuanceEvent} {step : IssuerStep} {s' : IssuerState}
    (h : IssuerFine (createdIn log) s) (hdelivers : IssuerDelivers s step)
    (hstep : issuerStep s step = .ok (s', out)) :
    IssuerFine (createdIn (log ++ out)) s' := by
  rw [createdIn_append]
  by_cases hmade : ∃ state r, s = .requestReceived state ∧ step.operation = .sendCredential ∧
      createCredential step.calls state = .ok r
  · obtain ⟨state, r, rfl, hoperation, hcreate⟩ := hmade
    have hnil : createdIn log = [] := h
    have hrun := (succeeds_credentialSend hcreate).run (hdelivers state rfl hoperation r hcreate)
    rw [issuerStep, hoperation, IssuerState.operate, hrun] at hstep
    obtain ⟨rfl, rfl⟩ := kept_ok rfl hstep
    rw [hnil]
    exact ⟨le_refl 1, fun _ => ⟨_, rfl, rfl⟩⟩
  · have hplain : Plain (s.operate step.calls step.operation) (IssuerFine (createdIn log)) := by
      apply h.operate
      intro state hs hoperation r hcreate
      exact hmade ⟨state, r, hs, hoperation, hcreate⟩
    obtain ⟨hcreated, -, hs'⟩ := hplain.kept h hstep
    rwa [hcreated, List.append_nil]

end Issuer

section Holder
variable {calls : HolderCalls} {s : HolderSM} {stored : List String}

/-- Before the end nothing was stored; at the end at most one, which the state then names. -/
def HolderFine (stored : List String) (s : HolderSM) : Prop :=
  match s.state with
  | .finished state => stored.length ≤ 1 ∧
    (state.status = .success → ∃ credId, state.credId = some credId ∧ stored = [credId])
  | _ => stored = []

theorem HolderFine.storedOnce {log : List IssuanceEvent} (h : HolderFine (storedIn log) s) :
    StoredOnce log s := by
  have hnil : storedIn log = [] → (storedIn log).length ≤ 1 := by
    intro hstored
    rw [hstored]
    exact Nat.zero_le 1
  obtain ⟨state, threadId⟩ := s
  cases state with
  | offerReceived state => exact ⟨hnil h, fun _ hs => HolderState.noConfusion hs⟩
  | requestSent state => exact ⟨hnil h, fun _ hs => HolderState.noConfusion hs⟩
  | finished state =>
    refine ⟨h.1, ?_⟩
    intro state' hstate
    rw [← HolderState.finished.inj hstate]
    exact h.2

theorem plain_fail (hnil : stored = []) (connectionHandle : ℕ) (err : VcxError) :
    Plain (s.fail calls connectionHandle err) (HolderFine stored) := by
  apply plain_send_pure
  refine ⟨?_, nofun⟩
  rw [hnil]
  exact Nat.zero_le 1

/-- Unless a credential is stored, handling a message is plain. -/
theorem HolderFine.handleMessage (h : HolderFine stored s) {cim : CredentialIssuanceMessage}
    (hnone : ∀ state credential, s.state = .requestSent state → cim = .credential credential →
      ∀ r, storeCredential calls credential state ≠ .ok r) :
    Plain (s.handleMessage calls cim) (HolderFine stored) := by
  obtain ⟨state, threadId⟩ := s
  cases state with
  | offerReceived state =>
    have hnil : stored = [] := h
    cases cim with
    | credentialRequestSend connectionHandle =>
      change Plain (HolderSM.request calls _ _
        (makeCredentialRequest calls connectionHandle state.offer threadId)) _
      cases makeCredentialRequest calls connectionHandle state.offer threadId with
      | ok made => exact plain_send_pure hnil
      | error err => exact plain_fail hnil connectionHandle err
    | _ => exact plain_pure h
  | requestSent state =>
    have hnil : stored = [] := h
    cases cim with
    | credential credential =>
      change Plain (HolderSM.receive calls _ _ _ (storeCredential calls credential state)) _
      cases hstore : storeCredential calls credential state with
      | ok r => exact absurd hstore (hnone state credential rfl rfl r)
      | error err => exact plain_fail hnil state.connectionHandle err
    | problemReport report =>
      apply plain_pure
      refine ⟨?_, nofun⟩
      rw [hnil]
      exact Nat.zero_le 1
    | _ => exact plain_pure h
  | finished state => exact plain_pure h

/-- Only a credential is handled as one. -/
theorem eq_of_ofMessage_eq_credential {msg : A2AMessage} {credential : Credential}
    (h : CredentialIssuanceMessage.ofMessage msg = .credential credential) :
    msg = .credential credential := by
  cases msg with
  | credential issued =>
    exact congrArg A2AMessage.credential (CredentialIssuanceMessage.credential.inj h)
  | _ => exact nomatch h

theorem HolderFine.updateState (h : HolderFine stored s)
    (hnone : ∀ state credential messages uid, s.state = .requestSent state →
      calls.getMessages s.state.getConnectionHandle = .ok messages →
      s.findMessageToHandle messages = some (uid, .credential credential) →
      ∀ r, storeCredential calls credential state ≠ .ok r) :
    Plain (s.updateState calls) (HolderFine stored) := by
  unfold HolderSM.updateState
  by_cases hterminal : s.isTerminalState
  · rw [if_pos hterminal]
    exact plain_pure h
  · rw [if_neg hterminal]
    apply plain_bind (plain_ofExcept _)
    intro messages hmessages
    cases hfound : s.findMessageToHandle messages with
    | none => exact plain_pure h
    | some found =>
      have hhandle : Plain (s.handleMessage calls (.ofMessage found.2)) (HolderFine stored) := by
        apply h.handleMessage
        intro state credential hs hcredential
        have hmsg := eq_of_ofMessage_eq_credential hcredential
        refine hnone state credential messages found.1 hs hmessages ?_
        rw [hfound, ← hmsg]
      apply plain_bind hhandle
      intro s' hs'
      exact plain_bind (plain_updateMessageStatus _ _) fun _ _ => plain_pure hs'

theorem HolderFine.operate {step : HolderStep} (h : HolderFine stored s)
    (hnone : ∀ state credential n, s.state = .requestSent state → Receives s step credential n →
      ∀ r, storeCredential step.calls credential state ≠ .ok r) :
    Plain (s.operate step.calls step.operation) (HolderFine stored) := by
  cases hoperation : step.operation with
  | sendRequest connectionHandle =>
    exact h.handleMessage fun _ _ _ hcredential => nomatch hcredential
  | updateState msg =>
    cases msg with
    | none =>
      apply h.updateState
      intro state credential messages uid hs hmessages hfound
      exact hnone state credential _ hs (.found hoperation hmessages hfound)
    | some msg =>
      apply h.handleMessage
      intro state credential hs hcredential
      have hmsg := eq_of_ofMessage_eq_credential hcredential
      exact hnone state credential _ hs (.handed (hoperation.trans (by rw [hmsg])))

theorem succeeds_acknowledge (calls : HolderCalls) (s : HolderSM) (credential : Credential)
    (connectionHandle : ℕ) :
    ∃ sent, (s.acknowledge calls credential connectionHandle).Succeeds
      (acksAsked credential) () sent ∧
      storedIn sent = [] := by
  unfold HolderSM.acknowledge acksAsked
  by_cases hack : credential.pleaseAck
  · rw [if_pos hack, if_pos hack]
    exact ⟨_, Sending.succeeds_send _, rfl⟩
  · rw [if_neg hack, if_neg hack]
    exact ⟨_, Sending.succeeds_pure _, rfl⟩

/-- A credential that is stored and acknowledged ends the exchange with its id. -/
theorem succeeds_credential {state : RequestSentState} {credential : Credential}
    {r : String × Option String}
    (hs : s.state = .requestSent state) (h : storeCredential calls credential state = .ok r) :
    ∃ sent, (s.handleMessage calls (.credential credential)).Succeeds (acksAsked credential)
      { s with state := .finished (.succeeded r.1 credential r.2) } sent ∧
      storedIn sent = [r.1] := by
  obtain ⟨acked, hacked, hnone⟩ := succeeds_acknowledge calls s credential state.connectionHandle
  refine ⟨.stored r.1 :: acked, ?_, ?_⟩
  · have hhandle : s.handleMessage calls (.credential credential) =
        s.receive calls credential state (storeCredential calls credential state) := by
      unfold HolderSM.handleMessage
      rw [hs]
    rw [hhandle, h]
    apply Sending.Succeeds.emit_bind
    rw [← Nat.add_zero (acksAsked credential), ← List.append_nil acked]
    exact hacked.bind (Sending.succeeds_pure _)
  · change r.1 :: storedIn acked = [r.1]
    rw [hnone]

/-- A credential that the holder receives and stores ends the exchange, when the sends after it
succeed. -/
theorem succeeds_receives {step : HolderStep} {state : RequestSentState}
    {credential : Credential} {n : ℕ}
    {r : String × Option String} (hs : s.state = .requestSent state)
    (hreceives : Receives s step credential n)
    (h : storeCredential step.calls credential state = .ok r) :
    ∃ sent, (s.operate step.calls step.operation).Succeeds n
      { s with state := .finished (.succeeded r.1 credential r.2) } sent ∧
      storedIn sent = [r.1] := by
  obtain ⟨sent, hsucceeds, hstored⟩ := succeeds_credential hs h
  cases hreceives with
  | handed hoperation =>
    rw [hoperation]
    exact ⟨sent, hsucceeds, hstored⟩
  | @found messages uid hoperation hmessages hfound =>
    refine ⟨sent ++ [.reviewed s.state.getConnectionHandle uid], ?_, ?_⟩
    · have hterminal : s.isTerminalState = false := by
        rw [HolderSM.isTerminalState, hs]
      rw [hoperation]
      change (s.updateState step.calls).Succeeds _ _ _
      rw [HolderSM.updateState, hterminal, if_neg Bool.false_ne_true, hmessages]
      apply Sending.Succeeds.ofExcept_bind
      rw [hfound]
      apply hsucceeds.bind
      apply Sending.Succeeds.send_bind
      exact Sending.succeeds_pure _
    · rw [storedIn_append, hstored]
      rfl

theorem HolderFine.step {log out : List IssuanceEvent} {step : HolderStep} {s' : HolderSM}
    (h : HolderFine (storedIn log) s) (hdelivers : HolderDelivers s step)
    (hstep : holderStep s step = .ok (s', out)) :
    HolderFine (storedIn (log ++ out)) s' := by
  rw [storedIn_append]
  by_cases hmade : ∃ state credential n r, s.state = .requestSent state ∧
    Receives s step credential n ∧
      storeCredential step.calls credential state = .ok r
  · obtain ⟨state, credential, n, r, hs, hreceives, hstore⟩ := hmade
    have hnil : storedIn log = [] := by
      rw [HolderFine, hs] at h
      exact h
    obtain ⟨sent, hsucceeds, hstored⟩ := succeeds_receives hs hreceives hstore
    have hrun := hsucceeds.run (hdelivers state hs credential n hreceives r hstore)
    rw [holderStep, hrun] at hstep
    obtain ⟨rfl, rfl⟩ := kept_ok rfl hstep
    rw [hnil, hstored]
    exact ⟨le_refl 1, fun _ => ⟨_, rfl, rfl⟩⟩
  · have hplain : Plain (s.operate step.calls step.operation) (HolderFine (storedIn log)) := by
      apply h.operate
      intro state credential n hs hreceives r hstore
      exact hmade ⟨state, credential, n, r, hs, hreceives, hstore⟩
    obtain ⟨-, hstored, hs'⟩ := hplain.kept h hstep
    rwa [hstored, List.append_nil]

end Holder

section Runs

theorem exists_kept {σ : Type} (s : σ) (r : VcxResult σ × List IssuanceEvent) :
    ∃ s' out, kept s r = .ok (s', out) := by
  obtain ⟨result, events⟩ := r
  cases result with
  | ok s' => exact ⟨s', events, rfl⟩
  | error e => exact ⟨s, events, rfl⟩

/-- All along a run of the issuer in which every credential that is made can be sent, and all along
a run of the holder in which every credential that is stored can be acknowledged and marked as read,
there is at most one credential, and after a success the state names it. -/
theorem issued_and_stored_once {credDefId credentialData : String}
    {revRegId tailsFile : Option String}
    {offer : CredentialOffer} {issuing : List IssuerStep} {holding : List HolderStep}
    (hissuing : EveryStep issuerStep IssuerDelivers
      (newIssuer credDefId credentialData revRegId tailsFile) issuing)
    (hholding : EveryStep holderStep HolderDelivers (HolderSM.new offer) holding) :
    (∀ pre, pre <+: issuing → ∃ s log,
      runSteps issuerStep (newIssuer credDefId credentialData revRegId tailsFile) pre =
        .ok (s, log) ∧
        IssuedOnce log s) ∧
    ∀ pre, pre <+: holding → ∃ s log, runSteps holderStep (HolderSM.new offer) pre = .ok (s, log) ∧
      StoredOnce log s := by
  have hissuer : ∀ pre, pre <+: issuing → ∃ s log,
      runSteps issuerStep (newIssuer credDefId credentialData revRegId tailsFile) pre =
      .ok (s, log) ∧
        IssuerFine (createdIn log) s := by
    refine exists_run_invariant (P := fun log s => IssuerFine (createdIn log) s) ?_ rfl ?_ hissuing
    · intro s step
      exact exists_kept s ((s.operate step.calls step.operation).run step.outcomes)
    · intro log s step s' out hfine hdelivers hstep
      exact hfine.step hdelivers hstep
  have hholder : ∀ pre, pre <+: holding →
      ∃ s log, runSteps holderStep (HolderSM.new offer) pre = .ok (s, log) ∧
      HolderFine (storedIn log) s := by
    refine exists_run_invariant (P := fun log s => HolderFine (storedIn log) s) ?_ rfl ?_ hholding
    · intro s step
      exact exists_kept s ((s.operate step.calls step.operation).run step.outcomes)
    · intro log s step s' out hfine hdelivers hstep
      exact hfine.step hdelivers hstep
  constructor
  · intro pre hpre
    obtain ⟨s, log, hrun, hfine⟩ := hissuer pre hpre
    exact ⟨s, log, hrun, hfine.issuedOnce⟩
  · intro pre hpre
    obtain ⟨s, log, hrun, hfine⟩ := hholder pre hpre
    exact ⟨s, log, hrun, hfine.storedOnce⟩

end Runs

section Sample

/-- Every call of the issuer succeeds, and the credential gets this revocation index. -/
def issuerCalls (credRevId : String) : IssuerCalls where
  newId := "offer"
  issuerCreateCredentialOffer _ := .ok "cred offer"
  appendCredentialPreview offer _ := .ok offer
  encodeAttributes := .ok
  issuerCreateCredential _ _ _ _ _ := .ok ("cred", some credRevId)
  getMessages _ := .ok [("1", .credentialRequest ⟨"request", ⟨.ok "cred request"⟩, .ofId "offer"⟩)]

/-- Every call of the holder succeeds, and a credential is stored under this id. -/
def holderCalls (credId : String) : HolderCalls where
  newId := "request"
  getPwDid _ := .ok "did"
  parseCredDefFromCredOffer _ := .ok "cred def id"
  createCredentialRequest _ _ _ := .ok ("cred request", "meta", "cred def")
  parseRevRegIdFromCredential _ := .ok none
  getRevRegDefJson revRegId := .ok (revRegId, "rev reg def")
  proverStoreCredential _ _ _ _ := .ok credId
  getMessages _ := .ok [("1", .credential ⟨"credential", ⟨.ok "cred"⟩, .ofId "offer", true⟩)]

def lost : Except VcxError Unit := .error (.fromMsg (.other "Message failed in post") "")

def sampleIssuer : IssuerState := newIssuer "cred def id" "data" (some "R") (some "tails")

def sampleOffer : CredentialOffer := ⟨"offer", ⟨.ok "cred offer"⟩⟩

/-- The offer is sent at the second attempt, and the request is answered. -/
def issuing : List IssuerStep :=
  [⟨.sendCredentialOffer 1, issuerCalls "1", [lost]⟩, ⟨.sendCredentialOffer 1, issuerCalls "1", []⟩,
    ⟨.updateStatus none, issuerCalls "1", []⟩, ⟨.sendCredential, issuerCalls "1", []⟩]

/-- The request is sent at the second attempt, and the credential is found and stored. -/
def holding : List HolderStep :=
  [⟨.sendRequest 1, holderCalls "a", [lost]⟩, ⟨.sendRequest 1, holderCalls "a", []⟩,
    ⟨.updateState none, holderCalls "a", []⟩]

/-- Nothing can be made or stored before the first message. -/
theorem issuerDelivers_sampleIssuer (step : IssuerStep) : IssuerDelivers sampleIssuer step := by
  intro state hs
  exact IssuerState.noConfusion hs

theorem holderDelivers_new (step : HolderStep) :
    HolderDelivers (HolderSM.new sampleOffer) step := by
  intro state hs
  exact HolderState.noConfusion hs

theorem issuerDelivers_of_nil {s : IssuerState} {operation : IssuerOperation}
    {calls : IssuerCalls} :
    IssuerDelivers s ⟨operation, calls, []⟩ :=
  fun _ _ _ _ _ _ hmem => absurd hmem List.not_mem_nil

theorem holderDelivers_of_nil {s : HolderSM} {operation : HolderOperation} {calls : HolderCalls} :
    HolderDelivers s ⟨operation, calls, []⟩ := by
  intro _ _ _ n _ _ _ outcome hmem
  rw [List.take_nil] at hmem
  exact absurd hmem List.not_mem_nil

theorem issued_and_stored_once_sample :
    (∀ pre, pre <+: issuing → ∃ s log, runSteps issuerStep sampleIssuer pre = .ok (s, log) ∧
      IssuedOnce log s) ∧
    ∀ pre, pre <+: holding →
      ∃ s log, runSteps holderStep (HolderSM.new sampleOffer) pre = .ok (s, log) ∧
      StoredOnce log s := by
  apply issued_and_stored_once
  · apply EveryStep.cons (issuerDelivers_sampleIssuer _)
    intro s out _
    apply EveryStep.cons issuerDelivers_of_nil
    intro s out _
    apply EveryStep.cons issuerDelivers_of_nil
    intro s out _
    apply EveryStep.cons issuerDelivers_of_nil
    intro s out _
    exact everyStep_nil
  · apply EveryStep.cons (holderDelivers_new _)
    intro s out _
    apply EveryStep.cons holderDelivers_of_nil
    intro s out _
    apply EveryStep.cons holderDelivers_of_nil
    intro s out _
    exact everyStep_nil

/-- The credential is made and cannot be sent, and is then made again. -/
def issuingTwice : List IssuerStep :=
  [⟨.sendCredentialOffer 1, issuerCalls "1", []⟩, ⟨.updateStatus none, issuerCalls "1", []⟩,
    ⟨.sendCredential, issuerCalls "1", [lost]⟩, ⟨.sendCredential, issuerCalls "2", []⟩]

/-- The credential is stored and cannot be marked as read, and is then stored again. -/
def holdingTwice : List HolderStep :=
  [⟨.sendRequest 1, holderCalls "a", []⟩, ⟨.updateState none, holderCalls "a", [.ok (), lost]⟩,
    ⟨.updateState none, holderCalls "b", []⟩]

theorem issued_and_stored_twice :
    (∃ s log, runSteps issuerStep sampleIssuer issuingTwice = .ok (s, log) ∧
      createdIn log = [some "1", some "2"] ∧ ¬ IssuedOnce log s) ∧
    ∃ s log, runSteps holderStep (HolderSM.new sampleOffer) holdingTwice = .ok (s, log) ∧
      storedIn log = ["a", "b"] ∧ ¬ StoredOnce log s := by
  have hissued : ∃ s log, runSteps issuerStep sampleIssuer issuingTwice = .ok (s, log) ∧
      createdIn log = [some "1", some "2"] := ⟨_, _, rfl, rfl⟩
  have hstored : ∃ s log,
      runSteps holderStep (HolderSM.new sampleOffer) holdingTwice = .ok (s, log) ∧
      storedIn log = ["a", "b"] := ⟨_, _, rfl, rfl⟩
  obtain ⟨s, log, hrun, hcreated⟩ := hissued
  obtain ⟨s', log', hrun', hstored'⟩ := hstored
  refine ⟨⟨s, log, hrun, hcreated, ?_⟩, s', log', hrun', hstored', ?_⟩
  · intro honce
    have hle := honce.1
    rw [hcreated] at hle
    exact absurd hle (by decide)
  · intro honce
    have hle := honce.1
    rw [hstored'] at hle
    exact absurd hle (by decide)

end Sample

end SimpleAsset.Vcx
