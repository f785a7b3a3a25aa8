import SimpleAsset.Library.Runs
import SimpleAsset.Vcx.PresentationAgreement

/-! What a verifier reports of a presentation (verifier/states.rs), over all runs of its machine. -/
namespace SimpleAsset.Vcx
open SimpleAsset.Library

inductive VcxStateType
  | none
  | initialized
  | offerSent
  | requestReceived
  | accepted
  | unfulfilled
  | expired
  | revoked
  | redirected
  | rejected
  deriving DecidableEq, Repr

/-- `as u32`. -/
def VcxStateType.toCode : VcxStateType → ℕ
  | .none => 0
  | .initialized => 1
  | .offerSent => 2
  | .requestReceived => 3
  | .accepted => 4
  | .unfulfilled => 5
  | .expired => 6
  | .revoked => 7
  | .redirected => 8
  | .rejected => 9

def Status.code : Status → ℕ
  | .undefined => 0
  | .success => 1
  | .failed _ => 2
  | .declined => 3

namespace Verifier

section Reports

/-- `state`. -/
def VerifierState.stateCode : VerifierState → ℕ
  | .initiated _ => VcxStateType.initialized.toCode
  | .presentationRequestSent _ => VcxStateType.offerSent.toCode
  | .finished state => match state.status with
    | .success => VcxStateType.accepted.toCode
    | _ => VcxStateType.none.toCode

/-- The report of a revoked credential, as far as `code` reads it. -/
def revokedReport : ProblemReport := ⟨"", ⟨none⟩, some "Revoked credential was used."⟩

def VerifierState.presentationStatus : VerifierState → ℕ
  | .finished state => match state.status with
    | .success => match state.revocationStatus with
      | some .nonRevoked => Status.success.code
      | none => Status.success.code
      | some .revoked => (Status.failed revokedReport).code
    | status => status.code
  | _ => Status.undefined.code

end Reports

section Runs

/-- A call of `step`, with what its calls give and how its sends end. -/
structure VerifierCall where
  message : VerifierMessages
  calls : Calls
  outcomes : List (SendOutcome VcxError)

def VerifierCall.run (c : VerifierCall) (s : VerifierState) :
    VcxResult VerifierState × List PresentationEvent :=
  (step c.calls s c.message).runOver c.outcomes

/-- The machine after these calls. One that fails leaves it as it is. -/
def verifierAfter (data : PresentationRequestData) (cs : List VerifierCall) : VerifierState :=
  cs.foldl (fun s c => Sending.keep s (c.run s).1) (.initiated data)

/-- One of the calls sent the request of this state. -/
def RequestSent (data : PresentationRequestData) (cs : List VerifierCall)
    (state : PresentationRequestSentState) : Prop :=
  ∃ pre c, pre ++ [c] <+: cs ∧ verifierAfter data pre = .initiated data ∧
    c.message = .sendPresentationRequest state.connectionHandle ∧
    .sent (.presentationRequest state.presentationRequest) ∈ (c.run (.initiated data)).2

/-- One of the calls was given the presentation, and `validate_indy_proof` returned true for it and
the request. -/
def ValidatedIn (data : PresentationRequestData) (cs : List VerifierCall)
    (state : PresentationRequestSentState) (presentation : Presentation) : Prop :=
  ∃ pre c, pre ++ [c] <+: cs ∧ verifierAfter data pre = .presentationRequestSent state ∧
    c.message = .verifyPresentation presentation ∧ validate c.calls state presentation = .ok true

/-- One of the calls was given the presentation, the check of which failed as `InvalidProof`. -/
def RefusedIn (data : PresentationRequestData) (cs : List VerifierCall)
    (state : PresentationRequestSentState) (presentation : Presentation) : Prop :=
  ∃ pre c, pre ++ [c] <+: cs ∧ verifierAfter data pre = .presentationRequestSent state ∧
    c.message = .verifyPresentation presentation ∧
    ∃ err, ((verifyPresentation c.calls state presentation).runOver c.outcomes).1 = .error err ∧
      err.kind = .invalidProof

variable {data : PresentationRequestData} {cs cs' : List VerifierCall}
    {state : PresentationRequestSentState}
  {presentation : Presentation}

theorem RequestSent.mono (h : RequestSent data cs state) (hcs : cs <+: cs') :
    RequestSent data cs' state := by
  obtain ⟨pre, c, hpre, hrest⟩ := h
  exact ⟨pre, c, hpre.trans hcs, hrest⟩

theorem ValidatedIn.mono (h : ValidatedIn data cs state presentation) (hcs : cs <+: cs') :
    ValidatedIn data cs' state presentation := by
  obtain ⟨pre, c, hpre, hrest⟩ := h
  exact ⟨pre, c, hpre.trans hcs, hrest⟩

theorem RefusedIn.mono (h : RefusedIn data cs state presentation) (hcs : cs <+: cs') :
    RefusedIn data cs' state presentation := by
  obtain ⟨pre, c, hpre, hrest⟩ := h
  exact ⟨pre, c, hpre.trans hcs, hrest⟩

/-- Where a machine can be after these calls. -/
inductive Explained (data : PresentationRequestData) (cs : List VerifierCall) : VerifierState → Prop
  | initiated : Explained data cs (.initiated data)
  | requested {state : PresentationRequestSentState} (hsent : RequestSent data cs state) :
    Explained data cs (.presentationRequestSent state)
  | failed {state : PresentationRequestSentState} {problemReport : ProblemReport} :
    Explained data cs (.finished (state.failed problemReport))
  | refused {state : PresentationRequestSentState} {presentation : Presentation}
      (hsent : RequestSent data cs state)
    (hrefused : RefusedIn data cs state presentation) :
    Explained data cs (.finished (state.verified presentation .revoked))
  | validated {state : PresentationRequestSentState} {presentation : Presentation}
      (hsent : RequestSent data cs state)
    (hvalidated : ValidatedIn data cs state presentation) :
    Explained data cs (.finished (state.verified presentation .nonRevoked))

theorem Explained.mono {s : VerifierState} (h : Explained data cs s) (hcs : cs <+: cs') :
    Explained data cs' s := by
  cases h with
  | initiated => exact .initiated
  | requested hsent => exact .requested (hsent.mono hcs)
  | failed => exact .failed
  | refused hsent hrefused => exact .refused (hsent.mono hcs) (hrefused.mono hcs)
  | validated hsent hvalidated => exact .validated (hsent.mono hcs) (hvalidated.mono hcs)

end Runs

section Steps
variable {calls : Calls} {data : PresentationRequestData} {cs : List VerifierCall}
    {c : VerifierCall}
  {state : PresentationRequestSentState} {presentation : Presentation}
  {sent : List PresentationEvent}

/-- A check that succeeds has validated the presentation. -/
theorem validate_of_ends
    (h : (verifyPresentation calls state presentation).EndsAnyhow (.ok ()) sent) :
    validate calls state presentation = .ok true := by
  rcases Sending.ends_bind h with ⟨valid, sent₁, sent₂, hvalid, hrest, -⟩ | ⟨e, -, hr⟩
  · obtain ⟨hvalid, -⟩ := Sending.ends_ofExcept hvalid
    cases valid with
    | true => exact hvalid.symm
    | false =>
      rcases Sending.ends_bind hrest with ⟨_, sent₃, sent₄, -, hlast, -⟩ | ⟨e, -, hr⟩
      · exact nomatch (Sending.ends_ofExcept hlast).1
      · exact nomatch hr
  · exact nomatch hr

/-- A report is sent, and then the machine is there. -/
theorem keep_of_ends_report {s s' : VerifierState} {message : A2AMessage}
    {r : VcxResult VerifierState}
    (h : (do Presenting.sendMessage message; pure s' : Presenting _).EndsAnyhow r sent) :
    Sending.keep s r = s' ∨ Sending.keep s r = s := by
  rcases Sending.endsIn_send_pure h with ⟨rfl, -⟩ | ⟨e, rfl, -⟩
  · exact .inl rfl
  · exact .inr rfl

theorem explained_sendPresentationRequest {connectionHandle : ℕ}
    (hc : c.message = .sendPresentationRequest connectionHandle)
    (hs : verifierAfter data cs = .initiated data) :
    Explained data (cs ++ [c]) (Sending.keep (.initiated data) (c.run (.initiated data)).1) := by
  have hends := Sending.ends_runOver (step c.calls (.initiated data) c.message) c.outcomes
  change (step c.calls (.initiated data) c.message).EndsAnyhow (c.run (.initiated data)).1
    (c.run (.initiated data)).2 at hends
  rw [hc] at hends
  rcases Sending.ends_bind hends with ⟨request, sent₁, sent₂, -, hsend, hevents⟩ | ⟨e, -, hr⟩
  · rcases Sending.endsIn_send_pure hsend with ⟨hr, rfl⟩ | ⟨e, hr, -⟩
    · rw [hr]
      refine .requested ⟨cs, c, List.prefix_refl _, hs, hc, ?_⟩
      rw [hevents]
      exact List.mem_append_right _ List.mem_cons_self
    · rw [hr]
      exact .initiated
  · rw [hr]
    exact .initiated

theorem explained_verifyPresentation (hsent : RequestSent data (cs ++ [c]) state)
    (hc : c.message = .verifyPresentation presentation)
    (hs : verifierAfter data cs = .presentationRequestSent state) :
    Explained data (cs ++ [c]) (Sending.keep (.presentationRequestSent state)
      (c.run (.presentationRequestSent state)).1) := by
  have hrun : (c.run (.presentationRequestSent state)).1 =
      ((conclude c.calls state presentation
        ((verifyPresentation c.calls state presentation).runOver c.outcomes).1).runOver
        ((verifyPresentation c.calls state presentation).exec c.outcomes).2.2).1 := by
    rw [VerifierCall.run, hc]
    rfl
  have hends := Sending.ends_runOver (verifyPresentation c.calls state presentation) c.outcomes
  cases hverify : ((verifyPresentation c.calls state presentation).runOver c.outcomes).1 with
  | ok u =>
    rw [hrun, hverify]
    rw [hverify] at hends
    exact .validated hsent ⟨cs, c, List.prefix_refl _, hs, hc, validate_of_ends hends⟩
  | error err =>
    rw [hrun, hverify]
    have hconclude := Sending.ends_runOver (conclude c.calls state presentation (.error err))
      ((verifyPresentation c.calls state presentation).exec c.outcomes).2.2
    cases hkind : err.kind with
    | invalidProof =>
      simp only [conclude, hkind] at hconclude ⊢
      rcases keep_of_ends_report (s := .presentationRequestSent state) hconclude with hkeep | hkeep
      · rw [hkeep]
        exact .refused hsent ⟨cs, c, List.prefix_refl _, hs, hc, err, hverify, hkind⟩
      · rw [hkeep]
        exact .requested hsent
    | _ =>
      simp only [conclude, hkind] at hconclude ⊢
      rcases keep_of_ends_report (s := .presentationRequestSent state) hconclude with hkeep | hkeep
      · rw [hkeep]
        exact .failed
      · rw [hkeep]
        exact .requested hsent

/-- One call more. -/
theorem Explained.step (h : Explained data cs (verifierAfter data cs)) (c : VerifierCall) :
    Explained data (cs ++ [c]) (verifierAfter data (cs ++ [c])) := by
  have hafter : verifierAfter data (cs ++ [c]) =
      Sending.keep (verifierAfter data cs) (c.run (verifierAfter data cs)).1 := by
    rw [verifierAfter, List.foldl_concat]
    rfl
  have hmore : Explained data (cs ++ [c]) (verifierAfter data cs) :=
    h.mono (List.prefix_append cs [c])
  -- a call that the machine does not heed leaves it where it is
  have hstays : ∀ {s : VerifierState}, verifierAfter data cs = s →
      Verifier.step c.calls s c.message = pure s →
      Explained data (cs ++ [c]) (Sending.keep s (c.run s).1) := by
    intro s hs hpure
    rw [VerifierCall.run, hpure, ← hs]
    exact hmore
  rw [hafter]
  generalize hs : verifierAfter data cs = s at hmore ⊢
  cases hmore with
  | initiated =>
    cases hc : c.message with
    | sendPresentationRequest connectionHandle => exact explained_sendPresentationRequest hc hs
    | _ => exact hstays hs (by rw [hc]; rfl)
  | @requested state hsent =>
    cases hc : c.message with
    | verifyPresentation presentation => exact explained_verifyPresentation hsent hc hs
    | presentationRejectReceived problemReport =>
      rw [VerifierCall.run, hc]
      exact .failed
    | presentationProposalReceived proposal =>
      have hends := Sending.ends_runOver
        (Verifier.step c.calls (.presentationRequestSent state) c.message) c.outcomes
      rw [hc] at hends
      rw [VerifierCall.run, hc]
      rcases keep_of_ends_report (s := .presentationRequestSent state) hends with hkeep | hkeep
      · rw [hkeep]
        exact .failed
      · rw [hkeep]
        exact .requested hsent
    | _ => exact hstays hs (by rw [hc]; rfl)
  | failed => exact .failed
  | refused hsent hrefused => exact .refused hsent hrefused
  | validated hsent hvalidated => exact .validated hsent hvalidated

theorem explained_verifierAfter (data : PresentationRequestData) (cs : List VerifierCall) :
    Explained data cs (verifierAfter data cs) := by
  induction cs using List.reverseRecOn with
  | nil => exact .initiated
  | append_singleton cs c ih => exact ih.step c

end Steps

section Agreement

/-- The state is the accepted one exactly if the status is success or the check of the stored
presentation failed as `InvalidProof`; then the status is that of a failure. The status is success
only for a stored presentation that was validated against the request that was sent. -/
theorem accepted_iff_status (data : PresentationRequestData) (cs : List VerifierCall) :
    ((verifierAfter data cs).stateCode = VcxStateType.accepted.toCode ↔
      (verifierAfter data cs).presentationStatus = Status.success.code ∨
      ∃ state presentation,
        verifierAfter data cs = .finished (state.verified presentation .revoked) ∧
        RequestSent data cs state ∧ RefusedIn data cs state presentation ∧
        (verifierAfter data cs).presentationStatus = (Status.failed revokedReport).code) ∧
    ((verifierAfter data cs).presentationStatus = Status.success.code →
      ∃ state presentation,
        verifierAfter data cs = .finished (state.verified presentation .nonRevoked) ∧
        RequestSent data cs state ∧ ValidatedIn data cs state presentation) := by
  have h := explained_verifierAfter data cs
  generalize verifierAfter data cs = s at h ⊢
  cases h with
  | initiated =>
    simp [VerifierState.stateCode, VerifierState.presentationStatus, VcxStateType.toCode,
      Status.code]
  | requested =>
    simp [VerifierState.stateCode, VerifierState.presentationStatus, VcxStateType.toCode,
      Status.code]
  | failed =>
    simp [VerifierState.stateCode, VerifierState.presentationStatus, VcxStateType.toCode,
      Status.code, PresentationRequestSentState.failed, PresentationRequestSentState.verified]
  | @refused state presentation hsent hrefused =>
    refine ⟨⟨fun _ => .inr ⟨state, presentation, rfl, hsent, hrefused, rfl⟩, fun _ => rfl⟩, ?_⟩
    intro hstatus
    exact absurd (show 2 = 1 from hstatus) (by decide)
  | @validated state presentation hsent hvalidated =>
    exact ⟨⟨fun _ => .inl rfl, fun _ => rfl⟩, fun _ =>
      ⟨state, presentation, rfl, hsent, hvalidated⟩⟩

/-- The request is sent, and the presentation that comes is found to be invalid. -/
def invalidCalls : List VerifierCall :=
  [⟨.sendPresentationRequest 1, verifierCalls, []⟩,
    ⟨.verifyPresentation samplePresentation,
      { verifierCalls with validateIndyProof := fun _ _ => .ok false }, []⟩]

/-- It is accepted as to the state, not as to the status. -/
theorem accepted_of_invalid :
    ¬ ((verifierAfter sampleData invalidCalls).stateCode = VcxStateType.accepted.toCode ↔
    (verifierAfter sampleData invalidCalls).presentationStatus = Status.success.code) := by
  have hstate : (verifierAfter sampleData invalidCalls).stateCode =
      VcxStateType.accepted.toCode := by decide
  have hstatus : (verifierAfter sampleData invalidCalls).presentationStatus ≠
      Status.success.code := by decide
  exact fun h => hstatus (h.mp hstate)

end Agreement

end Verifier

end SimpleAsset.Vcx
