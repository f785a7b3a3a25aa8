import SimpleAsset.Indy.Pool.Votes

/-! What a request handler owes: it answers all of its commands once, when it finishes. -/
namespace SimpleAsset.Indy
open SimpleAsset.Library

/-- Number of answers to a command. -/
def ackCount (c : CommandHandle) (effects : List Effect) : ℕ :=
  ((submitAcks effects).map Prod.fst).count c

@[simp] theorem ackCount_nil (c : CommandHandle) : ackCount c [] = 0 := rfl

@[simp] theorem ackCount_append (c : CommandHandle) (l l' : List Effect) :
    ackCount c (l ++ l') = ackCount c l + ackCount c l' := by
  simp [ackCount]

theorem ackCount_ackAll {c : CommandHandle} {effects : List Effect} {cmdIds : List CommandHandle}
    {answer : Option (Except IndyError String)} (h : submitAcks effects = ackAll cmdIds answer) :
    ackCount c effects = if answer.isSome then cmdIds.count c else 0 := by
  unfold ackCount
  rw [h]
  cases answer with
  | none => rfl
  | some res => simp [ackAll, Function.comp_def]

/-- A started request that answers its commands when it finishes. -/
inductive Serving : RequestState → Prop
  | consensus (s : ConsensusState) : Serving (.consensus s)
  | single (s : SingleState) : Serving (.single s)
  | full (s : FullState) : Serving (.full s)
  | finish : Serving .finish

def RequestState.isFinish : RequestState → Bool
  | finish => true
  | _ => false

/-- Answers a handler still has to give. -/
def owed (c : CommandHandle) (sm : RequestSM) : ℕ := if sm.isTerminal then 0 else sm.cmdIds.count c

section Request
variable {env : Env} {host : Host} {sm sm' : RequestSM} {re : RequestEvent} {r : Reaction}

theorem isTerminal_eq (sm : RequestSM) : sm.isTerminal = sm.state.isFinish := by
  unfold RequestSM.isTerminal RequestState.isFinish
  cases sm.state <;> rfl

/-- The reaction answers all commands and finishes, or answers none and goes on. -/
structure Settles (sm : RequestSM) (r : Reaction) : Prop where
  serving : Serving r.state
  answered : ∃ answer, submitAcks r.effects = ackAll sm.cmdIds answer ∧
    r.state.isFinish = answer.isSome
  event : r.event = none

theorem ConsensusStep.settles {s : ConsensusState} {answer : Option (Except IndyError String)}
    (h : ConsensusStep env sm s re r.state answer)
    (hacks : submitAcks r.effects = ackAll sm.cmdIds answer)
    (hevent : r.event = none) : Settles sm r := by
  generalize hst : r.state = st at h
  have key : Serving st ∧ st.isFinish = answer.isSome := by
    cases h with
    | agree => exact ⟨.finish, rfl⟩
    | wait => exact ⟨.consensus _, rfl⟩
    | fail => exact ⟨.finish, rfl⟩
    | terminate => exact ⟨.finish, rfl⟩
    | idle => exact ⟨.consensus _, rfl⟩
  subst hst
  exact ⟨key.1, ⟨answer, hacks, key.2⟩, hevent⟩

theorem SingleStep.settles {s : SingleState} {answer : Option (Except IndyError String)}
    (h : SingleStep env host sm s re r.state answer)
    (hacks : submitAcks r.effects = ackAll sm.cmdIds answer)
    (hevent : r.event = none) : Settles sm r := by
  generalize hst : r.state = st at h
  have key : Serving st ∧ st.isFinish = answer.isSome := by
    cases h with
    | agree => exact ⟨.finish, rfl⟩
    | proof => exact ⟨.finish, rfl⟩
    | wait => exact ⟨.single _, rfl⟩
    | fail => exact ⟨.finish, rfl⟩
    | terminate => exact ⟨.finish, rfl⟩
    | idle => exact ⟨.single _, rfl⟩
  subst hst
  exact ⟨key.1, ⟨answer, hacks, key.2⟩, hevent⟩

theorem fullRequestHandleConsensusState_settles (s : FullState) (reqId node result : String) :
    Settles sm (fullRequestHandleConsensusState env sm s reqId node result) := by
  unfold fullRequestHandleConsensusState
  extract_lets accum requiredReplyCnt
  split
  · exact ⟨.finish, ⟨some (.ok _), submitAcks_sendReplies _ _, rfl⟩, rfl⟩
  · exact ⟨.full _, ⟨none, rfl, rfl⟩, rfl⟩

theorem handleFull_settles (s : FullState) : Settles sm (handleFull env sm s re) := by
  unfold handleFull
  split
  · exact fullRequestHandleConsensusState_settles ..
  · exact fullRequestHandleConsensusState_settles ..
  · exact fullRequestHandleConsensusState_settles ..
  · exact fullRequestHandleConsensusState_settles ..
  · exact ⟨.finish, ⟨some (.error terminated), submitAcks_sendReplies _ _, rfl⟩, rfl⟩
  · exact ⟨.full s, ⟨none, rfl, rfl⟩, rfl⟩

/-- A serving handler either keeps owing its answers or gives them all. -/
theorem Serving.handleEvent {event : Option PoolEvent} {effects : List Effect}
    (hs : Serving sm.state) (h : sm.handleEvent env host re = .ok (sm', event, effects)) :
    Serving sm'.state ∧ sm'.cmdIds = sm.cmdIds ∧ ∀ c, ackCount c effects +
      owed c sm' = owed c sm := by
  obtain ⟨r, hr, hret⟩ := except_bind_eq_ok.mp h
  cases hret
  have hfinish : sm.state.isFinish = true → r = ⟨.finish, none, []⟩ := by
    intro hst
    unfold RequestSM.react at hr
    generalize sm.state = st at hs hr hst
    cases hs with
    | finish => simpa using hr.symm
    | consensus s => cases hst
    | single s => cases hst
    | full s => cases hst
  by_cases hst : sm.state.isFinish = true
  · rw [hfinish hst]
    refine ⟨.finish, rfl, ?_⟩
    intro c
    have howed : owed c sm = 0 := by rw [owed, isTerminal_eq, if_pos hst]
    rw [howed]
    rfl
  · have hsettles : Settles sm r := by
      unfold RequestSM.react at hr
      generalize sm.state = st at hs hr hst
      cases hs with
      | finish => exact absurd rfl hst
      | consensus s =>
        obtain ⟨answer, hstep, hacks, hevent⟩ := handleConsensus_inv hr
        exact hstep.settles hacks hevent
      | single s =>
        obtain ⟨answer, hstep, hacks, hevent⟩ := handleSingle_inv hr
        exact hstep.settles hacks hevent
      | full s =>
        rw [← Except.ok.inj hr]
        exact handleFull_settles s
    obtain ⟨answer, hacks, hfin⟩ := hsettles.answered
    refine ⟨hsettles.serving, rfl, ?_⟩
    intro c
    rw [ackCount_ackAll hacks]
    simp only [owed, isTerminal_eq, hst, hfin]
    cases answer <;> simp

theorem Serving.handleEvent_terminate (hs : Serving sm.state) {event : Option PoolEvent}
    {effects : List Effect}
    (h : sm.handleEvent env host .terminate = .ok (sm', event, effects)) (c : CommandHandle) :
    ackCount c effects = owed c sm := by
  have howed : owed c sm' = 0 := by
    obtain ⟨r, hr, hret⟩ := except_bind_eq_ok.mp h
    cases hret
    have hfinish : r.state = .finish := by
      unfold RequestSM.react at hr
      generalize sm.state = st at hs hr
      cases hs <;> cases hr <;> rfl
    simp [owed, isTerminal_eq, hfinish, RequestState.isFinish]
  have hsum := (hs.handleEvent h).2.2 c
  omega

/-- The three kinds of requests that commands send. -/
inductive CustomRequest : RequestEvent → Prop
  | consensus (msg reqId : String) : CustomRequest (.customConsensusRequest msg reqId)
  | single (msg reqId : String) (spKey : Option Bytes) (timestamps : Option ℕ × Option ℕ) :
      CustomRequest (.customSingleRequest msg reqId spKey timestamps)
  | full (msg reqId : String) (timeout : Option ℤ) (nodes : Option String) :
      CustomRequest (.customFullRequest msg reqId timeout nodes)

theorem submitAcks_replicate_network (k : ℕ) (e : NetworkerEvent) :
    submitAcks (List.replicate k (.network e)) = [] := by
  induction k with
  | zero => rfl
  | succ k ih => rw [List.replicate_succ, submitAcks_network, ih]

theorem CustomRequest.settles (hreq : CustomRequest re) (hr : handleStart env sm re = .ok r) :
    Settles sm r := by
  cases hreq with
  | consensus msg reqId =>
    cases hr
    exact ⟨.consensus _, ⟨none, rfl, rfl⟩, rfl⟩
  | single msg reqId spKey timestamps =>
    obtain ⟨resends, -, hr⟩ := except_bind_eq_ok.mp hr
    cases hr
    exact ⟨.single _,
      ⟨none, by rw [submitAcks_network, submitAcks_replicate_network, ackAll], rfl⟩, rfl⟩
  | full msg reqId timeout nodes =>
    simp only [handleStart] at hr
    split at hr
    · cases hr
      exact ⟨.full _, ⟨none, rfl, rfl⟩, rfl⟩
    · split at hr
      · cases hr
        exact ⟨.finish, ⟨some (.error _), submitAcks_sendReplies _ _, rfl⟩, rfl⟩
      · split at hr
        · cases hr
          exact ⟨.full _, ⟨none, rfl, rfl⟩, rfl⟩
        · cases hr
          exact ⟨.finish, ⟨some (.error _), submitAcks_sendReplies _ _, rfl⟩, rfl⟩

/-- A new handler owes what it has not answered at once. -/
theorem CustomRequest.handleEvent (hreq : CustomRequest re) (hstart : sm.state = .start)
    {event : Option PoolEvent} {effects : List Effect}
    (h : sm.handleEvent env host re = .ok (sm', event, effects)) :
    Serving sm'.state ∧ sm'.cmdIds = sm.cmdIds ∧ ∀ c, ackCount c effects +
      owed c sm' = sm.cmdIds.count c := by
  obtain ⟨r, hr, hret⟩ := except_bind_eq_ok.mp h
  cases hret
  unfold RequestSM.react at hr
  rw [hstart] at hr
  have hsettles := hreq.settles hr
  obtain ⟨answer, hacks, hfin⟩ := hsettles.answered
  refine ⟨hsettles.serving, rfl, ?_⟩
  intro c
  rw [ackCount_ackAll hacks]
  simp only [owed, isTerminal_eq, hfin]
  cases answer <;> simp

/-- Whatever its state, a handler answers all of its commands alike or none, and never closes the
pool. -/
structure Answers (sm : RequestSM) (r : Reaction) : Prop where
  alike : ∃ answer, submitAcks r.effects = ackAll sm.cmdIds answer
  stays_open : ∀ cmdId, r.event ≠ some (.close cmdId)

theorem Settles.answers (h : Settles sm r) : Answers sm r := by
  obtain ⟨answer, hacks, -⟩ := h.answered
  exact ⟨⟨answer, hacks⟩, by simp [h.event]⟩

theorem handleStart_answers (hr : handleStart env sm re = .ok r) :
    Answers sm r := by
  by_cases hreq : CustomRequest re
  · exact (hreq.settles hr).answers
  · unfold handleStart at hr
    split at hr
    · split at hr
      · cases hr
      · cases hr
        exact ⟨⟨none, rfl⟩, by simp⟩
    · split at hr
      · cases hr
        exact ⟨⟨none, rfl⟩, by simp⟩
      · cases hr
        exact ⟨⟨none, rfl⟩, by simp⟩
      · cases hr
        exact ⟨⟨some (.error _), submitAcks_sendReplies _ _⟩, by simp⟩
      · cases hr
    · exact absurd (.single ..) hreq
    · exact absurd (.full ..) hreq
    · exact absurd (.consensus ..) hreq
    · cases hr
      exact ⟨⟨none, rfl⟩, by simp⟩

theorem processCatchupTarget_event {s s' : CatchupConsensusState} {vote : CatchupVote}
    {node : String} {finished : Bool} {event : Option PoolEvent}
    (h : processCatchupTarget env host sm s vote node = .ok (s', finished, event))
    (cmdId : CommandHandle) :
    event ≠ some (.close cmdId) := by
  unfold processCatchupTarget at h
  dsimp only at h
  split at h <;> cases h <;> simp

theorem handleCatchupConsensus_answers {s : CatchupConsensusState}
    (hr : handleCatchupConsensus env host sm s re = .ok r) :
    Answers sm r := by
  have htarget : ∀ vote node reqId,
      catchupTargetHandleConsensusState env host sm s vote node reqId = .ok r →
      Answers sm r := by
    intro vote node reqId h
    obtain ⟨⟨s', finished, event⟩, hprocess, h⟩ := except_bind_eq_ok.mp h
    have hevent := processCatchupTarget_event hprocess
    dsimp only at h
    split at h
    · cases h
      exact ⟨⟨none, rfl⟩, hevent⟩
    · split at h
      · cases h
        exact ⟨⟨none, rfl⟩, by simp⟩
      · cases h
        exact ⟨⟨none, rfl⟩, hevent⟩
  unfold handleCatchupConsensus at hr
  split at hr
  · exact htarget _ _ _ hr
  · exact htarget _ _ _ hr
  · exact htarget _ _ _ hr
  · cases hr
    exact ⟨⟨some (.error terminated), submitAcks_sendReplies _ _⟩, by simp⟩
  · cases hr
    exact ⟨⟨none, rfl⟩, by simp⟩

theorem handleCatchupSingle_answers {s : CatchupSingleState}
    (hr : handleCatchupSingle env host sm s re = .ok r) :
    Answers sm r := by
  unfold handleCatchupSingle at hr
  split at hr
  · split at hr
    · cases hr
      exact ⟨⟨none, rfl⟩, by simp⟩
    · cases hr
      exact ⟨⟨none, rfl⟩, by simp⟩
    · cases hr
  · cases hr
    exact ⟨⟨none, rfl⟩, by simp⟩
  · cases hr
    exact ⟨⟨some (.error terminated), submitAcks_sendReplies _ _⟩, by simp⟩
  · cases hr
    exact ⟨⟨none, rfl⟩, by simp⟩

theorem react_answers (hr : sm.react env host re = .ok r) : Answers sm r := by
  unfold RequestSM.react at hr
  split at hr
  · exact handleStart_answers hr
  · obtain ⟨answer, -, hacks, hevent⟩ := handleConsensus_inv hr
    exact ⟨⟨answer, hacks⟩, by simp [hevent]⟩
  · obtain ⟨answer, -, hacks, hevent⟩ := handleSingle_inv hr
    exact ⟨⟨answer, hacks⟩, by simp [hevent]⟩
  · exact handleCatchupConsensus_answers hr
  · exact handleCatchupSingle_answers hr
  · rename_i s _
    cases hr
    exact (handleFull_settles s).answers
  · cases hr
    exact ⟨⟨none, rfl⟩, by simp⟩

/-- Without commands there is nobody to answer. -/
theorem submitAcks_of_no_commands (hcmd : sm.cmdIds = []) {event : Option PoolEvent}
    {effects : List Effect} (h : sm.handleEvent env host re = .ok (sm', event, effects)) :
    submitAcks effects = [] ∧ sm'.cmdIds = [] := by
  obtain ⟨r, hr, hret⟩ := except_bind_eq_ok.mp h
  cases hret
  obtain ⟨answer, hacks⟩ := (react_answers hr).alike
  refine ⟨?_, hcmd⟩
  rw [hacks, hcmd]
  cases answer <;> rfl

end Request

end SimpleAsset.Indy
