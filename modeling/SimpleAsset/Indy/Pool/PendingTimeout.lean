import Mathlib.Data.Nat.ModEq
import SimpleAsset.Library.RoundRobin
import SimpleAsset.Indy.Pool.Networker
import SimpleAsset.Indy.Pool.Votes

/-! A request with the connection that serves it: when the request is left without a pending
timeout. -/
namespace SimpleAsset.Indy
open SimpleAsset.Library

/-- A request and the connection it is sent on. -/
structure ServedRequest where
  sm : RequestSM
  conn : Connection

abbrev ServedEvent := (RequestEvent × Host) × Wire

namespace ServedRequest

/-- The handler takes an event, and the connection does what the handler asks for. -/
def step (env : Env) (sys : ServedRequest) (e : ServedEvent) :
    Outcome (ServedRequest × List Effect) := do
  let (sm, effects) ← sys.sm.step env e.1
  let conn ← sys.conn.processEffects e.2 effects
  return (⟨sm, conn⟩, effects)

def run (env : Env) (sys : ServedRequest) (events : List ServedEvent) :
    Outcome (ServedRequest × List Effect) :=
  runSteps (step env) sys events

/-- As long as it goes on, the request has an entry in the connection's timeouts. -/
def Waits (sys : ServedRequest) (reqId : String) : Prop :=
  sys.sm.state ≠ .finish → ∃ pc node, sys.conn = some pc ∧ (reqId, node) ∈ pc.timeouts

/-- The request is in state `Single` or `CatchupSingle`; the connection to these nodes has sent it
again `cnt` times and waits for an answer. -/
structure Serves (sys : ServedRequest) (names : List String) (reqId : String) (cnt : ℕ) : Prop where
  nonempty : names ≠ []
  nodup : names.Nodup
  len : sys.sm.nodes.len = names.length
  sent : sys.conn.Sent names reqId cnt
  pending : (sys.conn.pending reqId).Nonempty
  state : match sys.sm.state with
    | .single _ => True
    | .catchupSingle s => s.reqId = reqId
    | _ => False

end ServedRequest

namespace CatchupSingleState
variable (env : Env) (s : CatchupSingleState)

/-- Events that make a catch-up request send again, with the node whose timeout they clean. -/
def retry (e : ServedEvent) : Option (Option String) :=
  match e.1.1 with
  | .catchupRep rep node =>
    match processCatchupReply env e.1.2 rep s.merkle s.targetMtRoot s.targetMtSize with
    | .error (.err _) => some (some node)
    | _ => none
  | .timeout reqId node => some (if reqId = s.reqId then some node else none)
  | _ => none

/-- Events that end a catch-up request. -/
def Ends (e : ServedEvent) : Prop :=
  match e.1.1 with
  | .catchupRep rep _ => ∃ merkle,
      processCatchupReply env e.1.2 rep s.merkle s.targetMtRoot s.targetMtSize = .ok merkle
  | .terminate => True
  | _ => False

/-- The retries so far, latest first. -/
def retries (events : List ServedEvent) : List (Option String) :=
  events.reverse.filterMap (s.retry env)

end CatchupSingleState

/-- At no point of a catch-up request that goes on have all nodes been cleaned that it waited for at
the start, with each of the last retries (as many as there are nodes) due to the very node that it
is sent to again. -/
def AvoidsOwnNode (env : Env) (sys : ServedRequest) (names : List String) (reqId : String) (cnt : ℕ)
    (events : List ServedEvent) : Prop :=
  ∀ s, sys.sm.state = .catchupSingle s → ∀ pre, pre <+: events → (∀ e ∈ pre, ¬ s.Ends env e) →
    ¬ ((∀ node ∈ sys.conn.pending reqId, some node ∈ s.retries env pre) ∧
      ClosedOwn (fun i => pickNode names (cnt + 1 + i)) names.length (s.retries env pre))

section Picks
variable {names : List String}

theorem pickNode_add_length (i : ℕ) : pickNode names (i + names.length) = pickNode names i := by
  rw [pickNode, Nat.add_mod_right, pickNode]

theorem pickNode_ne (hnodup : names.Nodup) {i j : ℕ} (hlt : i < j) (hnear : j < i + names.length) :
    pickNode names i ≠ pickNode names j := by
  have hi : i % names.length < names.length := Nat.mod_lt _ (by omega)
  have hj : j % names.length < names.length := Nat.mod_lt _ (by omega)
  intro heq
  rw [pickNode, pickNode, List.getD_eq_getElem?_getD, List.getD_eq_getElem?_getD,
    List.getElem?_eq_getElem hi, List.getElem?_eq_getElem hj] at heq
  have hmod : i % names.length = j % names.length := (hnodup.getElem_inj_iff).mp heq
  have hle := Nat.le_of_dvd (by omega) ((Nat.modEq_iff_dvd' hlt.le).mp hmod)
  omega

theorem openPlaces_pickNode_eq_empty_iff (hnodup : names.Nodup) (hne : names ≠ []) (cnt : ℕ)
    (start : Finset String) (rounds : List (Option String)) :
    openPlaces (fun i => pickNode names (cnt + i)) start rounds = ∅ ↔
      (∀ a ∈ start, some a ∈ rounds) ∧
      ClosedOwn (fun i => pickNode names (cnt + i)) names.length rounds := by
  apply openPlaces_eq_empty_iff
  · intro i
    rw [← Nat.add_assoc]
    exact pickNode_add_length _
  · intro i j hlt hnear
    exact pickNode_ne hnodup (by omega) (by omega)
  · exact List.length_pos_iff.mpr hne

end Picks

namespace ServedRequest
variable {env : Env} {sys sys' : ServedRequest} {e : ServedEvent} {effects : List Effect}
    {names : List String}
  {reqId : String} {cnt : ℕ}

theorem waits_iff : sys.Waits reqId ↔
    (sys.sm.state ≠ .finish → (sys.conn.pending reqId).Nonempty) := by
  apply imp_congr_right
  intro _
  constructor
  · rintro ⟨pc, node, hconn, hnode⟩
    rw [hconn]
    exact ⟨node, PoolConnection.mem_pending.mpr hnode⟩
  · rintro ⟨node, hnode⟩
    rcases hconn : sys.conn with _ | pc
    · rw [hconn] at hnode
      exact absurd hnode (Finset.notMem_empty node)
    · rw [hconn] at hnode
      exact ⟨pc, node, rfl, PoolConnection.mem_pending.mp hnode⟩

theorem step_inv (h : sys.step env e = .ok (sys', effects)) :
    ∃ r, sys.sm.react env e.1.2 e.1.1 = .ok r ∧ sys'.sm = { sys.sm with state := r.state } ∧
      sys.conn.processEffects e.2 r.effects = .ok sys'.conn := by
  obtain ⟨⟨sm, out⟩, hsm, hrest⟩ := except_bind_eq_ok.mp h
  obtain ⟨conn, hconn, hret⟩ := except_bind_eq_ok.mp hrest
  cases hret
  obtain ⟨r, hr, rfl, rfl⟩ := RequestSM.step_inv hsm
  exact ⟨r, hr, rfl, hconn⟩

end ServedRequest

theorem Connection.processEffects_network {wire : Wire} {conn conn' : Connection}
    {pe : NetworkerEvent}
    {effects : List Effect} : conn.processEffects wire (.network pe :: effects) = .ok conn' ↔
      ∃ conn₁, conn.processEvent wire pe = .ok conn₁ ∧
        conn₁.processEffects wire effects = .ok conn' :=
  except_bind_eq_ok

section Single
variable {env : Env} {host : Host} {sm : RequestSM} {re : RequestEvent} {r : Reaction}

/-- What a request in state `Single` that goes on asks of the connection. -/
def SingleNetwork (sm : RequestSM) (effects : List Effect) : Prop :=
  effects = [] ∨
    (∃ reqId node, effects = [.network (.extendTimeout reqId node sm.extendedTimeout)]) ∨
  ∃ reqId node, 1 < sm.nodes.len ∧
    effects = [.network (.resend reqId sm.timeout), .network (.resend reqId sm.timeout),
    .network (.cleanTimeout reqId (some node))]

theorem tryToContinue_network {s : SingleState}
    (hheard : 0 < s.timeoutNodes.card + s.deniedNodes.card + s.replies.total)
    (reqId node : String) :
    (s.tryToContinue sm reqId node).state = .finish ∨
    (∃ s', (s.tryToContinue sm reqId node).state = .single s') ∧
      SingleNetwork sm (s.tryToContinue sm reqId node).effects := by
  unfold SingleState.tryToContinue
  split
  · rename_i hgo
    rw [SingleState.isConsensusReachable, decide_eq_true_eq] at hgo
    exact .inr ⟨⟨s, rfl⟩, .inr (.inr ⟨reqId, node, by omega, rfl⟩)⟩
  · exact .inl rfl

theorem singleReply_network {s : SingleState} {msg node reqId : String}
    (h : singleReply env host sm s msg node reqId = .ok r) :
    r.state = .finish ∨ (∃ s', r.state = .single s') ∧ SingleNetwork sm r.effects := by
  unfold singleReply at h
  dsimp only at h
  split at h
  · rename_i result v hv
    split at h
    · cases h
      exact .inl rfl
    · obtain ⟨passed, -, h⟩ := except_bind_eq_ok.mp h
      cases passed with
      | true =>
        cases h
        exact .inl rfl
      | false =>
        cases h
        apply tryToContinue_network
        exact Nat.add_pos_right _ (Tally.total_vote_pos v node _ s.replies)
  · cases h
    apply tryToContinue_network
    have hdenied : 0 < (insert node s.deniedNodes).card :=
      Finset.card_pos.mpr ⟨node, Finset.mem_insert_self _ _⟩
    dsimp only
    omega

/-- Every event that leaves a request in state `Single` asks for one of these. -/
theorem handleSingle_network {s : SingleState} (h : handleSingle env host sm s re = .ok r) :
    r.state = .finish ∨ (∃ s', r.state = .single s') ∧ SingleNetwork sm r.effects := by
  unfold handleSingle at h
  split at h
  · exact singleReply_network h
  · exact singleReply_network h
  · exact singleReply_network h
  · cases h
    exact .inr ⟨⟨s, rfl⟩, .inr (.inl ⟨_, _, rfl⟩)⟩
  · rename_i reqId node
    cases h
    apply tryToContinue_network
    have htimeout : 0 < (insert node s.timeoutNodes).card :=
      Finset.card_pos.mpr ⟨node, Finset.mem_insert_self _ _⟩
    dsimp only
    omega
  · cases h
    exact .inl rfl
  · cases h
    exact .inr ⟨⟨s, rfl⟩, .inl rfl⟩

end Single

namespace ServedRequest
variable {env : Env} {sys sys' : ServedRequest} {e : ServedEvent} {effects : List Effect}
    {names : List String}
  {reqId : String} {cnt : ℕ}

/-- A single request that goes on keeps an entry: it is sent to two different nodes, and one is
cleaned. -/
theorem single_step {s : SingleState} (hnodup : names.Nodup)
    (hlen : sys.sm.nodes.len = names.length)
    (hstate : sys.sm.state = .single s) (hsent : sys.conn.Sent names reqId cnt)
    (hpending : (sys.conn.pending reqId).Nonempty) (h : sys.step env e = .ok (sys', effects)) :
    sys'.sm.state = .finish ∨ (∃ s', sys'.sm.state = .single s') ∧
    (∃ cnt', sys'.conn.Sent names reqId cnt') ∧
      (sys'.conn.pending reqId).Nonempty := by
  obtain ⟨r, hr, hsm, hconn⟩ := step_inv h
  rw [hsm]
  rw [RequestSM.react, hstate] at hr
  rcases handleSingle_network hr with hfinish | ⟨hsingle, hnetwork⟩
  · exact .inl hfinish
  · refine .inr ⟨hsingle, ?_⟩
    rcases hnetwork with heff | ⟨r', a, heff⟩ | ⟨r', a, hmany, heff⟩
    · rw [heff] at hconn
      rw [← Except.ok.inj hconn]
      exact ⟨⟨cnt, hsent⟩, hpending⟩
    · rw [heff, Connection.processEffects_network] at hconn
      obtain ⟨conn₁, hextend, hrest⟩ := hconn
      cases hrest
      obtain ⟨hsent₁, hpending₁⟩ := hsent.extendTimeout hextend
      exact ⟨⟨cnt, hsent₁⟩, by rwa [hpending₁]⟩
    · rw [heff, Connection.processEffects_network] at hconn
      obtain ⟨conn₁, hfirst, hconn⟩ := hconn
      obtain ⟨conn₂, hsecond, hconn⟩ := Connection.processEffects_network.mp hconn
      obtain ⟨conn₃, hclean, hrest⟩ := Connection.processEffects_network.mp hconn
      cases hrest
      by_cases hr' : r' = reqId
      · subst hr'
        obtain ⟨hsent₁, hpending₁⟩ := hsent.resend hfirst
        obtain ⟨hsent₂, hpending₂⟩ := hsent₁.resend hsecond
        obtain ⟨hpending₃, hsent₃⟩ := hsent₂.cleanTimeout hclean
        have hdiff : pickNode names (cnt + 1) ≠ pickNode names (cnt + 1 + 1) :=
          pickNode_ne hnodup (by omega) (by omega)
        have hkept : (sys'.conn.pending r').Nonempty := by
          rw [hpending₃, if_pos rfl, hpending₂, hpending₁]
          by_cases ha : pickNode names (cnt + 1) = a
          · exact ⟨pickNode names (cnt + 1 + 1), by simp [← ha, Ne.symm hdiff]⟩
          · exact ⟨pickNode names (cnt + 1), by simp [ha]⟩
        exact ⟨⟨_, hsent₃ hkept⟩, hkept⟩
      · obtain ⟨hsent₁, hpending₁⟩ := hsent.resend_ne hr' hfirst
        obtain ⟨hsent₂, hpending₂⟩ := hsent₁.resend_ne hr' hsecond
        obtain ⟨hpending₃, hsent₃⟩ := hsent₂.cleanTimeout hclean
        have hkept : (sys'.conn.pending reqId).Nonempty := by
          rwa [hpending₃, if_neg hr', hpending₂, hpending₁]
        exact ⟨⟨_, hsent₃ hkept⟩, hkept⟩

/-- A retry of a catch-up sends to the next node and cleans one entry. -/
theorem sent_of_retry {conn conn' : Connection} {wire : Wire} {r a : String} {timeout : ℤ}
    (hsent : conn.Sent names reqId cnt)
    (h : conn.processEffects wire
      [.network (.resend reqId timeout), .network (.cleanTimeout r (some a))] = .ok conn') :
    conn'.pending reqId = (insert (pickNode names (cnt + 1)) (conn.pending reqId)).filter
      (fun x => some x ≠ if r = reqId then some a else none) ∧
    ((conn'.pending reqId).Nonempty → conn'.Sent names reqId (cnt + 1)) := by
  obtain ⟨conn₁, hresend, hconn⟩ := Connection.processEffects_network.mp h
  obtain ⟨conn₂, hclean, hrest⟩ := Connection.processEffects_network.mp hconn
  cases hrest
  obtain ⟨hsent₁, hpending₁⟩ := hsent.resend hresend
  obtain ⟨hpending₂, hsent₂⟩ := hsent₁.cleanTimeout hclean
  refine ⟨?_, hsent₂⟩
  rw [hpending₂, hpending₁]
  ext x
  split <;> simp [and_comm]

/-- One event at a catch-up request. -/
theorem catchup_step {s : CatchupSingleState} (hstate : sys.sm.state = .catchupSingle s)
    (hsent : sys.conn.Sent names s.reqId cnt) (h : sys.step env e = .ok (sys', effects)) :
    (s.Ends env e ∧ sys'.sm.state = .finish) ∨ ¬ s.Ends env e ∧ sys'.sm.state = .catchupSingle s ∧
      match s.retry env e with
      | none => sys'.conn.Sent names s.reqId cnt ∧
          sys'.conn.pending s.reqId = sys.conn.pending s.reqId
      | some closed =>
        sys'.conn.pending s.reqId =
          (insert (pickNode names (cnt + 1)) (sys.conn.pending s.reqId)).filter
          (fun a => some a ≠ closed) ∧
        ((sys'.conn.pending s.reqId).Nonempty → sys'.conn.Sent names s.reqId (cnt + 1)) := by
  obtain ⟨r, hr, hsm, hconn⟩ := step_inv h
  rw [hsm]
  rw [RequestSM.react, hstate] at hr
  obtain ⟨⟨re, host⟩, wire⟩ := e
  dsimp only at hr hconn
  have hidle : r = ⟨.catchupSingle s, none, []⟩ →
      sys'.conn.Sent names s.reqId cnt ∧ sys'.conn.pending s.reqId = sys.conn.pending s.reqId := by
    intro hr
    rw [hr] at hconn
    rw [← Except.ok.inj hconn]
    exact ⟨hsent, rfl⟩
  unfold handleCatchupSingle at hr
  split at hr
  · rename_i rep node
    simp only [CatchupSingleState.Ends, CatchupSingleState.retry]
    split at hr
    · rename_i merkle hok
      cases hr
      exact .inl ⟨⟨merkle, hok⟩, rfl⟩
    · rename_i err hrejected
      cases hr
      rw [hrejected]
      refine .inr ⟨by simp, rfl, ?_⟩
      have hretry := sent_of_retry hsent hconn
      rwa [if_pos rfl] at hretry
    · cases hr
  · rename_i r' node
    cases hr
    exact .inr ⟨by simp [CatchupSingleState.Ends], rfl, sent_of_retry hsent hconn⟩
  · cases hr
    exact .inl ⟨trivial, rfl⟩
  · rename_i hrep htimeout hterminate
    cases hr
    have hnone : s.retry env ((re, host), wire) = none := by
      unfold CatchupSingleState.retry
      split
      · rename_i heq
        exact (hrep _ _ heq).elim
      · rename_i heq
        exact (htimeout _ _ heq).elim
      · rfl
    have hnot : ¬ s.Ends env ((re, host), wire) := by
      unfold CatchupSingleState.Ends
      split
      · rename_i heq
        exact (hrep _ _ heq).elim
      · rename_i heq
        exact (hterminate heq).elim
      · exact not_false
    rw [hnone]
    exact .inr ⟨hnot, rfl, hidle rfl⟩

/-- How a catch-up request stands after these events. -/
structure Tracked (env : Env) (sys : ServedRequest) (s : CatchupSingleState)
    (names : List String) (cnt : ℕ) (events : List ServedEvent) (sys' : ServedRequest) : Prop where
  state : sys'.sm.state = .catchupSingle s
  goesOn : ∀ e ∈ events, ¬ s.Ends env e
  pending : sys'.conn.pending s.reqId =
    openPlaces (fun i => pickNode names (cnt + 1 + i)) (sys.conn.pending s.reqId)
    (s.retries env events)
  sent : (sys'.conn.pending s.reqId).Nonempty →
    sys'.conn.Sent names s.reqId (cnt + (s.retries env events).length)

theorem Tracked.step {s : CatchupSingleState} {events : List ServedEvent} {sys₀ : ServedRequest}
    (ht : Tracked env sys₀ s names cnt events sys) (hpending : (sys.conn.pending s.reqId).Nonempty)
    (h : sys.step env e = .ok (sys', effects)) :
    sys'.sm.state = .finish ∧ s.Ends env e ∨ Tracked env sys₀ s names cnt (events ++ [e]) sys' := by
  have hgoesOn : ¬ s.Ends env e → ∀ e' ∈ events ++ [e], ¬ s.Ends env e' := by
    intro he e' he'
    rcases List.mem_append.mp he' with hold | hnew
    · exact ht.goesOn e' hold
    · rwa [List.mem_singleton.mp hnew]
  have hretries : s.retries env (events ++ [e]) =
      ((s.retry env e).toList ++ s.retries env events) := by
    simp only [CatchupSingleState.retries, List.reverse_append, List.reverse_singleton,
      List.singleton_append, List.filterMap_cons]
    rcases s.retry env e with _ | closed <;> rfl
  rcases catchup_step ht.state (ht.sent hpending) h with ⟨hends, hfinish⟩ | ⟨hnot, hstate, hconn⟩
  · exact .inl ⟨hfinish, hends⟩
  · rcases hretry : s.retry env e with _ | closed
    · rw [hretry] at hconn hretries
      refine .inr ⟨hstate, hgoesOn hnot, ?_, fun _ => ?_⟩
      · rw [hconn.2, ht.pending, hretries]
        rfl
      · rw [hretries]
        exact hconn.1
    · rw [hretry] at hconn hretries
      refine .inr ⟨hstate, hgoesOn hnot, ?_, ?_⟩
      · rw [hconn.1, hretries, ht.pending]
        simp only [Option.toList_some, List.singleton_append, openPlaces]
        rw [Nat.add_right_comm]
      · intro hne
        rw [hretries]
        exact hconn.2 hne

theorem tracked_of_run {s : CatchupSingleState} {events : List ServedEvent}
    (hstate : sys.sm.state = .catchupSingle s) (hsent : sys.conn.Sent names s.reqId cnt)
    (hwaits : EveryStep (ServedRequest.step env) (fun sys _ => sys.Waits s.reqId) sys events)
    (hrun : sys.run env events = .ok (sys', effects)) :
    sys'.sm.state = .finish ∧ (∃ e ∈ events, s.Ends env e) ∨
    Tracked env sys s names cnt events sys' := by
  refine runSteps_invariant (C := fun sys _ => sys.Waits s.reqId)
    (P := fun pre _ sys' => sys'.sm.state = .finish ∧ (∃ e ∈ pre, s.Ends env e) ∨
      Tracked env sys s names cnt pre sys')
    (.inr ⟨hstate, by simp, rfl, fun _ => hsent⟩) ?_ hwaits hrun
  intro pre out s₁ e s₂ out' hs₁ hwait hstep
  rcases hs₁ with ⟨hfinish, e', he', hends⟩ | htracked
  · obtain ⟨r, hr, hsm, -⟩ := step_inv hstep
    rw [RequestSM.react, hfinish] at hr
    cases hr
    exact .inl ⟨by rw [hsm], e', List.mem_append_left _ he', hends⟩
  · have hgoes : s₁.sm.state ≠ .finish := by
      rw [htracked.state]
      exact RequestState.noConfusion
    rcases htracked.step (waits_iff.mp hwait hgoes) hstep with ⟨hfinish, hends⟩ | htracked'
    · exact .inl ⟨hfinish, e, by simp, hends⟩
    · exact .inr htracked'

/-- A request in state `Single` never loses its last entry. -/
theorem waits_of_single {s : SingleState} {events : List ServedEvent}
    (hs : sys.Serves names reqId cnt)
    (hstate : sys.sm.state = .single s) (hrun : sys.run env events = .ok (sys', effects)) :
    sys'.Waits reqId := by
  have hinv := runSteps_invariant (C := fun _ _ => True)
    (P := fun _ _ (sys' : ServedRequest) => sys'.sm.nodes = sys.sm.nodes ∧
      (sys'.sm.state = .finish ∨
      (∃ s', sys'.sm.state = .single s') ∧ (∃ cnt', sys'.conn.Sent names reqId cnt') ∧
      (sys'.conn.pending reqId).Nonempty))
    ⟨rfl, .inr ⟨⟨s, hstate⟩, ⟨cnt, hs.sent⟩, hs.pending⟩⟩
    (by
      intro pre out s₁ e s₂ out' ⟨hnodes, hs₁⟩ _ hstep
      obtain ⟨r, hr, hsm, -⟩ := step_inv hstep
      refine ⟨by rw [hsm, ← hnodes], ?_⟩
      rcases hs₁ with hfinish | ⟨⟨s', hsingle⟩, ⟨cnt', hsent⟩, hpending⟩
      · rw [RequestSM.react, hfinish] at hr
        cases hr
        exact .inl (by rw [hsm])
      · exact single_step hs.nodup (by rw [hnodes, hs.len]) hsingle hsent hpending hstep)
    (fun _ _ _ _ _ _ => trivial) hrun
  rw [waits_iff]
  intro hgoes
  exact (hinv.2.resolve_left hgoes).2.2

theorem Tracked.waits_iff_not_closed {s : CatchupSingleState} {events : List ServedEvent}
    {sys₀ : ServedRequest}
    (ht : Tracked env sys₀ s names cnt events sys) (hnodup : names.Nodup) (hne : names ≠ []) :
    sys.Waits s.reqId ↔ ¬ ((∀ node ∈ sys₀.conn.pending s.reqId, some node ∈ s.retries env events) ∧
      ClosedOwn (fun i => pickNode names (cnt + 1 + i)) names.length (s.retries env events)) := by
  have hgoes : sys.sm.state ≠ .finish := by
    rw [ht.state]
    exact RequestState.noConfusion
  rw [waits_iff, imp_iff_right hgoes, ht.pending, Finset.nonempty_iff_ne_empty, ne_eq,
    openPlaces_pickNode_eq_empty_iff hnodup hne]

/-- A catch-up request keeps an entry as long as every point before it avoids the node it is sent
to. -/
theorem waits_of_avoidsOwnNode {s : CatchupSingleState} {events : List ServedEvent}
    (hs : sys.Serves names s.reqId cnt) (hstate : sys.sm.state = .catchupSingle s)
    (havoid : AvoidsOwnNode env sys names s.reqId cnt events)
    (hrun : sys.run env events = .ok (sys', effects)) :
    EveryStep (ServedRequest.step env) (fun sys _ => sys.Waits s.reqId) sys events ∧
    sys'.Waits s.reqId := by
  -- along the run; the invariant of the steps so far gives the next state
  have hnext : ∀ pre sys₁ out₁, pre <+: events → sys.run env pre = .ok (sys₁, out₁) →
      EveryStep (ServedRequest.step env) (fun sys _ => sys.Waits s.reqId) sys pre →
      sys₁.Waits s.reqId := by
    intro pre sys₁ out₁ hpre hrun₁ hwaits
    rcases tracked_of_run hstate hs.sent hwaits hrun₁ with ⟨hfinish, -⟩ | htracked
    · exact fun hgoes => absurd hfinish hgoes
    · exact (htracked.waits_iff_not_closed hs.nodup hs.nonempty).mpr
        (havoid s hstate pre hpre htracked.goesOn)
  suffices hsteps : ∀ pre, pre <+: events →
      EveryStep (ServedRequest.step env) (fun sys _ => sys.Waits s.reqId) sys pre by
    have hall := hsteps events (List.prefix_refl _)
    exact ⟨hall, hnext events sys' effects (List.prefix_refl _) hrun hall⟩
  intro pre hpre
  induction pre using List.reverseRecOn with
  | nil => exact everyStep_nil
  | append_singleton pre e ih =>
    have hpre' := (List.prefix_append pre [e]).trans hpre
    obtain ⟨sys₁, out₁, hrun₁⟩ := exists_runSteps_of_prefix hpre' hrun
    exact (everyStep_concat_iff hrun₁).mpr ⟨ih hpre', hnext pre sys₁ out₁ hpre' hrun₁ (ih hpre')⟩

/-- A wire on which everything is sent, for examples. -/
def sampleWire : Wire := ⟨0, fun _ => .ok (), fun _ _ => .ok ()⟩

/-- A connection to two nodes that has sent the request `13` to the first one, for examples. -/
def sampleConnection : PoolConnection where
  nodes := [⟨"n1", [], "", false⟩, ⟨"n2", [], "", false⟩]
  sockets := [true, false]
  resend := (∅ : Table String (ℕ × String)).insert "13" (0, "")
  timeouts := (∅ : Table (String × String) ℤ).insert ("13", "n1") 20000
  timeCreated := 0
  reqCnt := 1
  activeTimeout := 5

/-- A catch-up from the empty ledger to three transactions, for examples. -/
def sampleCatchup : ServedRequest where
  sm := { RequestSM.new 0 [] (((∅ : Nodes).insert "n1" none).insert "n2" none) 20 60 2 with
    state := .catchupSingle ⟨[0, 3], 3, .default, "13"⟩ }
  conn := some sampleConnection

theorem serves_sampleCatchup : sampleCatchup.Serves ["n1", "n2"] "13" 0 :=
  ⟨by simp, by decide, rfl, ⟨_, "", rfl, rfl, rfl⟩, by decide, rfl⟩

/-- Both nodes time out, then an answer of the second is rejected and the first times out again, for
examples. -/
def lateAnswer : List ServedEvent :=
  [.timeout "13" "n1", .timeout "13" "n2", .catchupRep ⟨0, ["?"], ∅⟩ "n2", .timeout "13" "n1"].map
    fun re => ((re, sampleHost), sampleWire)

/-- A request has a pending timeout after every handled event exactly under the condition. -/
theorem waits_throughout_iff {events : List ServedEvent} {r : ServedRequest × List Effect}
    (hs : sys.Serves names reqId cnt) (hrun : sys.run env events = .ok r) :
    (∀ pre sys' out, pre <+: events → sys.run env pre = .ok (sys', out) → sys'.Waits reqId) ↔
      AvoidsOwnNode env sys names reqId cnt events := by
  constructor
  · intro h s hstate pre hpre hgoes
    obtain rfl : s.reqId = reqId := by simpa [hstate] using hs.state
    obtain ⟨sys₁, out₁, hrun₁⟩ := exists_runSteps_of_prefix hpre hrun
    have hwaits : EveryStep (ServedRequest.step env) (fun sys _ => sys.Waits s.reqId) sys pre := by
      intro pre' e sys₂ out₂ hpre' hrun₂
      exact h pre' sys₂ out₂ (((List.prefix_append pre' [e]).trans hpre').trans hpre) hrun₂
    rcases tracked_of_run hstate hs.sent hwaits hrun₁ with ⟨-, e, he, hends⟩ | htracked
    · exact absurd hends (hgoes e he)
    · exact (htracked.waits_iff_not_closed hs.nodup hs.nonempty).mp (h pre sys₁ out₁ hpre hrun₁)
  · intro havoid pre sys' out hpre hrun'
    have hkind := hs.state
    split at hkind
    · rename_i s hstate
      exact waits_of_single hs hstate hrun'
    · rename_i s hstate
      subst hkind
      refine (waits_of_avoidsOwnNode hs hstate ?_ hrun').2
      intro s' hstate' pre' hpre'
      exact havoid s' hstate' pre' (hpre'.trans hpre)
    · exact hkind.elim

theorem waits_throughout_iff_two : ∃ r, sampleCatchup.run sampleEnv lateAnswer = .ok r ∧
    ((∀ pre sys' out, pre <+: lateAnswer → sampleCatchup.run sampleEnv pre = .ok (sys', out) →
      sys'.Waits "13") ↔
      AvoidsOwnNode sampleEnv sampleCatchup ["n1", "n2"] "13" 0 lateAnswer) := by
  obtain ⟨r, hrun⟩ : ∃ r, sampleCatchup.run sampleEnv lateAnswer = .ok r :=
    ⟨_, by with_unfolding_all rfl⟩
  exact ⟨r, hrun, waits_throughout_iff serves_sampleCatchup hrun⟩

/-- Timeouts fire for entries of the connection. -/
def Fires (sys : ServedRequest) (e : ServedEvent) : Prop :=
  ∀ reqId node, e.1.1 = .timeout reqId node → ∃ pc, sys.conn = some pc ∧ (reqId, node) ∈ pc.timeouts

/-- Both times the node that is asked again is the one whose entry is cleaned next. -/
theorem not_waits_late_answer : sampleCatchup.Serves ["n1", "n2"] "13" 0 ∧
    EveryStep (ServedRequest.step sampleEnv) Fires sampleCatchup lateAnswer ∧
    ∃ sys' out, sampleCatchup.run sampleEnv lateAnswer = .ok (sys', out) ∧ ¬ sys'.Waits "13" := by
  refine ⟨serves_sampleCatchup, ?_, _, _, by with_unfolding_all rfl, ?_⟩
  · refine EveryStep.cons ?_ ?_
    · rintro _ _ ⟨⟩
      exact ⟨_, rfl, by decide⟩
    intro sys₁ out₁ h₁
    cases h₁
    refine EveryStep.cons ?_ ?_
    · rintro _ _ ⟨⟩
      exact ⟨_, rfl, by decide⟩
    intro sys₂ out₂ h₂
    cases h₂
    refine EveryStep.cons ?_ ?_
    · rintro _ _ ⟨⟩
    intro sys₃ out₃ h₃
    with_unfolding_all cases h₃
    refine EveryStep.cons ?_ ?_
    · rintro _ _ ⟨⟩
      exact ⟨_, rfl, by decide⟩
    intro sys₄ out₄ _
    exact everyStep_nil
  · intro hwaits
    obtain ⟨pc, node, hconn, hmem⟩ := hwaits RequestState.noConfusion
    cases hconn
    exact absurd (AList.mem_keys.mp hmem) List.not_mem_nil

end ServedRequest
end SimpleAsset.Indy
