import SimpleAsset.Indy.Pool.Answers
import SimpleAsset.Indy.Pool.Pool

/-! Which submitted requests are answered: the pool loses the answers of handlers it drops and of
requests it does not take. -/
namespace SimpleAsset.Indy
open SimpleAsset.Library

/-- Answers the pool still has to give to a command. -/
def pending (c : CommandHandle) : PoolState → ℕ
  | .active s => Table.total (owed c) s.requestHandlers
  | _ => 0

/-- Handlers of an active pool serve one command each, the one of a catch-up serves none. -/
def PoolState.WellServed : PoolState → Prop
  | .active s => ∀ k sm, s.requestHandlers.lookup k = some sm → Serving sm.state ∧
      ∃ c, sm.cmdIds = [c]
  | .gettingCatchupTarget s => s.requestHandler.cmdIds = []
  | .syncCatchup s => s.requestHandler.cmdIds = []
  | _ => True

def PoolState.isClosed : PoolState → Bool
  | closed => true
  | _ => false

def PoolEvent.isClose : PoolEvent → Bool
  | .close _ => true
  | _ => false

/-- The event submits a request for this command. -/
def PoolEvent.asks (c : CommandHandle) : PoolEvent → Bool
  | .sendRequest cmdId _ _ _ => cmdId = c
  | _ => false

/-- Number of requests submitted for a command before the pool is closed. -/
def requested (c : CommandHandle) (events : List PoolEvent) : ℕ :=
  (events.takeWhile fun pe => !pe.isClose).countP (PoolEvent.asks c)

/-- Every submitted request is answered exactly once. -/
def AnsweredOnce (events : List PoolEvent) (effects : List Effect) : Prop :=
  ∀ c, ackCount c effects = requested c events

/-- The event loses no answer: a request is submitted only to an active pool and under an id that no
unfinished request has, and an active pool is refreshed or given up only when it has no unfinished
request. -/
def LosesNone (env : PoolEnv) (pool : PoolSM) (pe : PoolEvent) : Prop :=
  match pool.state, pe with
  | .closed, _ => True
  | .active s, .sendRequest _ _ _ _ => ∀ re sm, pe.toRequestEvent env = some re →
      s.requestHandlers.lookup re.getReqId = some sm → sm.isTerminal
  | .active s, .refresh _ => ∀ k sm, s.requestHandlers.lookup k = some sm → sm.isTerminal
  | .active s, .poolOutdated => ∀ k sm, s.requestHandlers.lookup k = some sm → sm.isTerminal
  | _, .sendRequest _ _ _ _ => False
  | _, _ => True

section Handlers
variable {env : PoolEnv} {host : PoolHost} {pool : PoolSM} {handlers : Table String RequestSM}

theorem owed_eq_zero_iff {sm : RequestSM} {c : CommandHandle} (hcmd : sm.cmdIds = [c]) :
    (∀ c, owed c sm = 0) ↔ sm.isTerminal := by
  unfold owed
  constructor
  · intro h
    by_contra hnot
    have hc := h c
    rw [if_neg hnot, hcmd] at hc
    simp at hc
  · intro h c'
    rw [if_pos h]

theorem weight_owed_eq_zero_iff
    (hserved : ∀ k sm, handlers.lookup k = some sm → ∃ c, sm.cmdIds = [c]) (k : String) :
    (∀ c, Table.weight (owed c) k handlers = 0) ↔ ∀ sm, handlers.lookup k = some sm →
      sm.isTerminal := by
  rcases hk : handlers.lookup k with _ | sm
  · simp [Table.weight, hk]
  · obtain ⟨c, hcmd⟩ := hserved k sm hk
    simp only [Table.weight_eq_of_lookup _ hk, owed_eq_zero_iff hcmd, Option.some.injEq, forall_eq']

theorem total_owed_eq_zero_iff
    (hserved : ∀ k sm, handlers.lookup k = some sm → ∃ c, sm.cmdIds = [c]) :
    (∀ c, Table.total (owed c) handlers = 0) ↔ ∀ k sm, handlers.lookup k = some sm →
      sm.isTerminal := by
  constructor
  · intro h k
    rw [← weight_owed_eq_zero_iff hserved]
    intro c
    have hsum := Table.weight_add_total_erase (owed c) k handlers
    have := h c
    omega
  · intro h c
    unfold Table.total
    apply List.sum_eq_zero
    intro x hx
    obtain ⟨e, he, rfl⟩ := List.mem_map.mp hx
    exact if_pos (h e.1 e.2 (AList.mem_lookup_iff.mpr he))

/-- Closing answers everything that is owed. -/
theorem terminateHandlers_acks {rows : List ((_ : String) × RequestSM)} {effects : List Effect}
    (hserving : ∀ e ∈ rows, Serving e.2.state) (h : terminateHandlers env host rows = .ok effects)
    (c : CommandHandle) : ackCount c effects = (rows.map fun e => owed c e.2).sum := by
  induction rows generalizing effects with
  | nil =>
    cases h
    rfl
  | cons e rows ih =>
    obtain ⟨⟨sm, event, effs⟩, hfirst, h⟩ := except_bind_eq_ok.mp h
    obtain ⟨rest, hrest, h⟩ := except_bind_eq_ok.mp h
    cases h
    rw [ackCount_append, (hserving e (by simp)).handleEvent_terminate hfirst c,
      ih (fun e' he' => hserving e' (by simp [he'])) hrest, List.map_cons, List.sum_cons]

end Handlers

section Quiet
variable {env : PoolEnv} {host : PoolHost} {pool : PoolSM} {state : PoolState}
    {effects : List Effect} {pe : PoolEvent}

/-- Nobody is answered, and nobody waits afterwards. -/
structure Quiet (closing : Bool) (state : PoolState) (effects : List Effect) : Prop where
  acks : submitAcks effects = []
  pending : ∀ c, pending c state = 0
  served : state.WellServed
  closes : state.isClosed = closing

theorem Quiet.terminated (hacks : submitAcks effects = []) : Quiet false .terminated effects :=
  ⟨hacks, fun _ => rfl, trivial, rfl⟩

theorem Quiet.closed (hacks : submitAcks effects = []) : Quiet true .closed effects :=
  ⟨hacks, fun _ => rfl, trivial, rfl⟩

theorem Quiet.gettingCatchupTarget {s : CatchingUpState} (hacks : submitAcks effects = [])
    (hcmd : s.requestHandler.cmdIds = []) : Quiet false (.gettingCatchupTarget s) effects :=
  ⟨hacks, fun _ => rfl, hcmd, rfl⟩

theorem Quiet.syncCatchup {s : CatchingUpState} (hacks : submitAcks effects = [])
    (hcmd : s.requestHandler.cmdIds = []) : Quiet false (.syncCatchup s) effects :=
  ⟨hacks, fun _ => rfl, hcmd, rfl⟩

theorem Quiet.after {closing : Bool} {sent : List Effect} (h : Quiet closing state effects)
    (hsent : submitAcks sent = []) : Quiet closing state (sent ++ effects) := by
  refine ⟨?_, h.pending, h.served, h.closes⟩
  rw [submitAcks_append, hsent, h.acks]
  rfl

theorem processEvent_quiet {sm sm' : RequestSM} {ore : Option RequestEvent}
    {event : Option PoolEvent} (hcmd : sm.cmdIds = [])
    (h : sm.processEvent env.toEnv host.toHost ore = .ok (sm', event, effects)) :
    submitAcks effects = [] ∧ sm'.cmdIds = [] := by
  cases ore with
  | none =>
    cases h
    exact ⟨rfl, hcmd⟩
  | some re => exact submitAcks_of_no_commands hcmd h

theorem askLedgerStatus_quiet {merkle : MerkleTree} {nodes : Nodes} {remotes : List RemoteNode}
    {handler : RequestSM}
    (h : askLedgerStatus env host pool merkle nodes remotes = .ok (handler, effects)) :
    submitAcks effects = [] ∧ handler.cmdIds = [] := by
  obtain ⟨⟨sm, event, effs⟩, hev, h⟩ := except_bind_eq_ok.mp h
  cases h
  obtain ⟨hacks, hcmd⟩ := processEvent_quiet rfl hev
  exact ⟨by rw [submitAcks_network, hacks], hcmd⟩

theorem getRequestHandler_quiet {handler : RequestSM}
    (h : getRequestHandlerWithLedgerStatusSent env host pool = .ok (handler, effects)) :
    submitAcks effects = [] ∧ handler.cmdIds = [] := by
  obtain ⟨merkle, -, h⟩ := except_bind_eq_ok.mp h
  split at h
  · exact askLedgerStatus_quiet h
  · split at h
    · obtain ⟨merkle', -, h⟩ := except_bind_eq_ok.mp h
      obtain ⟨⟨nodes, remotes⟩, -, h⟩ := except_bind_eq_ok.mp h
      exact askLedgerStatus_quiet h
    · cases h

theorem submitAcks_sendOpenRefreshAck (s : CatchingUpState) (res : Except IndyError Unit) :
    submitAcks [sendOpenRefreshAck s res] = [] := by
  unfold sendOpenRefreshAck
  split <;> rfl

theorem activate_quiet (s : CatchingUpState) (merkle : MerkleTree) :
    Quiet false (activate env s merkle).1 (activate env s merkle).2 := by
  unfold activate
  split
  · refine ⟨?_, ?_, ?_, rfl⟩
    · rw [submitAcks_network, submitAcks_sendOpenRefreshAck]
    · intro c
      rfl
    · intro k sm h
      simp at h
  · exact .terminated rfl

theorem isClose_eq_false (h : ∀ cmdId, pe ≠ .close cmdId) : pe.isClose = false := by
  cases pe with
  | close cmdId => exact absurd rfl (h cmdId)
  | _ => rfl

/-- A catch-up passes `Close` on, and makes none of its own. -/
theorem processEvent_isClose {sm sm' : RequestSM} {event : Option PoolEvent}
    (h : sm.processEvent env.toEnv host.toHost (pe.toRequestEvent env) = .ok
      (sm', event, effects)) :
    (event.getD pe).isClose = pe.isClose := by
  rcases hre : pe.toRequestEvent env with _ | re
  · rw [hre] at h
    cases h
    rfl
  · have hpe : pe.isClose = false := by
      apply isClose_eq_false
      intro cmdId heq
      rw [heq] at hre
      cases hre
    rw [hre] at h
    obtain ⟨r, hr, hret⟩ := except_bind_eq_ok.mp h
    cases hret
    have hevent := (react_answers hr).stays_open
    rcases heq : r.event with _ | ev
    · rfl
    · rw [Option.getD_some, hpe]
      apply isClose_eq_false
      intro cmdId hev
      exact hevent cmdId (by rw [heq, hev])

theorem handleInitialization_quiet
    (h : handleInitialization env host pool pe = .ok (state, effects)) :
    Quiet pe.isClose state effects := by
  unfold handleInitialization at h
  split at h
  · split at h
    · rename_i hget
      cases h
      obtain ⟨hacks, hcmd⟩ := getRequestHandler_quiet hget
      exact .gettingCatchupTarget hacks hcmd
    · cases h
      exact .terminated rfl
    · cases h
  · cases h
    exact .closed rfl
  · rename_i hclose
    cases h
    rw [isClose_eq_false hclose]
    exact ⟨rfl, fun _ => rfl, trivial, rfl⟩

theorem handleTerminated_quiet (h : handleTerminated env host pool pe = .ok (state, effects)) :
    Quiet pe.isClose state effects := by
  unfold handleTerminated at h
  split at h
  · cases h
    exact .closed rfl
  · split at h
    · rename_i hget
      cases h
      obtain ⟨hacks, hcmd⟩ := getRequestHandler_quiet hget
      exact .gettingCatchupTarget hacks hcmd
    · cases h
      exact .terminated rfl
    · cases h
  · cases h
    apply Quiet.terminated
    split <;> rfl
  · rename_i hclose _ _
    cases h
    rw [isClose_eq_false hclose]
    exact .terminated rfl

/-- A catch-up that is closed tells its handler to stop. -/
theorem closeCatchup_quiet {handler handler' : RequestSM} {event : Option PoolEvent}
    {cmdId : CommandHandle} (hcmd : handler.cmdIds = [])
    (h : handler.processEvent env.toEnv host.toHost (some .terminate) = .ok
      (handler', event, effects)) :
    Quiet true .closed (.closeAck cmdId :: effects) := by
  obtain ⟨hacks, -⟩ := processEvent_quiet hcmd h
  exact .closed hacks

theorem handleGettingCatchupTarget_quiet {s : CatchingUpState} (hcmd : s.requestHandler.cmdIds = [])
    (h : handleGettingCatchupTarget env host pool s pe = .ok (state, effects)) :
    Quiet pe.isClose state effects := by
  obtain ⟨⟨handler, event, sent⟩, hev, h⟩ := except_bind_eq_ok.mp h
  obtain ⟨hsent, hhandler⟩ := processEvent_quiet hcmd hev
  rw [← processEvent_isClose hev]
  dsimp only at h
  generalize event.getD pe = ev at h ⊢
  split at h
  · obtain ⟨⟨sm, ev, effs⟩, hterm, h⟩ := except_bind_eq_ok.mp h
    cases h
    exact (closeCatchup_quiet hhandler hterm).after hsent
  · cases h
    exact (Quiet.terminated (submitAcks_sendOpenRefreshAck _ _)).after hsent
  · split at h
    · obtain ⟨⟨sm, effs⟩, hask, h⟩ := except_bind_eq_ok.mp h
      cases h
      obtain ⟨hacks, hsm⟩ := askLedgerStatus_quiet hask
      exact (Quiet.gettingCatchupTarget hacks hsm).after hsent
    · cases h
      exact .terminated hsent
  · split at h
    · obtain ⟨⟨sm, ev, effs⟩, hreq, h⟩ := except_bind_eq_ok.mp h
      cases h
      obtain ⟨hacks, hsm⟩ := processEvent_quiet rfl hreq
      rw [← submitAcks_network] at hacks
      exact (Quiet.syncCatchup hacks hsm).after hsent
    · cases h
      exact .terminated hsent
  · cases h
    exact (activate_quiet _ _).after hsent
  · rename_i hclose _ _ _ _
    cases h
    rw [isClose_eq_false hclose]
    exact .gettingCatchupTarget hsent hhandler

theorem handleSyncCatchup_quiet {s : CatchingUpState} (hcmd : s.requestHandler.cmdIds = [])
    (h : handleSyncCatchup env host s pe = .ok (state, effects)) :
    Quiet pe.isClose state effects := by
  obtain ⟨⟨handler, event, sent⟩, hev, h⟩ := except_bind_eq_ok.mp h
  obtain ⟨hsent, hhandler⟩ := processEvent_quiet hcmd hev
  rw [← processEvent_isClose hev]
  dsimp only at h
  generalize event.getD pe = ev at h ⊢
  split at h
  · obtain ⟨⟨sm, ev, effs⟩, hterm, h⟩ := except_bind_eq_ok.mp h
    cases h
    exact (closeCatchup_quiet hhandler hterm).after hsent
  · cases h
    exact .terminated hsent
  · cases h
    exact (activate_quiet _ _).after hsent
  · rename_i hclose _ _
    cases h
    rw [isClose_eq_false hclose]
    exact .syncCatchup hsent hhandler

end Quiet

section Active
variable {env : PoolEnv} {host : PoolHost} {pool : PoolSM} {s : ActiveState} {state : PoolState}
  {effects : List Effect} {pe : PoolEvent}

theorem customRequest_of_sendRequest {cmdId : CommandHandle} {msg : String} {timeout : Option ℤ}
    {nodes : Option String} {re : RequestEvent}
    (h : (PoolEvent.sendRequest cmdId msg timeout nodes).toRequestEvent env = some re) :
    CustomRequest re := by
  simp only [PoolEvent.toRequestEvent] at h
  split at h
  · cases h
  · split at h
    · cases h
      exact .full ..
    · split at h
      · cases h
      · split at h
        · cases h
          exact .single ..
        · split at h
          · cases h
            exact .single ..
          · cases h
            exact .consensus ..

/-- What an active pool answers or owes after an event, against what it owed and is asked for
before. -/
structure ActiveStep (env : PoolEnv) (pool : PoolSM) (s : ActiveState) (pe : PoolEvent)
    (state : PoolState) (effects : List Effect) : Prop where
  served : state.WellServed
  closes : state.isClosed = pe.isClose
  le : ∀ c, ackCount c effects + pending c state ≤
    Table.total (owed c) s.requestHandlers + if pe.asks c then 1 else 0
  exact_iff : (∀ c, ackCount c effects + pending c state =
    Table.total (owed c) s.requestHandlers + if pe.asks c then 1 else 0) ↔
      LosesNone env { pool with state := .active s } pe

/-- A step that drops all handlers loses exactly what they owe. -/
theorem activeStep_of_quiet (hs : (PoolState.active s).WellServed)
    (hquiet : Quiet pe.isClose state effects) (hasks : ∀ c, pe.asks c = false)
    (hnone : LosesNone env { pool with state := .active s } pe ↔
      ∀ k sm, s.requestHandlers.lookup k = some sm → sm.isTerminal) :
        ActiveStep env pool s pe state effects := by
  have hacks : ∀ c, ackCount c effects = 0 := by
    intro c
    rw [ackCount, hquiet.acks]
    rfl
  refine ⟨hquiet.served, hquiet.closes, ?_, ?_⟩
  · intro c
    rw [hacks c, hquiet.pending c]
    omega
  · rw [hnone, ← total_owed_eq_zero_iff fun k sm h => (hs k sm h).2]
    apply forall_congr'
    intro c
    rw [hacks c, hquiet.pending c, hasks c]
    simp [eq_comm]

/-- A step that keeps the balance loses nothing. -/
theorem activeStep_of_balance (hserved : state.WellServed) (hcloses : state.isClosed = pe.isClose)
    (hnone : LosesNone env { pool with state := .active s } pe)
    (h : ∀ c, ackCount c effects + pending c state =
      Table.total (owed c) s.requestHandlers + if pe.asks c then 1 else 0) :
    ActiveStep env pool s pe state effects :=
  ⟨hserved, hcloses, fun c => (h c).le, fun _ => hnone, fun _ => h⟩

/-- An event that the pool passes over. -/
theorem activeStep_of_idle (hs : (PoolState.active s).WellServed) (hacks : submitAcks effects = [])
    (hclose : pe.isClose = false) (hasks : ∀ c, pe.asks c = false)
    (hnone : LosesNone env { pool with state := .active s } pe) :
    ActiveStep env pool s pe (.active s) effects := by
  refine activeStep_of_balance hs hclose.symm hnone ?_
  intro c
  rw [ackCount, hacks, hasks c]
  simp [pending]

theorem wellServed_insert (hs : (PoolState.active s).WellServed) {k : String} {handler : RequestSM}
    (hserving : Serving handler.state) {c : CommandHandle} (hcmd : handler.cmdIds = [c]) :
    (PoolState.active
      { s with requestHandlers := s.requestHandlers.insert k handler }).WellServed :=
  Table.forall_lookup_insert ⟨hserving, c, hcmd⟩ hs

/-- An event for one handler moves its answer from owed to given. -/
theorem balance_of_handler (hs : (PoolState.active s).WellServed) {k : String}
    {handler handler' : RequestSM}
    {re : RequestEvent} {event : Option PoolEvent} (hk : s.requestHandlers.lookup k = some handler)
    (h : handler.handleEvent env.toEnv host.toHost re = .ok (handler', event, effects)) :
    (Serving handler'.state ∧ ∃ c, handler'.cmdIds = [c]) ∧
      (∀ c, ackCount c effects + Table.total (owed c) (s.requestHandlers.insert k handler') =
        Table.total (owed c) s.requestHandlers) ∧
      (handler'.isTerminal → ∀ c, ackCount c effects +
        Table.total (owed c) (s.requestHandlers.erase k) =
        Table.total (owed c) s.requestHandlers) := by
  obtain ⟨hserving, cmd, hcmd⟩ := hs k handler hk
  obtain ⟨hserving', hcmd', hsum⟩ := hserving.handleEvent h
  refine ⟨⟨hserving', cmd, hcmd'.trans hcmd⟩, ?_, ?_⟩
  · intro c
    have hins := Table.weight_add_total_insert (owed c) k handler' s.requestHandlers
    rw [Table.weight_eq_of_lookup _ hk] at hins
    have := hsum c
    omega
  · intro hterm c
    have herase := Table.weight_add_total_erase (owed c) k s.requestHandlers
    rw [Table.weight_eq_of_lookup _ hk] at herase
    have hzero : owed c handler' = 0 := if_pos hterm
    have := hsum c
    omega

theorem close_balance (hs : (PoolState.active s).WellServed)
    (h : terminateHandlers env host (host.handlers.order s.requestHandlers.entries) = .ok effects)
    (c : CommandHandle) : ackCount c effects = Table.total (owed c) s.requestHandlers := by
  have hserving : ∀ e ∈ host.handlers.order s.requestHandlers.entries, Serving e.2.state := by
    intro e he
    exact (hs e.1 e.2 (AList.mem_lookup_iff.mpr (Shuffle.mem_order.mp he))).1
  rw [terminateHandlers_acks hserving h c]
  exact ((host.handlers.perm s.requestHandlers.entries).map fun e => owed c e.2).sum_eq

/-- A new handler takes the place of one under the same id, whose answers are lost. -/
theorem newRequest_step (hs : (PoolState.active s).WellServed) {cmdId : CommandHandle}
    {msg : String}
    {timeout : Option ℤ} {nodes : Option String} {re : RequestEvent} {handler : RequestSM}
    {event : Option PoolEvent}
    (hre : (PoolEvent.sendRequest cmdId msg timeout nodes).toRequestEvent env = some re)
    (h : (pool.newHandler [cmdId] s.nodes).handleEvent env.toEnv host.toHost re = .ok
      (handler, event, effects)) :
    ActiveStep env pool s (.sendRequest cmdId msg timeout nodes)
      (.active { s with requestHandlers := s.requestHandlers.insert re.getReqId handler })
        effects := by
  obtain ⟨hserving, hcmd, hsum⟩ := (customRequest_of_sendRequest hre).handleEvent rfl h
  have hask : ∀ c, (pool.newHandler [cmdId] s.nodes).cmdIds.count c =
      if (PoolEvent.sendRequest cmdId msg timeout nodes).asks c then 1 else 0 := by
    intro c
    change [cmdId].count c = _
    simp [PoolEvent.asks, List.count_singleton]
  have hins : ∀ c, ackCount c effects +
      pending c
      (.active { s with requestHandlers := s.requestHandlers.insert re.getReqId handler }) +
        Table.weight (owed c) re.getReqId s.requestHandlers =
        Table.total (owed c) s.requestHandlers +
          if (PoolEvent.sendRequest cmdId msg timeout nodes).asks c then 1 else 0 := by
    intro c
    have hweight := Table.weight_add_total_insert (owed c) re.getReqId handler s.requestHandlers
    have := hsum c
    rw [hask c] at this
    simp only [pending]
    omega
  refine ⟨wellServed_insert hs hserving hcmd, rfl, ?_, ?_⟩
  · intro c
    have := hins c
    omega
  · have hnone : LosesNone env { pool with state := .active s }
      (.sendRequest cmdId msg timeout nodes) ↔
        ∀ sm, s.requestHandlers.lookup re.getReqId = some sm → sm.isTerminal := by
      refine ⟨fun h sm => h re sm hre, ?_⟩
      intro h re' sm hre'
      rw [hre, Option.some.injEq] at hre'
      rw [← hre']
      exact h sm
    rw [hnone, ← weight_owed_eq_zero_iff fun k sm h => (hs k sm h).2]
    apply forall_congr'
    intro c
    have := hins c
    omega

theorem sendRequest_step (hs : (PoolState.active s).WellServed) {cmdId : CommandHandle}
    {msg : String} {timeout : Option ℤ} {nodes : Option String}
    (h : handleActive env host pool s (.sendRequest cmdId msg timeout nodes) = .ok
      (state, effects)) :
    ActiveStep env pool s (.sendRequest cmdId msg timeout nodes) state effects := by
  simp only [handleActive] at h
  split at h
  · rename_i re hre
    obtain ⟨⟨handler, event, effs⟩, hev, h⟩ := except_bind_eq_ok.mp h
    cases h
    exact newRequest_step hs hre hev
  · rename_i hre
    cases h
    refine activeStep_of_balance hs rfl ?_ ?_
    · simp [LosesNone, hre]
    · intro c
      simp [pending, ackCount, submitAcks, PoolEvent.asks, Nat.add_comm, List.count_singleton]

theorem refresh_step (hs : (PoolState.active s).WellServed) {cmdId : CommandHandle}
    (h : handleActive env host pool s (.refresh cmdId) = .ok (state, effects)) :
    ActiveStep env pool s (.refresh cmdId) state effects := by
  simp only [handleActive] at h
  split at h
  · rename_i hget
    cases h
    obtain ⟨hacks, hcmd⟩ := getRequestHandler_quiet hget
    exact activeStep_of_quiet hs (.gettingCatchupTarget hacks hcmd) (fun _ => rfl) Iff.rfl
  · cases h
    exact activeStep_of_quiet hs (.terminated rfl) (fun _ => rfl) Iff.rfl
  · cases h

theorem nodeReply_step (hs : (PoolState.active s).WellServed) {reply node : String}
    (h : handleActive env host pool s (.nodeReply reply node) = .ok (state, effects)) :
    ActiveStep env pool s (.nodeReply reply node) state effects := by
  simp only [handleActive] at h
  split at h
  · rename_i re hre
    split at h
    · rename_i handler hk
      obtain ⟨⟨handler', event, effs⟩, hev, h⟩ := except_bind_eq_ok.mp h
      obtain ⟨⟨hserving, cmd, hcmd⟩, hins, herase⟩ := balance_of_handler hs hk hev
      dsimp only at h
      -- a finished handler is not put back
      split at h
      · rename_i hterm
        cases h
        exact activeStep_of_balance (Table.forall_lookup_erase hs) rfl trivial (herase hterm)
      · cases h
        exact activeStep_of_balance (wellServed_insert hs hserving hcmd) rfl trivial hins
    · cases h
      exact activeStep_of_idle hs rfl rfl (fun _ => rfl) trivial
  · cases h
    exact activeStep_of_idle hs rfl rfl (fun _ => rfl) trivial

theorem timeout_step (hs : (PoolState.active s).WellServed) {reqId node : String}
    (h : handleActive env host pool s (.timeout reqId node) = .ok (state, effects)) :
    ActiveStep env pool s (.timeout reqId node) state effects := by
  simp only [handleActive] at h
  split at h
  · rename_i handler hk
    obtain ⟨⟨handler', event, effs⟩, hev, h⟩ := except_bind_eq_ok.mp h
    cases h
    obtain ⟨⟨hserving, cmd, hcmd⟩, hins, -⟩ := balance_of_handler hs hk hev
    exact activeStep_of_balance (wellServed_insert hs hserving hcmd) rfl trivial hins
  · cases h
    have hacks : submitAcks (if reqId = "" then [.network .timeout] else []) = [] := by
      split <;> rfl
    exact activeStep_of_idle hs hacks rfl (fun _ => rfl) trivial

theorem close_step (hs : (PoolState.active s).WellServed) {cmdId : CommandHandle}
    (h : handleActive env host pool s (.close cmdId) = .ok (state, effects)) :
    ActiveStep env pool s (.close cmdId) state effects := by
  obtain ⟨effs, hterm, h⟩ := except_bind_eq_ok.mp h
  cases h
  refine activeStep_of_balance trivial rfl trivial ?_
  intro c
  exact close_balance hs hterm c

/-- Every event of an active pool keeps the balance, but for the answers it loses. -/
theorem handleActive_step (hs : (PoolState.active s).WellServed)
    (h : handleActive env host pool s pe = .ok (state, effects)) :
    ActiveStep env pool s pe state effects := by
  cases pe with
  | poolOutdated =>
    cases h
    exact activeStep_of_quiet hs (.terminated rfl) (fun _ => rfl) Iff.rfl
  | close cmdId => exact close_step hs h
  | refresh cmdId => exact refresh_step hs h
  | sendRequest cmdId msg timeout nodes => exact sendRequest_step hs h
  | nodeReply reply node => exact nodeReply_step hs h
  | timeout reqId node => exact timeout_step hs h
  | _ =>
    cases h
    exact activeStep_of_idle hs rfl rfl (fun _ => rfl) trivial

end Active

variable {env : PoolEnv} {host : PoolHost} {pool pool' : PoolSM} {pe : PoolEvent}
    {effects : List Effect}

/-- Requests for a command that an event submits; a closed pool takes none. -/
def asked (c : CommandHandle) (pool : PoolSM) (pe : PoolEvent) : ℕ :=
  match pool.state with
  | .closed => 0
  | _ => if pe.asks c then 1 else 0

/-- One event of the pool: what is answered or owed grows with what is asked for, up to what is
lost. -/
structure PoolStep (env : PoolEnv) (pool : PoolSM) (pe : PoolEvent) (pool' : PoolSM)
    (effects : List Effect) :
    Prop where
  served : pool'.state.WellServed
  closes : pool'.state.isClosed = (pool.state.isClosed || pe.isClose)
  le : ∀ c, ackCount c effects + pending c pool'.state ≤ pending c pool.state + asked c pool pe
  exact_iff : (∀ c, ackCount c effects + pending c pool'.state = pending c pool.state +
    asked c pool pe) ↔
    LosesNone env pool pe

theorem asks_eq_false_iff : (∀ c, pe.asks c = false) ↔
    ∀ cmdId msg timeout nodes, pe ≠ .sendRequest cmdId msg timeout nodes := by
  cases pe with
  | sendRequest cmdId msg timeout nodes =>
    constructor
    · intro h
      have := h cmdId
      simp [PoolEvent.asks] at this
    · intro h
      exact absurd rfl (h cmdId msg timeout nodes)
  | _ => simp [PoolEvent.asks]

/-- Outside `Active` a step loses exactly the request it is asked for. -/
theorem poolStep_of_quiet {state : PoolState} (hpending : ∀ c, pending c pool.state = 0)
    (hquiet : Quiet (pool.state.isClosed || pe.isClose) state effects)
    (hnone : LosesNone env pool pe ↔ ∀ c, asked c pool pe = 0) :
    PoolStep env pool pe { pool with state } effects := by
  have hacks : ∀ c, ackCount c effects = 0 := by
    intro c
    rw [ackCount, hquiet.acks]
    rfl
  refine ⟨hquiet.served, hquiet.closes, ?_, ?_⟩
  · intro c
    rw [hacks c, hquiet.pending c]
    omega
  · rw [hnone]
    apply forall_congr'
    intro c
    rw [hacks c, hquiet.pending c, hpending c]
    simp [eq_comm]

theorem poolStep_of_handleEvent (hs : pool.state.WellServed)
    (h : pool.handleEvent env host pe = .ok (pool', effects)) :
    PoolStep env pool pe pool' effects := by
  obtain ⟨⟨state, effs⟩, hev, h⟩ := except_bind_eq_ok.mp h
  cases h
  obtain ⟨timeout, extendedTimeout, numberReadNodes, st⟩ := pool
  have hlost : (∀ c, (if pe.asks c then 1 else 0 : ℕ) = 0) ↔
      ∀ cmdId msg timeout nodes, pe ≠ .sendRequest cmdId msg timeout nodes := by
    rw [← asks_eq_false_iff]
    simp
  cases st with
  | closed =>
    cases hev
    exact poolStep_of_quiet (fun _ => rfl) ⟨rfl, fun _ => rfl, trivial, rfl⟩
      ⟨fun _ _ => rfl, fun _ => trivial⟩
  | active s =>
    obtain ⟨hserved, hcloses, hle, hexact⟩ := handleActive_step hs hev
    exact ⟨hserved, hcloses, hle, hexact⟩
  | initialization =>
    refine poolStep_of_quiet (fun _ => rfl) (handleInitialization_quiet hev)
      (Iff.trans ?_ hlost.symm)
    cases pe <;> simp [LosesNone]
  | terminated =>
    refine poolStep_of_quiet (fun _ => rfl) (handleTerminated_quiet hev) (Iff.trans ?_ hlost.symm)
    cases pe <;> simp [LosesNone]
  | gettingCatchupTarget s =>
    refine poolStep_of_quiet (fun _ => rfl) (handleGettingCatchupTarget_quiet hs hev)
      (Iff.trans ?_ hlost.symm)
    cases pe <;> simp [LosesNone]
  | syncCatchup s =>
    refine poolStep_of_quiet (fun _ => rfl) (handleSyncCatchup_quiet hs hev)
      (Iff.trans ?_ hlost.symm)
    cases pe <;> simp [LosesNone]

theorem requested_append (c : CommandHandle) (events : List PoolEvent) (pe : PoolEvent) :
    requested c (events ++ [pe]) = requested c events + if events.any PoolEvent.isClose then 0
      else if pe.asks c then 1 else 0 := by
  unfold requested
  induction events with
  | nil =>
    cases pe <;> simp [PoolEvent.isClose, PoolEvent.asks, List.countP_cons]
  | cons pe' events ih =>
    rcases hclose : pe'.isClose with _ | _
    · simp only [List.cons_append, List.takeWhile_cons, hclose, Bool.not_false, if_true,
        List.countP_cons, List.any_cons, Bool.false_or, ih]
      omega
    · simp [hclose]

/-- The books of a pool after a run. -/
structure Books (env : PoolEnv) (pool₀ : PoolSM) (events : List (PoolEvent × PoolHost))
    (pool : PoolSM) (effects : List Effect) : Prop where
  served : pool.state.WellServed
  closes : pool.state.isClosed = (events.map Prod.fst).any PoolEvent.isClose
  le : ∀ c, ackCount c effects + pending c pool.state ≤ requested c (events.map Prod.fst)
  exact_iff : (∀ c, ackCount c effects + pending c pool.state = requested c (events.map Prod.fst)) ↔
    EveryStep (PoolSM.step env) (fun pool e => LosesNone env pool e.1) pool₀ events

/-- Along every run of a new pool, answers given and owed never exceed the requests submitted, and
they equal them exactly when no step loses an answer. -/
theorem books_of_run {timeout extendedTimeout : ℤ} {numberReadNodes : ℕ}
    {events : List (PoolEvent × PoolHost)}
    (hrun : (PoolSM.new timeout extendedTimeout numberReadNodes).run env events = .ok
      (pool, effects)) :
    Books env (.new timeout extendedTimeout numberReadNodes) events pool effects := by
  induction events using List.reverseRecOn generalizing pool effects with
  | nil =>
    cases hrun
    exact ⟨trivial, rfl, fun _ => le_rfl, fun _ => everyStep_nil, fun _ _ => rfl⟩
  | append_singleton events e ih =>
    obtain ⟨pool₁, effects₁, effects₂, hpre, hstep, rfl⟩ := runSteps_concat_iff.mp hrun
    obtain ⟨hserved, hcloses, hle, hexact⟩ := ih hpre
    obtain ⟨hserved', hcloses', hle', hexact'⟩ := poolStep_of_handleEvent hserved hstep
    have hasked : ∀ c, asked c pool₁ e.1 = if (events.map Prod.fst).any PoolEvent.isClose then 0
        else if e.1.asks c then 1 else 0 := by
      intro c
      rw [← hcloses]
      unfold asked
      cases pool₁.state <;> rfl
    have hrequested : ∀ c, requested c ((events ++ [e]).map Prod.fst) =
        requested c (events.map Prod.fst) + asked c pool₁ e.1 := by
      intro c
      rw [List.map_append, List.map_singleton, requested_append, hasked c]
    refine ⟨hserved', ?_, ?_, ?_⟩
    · rw [hcloses', hcloses, List.map_append, List.any_append]
      simp
    · intro c
      have := hle c
      have := hle' c
      rw [ackCount_append, hrequested c]
      omega
    · rw [everyStep_concat_iff hpre, ← hexact, ← hexact', ← forall_and]
      apply forall_congr'
      intro c
      have := hle c
      have := hle' c
      rw [ackCount_append, hrequested c]
      omega

/-- No answer is ever sent twice: whatever happens, a command gets at most as many answers as it has
submitted requests. -/
theorem ackCount_le_requested {timeout extendedTimeout : ℤ} {numberReadNodes : ℕ}
    {events : List (PoolEvent × PoolHost)}
    (hrun : (PoolSM.new timeout extendedTimeout numberReadNodes).run env events = .ok
      (pool, effects))
    (c : CommandHandle) : ackCount c effects ≤ requested c (events.map Prod.fst) := by
  have := (books_of_run hrun).le c
  omega

/-- A pool that is closed has answered every submitted request exactly once if and only if no step
of the run loses an answer. -/
theorem answeredOnce_iff_losesNone {timeout extendedTimeout : ℤ} {numberReadNodes : ℕ}
    {events : List (PoolEvent × PoolHost)}
    (hrun : (PoolSM.new timeout extendedTimeout numberReadNodes).run env events = .ok
      (pool, effects))
    (hclosed : pool.state = .closed) :
    AnsweredOnce (events.map Prod.fst) effects ↔
      EveryStep (PoolSM.step env) (fun pool e => LosesNone env pool e.1)
        (.new timeout extendedTimeout numberReadNodes) events := by
  have hbooks := books_of_run hrun
  have hpending : ∀ c, pending c pool.state = 0 := by
    intro c
    rw [hclosed]
    rfl
  rw [← hbooks.exact_iff]
  apply forall_congr'
  intro c
  rw [hpending c, Nat.add_zero]

/-- The status of a ledger with the one transaction [3], for examples. -/
def sampleStatus : LedgerStatus := ⟨1, "14", 0, none, none, none⟩

/-- JSON text of `sampleStatus`. -/
def sampleStatusText : String :=
  "\x7b\"op\":\"LEDGER_STATUS\",\"txnSeqNo\":1,\"merkleRoot\":\"14\",\"ledgerId\":0,\"ppSeqNo\":null,\"viewNo\":null\x7d"

def sampleRequestText : String := "\x7b\"reqId\":5,\"operation\":\x7b\"type\":\"1\"\x7d\x7d"

/-- A pool of one node, for examples. -/
def samplePoolEnv : PoolEnv where
  toEnv := { sampleEnv with
    ledgerStatusJson := fun _ => some sampleStatusText
    parseJson := fun s => if s = sampleRequestText then some (.object [
      ("operation", .object [("type", .string "1")]), ("reqId", .number (.posInt 5))]) else none }
  parseMessage s := if s = sampleStatusText then some (.ledgerStatus sampleStatus) else none
  parseKeyFromRequest _ := none
  hasSpParser _ := false
  getNodesAndRemotes _ := .ok ((∅ : Nodes).insert "n1" none, [])

def samplePoolHost : PoolHost where
  toHost := sampleHost
  protocolVersion := 1
  createCached := .ok ⟨.newLeaf taggedHash [3], 0, 1, 0⟩
  handlers := .id

/-- Whether a run closes the pool, and the answers it sends. -/
def PoolSM.summary (env : PoolEnv) (pool : PoolSM) (events : List (PoolEvent × PoolHost)) :
    Option (Bool × List (CommandHandle × Except IndyError String)) :=
  match pool.run env events with
  | .ok (pool, effects) => some (pool.isTerminal, submitAcks effects)
  | .error _ => none

theorem exists_run_of_summary {events : List (PoolEvent × PoolHost)}
    {l : List (CommandHandle × Except IndyError String)}
    (h : pool.summary env events = some (true, l)) :
    ∃ pool' effects, pool.run env events = .ok (pool', effects) ∧ pool'.state = .closed ∧
      submitAcks effects = l := by
  unfold PoolSM.summary at h
  split at h
  · rename_i pool' effects hrun
    rw [Option.some.injEq, Prod.mk.injEq] at h
    refine ⟨pool', effects, hrun, ?_, h.2⟩
    have hterm := h.1
    unfold PoolSM.isTerminal at hterm
    split at hterm
    · assumption
    · cases hterm
  · cases h

theorem answeredOnce_iff_losesNone_close : ∃ pool effects,
    (PoolSM.new 20 60 2).run samplePoolEnv [(.checkCache 1, samplePoolHost),
      (.nodeReply sampleStatusText "n1", samplePoolHost),
        (.sendRequest 7 sampleRequestText none none, samplePoolHost),
      (.close 3, samplePoolHost)] = .ok (pool, effects) ∧
        submitAcks effects = [(7, .error terminated)] ∧
    (AnsweredOnce
      [.checkCache 1, .nodeReply sampleStatusText "n1", .sendRequest 7 sampleRequestText none none,
      .close 3] effects ↔
        EveryStep (PoolSM.step samplePoolEnv) (fun pool e => LosesNone samplePoolEnv pool e.1)
        (.new 20 60 2)
          [(.checkCache 1, samplePoolHost), (.nodeReply sampleStatusText "n1", samplePoolHost),
          (.sendRequest 7 sampleRequestText none none, samplePoolHost),
            (.close 3, samplePoolHost)]) := by
  have hsummary : (PoolSM.new 20 60 2).summary samplePoolEnv [(.checkCache 1, samplePoolHost),
      (.nodeReply sampleStatusText "n1", samplePoolHost),
      (.sendRequest 7 sampleRequestText none none, samplePoolHost),
      (.close 3, samplePoolHost)] = some (true, [(7, .error terminated)]) := by decide
  obtain ⟨pool, effects, hrun, hclosed, hacks⟩ := exists_run_of_summary hsummary
  exact ⟨pool, effects, hrun, hacks, answeredOnce_iff_losesNone hrun hclosed⟩

/-- A refresh drops the request of command 7, which is never answered. -/
theorem not_answeredOnce_refresh : ∃ pool effects,
    (PoolSM.new 20 60 2).run samplePoolEnv [(.checkCache 1, samplePoolHost),
      (.nodeReply sampleStatusText "n1", samplePoolHost),
        (.sendRequest 7 sampleRequestText none none, samplePoolHost),
      (.refresh 2, samplePoolHost), (.close 3, samplePoolHost)] = .ok (pool, effects) ∧
        pool.state = .closed ∧
    ¬ AnsweredOnce
      [.checkCache 1, .nodeReply sampleStatusText "n1", .sendRequest 7 sampleRequestText none none,
      .refresh 2, .close 3] effects := by
  have hsummary : (PoolSM.new 20 60 2).summary samplePoolEnv [(.checkCache 1, samplePoolHost),
      (.nodeReply sampleStatusText "n1", samplePoolHost),
      (.sendRequest 7 sampleRequestText none none, samplePoolHost),
      (.refresh 2, samplePoolHost), (.close 3, samplePoolHost)] = some (true, []) := by decide
  obtain ⟨pool, effects, hrun, hclosed, hacks⟩ := exists_run_of_summary hsummary
  refine ⟨pool, effects, hrun, hclosed, ?_⟩
  intro h
  have hseven := h 7
  rw [ackCount, hacks] at hseven
  revert hseven
  decide

end SimpleAsset.Indy
