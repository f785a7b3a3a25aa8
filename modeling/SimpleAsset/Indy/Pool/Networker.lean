import SimpleAsset.Library.Fallible
import SimpleAsset.Indy.Pool.Types

/-! The connection that sends requests to the nodes and keeps their timeouts
(`pool/networker.rs`). -/
namespace SimpleAsset.Indy
open SimpleAsset.Library

/-- What a connection takes from outside: the clock in milliseconds, and whether sockets open and
send. -/
structure Wire where
  now : ℤ
  connect : RemoteNode → Except IndyError Unit
  send : RemoteNode → String → Except IndyError Unit

structure PoolConnection where
  nodes : List RemoteNode
  /-- which nodes have an open socket -/
  sockets : List Bool
  /-- how often each request was sent again, and its text -/
  resend : Table String (ℕ × String)
  /-- when the wait for a node's answer to a request is over -/
  timeouts : Table (String × String) ℤ
  timeCreated : ℤ
  reqCnt : ℕ
  activeTimeout : ℤ

namespace PoolConnection
variable (wire : Wire) (pc : PoolConnection)

def isActive : Bool := wire.now - pc.timeCreated < 1000 * pc.activeTimeout

def hasActiveRequests : Bool := pc.timeouts.keys ≠ []

def isOrphaned : Bool := !pc.isActive wire && !pc.hasActiveRequests

/-- `_get_socket`. -/
def getSocket (idx : ℕ) : Outcome PoolConnection :=
  match pc.sockets[idx]?, pc.nodes[idx]? with
  | some true, _ => .ok pc
  | some false, some node =>
    match wire.connect node with
    | .ok () => .ok { pc with sockets := pc.sockets.set idx true }
    | .error e => .error (.err e)
  | _, _ => .error (.panic .outOfBounds)

/-- `_send_msg_to_one_node`. -/
def sendMsgToOneNode (idx : ℕ) (reqId req : String) (timeout : ℤ) : Outcome PoolConnection := do
  let pc ← pc.getSocket wire idx
  match pc.nodes[idx]? with
  | none => .error (.panic .outOfBounds)
  | some node =>
    match wire.send node req with
    | .ok () =>
      .ok { pc with timeouts := pc.timeouts.insert (reqId, node.name) (wire.now + 1000 * timeout) }
    | .error e => .error (.err e)

/-- Loop of `send_request` over the nodes, for `SendAllRequest`. -/
def sendToNodes (msg reqId : String) (timeout : ℤ) (nodesToSend : Option (List String))
    (pc : PoolConnection) :
    List ℕ → Outcome PoolConnection
  | [] => .ok pc
  | idx :: rest => do
    let chosen := match nodesToSend, pc.nodes[idx]? with
      | some names, some node => decide (node.name ∈ names)
      | _, _ => true
    let pc ← if chosen then pc.sendMsgToOneNode wire idx reqId msg timeout else .ok pc
    sendToNodes msg reqId timeout nodesToSend pc rest

def sendRequest (pe : NetworkerEvent) : Outcome PoolConnection :=
  match pe with
  | .sendOneRequest msg reqId timeout => do
    let pc ← { pc with reqCnt := pc.reqCnt + 1 }.sendMsgToOneNode wire 0 reqId msg timeout
    return { pc with resend := pc.resend.insert reqId (0, msg) }
  | .sendAllRequest msg reqId timeout nodesToSend =>
    sendToNodes wire msg reqId timeout nodesToSend { pc with reqCnt := pc.reqCnt + 1 }
      (List.range pc.nodes.length)
  | .resend reqId timeout =>
    match pc.resend.lookup reqId with
    | none => .ok pc
    | some (cnt, req) =>
      let pc := { pc with resend := pc.resend.insert reqId (cnt + 1, req) }
      if pc.nodes.length = 0 then .error (.panic .divisionByZero)
      else pc.sendMsgToOneNode wire ((cnt + 1) % pc.nodes.length) reqId req timeout
  | _ => .ok pc

def extendTimeout (reqId nodeAlias : String) (extendedTimeout : ℤ) : PoolConnection :=
  if (reqId, nodeAlias) ∈ pc.timeouts then
    { pc with timeouts :=
      pc.timeouts.insert (reqId, nodeAlias) (wire.now + 1000 * extendedTimeout) }
  else pc

def cleanTimeout (reqId : String) (nodeAlias : Option String) : PoolConnection :=
  match nodeAlias with
  | some nodeAlias => { pc with timeouts := pc.timeouts.erase (reqId, nodeAlias) }
  | none =>
    let keysToRemove := pc.timeouts.keys.filter fun key => reqId = key.1
    { pc with timeouts := keysToRemove.foldl (fun timeouts key => timeouts.erase key) pc.timeouts }

/-- Nodes whose answer to the request is waited for. -/
def pending (reqId : String) : Finset String :=
  ((pc.timeouts.keys.filter fun key => key.1 = reqId).map Prod.snd).toFinset

end PoolConnection

/-- The connection while the networker keeps it. -/
abbrev Connection := Option PoolConnection

namespace Connection
variable (wire : Wire)

/-- Orphaned connections are dropped. -/
def keep (pc : PoolConnection) : Connection := if pc.isOrphaned wire then none else some pc

/-- `ZMQNetworker::process_event` for the requests that the connection serves; errors of
`send_request` meet an `expect` there. -/
def processEvent (conn : Connection) (pe : NetworkerEvent) : Outcome Connection :=
  match conn with
  | none => .ok none
  | some pc =>
    match pe with
    | .extendTimeout reqId nodeAlias timeout =>
      .ok (some (pc.extendTimeout wire reqId nodeAlias timeout))
    | .cleanTimeout reqId nodeAlias => .ok (keep wire (pc.cleanTimeout reqId nodeAlias))
    | .nodesStateUpdated _ => .ok (some pc)
    | .timeout => .ok (keep wire pc)
    | pe =>
      match pc.sendRequest wire pe with
      | .ok pc => .ok (some pc)
      | .error (.err _) => .error (.panic .unwrapNone)
      | .error fault => .error fault

/-- What the effects of a handler do to the connection. -/
def processEffects (conn : Connection) : List Effect → Outcome Connection
  | [] => .ok conn
  | .network pe :: effects => do
    let conn ← conn.processEvent wire pe
    processEffects conn effects
  | _ :: effects => processEffects conn effects

def pending (reqId : String) : Connection → Finset String
  | none => ∅
  | some pc => pc.pending reqId

end Connection

namespace PoolConnection
variable {wire : Wire} {pc pc' : PoolConnection} {reqId node : String}

theorem mem_pending : node ∈ pc.pending reqId ↔ (reqId, node) ∈ pc.timeouts := by
  rw [pending, List.mem_toFinset, List.mem_map, AList.mem_keys]
  constructor
  · rintro ⟨⟨r, a⟩, hmem, rfl⟩
    obtain ⟨hmem, hr⟩ := List.mem_filter.mp hmem
    rw [decide_eq_true_eq] at hr
    rwa [← hr]
  · intro hmem
    exact ⟨(reqId, node), List.mem_filter.mpr ⟨hmem, by simp⟩, rfl⟩

theorem pending_insert {r a : String} {t : ℤ} (h : pc'.timeouts = pc.timeouts.insert (r, a) t) :
    pc'.pending reqId = if r = reqId then insert a (pc.pending reqId) else pc.pending reqId := by
  ext x
  split
  · rename_i heq
    rw [Finset.mem_insert, mem_pending, mem_pending, h, AList.mem_insert, Prod.mk.injEq, heq]
    simp
  · rename_i hne
    rw [mem_pending, mem_pending, h, AList.mem_insert, Prod.mk.injEq]
    simp [Ne.symm hne]

/-- What a message sent to a node leaves behind. -/
theorem sendMsgToOneNode_inv {idx : ℕ} {req : String} {timeout : ℤ}
    (h : pc.sendMsgToOneNode wire idx reqId req timeout = .ok pc') :
    ∃ remote, pc.nodes[idx]? = some remote ∧ pc'.nodes = pc.nodes ∧ pc'.resend = pc.resend ∧
      pc'.timeouts = pc.timeouts.insert (reqId, remote.name) (wire.now + 1000 * timeout) := by
  obtain ⟨pc₁, hsocket, hsend⟩ := except_bind_eq_ok.mp h
  have hpc₁ : pc₁.nodes = pc.nodes ∧ pc₁.resend = pc.resend ∧ pc₁.timeouts = pc.timeouts := by
    unfold getSocket at hsocket
    split at hsocket
    · cases hsocket
      exact ⟨rfl, rfl, rfl⟩
    · split at hsocket
      · cases hsocket
        exact ⟨rfl, rfl, rfl⟩
      · cases hsocket
    · cases hsocket
  obtain ⟨hnodes, hresend, htimeouts⟩ := hpc₁
  rw [hnodes] at hsend
  split at hsend
  · cases hsend
  · rename_i remote hremote
    split at hsend
    · cases hsend
      exact ⟨remote, hremote, rfl, hresend, by rw [htimeouts]⟩
    · cases hsend

end PoolConnection

/-- Name of the node that the `cnt`-th message of a request goes to. -/
def pickNode (names : List String) (cnt : ℕ) : String := names.getD (cnt % names.length) ""

namespace Connection
variable {wire : Wire} {conn conn' : Connection} {names : List String} {reqId : String} {cnt : ℕ}

/-- The connection to these nodes has sent the request again `cnt` times. -/
def Sent (conn : Connection) (names : List String) (reqId : String) (cnt : ℕ) : Prop :=
  ∃ pc msg, conn = some pc ∧ pc.nodes.map RemoteNode.name = names ∧
    pc.resend.lookup reqId = some (cnt, msg)

theorem sendRequest_of_processEvent {pc : PoolConnection} {pe : NetworkerEvent}
    (hpe : (∃ msg r t, pe = .sendOneRequest msg r t) ∨ ∃ r t, pe = .resend r t)
    (h : processEvent wire (some pc) pe = .ok conn') :
    ∃ pc', conn' = some pc' ∧ pc.sendRequest wire pe = .ok pc' := by
  rcases hpe with ⟨msg, r, t, rfl⟩ | ⟨r, t, rfl⟩
  all_goals
    simp only [processEvent] at h
    split at h
    · rename_i pc' hsend
      cases h
      exact ⟨pc', rfl, hsend⟩
    · cases h
    · cases h

theorem name_of_getElem? {pc : PoolConnection} {remote : RemoteNode}
    (hnames : pc.nodes.map RemoteNode.name = names)
    (h : pc.nodes[cnt % pc.nodes.length]? = some remote) : remote.name = pickNode names cnt := by
  have hlen : pc.nodes.length = names.length := by rw [← hnames, List.length_map]
  rw [pickNode, ← hlen, ← hnames, List.getD_eq_getElem?_getD, List.getElem?_map, h]
  rfl

/-- `Resend` waits for the next node in turn. -/
theorem Sent.resend {t : ℤ} (hs : conn.Sent names reqId cnt)
    (h : conn.processEvent wire (.resend reqId t) = .ok conn') :
    conn'.Sent names reqId (cnt + 1) ∧
    conn'.pending reqId = insert (pickNode names (cnt + 1)) (conn.pending reqId) := by
  obtain ⟨pc, msg, rfl, hnames, hcnt⟩ := hs
  obtain ⟨pc', rfl, hsend⟩ := sendRequest_of_processEvent (Or.inr ⟨_, _, rfl⟩) h
  simp only [PoolConnection.sendRequest, hcnt] at hsend
  split at hsend
  · cases hsend
  · obtain ⟨remote, hremote, hnodes, hresend, htimeouts⟩ :=
      PoolConnection.sendMsgToOneNode_inv hsend
    dsimp only at hremote hnodes hresend htimeouts
    refine ⟨⟨pc', msg, rfl, by rw [hnodes, hnames], by rw [hresend, AList.lookup_insert]⟩, ?_⟩
    rw [← name_of_getElem? hnames hremote]
    exact (PoolConnection.pending_insert htimeouts).trans (if_pos rfl)

theorem Sent.resend_ne {r : String} {t : ℤ} (hs : conn.Sent names reqId cnt) (hr : r ≠ reqId)
    (h : conn.processEvent wire (.resend r t) = .ok conn') :
    conn'.Sent names reqId cnt ∧ conn'.pending reqId = conn.pending reqId := by
  obtain ⟨pc, msg, rfl, hnames, hcnt⟩ := hs
  obtain ⟨pc', rfl, hsend⟩ := sendRequest_of_processEvent (Or.inr ⟨_, _, rfl⟩) h
  simp only [PoolConnection.sendRequest] at hsend
  split at hsend
  · cases hsend
    exact ⟨⟨pc, msg, rfl, hnames, hcnt⟩, rfl⟩
  · split at hsend
    · cases hsend
    · obtain ⟨remote, -, hnodes, hresend, htimeouts⟩ := PoolConnection.sendMsgToOneNode_inv hsend
      refine ⟨⟨pc', msg, rfl, by rw [hnodes, hnames], ?_⟩, ?_⟩
      · rw [hresend, AList.lookup_insert_ne hr.symm, hcnt]
      · exact (PoolConnection.pending_insert htimeouts).trans (if_neg hr)

/-- A connection that waits for an answer is kept. -/
theorem keep_of_pending {pc : PoolConnection} (h : (pc.pending reqId).Nonempty) :
    keep wire pc = some pc := by
  obtain ⟨node, hnode⟩ := h
  have hmem := AList.mem_keys.mp (PoolConnection.mem_pending.mp hnode)
  have hactive : pc.hasActiveRequests = true := by
    rw [PoolConnection.hasActiveRequests, decide_eq_true_eq]
    exact List.ne_nil_of_mem hmem
  simp [keep, PoolConnection.isOrphaned, hactive]

theorem pending_keep (pc : PoolConnection) : (keep wire pc).pending reqId = pc.pending reqId := by
  rcases Finset.eq_empty_or_nonempty (pc.pending reqId) with hempty | hne
  · unfold keep
    split
    · exact hempty.symm
    · rfl
  · rw [keep_of_pending hne]
    rfl

/-- `CleanTimeout` for one node. -/
theorem Sent.cleanTimeout {r a : String} (hs : conn.Sent names reqId cnt)
    (h : conn.processEvent wire (.cleanTimeout r (some a)) = .ok conn') :
    conn'.pending reqId = (if r = reqId then (conn.pending reqId).erase a else conn.pending reqId) ∧
    ((conn'.pending reqId).Nonempty → conn'.Sent names reqId cnt) := by
  obtain ⟨pc, msg, rfl, hnames, hcnt⟩ := hs
  simp only [processEvent, Except.ok.injEq] at h
  subst h
  constructor
  · rw [pending_keep]
    ext x
    simp only [PoolConnection.cleanTimeout, pending]
    rw [PoolConnection.mem_pending, AList.mem_erase]
    split
    · rename_i heq
      rw [Finset.mem_erase, PoolConnection.mem_pending, ne_eq, Prod.mk.injEq, heq]
      simp
    · rename_i hne
      rw [PoolConnection.mem_pending, ne_eq, Prod.mk.injEq]
      simp [Ne.symm hne]
  · intro hne
    rw [pending_keep] at hne
    rw [keep_of_pending hne]
    exact ⟨_, msg, rfl, hnames, hcnt⟩

theorem Sent.extendTimeout {r a : String} {t : ℤ} (hs : conn.Sent names reqId cnt)
    (h : conn.processEvent wire (.extendTimeout r a t) = .ok conn') :
    conn'.Sent names reqId cnt ∧ conn'.pending reqId = conn.pending reqId := by
  obtain ⟨pc, msg, rfl, hnames, hcnt⟩ := hs
  simp only [processEvent, Except.ok.injEq] at h
  subst h
  unfold PoolConnection.extendTimeout
  split
  · rename_i hmem
    refine ⟨⟨_, msg, rfl, hnames, hcnt⟩, ?_⟩
    refine (PoolConnection.pending_insert rfl).trans ?_
    split
    · rename_i heq
      subst heq
      exact Finset.insert_eq_of_mem (PoolConnection.mem_pending.mpr hmem)
    · rfl
  · exact ⟨⟨pc, msg, rfl, hnames, hcnt⟩, rfl⟩

/-- A request that is sent for the first time waits for the first node. -/
theorem sent_of_sendOneRequest {pc : PoolConnection} {msg : String} {t : ℤ}
    (hnames : pc.nodes.map RemoteNode.name = names)
    (h : processEvent wire (some pc) (.sendOneRequest msg reqId t) = .ok conn') :
    conn'.Sent names reqId 0 ∧
    conn'.pending reqId = insert (pickNode names 0) (pc.pending reqId) := by
  obtain ⟨pc', rfl, hsend⟩ := sendRequest_of_processEvent (Or.inl ⟨_, _, _, rfl⟩) h
  obtain ⟨pc₁, hone, hret⟩ := except_bind_eq_ok.mp hsend
  cases hret
  obtain ⟨remote, hremote, hnodes, -, htimeouts⟩ := PoolConnection.sendMsgToOneNode_inv hone
  dsimp only at hremote hnodes htimeouts
  refine ⟨⟨_, msg, rfl, by rw [hnodes, hnames], AList.lookup_insert _⟩, ?_⟩
  have hname : remote.name = pickNode names 0 :=
    name_of_getElem? hnames (by rw [Nat.zero_mod]; exact hremote)
  rw [← hname]
  exact (PoolConnection.pending_insert htimeouts).trans (if_pos rfl)

end Connection
end SimpleAsset.Indy
