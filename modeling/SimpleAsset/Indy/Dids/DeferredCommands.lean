import SimpleAsset.Indy.Dids.Custody
import SimpleAsset.Library.Runs
import SimpleAsset.Library.Table

/-! Commands that wait for the ledger (commands/did.rs): each is answered once, unless the thread
dies of it. -/
namespace SimpleAsset.Indy.Dids
open SimpleAsset.Library Crypto Wallet Wallet.WalletService
open Anoncreds (DidValue)

/-- The commands of `DidCommand` that may be deferred, with what tells their callbacks apart. -/
inductive DeferrableCommand
  | keyForDid (did : DidValue) (cb : ℕ)
  | getEndpointForDid (did : DidValue) (cb : ℕ)
  deriving DecidableEq, Repr

namespace DeferrableCommand

def did : DeferrableCommand → DidValue
  | keyForDid did _ | getEndpointForDid did _ => did

def cb : DeferrableCommand → ℕ
  | keyForDid _ cb | getEndpointForDid _ cb => cb

end DeferrableCommand

inductive LedgerRequest
  | getNym (did : DidValue)
  | getAttrib (did : DidValue)
  deriving DecidableEq, Repr

def DeferrableCommand.request : DeferrableCommand → LedgerRequest
  | keyForDid did _ => .getNym did
  | getEndpointForDid did _ => .getAttrib did

/-- What the ledger replies, or why it does not. -/
inductive LedgerReply
  | nym (result : IndyResult NymReply)
  | attrib (result : IndyResult (String × Endpoint))

/-- What a callback is called with. -/
inductive Answer
  | key (result : Outcome String)
  | endpoint (result : Outcome (String × Option String))

/-- An `i32` of `next_command_handle`, which counts for the whole library. -/
abbrev CommandHandle := BitVec 32

structure DidCommandExecutor where
  wallet : RecordMap
  deferredCommands : Table CommandHandle DeferrableCommand
  /-- The requests that `SubmitRequest` has not called back for. -/
  submitted : Table CommandHandle LedgerRequest
  accepted : List ℕ
  answers : List (ℕ × Answer)
  /-- The callback of the command that the thread died of. -/
  lost : List ℕ

def DidCommandExecutor.new (wallet : RecordMap) : DidCommandExecutor := ⟨wallet, ∅, ∅, [], [], []⟩

/-- Nothing, if an item is missing that the ledger may have. -/
def unlessMissing {α : Type} (result : Outcome α) : Option (Outcome α) :=
  if isNotFound result then none else some result

section Executor
variable (S : Sodium) (T : Crypto.Codecs) (D : SeedCodecs) (J : DidSerde)
    (like : String → String → Bool)

def keyForDid (m : RecordMap) (did : DidValue) : Option (Outcome String) :=
  match unlessMissing ((walletGetMyDid J did).runOn m).1 with
  | some myDid => some (myDid.map (·.verkey))
  | none => (unlessMissing ((walletGetTheirDid J did).runOn m).1).map fun theirDid =>
      theirDid.map (·.verkey)

def getEndpointForDid (m : RecordMap) (did : DidValue) :
    Option (Outcome (String × Option String)) :=
  (unlessMissing ((getIndyObject J.endpointType did.value).runOn m).1).map fun endpoint =>
    endpoint.map fun e => (e.ha, e.verkey)

/-- What a command finds in the wallet. -/
def answerOf (m : RecordMap) : DeferrableCommand → Option Answer
  | .keyForDid did _ => (keyForDid J m did).map .key
  | .getEndpointForDid did _ => (getEndpointForDid J m did).map .endpoint

/-- `_call_error_cb`. -/
def errorAnswer (fault : Fault) : DeferrableCommand → Answer
  | .keyForDid _ _ => .key (.error fault)
  | .getEndpointForDid _ _ => .endpoint (.error fault)

/-- A reply of the other kind does not parse. -/
def ack : LedgerRequest → LedgerReply → InWallet Unit
  | .getNym did, .nym result => getNymAck T J did result
  | .getNym did, .attrib _ =>
    getNymAck T J did (.error ⟨.invalidState, "Invalid GetNymReplyResult json"⟩)
  | .getAttrib _, .attrib result => getAttribAck J result
  | .getAttrib _, .nym _ =>
    getAttribAck J (.error ⟨.invalidState, "Invalid GetAttrReplyResult json"⟩)

namespace DidCommandExecutor

def answer (s : DidCommandExecutor) (c : DeferrableCommand) (a : Answer) : DidCommandExecutor :=
  { s with answers := s.answers ++ [(c.cb, a)] }

/-- `_fetch_their_did_from_ledger` and `_fetch_attrib_from_ledger`, with `_defer_command`. -/
def fetchFromLedger (s : DidCommandExecutor) (c : DeferrableCommand)
    (nextCommandHandle : CommandHandle) : DidCommandExecutor :=
  { s with
    deferredCommands := s.deferredCommands.insert nextCommandHandle c
    submitted := s.submitted.insert nextCommandHandle c.request }

def execute (s : DidCommandExecutor) (c : DeferrableCommand)
    (nextCommandHandle : CommandHandle) : DidCommandExecutor :=
  match answerOf J s.wallet c with
  | some a => s.answer c a
  | none => s.fetchFromLedger c nextCommandHandle

/-- `_execute_deferred_command`. -/
def executeDeferredCommand (s : DidCommandExecutor) (deferredCmdId : CommandHandle)
    (res : Outcome Unit) : DidCommandExecutor :=
  match s.deferredCommands.lookup deferredCmdId with
  | none => s
  | some c =>
    let s := { s with deferredCommands := s.deferredCommands.erase deferredCmdId }
    match res with
    | .error fault => s.answer c (errorAnswer fault c)
    | .ok _ =>
      match answerOf J s.wallet c with
      | some a => s.answer c a
      -- The map is borrowed until the command is done: to defer it again is a `BorrowMutError`.
      | none => { s with lost := s.lost ++ [c.cb] }

/-- `get_nym_ack` and `get_attrib_ack`. -/
def onReply (s : DidCommandExecutor) (deferredCmdId : CommandHandle) (reply : LedgerReply) :
    DidCommandExecutor :=
  match s.submitted.lookup deferredCmdId with
  | none => s
  | some request =>
    let (res, wallet) := (ack T J request reply).runOn s.wallet
    executeDeferredCommand J { s with wallet, submitted := s.submitted.erase deferredCmdId }
      deferredCmdId res

end DidCommandExecutor

inductive DidEvent
  /-- A command, and the handle that there is for it if it is deferred. -/
  | command (c : DeferrableCommand) (nextCommandHandle : CommandHandle)
  | reply (deferredCmdId : CommandHandle) (reply : LedgerReply)
  | wallet (event : WalletEvent)

/-- The callback that an event brings. -/
def DidEvent.callback : DidEvent → Option ℕ
  | .command c _ => some c.cb
  | .reply _ _ | .wallet _ => none

def DidCommandExecutor.process (s : DidCommandExecutor) : DidEvent → DidCommandExecutor
  | .command c next =>
    { s.execute J c next with accepted := (s.execute J c next).accepted ++ [c.cb] }
  | .reply deferredCmdId reply => s.onReply T J deferredCmdId reply
  | .wallet event => { s with wallet := handle S T D J like s.wallet event }

/-- The thread of the commands; nothing is done after it died. -/
def DidCommandExecutor.step (s : DidCommandExecutor) (event : DidEvent) : DidCommandExecutor :=
  if s.lost = [] then s.process S T D J like event else s

def afterDidEvents (m : RecordMap) (events : List DidEvent) : DidCommandExecutor :=
  events.foldl (DidCommandExecutor.step S T D J like) (.new m)

/-- The handle of a command that is deferred is not one that another command waits with. -/
def HandleFree (s : DidCommandExecutor) : DidEvent → Prop
  | .command c next => answerOf J s.wallet c = none → s.deferredCommands.lookup next = none
  | .reply _ _ | .wallet _ => True

/-- No handle is given out while a command waits with it. -/
def FreshHandles (m : RecordMap) (events : List DidEvent) : Prop :=
  ∀ before event, before ++ [event] <+: events →
    HandleFree J (afterDidEvents S T D J like m before) event

end Executor

section Accounting
variable {S : Sodium} {T : Crypto.Codecs} {D : SeedCodecs} {J : DidSerde}
    {like : String → String → Bool}
  {s : DidCommandExecutor} {m : RecordMap}

namespace DidCommandExecutor

def answered (s : DidCommandExecutor) : Multiset ℕ := s.answers.map Prod.fst

def waiting (s : DidCommandExecutor) : Multiset ℕ :=
  Table.total (fun c => {c.cb}) s.deferredCommands

/-- No callback is called twice or forgotten, and what waits has a request on its way. -/
structure Accounted (s : DidCommandExecutor) : Prop where
  balance : s.answered + s.waiting + s.lost = s.accepted
  requested : s.lost = [] →
    ∀ id, s.submitted.lookup id = (s.deferredCommands.lookup id).map (·.request)

theorem answered_answer (s : DidCommandExecutor) (c : DeferrableCommand) (a : Answer) :
    (s.answer c a).answered = s.answered + {c.cb} := by
  simp only [answered, answer, List.map_append, List.map_cons, List.map_nil, ← Multiset.coe_add,
    Multiset.coe_singleton]

theorem accounted_new (m : RecordMap) : Accounted (new m) := by
  constructor
  · rfl
  · exact fun _ _ => rfl

theorem waiting_insert {id : CommandHandle} (h : s.deferredCommands.lookup id = none)
    (c : DeferrableCommand) :
    Table.total (fun c => ({c.cb} : Multiset ℕ)) (s.deferredCommands.insert id c) = s.waiting +
    {c.cb} := by
  have hsum :=
    Table.weight_add_total_insert (fun c => ({c.cb} : Multiset ℕ)) id c s.deferredCommands
  rw [Table.weight, h, Option.map_none, Option.getD_none, zero_add] at hsum
  rw [hsum, add_comm]
  rfl

theorem waiting_erase {id : CommandHandle} {c : DeferrableCommand}
    (h : s.deferredCommands.lookup id = some c) :
    Table.total (fun c => ({c.cb} : Multiset ℕ)) (s.deferredCommands.erase id) +
    {c.cb} = s.waiting := by
  have hsum := Table.weight_add_total_erase (fun c => ({c.cb} : Multiset ℕ)) id s.deferredCommands
  rw [Table.weight_eq_of_lookup _ h, add_comm] at hsum
  exact hsum

/-- A command that is executed is answered or waits. -/
theorem accounted_execute (h : Accounted s) (c : DeferrableCommand) (next : CommandHandle)
    (hfree : HandleFree J s (.command c next)) (halive : s.lost = []) :
    Accounted { s.execute J c next with accepted := (s.execute J c next).accepted ++ [c.cb] } := by
  have hbalance := h.balance
  unfold execute
  split
  · constructor
    · change (s.answer c _).answered + s.waiting + s.lost = (s.accepted ++ [c.cb] : List ℕ)
      rw [answered_answer, ← Multiset.coe_add, Multiset.coe_singleton, ← hbalance]
      abel
    · exact h.requested
  · rename_i hmissing
    have hnew := hfree hmissing
    constructor
    · change s.answered + Table.total _ (s.deferredCommands.insert next c) + s.lost =
        (s.accepted ++ [c.cb] : List ℕ)
      rw [waiting_insert hnew, ← Multiset.coe_add, Multiset.coe_singleton, ← hbalance]
      abel
    · intro _ id
      change (s.submitted.insert next c.request).lookup id =
        ((s.deferredCommands.insert next c).lookup id).map (·.request)
      rw [Table.lookup_insert_ite, Table.lookup_insert_ite, h.requested halive]
      split_ifs <;> rfl

/-- The executor after a reply, but for its callback. -/
def settle (s : DidCommandExecutor) (id : CommandHandle) (wallet : RecordMap) :
    DidCommandExecutor :=
  { s with wallet, deferredCommands := s.deferredCommands.erase id, submitted :=
    s.submitted.erase id }

section Replies
variable {id : CommandHandle} {c : DeferrableCommand} {reply : LedgerReply} {m : RecordMap}

theorem onReply_of_error {fault : Fault} (hrequest : s.submitted.lookup id = some c.request)
    (hc : s.deferredCommands.lookup id = some c)
    (hack : (ack T J c.request reply).runOn s.wallet = (.error fault, m)) :
    s.onReply T J id reply = (s.settle id m).answer c (errorAnswer fault c) := by
  simp only [onReply, hrequest, hack, executeDeferredCommand, hc]
  rfl

theorem onReply_of_some {a : Answer} (hrequest : s.submitted.lookup id = some c.request)
    (hc : s.deferredCommands.lookup id = some c)
    (hack : (ack T J c.request reply).runOn s.wallet = (.ok (), m))
    (ha : answerOf J m c = some a) : s.onReply T J id reply = (s.settle id m).answer c a := by
  simp only [onReply, hrequest, hack, executeDeferredCommand, hc, ha]
  rfl

theorem onReply_of_none (hrequest : s.submitted.lookup id = some c.request)
    (hc : s.deferredCommands.lookup id = some c)
    (hack : (ack T J c.request reply).runOn s.wallet = (.ok (), m)) (ha : answerOf J m c = none) :
    s.onReply T J id reply = { s.settle id m with lost := s.lost ++ [c.cb] } := by
  simp only [onReply, hrequest, hack, executeDeferredCommand, hc, ha]
  rfl

/-- A reply settles the command that waits for it, one way or another. -/
theorem onReply_cases (h : Accounted s) (halive : s.lost = []) (id : CommandHandle)
    (reply : LedgerReply) :
    s.onReply T J id reply = s ∨ ∃ c m, s.deferredCommands.lookup id = some c ∧
      ((∃ a, s.onReply T J id reply = (s.settle id m).answer c a) ∨
        (ack T J c.request reply).runOn s.wallet = (.ok (), m) ∧ answerOf J m c = none ∧
        s.onReply T J id reply = { s.settle id m with lost := s.lost ++ [c.cb] }) := by
  rcases hrequest : s.submitted.lookup id with _ | request
  · left
    simp only [onReply, hrequest]
  · right
    have hwaits := h.requested halive id
    rw [hrequest, eq_comm] at hwaits
    obtain ⟨c, hc, rfl⟩ := Option.map_eq_some_iff.mp hwaits
    rcases hack : (ack T J c.request reply).runOn s.wallet with ⟨fault | ⟨⟩, m⟩
    · exact ⟨c, m, hc, Or.inl ⟨_, onReply_of_error hrequest hc hack⟩⟩
    · rcases ha : answerOf J m c with _ | a
      · exact ⟨c, m, hc, Or.inr ⟨hack, ha, onReply_of_none hrequest hc hack ha⟩⟩
      · exact ⟨c, m, hc, Or.inl ⟨a, onReply_of_some hrequest hc hack ha⟩⟩

theorem accounted_settle (h : Accounted s) (hc : s.deferredCommands.lookup id = some c)
    (m : RecordMap) :
    (s.settle id m).answered + (s.settle id m).waiting + (s.settle id m).lost +
    {c.cb} = (s.settle id m).accepted ∧
      (s.lost = [] → ∀ id', (s.settle id m).submitted.lookup id' =
        ((s.settle id m).deferredCommands.lookup id').map (·.request)) := by
  constructor
  · change s.answered + Table.total _ (s.deferredCommands.erase id) + s.lost + {c.cb} = s.accepted
    rw [← h.balance, ← waiting_erase hc]
    abel
  · intro halive id'
    change (s.submitted.erase id).lookup id' =
      ((s.deferredCommands.erase id).lookup id').map (·.request)
    rw [Table.lookup_erase_ite, Table.lookup_erase_ite, h.requested halive]
    split_ifs <;> rfl

theorem accounted_onReply (h : Accounted s) (halive : s.lost = []) (id : CommandHandle)
    (reply : LedgerReply) :
    Accounted (s.onReply T J id reply) := by
  rcases onReply_cases (T := T) (J := J) h halive id reply
    with hsame | ⟨c, m, hc, ⟨a, ha⟩ | ⟨-, -, hlost⟩⟩
  · rwa [hsame]
  · obtain ⟨hbalance, hrequested⟩ := accounted_settle h hc m
    rw [ha]
    refine ⟨?_, hrequested⟩
    rw [answered_answer]
    exact (by abel : _ = _).trans hbalance
  · obtain ⟨hbalance, hrequested⟩ := accounted_settle h hc m
    rw [hlost]
    refine ⟨?_, ?_⟩
    · change (s.settle id m).answered + (s.settle id m).waiting + (s.lost ++ [c.cb] : List ℕ) = _
      rw [← Multiset.coe_add, Multiset.coe_singleton, ← add_assoc]
      exact hbalance
    · intro hnil
      exact absurd hnil (List.append_ne_nil_of_right_ne_nil _ (List.cons_ne_nil _ _))

end Replies

theorem accounted_step (h : Accounted s) (event : DidEvent) (hfree : HandleFree J s event) :
    Accounted (s.step S T D J like event) := by
  unfold step
  split_ifs with hlost
  · cases event with
    | command c next => exact accounted_execute h c next hfree hlost
    | reply id reply => exact accounted_onReply h hlost id reply
    | wallet event => exact ⟨h.balance, h.requested⟩
  · exact h

/-- While the thread lives, it accepts whatever comes. -/
theorem accepted_process (h : Accounted s) (halive : s.lost = []) (event : DidEvent) :
    (s.process S T D J like event).accepted = s.accepted ++ event.callback.toList ∧
      (s.process S T D J like event).lost.length ≤ 1 := by
  have hlength : s.lost.length ≤ 1 := by
    rw [halive]
    exact Nat.zero_le _
  cases event with
  | command c next =>
    have hexecute : (s.execute J c next).accepted = s.accepted ∧
        (s.execute J c next).lost = s.lost := by
      unfold execute
      split <;> exact ⟨rfl, rfl⟩
    change (s.execute J c next).accepted ++ [c.cb] = _ ∧ (s.execute J c next).lost.length ≤ 1
    rw [hexecute.1, hexecute.2]
    exact ⟨rfl, hlength⟩
  | reply id reply =>
    change (s.onReply T J id reply).accepted = s.accepted ++ [] ∧
      (s.onReply T J id reply).lost.length ≤ 1
    rw [List.append_nil]
    rcases onReply_cases (T := T) (J := J) h halive id reply
      with hsame | ⟨c, m, -, ⟨a, ha⟩ | ⟨-, -, hdied⟩⟩
    · rw [hsame]
      exact ⟨rfl, hlength⟩
    · rw [ha]
      exact ⟨rfl, hlength⟩
    · rw [hdied, halive]
      exact ⟨rfl, le_rfl⟩
  | wallet event => exact ⟨(List.append_nil _).symm, hlength⟩

end DidCommandExecutor

theorem afterDidEvents_concat (m : RecordMap) (events : List DidEvent) (event : DidEvent) :
    afterDidEvents S T D J like m (events ++ [event]) =
      (afterDidEvents S T D J like m events).step S T D J like event :=
  List.foldl_concat ..

variable (S T D J like) {events : List DidEvent}

theorem accounted_afterDidEvents (hfree : FreshHandles S T D J like m events) :
    (afterDidEvents S T D J like m events).Accounted := by
  refine forall_prefix_of_steps (P := fun pre => (afterDidEvents S T D J like m pre).Accounted)
    (DidCommandExecutor.accounted_new m) ?_ hfree events (List.prefix_refl _)
  intro pre event hpre hevent
  rw [afterDidEvents_concat]
  exact DidCommandExecutor.accounted_step hpre event hevent

variable {S T D J like} in
theorem FreshHandles.of_prefix (hfree : FreshHandles S T D J like m events) {before : List DidEvent}
    (hbefore : before <+: events) : FreshHandles S T D J like m before :=
  fun pre event hpre => hfree pre event (hpre.trans hbefore)

theorem accepted_afterDidEvents (hfree : FreshHandles S T D J like m events) :
    (afterDidEvents S T D J like m events).accepted <+: events.filterMap DidEvent.callback ∧
      (afterDidEvents S T D J like m events).lost.length ≤ 1 ∧
      ((afterDidEvents S T D J like m events).lost = [] →
        (afterDidEvents S T D J like m events).accepted = events.filterMap DidEvent.callback) := by
  induction events using List.reverseRecOn with
  | nil => exact ⟨List.prefix_refl _, Nat.zero_le _, fun _ => rfl⟩
  | append_singleton events event ih =>
    have hevents := hfree.of_prefix (List.prefix_append events [event])
    obtain ⟨hinitial, hlength, halive⟩ := ih hevents
    have hlast : [event].filterMap DidEvent.callback = event.callback.toList := by
      rw [List.filterMap_cons]
      cases event.callback <;> rfl
    rw [afterDidEvents_concat, List.filterMap_append, hlast, DidCommandExecutor.step]
    split_ifs with hlost
    · obtain ⟨haccepted, hone⟩ := DidCommandExecutor.accepted_process
        (accounted_afterDidEvents S T D J like hevents) hlost event
      rw [haccepted, halive hlost]
      exact ⟨List.prefix_refl _, hone, fun _ => rfl⟩
    · exact ⟨hinitial.trans (List.prefix_append _ _), hlength, fun hnil => absurd hnil hlost⟩

/-- In every order of commands and replies, a callback of the commands accepted is called once,
waits for a reply that is on its way, or is lost with the thread, which takes no more than one. -/
theorem callbacks_once (m : RecordMap) (events : List DidEvent)
    (hfree : FreshHandles S T D J like m events) :
    let s := afterDidEvents S T D J like m events
    s.accepted <+: events.filterMap DidEvent.callback ∧ s.answered + s.waiting +
    s.lost = s.accepted ∧
      s.lost.length ≤ 1 ∧
      (s.lost = [] → s.accepted = events.filterMap DidEvent.callback ∧
        ∀ id, s.submitted.lookup id = (s.deferredCommands.lookup id).map (·.request)) := by
  obtain ⟨hinitial, hlength, halive⟩ := accepted_afterDidEvents S T D J like hfree
  have hacc := accounted_afterDidEvents S T D J like hfree
  exact ⟨hinitial, hacc.balance, hlength, fun hlost => ⟨halive hlost, hacc.requested hlost⟩⟩

/-- Two keys are asked for; one command is answered, and a third waits with the handle that it
had. -/
def waitingEvents : List DidEvent :=
  [.command (.keyForDid ⟨"x"⟩ 7) 1, .command (.keyForDid ⟨"y"⟩ 8) 2, .reply 1 (.nym (.ok none)),
    .command (.getEndpointForDid ⟨"z"⟩ 9) 1]

theorem freshHandles_waitingEvents :
    FreshHandles openSodium letterCodecs noSeeds sampleSerde maxSqlite.like ∅ waitingEvents := by
  refine forall_steps_cons (C := HandleFree sampleSerde) (fun _ => rfl) ?_
  refine forall_steps_cons (C := HandleFree sampleSerde) (fun _ => rfl) ?_
  refine forall_steps_cons (C := HandleFree sampleSerde) trivial ?_
  exact forall_steps_cons (C := HandleFree sampleSerde) (fun _ => rfl) forall_steps_nil

theorem callbacks_once_waiting :
    let s :=
  afterDidEvents openSodium letterCodecs noSeeds sampleSerde maxSqlite.like ∅ waitingEvents
    s.accepted <+: waitingEvents.filterMap DidEvent.callback ∧
      s.answered + s.waiting + s.lost = s.accepted ∧ s.lost.length ≤ 1 ∧
      (s.lost = [] → s.accepted = waitingEvents.filterMap DidEvent.callback ∧
        ∀ id, s.submitted.lookup id = (s.deferredCommands.lookup id).map (·.request)) :=
  callbacks_once openSodium letterCodecs noSeeds sampleSerde maxSqlite.like ∅ waitingEvents
    freshHandles_waitingEvents

end Accounting

end SimpleAsset.Indy.Dids
