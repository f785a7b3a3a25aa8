import SimpleAsset.Library.Runs
import SimpleAsset.Vcx.DidExchange

/-! Who can complete or reset the connection of an inviter that has responded. -/
namespace SimpleAsset.Vcx
open SimpleAsset.Library

section Property

/-- The entry of a mailbox that is handled, with the envelope that it came in. -/
def DidExchangeSM.handledEnvelope (s : DidExchangeSM) (envelopes : List (String × Envelope)) :
    Option (String × Envelope) :=
  envelopes.find? fun entry =>
    match entry.2.open with
    | .ok message => s.picks message
    | .error _ => false

/-- The id of the request that was accepted. -/
def RespondedState.requestId (state : RespondedState) : String := state.response.thread.thid.getD ""

def RespondedState.inThread (state : RespondedState) : A2AMessage → Prop
  | .ack ack => ack.thread.isReply state.requestId
  | .connectionProblemReport report => report.thread.isReply state.requestId
  | _ => True

/-- Packed by a key of the party that was responded to, and in the thread where the message has
one. -/
def FromOtherParty (state : RespondedState) (envelope : Envelope) (message : A2AMessage) : Prop :=
  (∃ key, envelope.sender = some key ∧ key ∈ state.didDoc.recipientKeys) ∧ state.inThread message

/-- A state Responded that was left, with the entry that was handled then. -/
structure Departure where
  state : RespondedState
  handled : Option (String × Envelope)

def Departure.Proper (departure : Departure) : Prop :=
  ∃ entry message, departure.handled = some entry ∧ entry.2.open = .ok message ∧
    FromOtherParty departure.state entry.2 message

namespace DidExchangeSM

def responded? (s : DidExchangeSM) : Option RespondedState :=
  match s.state with
  | .inviter (.responded state) => some state
  | _ => none

/-- Reading this mailbox leaves a state Responded. -/
def departures (s : DidExchangeSM) (reading : Reading) : List Departure :=
  match s.responded?, (s.read reading).1.1.responded?, reading.answer with
  | some state, none, .ok envelopes => [⟨state, s.handledEnvelope envelopes⟩]
  | some state, none, .error _ => [⟨state, none⟩]
  | _, _, _ => []

end DidExchangeSM

/-- The departures of an update: on the first mailbox, and on the second one if it is read. -/
def updateDepartures (s : DidExchangeSM) (current previous : Reading) : List Departure :=
  s.departures current ++
    if (s.read current).1.2 then (s.read current).1.1.departures previous else []

def connectionStep (s : DidExchangeSM) : ConnectionEvent →
    VcxResult (DidExchangeSM × List Departure)
  | .command command calls outcomes => .ok ((s.perform (.command command calls outcomes)).1, [])
  | .updateState current previous =>
    .ok ((s.updateState current previous).1, updateDepartures s current previous)

/-- Every message of the kinds that make an end of Responded comes from the other party. -/
def Trusted (s : DidExchangeSM) (reading : Reading) : Prop :=
  ∀ state, s.responded? = some state → ∀ envelopes, reading.answer = .ok envelopes →
    ∀ entry ∈ envelopes, ∀ message, entry.2.open = .ok message → s.picks message →
      FromOtherParty state entry.2 message

/-- All mailboxes are to be trusted in the state in which they are read. -/
def TrustedEvent (s : DidExchangeSM) : ConnectionEvent → Prop
  | .command _ _ _ => True
  | .updateState current previous =>
    Trusted s current ∧ ((s.read current).1.2 → Trusted (s.read current).1.1 previous)

end Property

section Reads
variable {s : DidExchangeSM} {reading : Reading}

/-- What is found among the messages is the message of the entry that is handled. -/
theorem findMessageToHandle_of_handledEnvelope {envelopes : List (String × Envelope)}
    {messages : Mailbox} (h : getMessages (.ok envelopes) = .ok messages) :
    s.findMessageToHandle messages = none ∧ s.handledEnvelope envelopes = none ∨
      ∃ entry message, s.handledEnvelope envelopes = some entry ∧ entry.2.open = .ok message ∧
        s.findMessageToHandle messages = some (entry.1, message) := by
  rw [getMessages, except_ok_bind] at h
  induction envelopes generalizing messages with
  | nil =>
    obtain rfl := Except.ok.inj h
    exact Or.inl ⟨rfl, rfl⟩
  | cons entry envelopes ih =>
    rw [List.mapM_cons] at h
    obtain ⟨first, hfirst, h⟩ := except_bind_eq_ok.mp h
    obtain ⟨message, hmessage, hpure⟩ := except_bind_eq_ok.mp hfirst
    obtain ⟨rest, hrest, hall⟩ := except_bind_eq_ok.mp h
    obtain rfl := Except.ok.inj hpure
    obtain rfl := Except.ok.inj hall
    unfold DidExchangeSM.findMessageToHandle DidExchangeSM.handledEnvelope
    cases hpicks : s.picks message with
    | true =>
      refine Or.inr ⟨entry, message, ?_, hmessage, ?_⟩
      · apply List.find?_cons_of_pos
        rw [hmessage]
        exact hpicks
      · exact List.find?_cons_of_pos hpicks
    | false =>
      rw [List.find?_cons_of_neg, List.find?_cons_of_neg]
      · exact ih hrest
      · rw [hmessage]
        change ¬ s.picks message = true
        rw [hpicks]
        exact Bool.false_ne_true
      · rw [hpicks]
        exact Bool.false_ne_true

/-- The entry that is handled is one of the mailbox, with a message that is taken. -/
theorem mem_of_handledEnvelope {envelopes : List (String × Envelope)} {entry : String × Envelope}
    {message : A2AMessage} (h : s.handledEnvelope envelopes = some entry)
    (hmessage : entry.2.open = .ok message) :
    entry ∈ envelopes ∧ s.picks message := by
  refine ⟨List.mem_of_find?_eq_some h, ?_⟩
  have hpicked := List.find?_some h
  rwa [hmessage] at hpicked

/-- Without a message to handle, reading a mailbox changes nothing. -/
theorem read_eq_of_none (h : ∀ messages, getMessages reading.answer = .ok messages →
    s.findMessageToHandle messages = none) : (s.read reading).1.1 = s := by
  have hends := Sending.ends_run (s.handleFound reading) reading.outcomes
  change (s.afterHandling reading.updated ((s.handleFound reading).run reading.outcomes).1).1 = s
  rcases Sending.ends_bind hends with ⟨messages, sent₁, sent₂, hmessages, hrest, -⟩ | ⟨e, -, hr⟩
  · obtain ⟨hmessages, -⟩ := Sending.ends_ofExcept hmessages
    rw [h messages hmessages.symm] at hrest
    obtain ⟨hr, -⟩ := Sending.ends_pure hrest
    rw [hr]
    rfl
  · rw [hr]
    rfl

/-- A state Responded is left only on an entry that is handled. -/
theorem exists_handled_of_departs (hchanged : (s.read reading).1.1 ≠ s) :
    ∃ envelopes entry message, reading.answer = .ok envelopes ∧
      s.handledEnvelope envelopes = some entry ∧
      entry.2.open = .ok message := by
  cases hanswer : reading.answer with
  | error e =>
    refine absurd (read_eq_of_none ?_) hchanged
    intro messages hmessages
    rw [hanswer] at hmessages
    exact nomatch hmessages
  | ok envelopes =>
    cases hhandled : s.handledEnvelope envelopes with
    | none =>
      refine absurd (read_eq_of_none ?_) hchanged
      intro messages hmessages
      rw [hanswer] at hmessages
      rcases findMessageToHandle_of_handledEnvelope hmessages
        with ⟨hnone, -⟩ | ⟨entry, message, hsome, -⟩
      · exact hnone
      · exact nomatch hhandled.symm.trans hsome
    | some entry =>
      have hpicked := List.find?_some hhandled
      cases hopen : entry.2.open with
      | error e =>
        rw [hopen] at hpicked
        exact absurd hpicked Bool.false_ne_true
      | ok message => exact ⟨envelopes, entry, message, rfl, hhandled, hopen⟩

/-- From a mailbox that is to be trusted, every departure is proper. -/
theorem Trusted.proper (h : Trusted s reading) :
    ∀ departure ∈ s.departures reading, departure.Proper := by
  intro departure hmem
  unfold DidExchangeSM.departures at hmem
  cases hbefore : s.responded? with
  | none =>
    rw [hbefore] at hmem
    exact absurd hmem List.not_mem_nil
  | some state =>
    cases hafter : (s.read reading).1.1.responded? with
    | some state' =>
      rw [hbefore, hafter] at hmem
      exact absurd hmem List.not_mem_nil
    | none =>
      have hchanged : (s.read reading).1.1 ≠ s := by
        intro heq
        rw [heq, hbefore] at hafter
        exact nomatch hafter
      obtain ⟨envelopes, entry, message, hanswer, hhandled, hopen⟩ :=
        exists_handled_of_departs hchanged
      obtain ⟨hentry, hpicks⟩ := mem_of_handledEnvelope hhandled hopen
      rw [hbefore, hafter, hanswer] at hmem
      rw [List.mem_singleton.mp hmem]
      exact ⟨entry, message, hhandled, hopen,
        h state hbefore envelopes hanswer entry hentry message hopen hpicks⟩

end Reads

section Runs

/-- In every run of an inviter whose mailboxes are to be trusted when they are read, Responded is
left only on messages of the other party. -/
theorem only_other_party_completes (sourceId : String) {events : List ConnectionEvent}
    (htrusted : EveryStep connectionStep TrustedEvent (.newInviter sourceId) events) :
    ∀ pre, pre <+: events → ∃ s departures,
      runSteps connectionStep (.newInviter sourceId) pre = .ok (s, departures) ∧
      ∀ departure ∈ departures, departure.Proper := by
  refine exists_run_invariant
    (P := fun departures _ => ∀ departure ∈ departures, departure.Proper) ?_
    (fun _ hmem => absurd hmem List.not_mem_nil) ?_ htrusted
  · intro s event
    cases event with
    | command command calls outcomes => exact ⟨_, _, rfl⟩
    | updateState current previous => exact ⟨_, _, rfl⟩
  intro out s event s' out' hout hevent hstep departure hmem
  rcases List.mem_append.mp hmem with hmem | hmem
  · exact hout departure hmem
  · cases event with
    | command command calls outcomes =>
      obtain ⟨-, rfl⟩ := Prod.mk.inj (Except.ok.inj hstep)
      exact absurd hmem List.not_mem_nil
    | updateState current previous =>
      obtain ⟨-, rfl⟩ := Prod.mk.inj (Except.ok.inj hstep)
      rcases List.mem_append.mp hmem with hmem | hmem
      · exact hevent.1.proper departure hmem
      · by_cases hread : (s.read current).1.2
        · rw [if_pos hread] at hmem
          exact (hevent.2 hread).proper departure hmem
        · rw [if_neg hread] at hmem
          exact absurd hmem List.not_mem_nil

end Runs

section Sample

def sampleSettings : Settings := ⟨"http://agency", "agency key"⟩

/-- Every call succeeds, and a new agent is made of this key. -/
def exchangeCalls (key : String) : ExchangeCalls where
  settings := sampleSettings
  createAgent := .ok ⟨"did of " ++ key, key, "agent did", "agent key"⟩
  newId := "id of " ++ key
  validate _ := .ok ()
  sign _ := .ok ()
  getProtocolsForQuery _ := []

def bobsRequest : Request :=
  ⟨"request", "bob", "did of bob",
    ⟨"did of bob", ["bob"], ["agent key", "agency key"], "http://agency/agency/msg"⟩⟩

/-- A mailbox with these entries, which is read and handled without failure. -/
def readingOf (key : String) (envelopes : List (String × Envelope)) : Reading :=
  ⟨.ok envelopes, exchangeCalls key, [], .ok ()⟩

/-- Alice invites, and responds to the request of Bob. -/
def responding : List ConnectionEvent :=
  [.command .connect (exchangeCalls "alice") [],
    .updateState (readingOf "alice too" [("1", ⟨some "bob", .ok (.connectionRequest bobsRequest)⟩)])
      (readingOf "" [])]

/-- Bob confirms. -/
def confirmed : ConnectionEvent :=
  .updateState (readingOf "" [("2", ⟨some "bob", .ok (.ack ⟨"ack", .ofId "request"⟩)⟩)])
    (readingOf "" [])

/-- Someone else who knows the invitation sends an ack of no thread to its key. -/
def intruded : ConnectionEvent :=
  .updateState (readingOf "" [])
    (readingOf "" [("2", ⟨some "mallory", .ok (.ack ⟨"ack", ⟨none⟩⟩)⟩)])

theorem trusted_nil (s : DidExchangeSM) (key : String) : Trusted s (readingOf key []) := by
  intro state _ envelopes hanswer entry hentry
  rw [← Except.ok.inj hanswer] at hentry
  exact absurd hentry List.not_mem_nil

theorem only_other_party_completes_bob : ∃ s departures,
    runSteps connectionStep (.newInviter "alice") (responding ++ [confirmed]) = .ok
      (s, departures) ∧
      ∀ departure ∈ departures, departure.Proper := by
  refine only_other_party_completes "alice" ?_ (responding ++ [confirmed]) List.prefix_rfl
  refine EveryStep.cons (C := TrustedEvent) trivial ?_
  intro s out hstep
  obtain ⟨rfl, -⟩ := Prod.mk.inj (Except.ok.inj hstep)
  apply EveryStep.cons
  · refine ⟨?_, fun _ => trusted_nil _ _⟩
    intro state hstate
    exact nomatch hstate
  · intro s out hstep
    obtain ⟨rfl, -⟩ := Prod.mk.inj (Except.ok.inj hstep)
    apply EveryStep.cons
    · refine ⟨?_, fun _ => trusted_nil _ _⟩
      intro state hstate envelopes hanswer entry hentry message hmessage _
      rw [← Except.ok.inj hanswer] at hentry
      rw [List.mem_singleton.mp hentry] at hmessage ⊢
      rw [← Option.some.inj hstate, ← Except.ok.inj hmessage]
      refine ⟨⟨"bob", rfl, List.mem_cons_self⟩, ?_⟩
      change Thread.isReply (.ofId "request") "request" = true
      decide
    · intro s out _
      exact everyStep_nil

/-- The inviter completes on the ack of someone else. -/
theorem completed_by_another : ∃ s departures,
    runSteps connectionStep (.newInviter "alice") (responding ++ [intruded]) = .ok (s, departures) ∧
      (∃ state, s.state = .inviter (.completed state)) ∧
      ∃ departure ∈ departures, ¬ departure.Proper := by
  refine ⟨_, _, rfl, ⟨_, rfl⟩, _, List.mem_cons_self, ?_⟩
  rintro ⟨entry, message, hentry, -, ⟨key, hsender, hkey⟩, -⟩
  rw [← Option.some.inj hentry] at hsender
  rw [← Option.some.inj hsender] at hkey
  exact absurd (List.mem_singleton.mp hkey) (by decide)

end Sample

end SimpleAsset.Vcx
