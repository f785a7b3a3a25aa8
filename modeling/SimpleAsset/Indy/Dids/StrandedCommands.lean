import SimpleAsset.Indy.Anoncreds.IdentifierParts
import SimpleAsset.Indy.Dids.Custody
import SimpleAsset.Indy.Dids.DeferredCommands

/-! What kills the thread of the commands: a reply that is stored under another name than the one
that is looked up. -/
namespace SimpleAsset.Indy.Dids
open SimpleAsset.Library Crypto Wallet Wallet.WalletService
open Anoncreds (DidValue qualifierCaptures isLowerAlnum qualify)

/-- The DID that what the ledger tells about a DID is stored under. -/
def DeferrableCommand.home : DeferrableCommand → DidValue
  | .keyForDid did _ => qualifyShort did.toUnqualified.value did.getMethod
  | .getEndpointForDid did _ => did.toUnqualified

section Homes

/-- The parts of what has captures. -/
theorem exists_qualify_of_captures {entity method rest : String}
    (h : qualifierCaptures entity = some (method, rest)) :
    ∃ pre : String, pre.toList ≠ [] ∧ ':' ∉ pre.toList ∧ qualify rest pre method = entity := by
  have hspan : ∀ cs : List Char, ∀ w c rest, cs.span isLowerAlnum = (w, c :: rest) →
      cs = w ++ c :: rest ∧ ':' ∉ w := by
    intro cs w c rest hcs
    rw [List.span_eq_takeWhile_dropWhile, Prod.mk.injEq] at hcs
    obtain ⟨rfl, hrest⟩ := hcs
    refine ⟨by rw [← hrest, List.takeWhile_append_dropWhile], ?_⟩
    intro hcolon
    exact absurd (List.mem_takeWhile_imp hcolon) (by decide)
  unfold qualifierCaptures at h
  split at h
  · cases h
  · rename_i c cs afterPrefix hpre
    obtain ⟨hentity, hcolon⟩ := hspan _ _ _ _ hpre
    split at h
    · cases h
    · rename_i w tail _ hmethod
      obtain ⟨hafter, -⟩ := hspan _ _ _ _ hmethod
      split_ifs at h
      rw [Option.some.injEq, Prod.mk.injEq] at h
      obtain ⟨rfl, rfl⟩ := h
      refine ⟨String.ofList (c :: cs), ?_, ?_, ?_⟩
      · rw [String.toList_ofList]
        exact List.cons_ne_nil c cs
      · rwa [String.toList_ofList]
      · apply String.toList_inj.mp
        rw [hentity, hafter]
        simp [qualify]
    · cases h
  · cases h

/-- What stands before the first colon. -/
theorem takeWhile_before_colon {w : List Char} (rest : List Char) (hw : ':' ∉ w) :
    (w ++ ':' :: rest).takeWhile (· ≠ ':') = w := by
  have hall : ∀ c ∈ w, decide (c ≠ ':') = true := by
    intro c hc
    rw [decide_eq_true_eq]
    rintro rfl
    exact hw hc
  rw [List.takeWhile_append_of_pos hall, List.takeWhile_cons]
  simp

theorem getMethod_eq_none_iff {did : DidValue} :
    did.getMethod = none ↔ qualifierCaptures did.value = none :=
  Option.map_eq_none_iff

theorem toUnqualified_of_none {did : DidValue} (h : qualifierCaptures did.value = none) :
    did.toUnqualified = did := by
  rw [DidValue.toUnqualified, Anoncreds.toUnqualified, h]

theorem toUnqualified_of_captures {did : DidValue} {method rest : String}
    (h : qualifierCaptures did.value = some (method, rest)) : did.toUnqualified = ⟨rest⟩ := by
  rw [DidValue.toUnqualified, Anoncreds.toUnqualified, h]

/-- Endpoints are at home with DIDs that are not qualified. -/
theorem home_getEndpointForDid_iff {did : DidValue} {cb : ℕ} :
    (DeferrableCommand.getEndpointForDid did cb).home = did ↔ did.getMethod = none := by
  rw [getMethod_eq_none_iff, DeferrableCommand.home]
  constructor
  · intro h
    rw [Option.eq_none_iff_forall_ne_some]
    rintro ⟨method, rest⟩ hcaptures
    obtain ⟨pre, -, -, hentity⟩ := exists_qualify_of_captures hcaptures
    rw [toUnqualified_of_captures hcaptures] at h
    have hlength := congrArg (fun d : DidValue => d.value.toList.length) h
    rw [← hentity] at hlength
    simp [qualify] at hlength
    omega
  · exact toUnqualified_of_none

/-- Keys are at home with the DIDs of "did", and with those that are not qualified. -/
theorem home_keyForDid_iff {did : DidValue} {cb : ℕ} :
    (DeferrableCommand.keyForDid did cb).home = did ↔ did.getMethod = none ∨
    "did:".toList <+: did.value.toList := by
  rw [getMethod_eq_none_iff, DeferrableCommand.home]
  rcases hcaptures : qualifierCaptures did.value with _ | ⟨method, rest⟩
  · rw [getMethod_eq_none_iff.mpr hcaptures, toUnqualified_of_none hcaptures]
    simp [qualifyShort, newDidValue]
  · obtain ⟨pre, hpre, hcolon, hentity⟩ := exists_qualify_of_captures hcaptures
    have hmethod : did.getMethod = some method := by
      rw [DidValue.getMethod, hcaptures, Option.map_some]
    rw [hmethod, toUnqualified_of_captures hcaptures]
    have htext : did.value.toList = pre.toList ++ ':' :: (method.toList ++ ':' :: rest.toList) := by
      rw [← hentity]
      simp [qualify]
    have hhome : (qualifyShort rest (some method)).value.toList =
        "did".toList ++ ':' :: (method.toList ++ ':' :: rest.toList) := by
      simp [qualifyShort, newDidValue, DidValue.qualify, qualify]
    constructor
    · intro h
      rw [← h, hhome]
      exact Or.inr ⟨_, rfl⟩
    · rintro (hnone | ⟨tail, htail⟩)
      · cases hnone
      · have hdid : "did".toList = pre.toList := by
          rw [← takeWhile_before_colon tail (show ':' ∉ "did".toList by decide),
            ← takeWhile_before_colon (method.toList ++ ':' :: rest.toList) hcolon, ← htext, ← htail]
          rfl
        have hvalue : (qualifyShort rest (some method)).value = did.value := by
          apply String.toList_inj.mp
          rw [hhome, htext, hdid]
        exact congrArg DidValue.mk hvalue

end Homes

section Lookups
variable {α β : Type} {type : ObjectType α} {type' : ObjectType β} {T : Crypto.Codecs}
    {J : DidSerde} {m m' : RecordMap}
  {name : String} {did : DidValue} {cb : ℕ}

theorem fst_getIndyObject_congr (h : m'.lookup (keyOf type name) = m.lookup (keyOf type name)) :
    ((getIndyObject type name).runOn m').1 = ((getIndyObject type name).runOn m).1 := by
  rcases hlookup : m.lookup (keyOf type name) with _ | entry
  · rw [runOn_getIndyObject_of_none hlookup, runOn_getIndyObject_of_none (h.trans hlookup)]
  · rw [runOn_getIndyObject_of_lookup hlookup, runOn_getIndyObject_of_lookup (h.trans hlookup)]

theorem unlessMissing_of_object {a : α} (h : object type m name = some a) :
    unlessMissing ((getIndyObject type name).runOn m).1 = some (.ok a) := by
  rw [runOn_getIndyObject h]
  rfl

theorem addIndyObject_eq_ok {a : α} {text : String}
    (h : (addIndyObject type name a).runOn m = (.ok text, m')) :
    m' = m.insert (keyOf type name) (entryOf type a) := by
  by_cases hmem : keyOf type name ∈ m
  · rw [runOn_addIndyObject_of_mem hmem] at h
    cases h
  · rw [runOn_addIndyObject hmem] at h
    exact (Prod.mk.inj h).2.symm

/-- What a reply to GET_NYM puts into the wallet. -/
theorem getNymAck_eq_ok {result : IndyResult NymReply}
    (h : (getNymAck T J did result).runOn m = (.ok (), m')) :
    ∃ dest verkey theirDid, result = .ok (some (dest, verkey)) ∧
      theirDid.did = qualifyShort dest did.getMethod ∧
      m' = m.insert (keyOf J.theirDidType theirDid.did.value)
        (entryOf J.theirDidType theirDid) := by
  obtain ⟨reply, m₁, hreply, hafter⟩ := Stateful.runOn_bind_eq_ok.mp h
  obtain ⟨rfl, rfl⟩ := lift_eq_ok_iff.mp hreply
  obtain ⟨info, m₂, hinfo, hcreated⟩ := Stateful.runOn_bind_eq_ok.mp hafter
  obtain ⟨hknown, rfl⟩ := lift_eq_ok_iff.mp hinfo
  obtain ⟨theirDid, m₃, hcreate, hadded⟩ := Stateful.runOn_bind_eq_ok.mp hcreated
  obtain ⟨hmade, rfl⟩ := lift_eq_ok_iff.mp hcreate
  obtain ⟨text, m₄, hadd, hdone⟩ := Stateful.runOn_bind_eq_ok.mp hadded
  obtain ⟨-, rfl⟩ := Prod.mk.inj hdone
  cases reply with
  | none => cases hknown
  | some found =>
    obtain ⟨dest, verkey⟩ := found
    obtain rfl := Except.ok.inj hknown
    obtain ⟨fullVerkey, -, hvalid⟩ := except_bind_eq_ok.mp hmade
    obtain ⟨-, -, hdid⟩ := except_bind_eq_ok.mp hvalid
    obtain rfl := Except.ok.inj hdid
    exact ⟨dest, verkey, _, rfl, rfl, addIndyObject_eq_ok hadd⟩

theorem getAttribAck_eq_ok {result : IndyResult (String × Endpoint)}
    (h : (getAttribAck J result).runOn m = (.ok (), m')) :
    ∃ name endpoint, result = .ok (name, endpoint) ∧
      m' = m.insert (keyOf J.endpointType name) (entryOf J.endpointType endpoint) := by
  obtain ⟨⟨name, endpoint⟩, m₁, hreply, hafter⟩ := Stateful.runOn_bind_eq_ok.mp h
  obtain ⟨rfl, rfl⟩ := lift_eq_ok_iff.mp hreply
  obtain ⟨text, m₂, hadd, hdone⟩ := Stateful.runOn_bind_eq_ok.mp hafter
  obtain ⟨-, rfl⟩ := Prod.mk.inj hdone
  exact ⟨name, endpoint, rfl, addIndyObject_eq_ok hadd⟩

end Lookups

section Honesty
variable {S : Sodium} {T : Crypto.Codecs} {D : SeedCodecs} {J : DidSerde}
    {like : String → String → Bool}
  {s : DidCommandExecutor} {m m' : RecordMap}

/-- The ledger tells about the DID that it is asked for. -/
def Honest : LedgerRequest → LedgerReply → Prop
  | .getNym did, .nym (.ok (some (dest, _))) => dest = did.toUnqualified.value
  | .getAttrib did, .attrib (.ok (name, _)) => name = did.toUnqualified.value
  | _, _ => True

theorem keyForDid_insert_theirDid {did : DidValue} {theirDid : TheirDid} :
    keyForDid J (m.insert (keyOf J.theirDidType theirDid.did.value)
      (entryOf J.theirDidType theirDid)) did = none ↔
      theirDid.did ≠ did ∧ keyForDid J m did = none := by
  have hmine : ((walletGetMyDid J did).runOn
      (m.insert (keyOf J.theirDidType theirDid.did.value) (entryOf J.theirDidType theirDid))).1 =
      ((walletGetMyDid J did).runOn m).1 := by
    apply fst_getIndyObject_congr
    apply Finmap.lookup_insert_of_ne
    intro hkey
    have hname : "Did" = "TheirDid" := (keyOf_inj.mp hkey).1
    exact absurd hname (by decide)
  unfold keyForDid
  rw [hmine]
  rcases unlessMissing ((walletGetMyDid J did).runOn m).1 with _ | myDid
  · dsimp only
    rw [Option.map_eq_none_iff, Option.map_eq_none_iff]
    by_cases hdid : theirDid.did = did
    · subst hdid
      have hfound : object J.theirDidType (m.insert (keyOf J.theirDidType theirDid.did.value)
          (entryOf J.theirDidType theirDid)) theirDid.did.value = some theirDid :=
          object_insert_self _ rfl
      unfold walletGetTheirDid
      rw [unlessMissing_of_object hfound]
      simp
    · have hother : ((walletGetTheirDid J did).runOn
          (m.insert (keyOf J.theirDidType theirDid.did.value)
            (entryOf J.theirDidType theirDid))).1 =
          ((walletGetTheirDid J did).runOn m).1 := by
        apply fst_getIndyObject_congr
        apply Finmap.lookup_insert_of_ne
        intro hkey
        exact hdid (congrArg DidValue.mk (keyOf_inj.mp hkey).2).symm
      rw [hother]
      exact ⟨fun h => ⟨hdid, h⟩, fun h => h.2⟩
  · simp

theorem getEndpointForDid_insert_endpoint {did : DidValue} {name : String} {endpoint : Endpoint} :
    getEndpointForDid J (m.insert (keyOf J.endpointType name) (entryOf J.endpointType endpoint))
      did = none ↔
      name ≠ did.value ∧ getEndpointForDid J m did = none := by
  unfold getEndpointForDid
  rw [Option.map_eq_none_iff, Option.map_eq_none_iff]
  by_cases hname : name = did.value
  · subst hname
    have hfound : object J.endpointType
        (m.insert (keyOf J.endpointType did.value) (entryOf J.endpointType endpoint))
        did.value = some endpoint := object_insert_self _ rfl
    rw [unlessMissing_of_object hfound]
    simp
  · have hother : ((getIndyObject J.endpointType did.value).runOn
        (m.insert (keyOf J.endpointType name) (entryOf J.endpointType endpoint))).1 =
        ((getIndyObject J.endpointType did.value).runOn m).1 := by
      apply fst_getIndyObject_congr
      apply Finmap.lookup_insert_of_ne
      intro hkey
      exact hname (keyOf_inj.mp hkey).2.symm
    rw [hother]
    exact ⟨fun h => ⟨hname, h⟩, fun h => h.2⟩

/-- After an honest reply a command finds what it waits for, if it is stored at home; else it finds
what it found. -/
theorem answerOf_ack {c : DeferrableCommand} {reply : LedgerReply}
    (hhonest : Honest c.request reply) (hack : (ack T J c.request reply).runOn m = (.ok (), m')) :
    answerOf J m' c = none ↔ c.home ≠ c.did ∧ answerOf J m c = none := by
  cases c with
  | keyForDid did cb =>
    cases reply with
    | nym result =>
      obtain ⟨dest, verkey, theirDid, rfl, hdid, rfl⟩ := getNymAck_eq_ok hack
      have hdest : dest = did.toUnqualified.value := hhonest
      subst hdest
      simp only [answerOf, Option.map_eq_none_iff]
      rw [keyForDid_insert_theirDid, hdid]
      rfl
    | attrib result =>
      obtain ⟨_, _, _, hresult, -⟩ := getNymAck_eq_ok hack
      cases hresult
  | getEndpointForDid did cb =>
    cases reply with
    | nym result =>
      obtain ⟨_, _, hresult, -⟩ := getAttribAck_eq_ok hack
      cases hresult
    | attrib result =>
      obtain ⟨name, endpoint, rfl, rfl⟩ := getAttribAck_eq_ok hack
      have hname : name = did.toUnqualified.value := hhonest
      subst hname
      simp only [answerOf, Option.map_eq_none_iff]
      have hvalue : did.toUnqualified.value ≠ did.value ↔ did.toUnqualified ≠ did :=
        not_congr ⟨congrArg DidValue.mk, congrArg DidValue.value⟩
      rw [getEndpointForDid_insert_endpoint, hvalue]
      rfl

end Honesty

section Deaths
variable (S : Sodium) (T : Crypto.Codecs) (D : SeedCodecs) (J : DidSerde)
    (like : String → String → Bool)

def HonestAt (s : DidCommandExecutor) : DidEvent → Prop
  | .reply id reply => ∀ request, s.submitted.lookup id = some request → Honest request reply
  | .command _ _ | .wallet _ => True

/-- Every reply of the run is an honest one. -/
def HonestRun (m : RecordMap) (events : List DidEvent) : Prop :=
  ∀ before event, before ++ [event] <+: events →
    HonestAt (afterDidEvents S T D J like m before) event

/-- The reply is stored, but not at the DID that the command is about, and the wallet has nothing
for that one. -/
def Strands (s : DidCommandExecutor) (id : CommandHandle) (reply : LedgerReply) : Prop :=
  ∃ c m, s.deferredCommands.lookup id = some c ∧ c.home ≠ c.did ∧ answerOf J s.wallet c = none ∧
    (ack T J c.request reply).runOn s.wallet = (.ok (), m)

variable {S T D J like} {s : DidCommandExecutor} {m : RecordMap} {events : List DidEvent}

open DidCommandExecutor

/-- An event that the thread dies of. -/
theorem lost_process_iff (h : s.Accounted) (halive : s.lost = []) (event : DidEvent)
    (hhonest : HonestAt s event) :
    (s.process S T D J like event).lost ≠ [] ↔ ∃ id reply, event = .reply id reply ∧
      Strands T J s id reply := by
  cases event with
  | command c next =>
    have hexecute : (s.execute J c next).lost = s.lost := by
      unfold DidCommandExecutor.execute
      split <;> rfl
    change (s.execute J c next).lost ≠ [] ↔ _
    rw [hexecute, halive]
    simp
  | wallet event =>
    change s.lost ≠ [] ↔ _
    rw [halive]
    simp
  | reply id reply =>
    have hreply : (∃ id' reply', DidEvent.reply id reply = .reply id' reply' ∧
        Strands T J s id' reply') ↔
        Strands T J s id reply := by
      constructor
      · rintro ⟨id', reply', heq, hstrands⟩
        obtain ⟨rfl, rfl⟩ := DidEvent.reply.inj heq
        exact hstrands
      · exact fun hstrands => ⟨id, reply, rfl, hstrands⟩
    rw [hreply]
    change (s.onReply T J id reply).lost ≠ [] ↔ _
    have hrequest : ∀ c, s.deferredCommands.lookup id = some c →
        s.submitted.lookup id = some c.request := by
      intro c hc
      rw [h.requested halive, hc, Option.map_some]
    constructor
    · intro hlost
      rcases onReply_cases (T := T) (J := J) h halive id reply with
        hsame | ⟨c, m, hc, ⟨a, ha⟩ | ⟨hack, hnone, -⟩⟩
      · rw [hsame] at hlost
        exact absurd halive hlost
      · rw [ha] at hlost
        exact absurd halive hlost
      · have hasked := hhonest c.request (hrequest c hc)
        obtain ⟨hhome, hmissing⟩ := (answerOf_ack hasked hack).mp hnone
        exact ⟨c, m, hc, hhome, hmissing, hack⟩
    · rintro ⟨c, m, hc, hhome, hmissing, hack⟩
      have hasked := hhonest c.request (hrequest c hc)
      have hnone := (answerOf_ack hasked hack).mpr ⟨hhome, hmissing⟩
      rw [onReply_of_none (hrequest c hc) hc hack hnone]
      exact List.append_ne_nil_of_right_ne_nil _ (List.cons_ne_nil _ _)

theorem foldl_step_of_lost (h : s.lost ≠ []) (events : List DidEvent) :
    events.foldl (DidCommandExecutor.step S T D J like) s = s := by
  induction events with
  | nil => rfl
  | cons event events ih => rw [List.foldl_cons, DidCommandExecutor.step, if_neg h, ih]

theorem lost_concat_iff (hfree : FreshHandles S T D J like m events)
    (hhonest : HonestRun S T D J like m events) {before : List DidEvent} {event : DidEvent}
    (hbefore : before ++ [event] <+: events)
    (halive : (afterDidEvents S T D J like m before).lost = []) :
    (afterDidEvents S T D J like m (before ++ [event])).lost ≠ [] ↔
      ∃ id reply, event = .reply id reply ∧
        Strands T J (afterDidEvents S T D J like m before) id reply := by
  rw [afterDidEvents_concat, DidCommandExecutor.step, if_pos halive]
  have hpre : before <+: events := (List.prefix_append before [event]).trans hbefore
  exact lost_process_iff (accounted_afterDidEvents S T D J like (hfree.of_prefix hpre)) halive event
    (hhonest before event hbefore)

theorem exists_strands (hfree : FreshHandles S T D J like m events)
    (hhonest : HonestRun S T D J like m events)
    (hdead : (afterDidEvents S T D J like m events).lost ≠ []) :
    ∃ before id reply, before ++ [.reply id reply] <+: events ∧
      (afterDidEvents S T D J like m before).lost = [] ∧
      Strands T J (afterDidEvents S T D J like m before) id reply := by
  obtain ⟨before, event, hbefore, halive, hlost⟩ :=
    exists_step_of_foldl (P := fun s : DidCommandExecutor => s.lost ≠ []) (fun h => h rfl) hdead
  rw [not_not] at halive
  have hafter : (afterDidEvents S T D J like m (before ++ [event])).lost ≠ [] := by
    rw [afterDidEvents_concat]
    exact hlost
  obtain ⟨id, reply, rfl, hstrands⟩ := (lost_concat_iff hfree hhonest hbefore halive).mp hafter
  exact ⟨before, id, reply, hbefore, halive, hstrands⟩

/-- What waits is one of the commands of the run. -/
theorem mem_of_deferred (hfree : FreshHandles S T D J like m events) : ∀ id c,
    (afterDidEvents S T D J like m events).deferredCommands.lookup id = some c →
      ∃ next, .command c next ∈ events := by
  induction events using List.reverseRecOn with
  | nil =>
    intro id c h
    cases h
  | append_singleton events event ih =>
    have hevents := hfree.of_prefix (List.prefix_append events [event])
    have hbefore : ∀ id c,
        (afterDidEvents S T D J like m events).deferredCommands.lookup id = some c →
          ∃ next, .command c next ∈ events ++ [event] := by
      intro id c h
      obtain ⟨next, hnext⟩ := ih hevents id c h
      exact ⟨next, List.mem_append_left _ hnext⟩
    rw [afterDidEvents_concat, DidCommandExecutor.step]
    split_ifs with halive
    · cases event with
      | command c next =>
        change ∀ id c', ((afterDidEvents S T D J like m events).execute J c
          next).deferredCommands.lookup id = some c' → _
        unfold DidCommandExecutor.execute
        split
        · exact hbefore
        · exact Table.forall_lookup_insert
            ⟨next, List.mem_append_right _ (List.mem_singleton_self _)⟩ hbefore
      | reply id reply =>
        change ∀ id' c', ((afterDidEvents S T D J like m events).onReply T J id
          reply).deferredCommands.lookup id' = some c' → _
        rcases onReply_cases (T := T) (J := J)
          (accounted_afterDidEvents S T D J like hevents) halive
          id reply with hsame | ⟨c, m', -, ⟨a, ha⟩ | ⟨-, -, hdied⟩⟩
        · rwa [hsame]
        · rw [ha]
          exact Table.forall_lookup_erase hbefore
        · rw [hdied]
          exact Table.forall_lookup_erase hbefore
      | wallet event => exact hbefore
    · exact hbefore

/-- With an honest ledger every callback is called once or waits for a reply, if keys are asked for
DIDs of "did" and those that are not qualified, and endpoints for the latter only. -/
theorem home_commands_survive (S : Sodium) (T : Crypto.Codecs) (D : SeedCodecs) (J : DidSerde)
    (like : String → String → Bool) (m : RecordMap) (events : List DidEvent)
    (hfree : FreshHandles S T D J like m events) (hhonest : HonestRun S T D J like m events)
    (hkeys : ∀ did cb next, .command (.keyForDid did cb) next ∈ events →
      did.getMethod = none ∨ "did:".toList <+: did.value.toList)
    (hendpoints : ∀ did cb next, .command (.getEndpointForDid did cb) next ∈ events →
      did.getMethod = none) :
    (afterDidEvents S T D J like m events).lost = [] ∧
      (afterDidEvents S T D J like m events).answered +
      (afterDidEvents S T D J like m events).waiting =
        events.filterMap DidEvent.callback := by
  have halive : (afterDidEvents S T D J like m events).lost = [] := by
    by_contra hdead
    obtain ⟨before, id, reply, hbefore, -, c, _, hc, haway, -, -⟩ :=
      exists_strands hfree hhonest hdead
    have hpre : before <+: events := (List.prefix_append before [_]).trans hbefore
    obtain ⟨next, hnext⟩ := mem_of_deferred (hfree.of_prefix hpre) id c hc
    have hcommand := hpre.subset hnext
    cases c with
    | keyForDid did cb => exact haway (home_keyForDid_iff.mpr (hkeys did cb next hcommand))
    | getEndpointForDid did cb =>
      exact haway (home_getEndpointForDid_iff.mpr (hendpoints did cb next hcommand))
  obtain ⟨-, -, haccepted⟩ := accepted_afterDidEvents S T D J like hfree
  have hbalance := (accounted_afterDidEvents S T D J like hfree).balance
  rw [halive, Multiset.coe_nil, add_zero, haccepted halive] at hbalance
  exact ⟨halive, hbalance⟩

section Samples

/-- Two DIDs: "did:sov:x" and, for the ledger, "x". -/
def qualifiedDid : DidValue := ⟨"did:sov:x"⟩

/-- The endpoint of a qualified DID, as the ledger has it. -/
def strandingEvents : List DidEvent :=
  [.command (.getEndpointForDid qualifiedDid 7) 1,
    .reply 1 (.attrib (.ok ("x", ⟨"127.0.0.1:5555", none⟩)))]

theorem freshHandles_strandingEvents :
    FreshHandles openSodium letterCodecs noSeeds sampleSerde maxSqlite.like ∅ strandingEvents :=
  forall_steps_cons (C := HandleFree sampleSerde) (fun _ => rfl)
    (forall_steps_cons trivial forall_steps_nil)

theorem honestRun_strandingEvents :
    HonestRun openSodium letterCodecs noSeeds sampleSerde maxSqlite.like ∅ strandingEvents := by
  have hrequest : (afterDidEvents openSodium letterCodecs noSeeds sampleSerde maxSqlite.like ∅
      (strandingEvents.take 1)).submitted.lookup 1 = some (.getAttrib qualifiedDid) := by decide
  refine forall_steps_cons (C := HonestAt) trivial (forall_steps_cons ?_ forall_steps_nil)
  intro request hlookup
  obtain rfl := Option.some.inj (hlookup.symm.trans hrequest)
  exact (by decide : "x" = qualifiedDid.toUnqualified.value)

/-- The same for the DID as the ledger has it. -/
def homeEvents : List DidEvent :=
  [.command (.getEndpointForDid ⟨"x"⟩ 7) 1,
    .reply 1 (.attrib (.ok ("x", ⟨"127.0.0.1:5555", none⟩)))]

theorem freshHandles_homeEvents :
    FreshHandles openSodium letterCodecs noSeeds sampleSerde maxSqlite.like ∅ homeEvents :=
  forall_steps_cons (C := HandleFree sampleSerde) (fun _ => rfl)
    (forall_steps_cons trivial forall_steps_nil)

theorem honestRun_homeEvents :
    HonestRun openSodium letterCodecs noSeeds sampleSerde maxSqlite.like ∅ homeEvents := by
  have hrequest : (afterDidEvents openSodium letterCodecs noSeeds sampleSerde maxSqlite.like ∅
      (homeEvents.take 1)).submitted.lookup 1 = some (.getAttrib ⟨"x"⟩) := by decide
  refine forall_steps_cons (C := HonestAt) trivial (forall_steps_cons ?_ forall_steps_nil)
  intro request hlookup
  obtain rfl := Option.some.inj (hlookup.symm.trans hrequest)
  exact (by decide : "x" = (DidValue.mk "x").toUnqualified.value)

theorem home_commands_survive_home :
    (afterDidEvents openSodium letterCodecs noSeeds sampleSerde maxSqlite.like ∅ homeEvents).lost =
      [] ∧
      (afterDidEvents openSodium letterCodecs noSeeds sampleSerde maxSqlite.like ∅
        homeEvents).answered +
        (afterDidEvents openSodium letterCodecs noSeeds sampleSerde maxSqlite.like ∅
          homeEvents).waiting = {7} := by
  refine home_commands_survive openSodium letterCodecs noSeeds sampleSerde maxSqlite.like
    ∅ homeEvents freshHandles_homeEvents honestRun_homeEvents ?_ ?_
  · intro did cb next hcommand
    simp [homeEvents] at hcommand
  · intro did cb next hcommand
    obtain ⟨⟨rfl, -⟩, -⟩ : (did = ⟨"x"⟩ ∧ cb = 7) ∧ next = 1 := by simpa [homeEvents] using hcommand
    decide

end Samples

end Deaths

end SimpleAsset.Indy.Dids
