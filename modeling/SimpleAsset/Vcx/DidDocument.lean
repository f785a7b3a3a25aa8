import Mathlib.Data.List.Basic
import Mathlib.Data.Nat.Digits.Defs
import SimpleAsset.Indy.Result
import SimpleAsset.Library.Decimal
import SimpleAsset.Library.Fallible
import SimpleAsset.Library.Joined
import SimpleAsset.Vcx.Messages

/-! DID documents (libvcx, v3/messages/connection/did_doc.rs): their keys, by value and by
reference. -/
namespace SimpleAsset.Vcx.Documents
open SimpleAsset.Library
open Indy (Bytes)

def context : String := "https://w3id.org/did/v1"
def keyType : String := "Ed25519VerificationKey2018"
def keyAuthenticationType : String := "Ed25519SignatureAuthentication2018"
def serviceSuffix : String := "indy"
def serviceType : String := "IndyAgent"

structure Ed25519PublicKey where
  id : String
  type : String
  controller : String
  publicKeyBase58 : String
  deriving DecidableEq, Repr

structure Authentication where
  type : String
  publicKey : String
  deriving DecidableEq, Repr

structure Service where
  id : String
  type : String
  priority : ℕ
  recipientKeys : List String
  routingKeys : List String
  serviceEndpoint : String
  deriving DecidableEq, Repr

structure DidDoc where
  context : String
  id : String
  publicKey : List Ed25519PublicKey
  authentication : List Authentication
  service : List Service
  deriving DecidableEq, Repr

section References

/-- `_build_key_reference`. -/
def buildKeyReference (did id : String) : String := did ++ "#" ++ id

/-- `_key_parts`. -/
def keyParts (key : String) : List String := (key.toList.splitOn '#').map String.ofList

/-- `_parse_key_reference`. -/
def parseKeyReference (keyReference : String) : String :=
  match keyParts keyReference with
  | _ :: id :: _ => id
  | [key] => key
  | [] => ""

/-- `key_for_reference`. -/
def DidDoc.keyForReference (doc : DidDoc) (keyReference : String) : String :=
  let id := parseKeyReference keyReference
  match doc.publicKey.find? fun key => key.id = id ∨ key.publicKeyBase58 = id with
  | some key => key.publicKeyBase58
  | none => id

def DidDoc.resolveKeys (doc : DidDoc) : List String × List String :=
  match doc.service.head? with
  | some service =>
    (service.recipientKeys.map doc.keyForReference, service.routingKeys.map doc.keyForReference)
  | none => ([], [])

def DidDoc.getEndpoint (doc : DidDoc) : String :=
  match doc.service.head? with
  | some service => service.serviceEndpoint
  | none => ""

end References

section Build

/-- `Service::default`. -/
def defaultService : Service :=
  ⟨"did:example:123456789abcdefghi;" ++ serviceSuffix, serviceType, 0, [], [], ""⟩

/-- `DidDoc::default`. -/
def defaultDidDoc : DidDoc := ⟨Documents.context, "", [], [], [defaultService]⟩

def DidDoc.setId (doc : DidDoc) (id : String) : DidDoc := { doc with id }

def DidDoc.setServiceEndpoint (doc : DidDoc) (serviceEndpoint : String) : DidDoc :=
  { doc with service := doc.service.modifyHead fun service => { service with serviceEndpoint } }

/-- The first loop of `set_keys`, where `id` keys have been numbered. -/
def DidDoc.setRecipientKeys (doc : DidDoc) (id : ℕ) : List String → DidDoc
  | [] => doc
  | key :: recipientKeys =>
    let keyId := toString (id + 1)
    let keyReference := buildKeyReference doc.id keyId
    DidDoc.setRecipientKeys { doc with
      publicKey := doc.publicKey ++ [⟨keyId, keyType, doc.id, key⟩]
      authentication := doc.authentication ++ [⟨keyAuthenticationType, keyReference⟩]
      service := doc.service.modifyHead fun service =>
        { service with recipientKeys := service.recipientKeys ++ [keyReference] } }
          (id + 1) recipientKeys

/-- Its second loop. -/
def DidDoc.setRoutingKeys (doc : DidDoc) : List String → DidDoc
  | [] => doc
  | key :: routingKeys =>
    DidDoc.setRoutingKeys { doc with
      service := doc.service.modifyHead fun service =>
        { service with routingKeys := service.routingKeys ++ [key] } } routingKeys

def DidDoc.setKeys (doc : DidDoc) (recipientKeys routingKeys : List String) : DidDoc :=
  (doc.setRecipientKeys 0 recipientKeys).setRoutingKeys routingKeys

/-- `From<Invitation>`. -/
def DidDoc.ofInvitation (invite : Invitation) : DidDoc :=
  ((defaultDidDoc.setId invite.id).setServiceEndpoint invite.serviceEndpoint).setKeys
    invite.recipientKeys invite.routingKeys

/-- `From<DidDoc>` of `Invitation`. -/
def DidDoc.toInvitation (doc : DidDoc) : Invitation :=
  let (recipientKeys, routingKeys) := doc.resolveKeys
  ⟨doc.id, "", recipientKeys, routingKeys, doc.getEndpoint⟩

end Build

section Validate

/-- What the checks use of other libraries. -/
structure Calls where
  /-- `from_base58`, or the `Display` of its error. -/
  fromBase58 : String → Except String Bytes
  /-- `#` is no digit of base 58. -/
  fromBase58_hash : ∀ s : String, '#' ∈ s.toList → ∃ err, fromBase58 s = .error err
  /-- `Url::parse`, or the `Debug` of its error. -/
  parseUrl : String → Except String Unit
  /-- `Debug` of a string. -/
  debug : String → String

variable (calls : Calls) (doc : DidDoc)

def validateVerkey (verkey : String) : VcxResult String :=
  match calls.fromBase58 verkey with
  | .ok x =>
    if x.length = 32 then .ok verkey
      else .error (.fromMsg (.other "Invalid VERKEY") "Invalid Verkey length")
  | .error x => .error (.fromMsg (.other "Value needs to be base58") ("Invalid Verkey: " ++ x))

def invalid (message : String) : VcxError :=
  .fromMsg .invalidJson ("DIDDoc validation failed: " ++ message)

def DidDoc.validatePublicKey (targetKey : String) : VcxResult Ed25519PublicKey :=
  let id := parseKeyReference targetKey
  match doc.publicKey.find? fun key => key.id = id ∨ key.publicKeyBase58 = id with
  | none => .error (invalid ("Cannot find PublicKey definition for key: " ++ calls.debug id))
  | some key =>
    if key.type ≠ keyType
      then .error (invalid ("Unsupported PublicKey type: " ++ calls.debug key.type))
    else do
      let _ ← validateVerkey calls key.publicKeyBase58
      return key

def DidDoc.validateAuthentication (targetKey : String) : VcxResult Unit :=
  if doc.authentication = [] then .ok ()
  else
    match doc.authentication.find? fun key =>
      key.publicKey = targetKey ∨ parseKeyReference key.publicKey = targetKey with
    | none =>
      .error (invalid ("Cannot find Authentication section for key: " ++ calls.debug targetKey))
    | some key =>
      if key.type ≠ keyAuthenticationType ∧ key.type ≠ keyType then
        .error (invalid ("Unsupported Authentication type: " ++ calls.debug key.type))
      else .ok ()

def DidDoc.validateRecipientKey (key : String) : VcxResult Unit := do
  let publicKey ← doc.validatePublicKey calls key
  doc.validateAuthentication calls publicKey.id

def DidDoc.validateRoutingKey (key : String) : VcxResult Unit :=
  if (keyParts key).length = 2 then do
    let _ ← doc.validatePublicKey calls key
    return ()
  else do
    let _ ← validateVerkey calls key
    return ()

def validateEndpoint (serviceEndpoint : String) : VcxResult Unit :=
  match calls.parseUrl serviceEndpoint with
  | .ok () => .ok ()
  | .error err =>
    .error (invalid ("Invalid endpoint \"" ++ calls.debug serviceEndpoint ++ "\", err: " ++ err))

def DidDoc.validateService (service : Service) : VcxResult Unit := do
  validateEndpoint calls service.serviceEndpoint
  service.recipientKeys.forM (doc.validateRecipientKey calls)
  service.routingKeys.forM (doc.validateRoutingKey calls)

def DidDoc.validate : VcxResult Unit :=
  if doc.context ≠ Documents.context then
    .error (invalid ("Unsupported @context value: " ++ calls.debug doc.context))
  else doc.service.forM (doc.validateService calls)

end Validate

section Parse

theorem keyParts_append (did id : String) :
    keyParts (buildKeyReference did id) = keyParts did ++ keyParts id := by
  have htext : (buildKeyReference did id).toList = did.toList ++ '#' :: id.toList := by
    simp [buildKeyReference]
  unfold keyParts
  rw [htext, List.splitOn_append_cons_self, List.map_append]

theorem keyParts_of_notMem {key : String} (h : '#' ∉ key.toList) : keyParts key = [key] := by
  rw [keyParts, List.splitOn_eq_singleton h, List.map_singleton, String.ofList_toList]

theorem keyParts_ne_nil (key : String) : keyParts key ≠ [] := by
  unfold keyParts
  exact mt List.map_eq_nil_iff.mp (List.splitOn_ne_nil '#' key.toList)

/-- A key with the separator has a second part. -/
theorem exists_keyParts_of_mem {key : String} (h : '#' ∈ key.toList) :
    ∃ a b rest, keyParts key = a :: b :: rest := by
  obtain ⟨before, after, heq⟩ := List.append_of_mem h
  have hparts : keyParts key = keyParts (String.ofList before) ++
      keyParts (String.ofList after) := by
    rw [← keyParts_append]
    congr 1
    apply String.toList_inj.mp
    simp [buildKeyReference, heq]
  obtain ⟨a, as, ha⟩ := List.exists_cons_of_ne_nil (keyParts_ne_nil (String.ofList before))
  obtain ⟨b, bs, hb⟩ := List.exists_cons_of_ne_nil (keyParts_ne_nil (String.ofList after))
  rw [hparts, ha, hb, List.cons_append]
  cases as with
  | nil => exact ⟨a, b, bs, rfl⟩
  | cons a' as => exact ⟨a, a', as ++ b :: bs, rfl⟩

theorem parseKeyReference_of_notMem {key : String} (h : '#' ∉ key.toList) :
    parseKeyReference key = key := by
  rw [parseKeyReference, keyParts_of_notMem h]

theorem hash_notMem_toString (n : ℕ) : '#' ∉ (toString n).toList := by
  intro hmem
  have htext : (toString n).toList = Nat.toDigits 10 n := toList_repr n
  rw [htext] at hmem
  exact absurd (Nat.isDigit_of_mem_toDigits (by decide) (by decide) hmem) (by decide)

theorem toString_inj {m n : ℕ} (h : toString m = toString n) : m = n := by
  apply toDigits_inj
  rw [← toList_repr, ← toList_repr]
  exact congrArg String.toList h

/-- The reference to a number leads to the number, unless the id of the document has the
separator. -/
theorem parseKeyReference_build (did : String) (n : ℕ) :
    parseKeyReference (buildKeyReference did (toString n)) =
    if '#' ∈ did.toList then parseKeyReference did else toString n := by
  have hparts : keyParts (buildKeyReference did (toString n)) = keyParts did ++ [toString n] := by
    rw [keyParts_append, keyParts_of_notMem (hash_notMem_toString n)]
  split_ifs with h
  · obtain ⟨a, b, rest, hdid⟩ := exists_keyParts_of_mem h
    rw [parseKeyReference, hparts, hdid, parseKeyReference, hdid]
    rfl
  · rw [parseKeyReference, hparts, keyParts_of_notMem h]
    rfl

end Parse

section Table
variable {keys earlier later : List String} {key u did : String}

/-- The table that is made of keys, numbered from `id + 1` on. -/
def numberedKeys (did : String) (id : ℕ) : List String → List Ed25519PublicKey
  | [] => []
  | key :: keys => ⟨toString (id + 1), keyType, did, key⟩ :: numberedKeys did (id + 1) keys

/-- The number of the key that follows these ones. -/
def numberAfter (earlier : List String) : String := toString (earlier.length + 1)

theorem find_numberedKeys_of_number (did : String) (earlier : List String) (key : String)
    (later : List String) (id : ℕ) :
    ((numberedKeys did id (earlier ++ key :: later)).find? fun k =>
      k.id = toString (id + earlier.length + 1) ∨
      k.publicKeyBase58 = toString (id + earlier.length + 1)).map
        Ed25519PublicKey.publicKeyBase58 =
    some (if toString (id + earlier.length + 1) ∈ earlier then toString (id + earlier.length + 1)
      else key) := by
  induction earlier generalizing id with
  | nil => simp [numberedKeys]
  | cons first earlier ih =>
    have hnumber : id + (first :: earlier).length + 1 = id + 1 + earlier.length + 1 := by
      rw [List.length_cons]
      omega
    have hid : toString (id + 1) ≠ toString (id + 1 + earlier.length + 1) := by
      intro h
      have := toString_inj h
      omega
    rw [hnumber, List.cons_append, numberedKeys, List.find?_cons]
    by_cases hfirst : first = toString (id + 1 + earlier.length + 1)
    · simp [hfirst]
    · simp only [hid, hfirst, or_self, decide_false, ih, List.mem_cons, Ne.symm hfirst, false_or]

/-- What is no number of a key stands for itself. -/
theorem find_numberedKeys_of_ne (id : ℕ) (hu : ∀ n < keys.length, u ≠ toString (id + n + 1)) :
    (((numberedKeys did id keys).find? fun k => k.id = u ∨ k.publicKeyBase58 = u).map
      Ed25519PublicKey.publicKeyBase58).getD u = u := by
  induction keys generalizing id with
  | nil => rfl
  | cons key keys ih =>
    have hid : toString (id + 1) ≠ u := fun h => hu 0 (by simp) (by rw [Nat.add_zero, h])
    rw [numberedKeys, List.find?_cons]
    by_cases hkey : key = u
    · simp [hkey]
    · simp only [hid, hkey, or_self, decide_false]
      apply ih
      intro n hn heq
      exact hu (n + 1) (by simpa using hn) (by rw [heq]; congr 1; omega)

end Table

section Invitations
variable {invite : Invitation} {earlier later : List String} {key : String}

def references (did : String) (id : ℕ) : List String → List String
  | [] => []
  | _ :: keys => buildKeyReference did (toString (id + 1)) :: references did (id + 1) keys

theorem setRecipientKeys_eq {doc : DidDoc} {service : Service}
    (hservice : doc.service = [service]) (id : ℕ)
    (keys : List String) : ∃ authentication, doc.setRecipientKeys id keys = { doc with
      publicKey := doc.publicKey ++ numberedKeys doc.id id keys
      authentication
      service :=
  [{ service with recipientKeys := service.recipientKeys ++ references doc.id id keys }] } := by
  induction keys generalizing doc service id with
  | nil =>
    exact ⟨doc.authentication,
      by simp [DidDoc.setRecipientKeys, numberedKeys, references, ← hservice]⟩
  | cons key keys ih =>
    rw [DidDoc.setRecipientKeys]
    let next : DidDoc := { doc with
      publicKey := doc.publicKey ++ [⟨toString (id + 1), keyType, doc.id, key⟩]
      authentication := doc.authentication ++
        [⟨keyAuthenticationType, buildKeyReference doc.id (toString (id + 1))⟩]
      service := doc.service.modifyHead fun service =>
        { service with recipientKeys := service.recipientKeys ++
          [buildKeyReference doc.id (toString (id + 1))] } }
    have hnext : next.service = [{ service with
        recipientKeys := service.recipientKeys ++
          [buildKeyReference doc.id (toString (id + 1))] }] := by
      change doc.service.modifyHead _ = _
      rw [hservice]
      rfl
    obtain ⟨authentication, heq⟩ := ih hnext (id + 1)
    refine ⟨authentication, heq.trans ?_⟩
    simp [next, numberedKeys, references]

theorem setRoutingKeys_eq {doc : DidDoc} {service : Service} (hservice : doc.service = [service])
    (keys : List String) :
    doc.setRoutingKeys keys =
      { doc with service := [{ service with routingKeys := service.routingKeys ++ keys }] } := by
  induction keys generalizing doc service with
  | nil => simp [DidDoc.setRoutingKeys, ← hservice]
  | cons key keys ih =>
    have hnext : (doc.service.modifyHead fun service =>
        { service with routingKeys := service.routingKeys ++ [key] }) =
        [{ service with routingKeys := service.routingKeys ++ [key] }] := by
      rw [hservice]
      rfl
    rw [DidDoc.setRoutingKeys, ih hnext]
    simp

/-- The document of an invitation: its recipient keys in the table, and references to them. -/
theorem ofInvitation_eq (invite : Invitation) : ∃ authentication, DidDoc.ofInvitation invite =
    ⟨Documents.context, invite.id, numberedKeys invite.id 0 invite.recipientKeys, authentication,
      [{ defaultService with
        recipientKeys := references invite.id 0 invite.recipientKeys
        routingKeys := invite.routingKeys
        serviceEndpoint := invite.serviceEndpoint }]⟩ := by
  have hservice :
      ((defaultDidDoc.setId invite.id).setServiceEndpoint invite.serviceEndpoint).service =
      [{ defaultService with serviceEndpoint := invite.serviceEndpoint }] := rfl
  obtain ⟨authentication, hrecipients⟩ := setRecipientKeys_eq hservice 0 invite.recipientKeys
  refine ⟨authentication, ?_⟩
  rw [DidDoc.ofInvitation, DidDoc.setKeys, hrecipients, setRoutingKeys_eq rfl]
  rfl

theorem map_references_eq_iff {f : String → String} {did : String} (id : ℕ) (keys : List String) :
    (references did id keys).map f = keys ↔ ∀ earlier key later, keys = earlier ++ key :: later →
      f (buildKeyReference did (toString (id + earlier.length + 1))) = key := by
  induction keys generalizing id with
  | nil => simp [references]
  | cons first keys ih =>
    rw [references, List.map_cons, List.cons.injEq, ih]
    constructor
    · rintro ⟨hfirst, hrest⟩ earlier key later heq
      cases earlier with
      | nil =>
        obtain ⟨rfl, -⟩ := List.cons.inj heq
        exact hfirst
      | cons e earlier =>
        obtain ⟨-, hkeys⟩ := List.cons.inj heq
        have hkey := hrest earlier key later hkeys
        have hnumber : id + (e :: earlier).length + 1 = id + 1 + earlier.length + 1 := by
          rw [List.length_cons]
          omega
        rwa [hnumber]
    · intro h
      refine ⟨h [] first keys rfl, ?_⟩
      intro earlier key later heq
      have hkey := h (first :: earlier) key later (by rw [heq]; rfl)
      have hnumber : id + (first :: earlier).length + 1 = id + 1 + earlier.length + 1 := by
        rw [List.length_cons]
        omega
      rwa [hnumber] at hkey

/-- What the key or number `u` stands for among the recipient keys. -/
def standsFor (invite : Invitation) (u : String) : String :=
  (((numberedKeys invite.id 0 invite.recipientKeys).find? fun k => k.id = u ∨
    k.publicKeyBase58 = u).map Ed25519PublicKey.publicKeyBase58).getD u

theorem standsFor_number (h : invite.recipientKeys = earlier ++ key :: later) :
    standsFor invite (numberAfter earlier) = if numberAfter earlier ∈ earlier
      then numberAfter earlier else key := by
  have hfind := find_numberedKeys_of_number invite.id earlier key later 0
  rw [Nat.zero_add] at hfind
  rw [standsFor, h, numberAfter, hfind]
  rfl

theorem standsFor_of_ne {u : String}
    (hu : ∀ n < invite.recipientKeys.length, u ≠ toString (n + 1)) :
    standsFor invite u = u := by
  apply find_numberedKeys_of_ne
  intro n hn
  rw [Nat.zero_add]
  exact hu n hn

theorem keyForReference_ofInvitation (invite : Invitation) (keyReference : String) :
    (DidDoc.ofInvitation invite).keyForReference keyReference = standsFor invite
      (parseKeyReference keyReference) := by
  obtain ⟨authentication, heq⟩ := ofInvitation_eq invite
  rw [heq, DidDoc.keyForReference, standsFor]
  cases (numberedKeys invite.id 0 invite.recipientKeys).find? fun k =>
    k.id = parseKeyReference keyReference ∨
      k.publicKeyBase58 = parseKeyReference keyReference <;> rfl

theorem resolveKeys_ofInvitation (invite : Invitation) : (DidDoc.ofInvitation invite).resolveKeys =
    ((references invite.id 0 invite.recipientKeys).map fun key =>
      standsFor invite (parseKeyReference key),
      invite.routingKeys.map fun key => standsFor invite (parseKeyReference key)) := by
  have hkeys : (DidDoc.ofInvitation invite).keyForReference = fun key =>
      standsFor invite (parseKeyReference key) :=
    funext (keyForReference_ofInvitation invite)
  obtain ⟨authentication, heq⟩ := ofInvitation_eq invite
  rw [DidDoc.resolveKeys]
  have hhead : (DidDoc.ofInvitation invite).service.head? = some { defaultService with
      recipientKeys := references invite.id 0 invite.recipientKeys
      routingKeys := invite.routingKeys
      serviceEndpoint := invite.serviceEndpoint } := by
    rw [heq]
    rfl
  rw [hhead]
  simp only [hkeys]

/-- The recipient keys are found under their references. -/
structure RecipientsFound (invite : Invitation) : Prop where
  /-- A number that is itself one of the earlier keys leads to that key. -/
  numbered : '#' ∉ invite.id.toList → ∀ earlier key later, invite.recipientKeys = earlier ++
    key :: later →
    numberAfter earlier ∈ earlier → key = numberAfter earlier
  /-- All references lead to the second part of the id. -/
  separated : '#' ∈ invite.id.toList →
    (∀ key ∈ invite.recipientKeys, ∀ key' ∈ invite.recipientKeys, key = key') ∧
    (invite.recipientKeys = [] ∨ parseKeyReference invite.id ∈ invite.recipientKeys ∨
      ∃ n < invite.recipientKeys.length, parseKeyReference invite.id = toString (n + 1))

/-- A routing key is found under itself. -/
structure RoutingFound (invite : Invitation) (key : String) : Prop where
  plain : '#' ∉ key.toList → ∀ earlier recipient later, invite.recipientKeys = earlier ++
    recipient :: later →
    key = numberAfter earlier → key ∈ earlier ∨ key = recipient
  reference : '#' ∈ key.toList → ∃ earlier later, invite.recipientKeys = earlier ++ key :: later ∧
    parseKeyReference key = numberAfter earlier ∧ parseKeyReference key ∉ earlier

theorem exists_append_of_lt {α : Type} {l : List α} {n : ℕ} (h : n < l.length) :
    ∃ earlier a later, l = earlier ++ a :: later ∧ earlier.length = n :=
  ⟨l.take n, l[n], l.drop (n + 1), by simp, by simp; omega⟩

/-- A key or number is a number of a recipient key, or stands for itself. -/
theorem standsFor_cases (invite : Invitation) (u : String) : standsFor invite u = u ∨
    ∃ earlier key later, invite.recipientKeys = earlier ++ key :: later ∧ u = numberAfter earlier ∧
      u ∉ earlier ∧ standsFor invite u = key := by
  by_cases hu : ∃ n < invite.recipientKeys.length, u = toString (n + 1)
  · obtain ⟨n, hn, rfl⟩ := hu
    obtain ⟨earlier, key, later, hkeys, rfl⟩ := exists_append_of_lt hn
    have hstands := standsFor_number hkeys
    by_cases hmem : numberAfter earlier ∈ earlier
    · exact .inl (hstands.trans (if_pos hmem))
    · exact .inr ⟨earlier, key, later, hkeys, rfl, hmem, hstands.trans (if_neg hmem)⟩
  · exact .inl (standsFor_of_ne fun n hn heq => hu ⟨n, hn, heq⟩)

theorem recipients_resolve_iff (invite : Invitation) :
    (references invite.id 0 invite.recipientKeys).map
      (fun key => standsFor invite (parseKeyReference key)) =
      invite.recipientKeys ↔ RecipientsFound invite := by
  rw [map_references_eq_iff]
  simp only [Nat.zero_add, parseKeyReference_build]
  by_cases hid : '#' ∈ invite.id.toList
  · simp only [if_pos hid]
    constructor
    · intro h
      have hall : ∀ key ∈ invite.recipientKeys,
          standsFor invite (parseKeyReference invite.id) = key := by
        intro key hkey
        obtain ⟨earlier, later, heq⟩ := List.append_of_mem hkey
        exact h earlier key later heq
      refine ⟨fun hno => absurd hid hno, fun _ => ⟨fun key hkey key' hkey' => ?_, ?_⟩⟩
      · rw [← hall key hkey, ← hall key' hkey']
      · rcases List.eq_nil_or_concat invite.recipientKeys with hnone | ⟨keys, last, hkeys⟩
        · exact .inl hnone
        · have hlast : last ∈ invite.recipientKeys := by simp [hkeys]
          rcases standsFor_cases invite (parseKeyReference invite.id)
            with hself | ⟨earlier, key, later, hrec, hu, -⟩
          · rw [hall last hlast] at hself
            exact .inr (.inl (hself ▸ hlast))
          · exact .inr (.inr ⟨earlier.length, by simp [hrec], hu⟩)
    · rintro ⟨-, hseparated⟩ earlier key later heq
      obtain ⟨hsame, hfound⟩ := hseparated hid
      have hkey : key ∈ invite.recipientKeys := by simp [heq]
      rcases standsFor_cases invite (parseKeyReference invite.id)
        with hself | ⟨earlier', key', later', hrec, -, -, hstands⟩
      · rcases hfound with hnone | hmem | ⟨n, hn, hnumber⟩
        · simp [hnone] at hkey
        · rw [hself]
          exact hsame _ hmem _ hkey
        · -- the number stands for itself only because an earlier key is that number
          obtain ⟨earlier', key', later', hrec, rfl⟩ := exists_append_of_lt hn
          have hkey' : key' ∈ invite.recipientKeys := by simp [hrec]
          have hstands := standsFor_number hrec
          rw [hnumber] at hself ⊢
          by_cases hmem : numberAfter earlier' ∈ earlier'
          · have hmem' : numberAfter earlier' ∈ invite.recipientKeys := by
              rw [hrec]
              exact List.mem_append_left _ hmem
            exact hself.trans (hsame _ hmem' _ hkey)
          · exact (hstands.trans (if_neg hmem)).trans (hsame _ hkey' _ hkey)
      · rw [hstands]
        exact hsame _ (by simp [hrec]) _ hkey
  · simp only [if_neg hid]
    constructor
    · intro h
      refine ⟨fun _ earlier key later heq hmem => ?_, fun hyes => absurd hyes hid⟩
      have hkey := h earlier key later heq
      have hstands := (standsFor_number heq).trans (if_pos hmem)
      exact hkey.symm.trans hstands
    · rintro ⟨hnumbered, -⟩ earlier key later heq
      have hstands := standsFor_number heq
      by_cases hmem : numberAfter earlier ∈ earlier
      · rw [hnumbered hid earlier key later heq hmem]
        exact hstands.trans (if_pos hmem)
      · exact hstands.trans (if_neg hmem)

theorem routing_resolves_iff (invite : Invitation) (key : String) :
    standsFor invite (parseKeyReference key) = key ↔ RoutingFound invite key := by
  by_cases hkey : '#' ∈ key.toList
  · have hne : parseKeyReference key ≠ key := by
      intro heq
      obtain ⟨a, b, rest, hparts⟩ := exists_keyParts_of_mem hkey
      have hb : parseKeyReference key = b := by rw [parseKeyReference, hparts]
      have hmem : b ∈ keyParts key := by simp [hparts]
      obtain ⟨part, hpart, rfl⟩ := List.mem_map.mp hmem
      rw [hb] at heq
      rw [← heq, String.toList_ofList] at hkey
      exact notMem_of_mem_splitOn hpart hkey
    constructor
    · intro h
      refine ⟨fun hno => absurd hkey hno, fun _ => ?_⟩
      rcases standsFor_cases invite (parseKeyReference key)
        with hself | ⟨earlier, key', later, hrec, hu, hmem, hstands⟩
      · exact absurd (hself.symm.trans h) hne
      · rw [hstands] at h
        exact ⟨earlier, later, h ▸ hrec, hu, hmem⟩
    · rintro ⟨-, hreference⟩
      obtain ⟨earlier, later, hrec, hu, hmem⟩ := hreference hkey
      rw [hu] at hmem ⊢
      exact (standsFor_number hrec).trans (if_neg hmem)
  · rw [parseKeyReference_of_notMem hkey]
    constructor
    · intro h
      refine ⟨fun _ earlier recipient later hrec hu => ?_, fun hyes => absurd hyes hkey⟩
      have hstands := standsFor_number hrec
      rw [← hu, h] at hstands
      by_cases hmem : key ∈ earlier
      · exact .inl hmem
      · rw [if_neg hmem] at hstands
        exact .inr hstands
    · rintro ⟨hplain, -⟩
      rcases standsFor_cases invite key
        with hself | ⟨earlier, recipient, later, hrec, hu, hmem, hstands⟩
      · exact hself
      · rcases hplain hkey earlier recipient later hrec hu with hin | heq
        · exact absurd hin hmem
        · rw [hstands, heq]

end Invitations

section Agreement

/-- The document of an invitation resolves to its keys, and the invitation of the document has its
id, endpoint and keys. -/
structure ResolvesBack (invite : Invitation) : Prop where
  resolved : (DidDoc.ofInvitation invite).resolveKeys = (invite.recipientKeys, invite.routingKeys)
  id : (DidDoc.ofInvitation invite).toInvitation.id = invite.id
  serviceEndpoint : (DidDoc.ofInvitation invite).toInvitation.serviceEndpoint =
    invite.serviceEndpoint
  recipientKeys : (DidDoc.ofInvitation invite).toInvitation.recipientKeys = invite.recipientKeys
  routingKeys : (DidDoc.ofInvitation invite).toInvitation.routingKeys = invite.routingKeys

theorem resolvesBack_iff (invite : Invitation) :
    ResolvesBack invite ↔ RecipientsFound invite ∧
    ∀ key ∈ invite.routingKeys, RoutingFound invite key := by
  have hrouting : invite.routingKeys.map (fun key => standsFor invite (parseKeyReference key)) =
      invite.routingKeys ↔
      ∀ key ∈ invite.routingKeys, RoutingFound invite key := by
    rw [← List.map_inj_left.trans (forall₂_congr fun key _ => routing_resolves_iff invite key),
      List.map_id']
  have hresolved : (DidDoc.ofInvitation invite).resolveKeys =
      (invite.recipientKeys, invite.routingKeys) ↔
      RecipientsFound invite ∧ ∀ key ∈ invite.routingKeys, RoutingFound invite key := by
    rw [resolveKeys_ofInvitation, Prod.mk.injEq, recipients_resolve_iff, hrouting]
  constructor
  · exact fun h => hresolved.mp h.resolved
  · intro h
    have hback := hresolved.mpr h
    obtain ⟨authentication, heq⟩ := ofInvitation_eq invite
    refine ⟨hback, ?_, ?_, ?_, ?_⟩
    · rw [heq]
      rfl
    · rw [heq]
      rfl
    · rw [DidDoc.toInvitation, hback]
    · rw [DidDoc.toInvitation, hback]

variable (calls : Calls)

def IsVerkey (key : String) : Prop := (validateVerkey calls key).isOk

/-- Every key that the document resolves to is a verkey. -/
def ResolvesToVerkeys (doc : DidDoc) : Prop :=
  ∀ key ∈ doc.resolveKeys.1 ++ doc.resolveKeys.2, IsVerkey calls key

/-- The entry of the table that is found for a routing key without separator has a verkey. -/
def RoutingEntriesValid (doc : DidDoc) : Prop := ∀ service, doc.service.head? = some service →
  ∀ key ∈ service.routingKeys, '#' ∉ key.toList → ∀ entry,
    (doc.publicKey.find? fun k => k.id = key ∨ k.publicKeyBase58 = key) = some entry →
      IsVerkey calls entry.publicKeyBase58

variable {calls} {doc : DidDoc} {key : String}

theorem isVerkey_of_validate {verkey : String} (h : validateVerkey calls key = .ok verkey) :
    IsVerkey calls key := by
  rw [IsVerkey, h]
  rfl

/-- A key of the table that passes is the one that the reference resolves to, and a verkey. -/
theorem isVerkey_of_validatePublicKey {publicKey : Ed25519PublicKey}
    (h : doc.validatePublicKey calls key = .ok publicKey) :
    IsVerkey calls (doc.keyForReference key) := by
  unfold DidDoc.validatePublicKey at h
  unfold DidDoc.keyForReference
  cases hfind : doc.publicKey.find? fun k => k.id = parseKeyReference key ∨
    k.publicKeyBase58 = parseKeyReference key with
  | none =>
    simp only [hfind] at h
    cases h
  | some entry =>
    simp only [hfind] at h ⊢
    split_ifs at h
    obtain ⟨verkey, hverkey, -⟩ := except_bind_eq_ok.mp h
    exact isVerkey_of_validate hverkey

/-- A routing key that passes by the table resolves to a verkey; one that passes by itself has no
separator. -/
theorem routing_of_validate (h : doc.validateRoutingKey calls key = .ok ()) :
    IsVerkey calls (doc.keyForReference key) ∨ ('#' ∉ key.toList ∧ IsVerkey calls key) := by
  unfold DidDoc.validateRoutingKey at h
  split_ifs at h with hlength
  · obtain ⟨publicKey, hkey, -⟩ := except_bind_eq_ok.mp h
    exact .inl (isVerkey_of_validatePublicKey hkey)
  · obtain ⟨verkey, hverkey, -⟩ := except_bind_eq_ok.mp h
    refine .inr ⟨fun hhash => ?_, isVerkey_of_validate hverkey⟩
    obtain ⟨err, herr⟩ := calls.fromBase58_hash key hhash
    rw [validateVerkey, herr] at hverkey
    cases hverkey

theorem validateService_of_validate {service : Service} (h : doc.validate calls = .ok ())
    (hservice : doc.service.head? = some service) :
    (∀ key ∈ service.recipientKeys, doc.validateRecipientKey calls key = .ok ()) ∧
      ∀ key ∈ service.routingKeys, doc.validateRoutingKey calls key = .ok () := by
  unfold DidDoc.validate at h
  split_ifs at h
  have hvalid := forM_eq_ok_iff.mp h service (List.mem_of_mem_head? hservice)
  unfold DidDoc.validateService at hvalid
  obtain ⟨u, -, hvalid⟩ := except_bind_eq_ok.mp hvalid
  obtain ⟨u, hrecipients, hrouting⟩ := except_bind_eq_ok.mp hvalid
  exact ⟨forM_eq_ok_iff.mp hrecipients, forM_eq_ok_iff.mp hrouting⟩

theorem resolvesToVerkeys_iff (h : doc.validate calls = .ok ()) :
    ResolvesToVerkeys calls doc ↔ RoutingEntriesValid calls doc := by
  unfold ResolvesToVerkeys RoutingEntriesValid
  rw [DidDoc.resolveKeys]
  cases hservice : doc.service.head? with
  | none => simp
  | some service =>
    obtain ⟨hrecipients, hrouting⟩ := validateService_of_validate h hservice
    simp only [List.mem_append, List.mem_map, Option.some.injEq, forall_eq']
    constructor
    · intro hall key hkey hhash entry hentry
      have hresolved := hall _ (.inr ⟨key, hkey, rfl⟩)
      unfold DidDoc.keyForReference at hresolved
      rw [parseKeyReference_of_notMem hhash] at hresolved
      simpa only [hentry] using hresolved
    · rintro hentries _ (⟨key, hkey, rfl⟩ | ⟨key, hkey, rfl⟩)
      · obtain ⟨publicKey, hpublic, -⟩ := except_bind_eq_ok.mp (hrecipients key hkey)
        exact isVerkey_of_validatePublicKey hpublic
      · rcases routing_of_validate (hrouting key hkey) with hresolved | ⟨hhash, hverkey⟩
        · exact hresolved
        · unfold DidDoc.keyForReference
          rw [parseKeyReference_of_notMem hhash]
          cases hfind : doc.publicKey.find? fun k => k.id = key ∨ k.publicKeyBase58 = key with
          | none => simpa only [hfind] using hverkey
          | some entry => simpa only [hfind] using hentries key hkey hhash entry hfind

/-- An invitation resolves back to its keys exactly if they are found under their references; a
document that passes its validation resolves to verkeys exactly if no entry of the table turns a
routing key into something else. -/
theorem resolve_iff (calls : Calls) (invite : Invitation) (doc : DidDoc) :
    (ResolvesBack invite ↔ RecipientsFound invite ∧
      ∀ key ∈ invite.routingKeys, RoutingFound invite key) ∧
    ((doc.validate calls = .ok () → ResolvesToVerkeys calls doc) ↔
      (doc.validate calls = .ok () → RoutingEntriesValid calls doc)) :=
  ⟨resolvesBack_iff invite, forall_congr' resolvesToVerkeys_iff⟩

/-- The digits of base 58. -/
def base58Digits : List Char := "123456789ABCDEFGHJKLMNPQRSTUVWXYZabcdefghijkmnopqrstuvwxyz".toList

/-- `from_base58`: zeros in front for the leading digits 1, then the number. -/
def fromBase58 (s : String) : Except String Bytes :=
  if s.toList.all fun c => base58Digits.contains c then
    let number := s.toList.foldl (fun n c => 58 * n + base58Digits.idxOf c) 0
    .ok (List.replicate (s.toList.takeWhile fun c => c = '1').length 0 ++
      ((Nat.digits 256 number).map UInt8.ofNat).reverse)
  else .error "Invalid character"

def sampleCalls : Calls where
  fromBase58 := fromBase58
  fromBase58_hash s hs := by
    refine ⟨"Invalid character", if_neg fun hall => ?_⟩
    exact absurd (List.all_eq_true.mp hall '#' hs) (by decide)
  parseUrl _ := .ok ()
  debug s := s

/-- The verkey of 32 zeros. -/
def zeroVerkey : String := "11111111111111111111111111111111"

/-- An id with the separator. -/
def separatedInvitation : Invitation := ⟨"did:a#b", "", [zeroVerkey], [], "http://localhost"⟩

/-- The entry under the routing key holds something else. -/
def misleadingDoc : DidDoc :=
  ⟨Documents.context, "did:a", [⟨zeroVerkey, keyType, "did:a", "no verkey"⟩], [],
  [{ defaultService with routingKeys := [zeroVerkey], serviceEndpoint := "http://localhost" }]⟩

theorem not_resolve : ¬ ResolvesBack separatedInvitation ∧
    ¬ (misleadingDoc.validate sampleCalls = .ok () →
      ResolvesToVerkeys sampleCalls misleadingDoc) := by
  constructor
  · intro h
    have hkeys : (DidDoc.ofInvitation separatedInvitation).resolveKeys = (["b"], []) := by decide
    have hback := hkeys.symm.trans h.resolved
    revert hback
    decide
  · intro h
    have hvalid : misleadingDoc.validate sampleCalls = .ok () := by decide
    have hkey := h hvalid "no verkey" (by decide)
    revert hkey
    unfold IsVerkey
    decide

end Agreement

end SimpleAsset.Vcx.Documents
