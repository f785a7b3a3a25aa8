import SimpleAsset.IndyNode.CacheAgreement
import SimpleAsset.IndyNode.RuleLookup
import SimpleAsset.Library.Runs

/-! Privileged roles and verkeys under the default auth rules. -/
namespace SimpleAsset.IndyNode
open SimpleAsset.Indy

variable {cache : RoleCache} {request : SignedRequest} {action : AuthAction}

/-- A constraint that a trustee has signed. -/
def Constraint.asksTrustee : Constraint → Bool
  | .role c => c.role = .one (some .trustee) && 0 < c.sigCount && !c.offLedger
  | _ => false

/-- A constraint that the owner has signed. -/
def Constraint.asksOwner : Constraint → Bool
  | .role c => c.needToBeOwner && 0 < c.sigCount && !c.offLedger
  | _ => false

theorem exists_trustee {c : Constraint} (hc : c.asksTrustee = true)
    (h : c.Granted cache request action) :
    ∃ signer ∈ request.signers, cache signer = some Role.trustee.code := by
  cases c with
  | role c =>
    simp only [Constraint.asksTrustee, Bool.and_eq_true, decide_eq_true_eq, Bool.not_eq_true'] at hc
    obtain ⟨⟨hrole, hpos⟩, hoff⟩ := hc
    rcases Constraint.granted_role_iff.mp h with h | h
    · obtain ⟨signers, hsub, hcard, hcounts⟩ := h.enough
      obtain ⟨signer, hsigner⟩ := Finset.card_pos.mp (hpos.trans_le hcard)
      refine ⟨signer, hsub hsigner, ?_⟩
      rcases hcounts signer hsigner with hoff' | ⟨role, hcache, haccepts⟩
      · rw [hoff] at hoff'
        cases hoff'
      · rw [hrole] at haccepts
        rw [hcache]
        exact congrArg some haccepts
    · -- The role is not `*`.
      have hany := h.wildcard
      rw [hrole] at hany
      cases hany
  | _ => cases hc

theorem exists_owner {c : Constraint} (hc : c.asksOwner = true)
    (h : c.Granted cache request action) :
    action.isOwner = true ∧ ∃ author ∈ request.signers, request.identifier = some author := by
  cases c with
  | role c =>
    simp only [Constraint.asksOwner, Bool.and_eq_true, decide_eq_true_eq, Bool.not_eq_true'] at hc
    obtain ⟨⟨howner, hpos⟩, hoff⟩ := hc
    have hrole : RoleAdmits cache request action c := by
      rcases Constraint.granted_role_iff.mp h with h | h
      · exact h.toRoleAdmits
      · exact h.toRoleAdmits
    refine ⟨hrole.owner howner, ?_⟩
    obtain ⟨author, role, hauthor, -⟩ := hrole.onLedger hpos hoff
    rcases hsignature : request.signature with _ | _
    · -- Someone has signed, so the request is multi-signed, and then by its author too.
      have hsigners : request.signers = request.signatures.toFinset := by
        rw [SignedRequest.signers, hsignature]
        rfl
      have hne : request.signatures ≠ [] := by
        intro hempty
        rcases Constraint.granted_role_iff.mp h with h | h
        · obtain ⟨signers, hsub, hcard, -⟩ := h.enough
          obtain ⟨signer, hsigner⟩ := Finset.card_pos.mp (hpos.trans_le hcard)
          have hmem := hsub hsigner
          rw [hsigners, hempty] at hmem
          simp at hmem
        · have hall := h.allSigned
          rw [hempty] at hall
          exact absurd hpos hall.not_gt
      obtain ⟨author', hmem, hauthor'⟩ := hrole.signedByAuthor hpos hne
      refine ⟨author', ?_, hauthor'⟩
      rw [hsigners]
      exact List.mem_toFinset.mpr hmem
    · refine ⟨author, ?_, hauthor⟩
      simp [SignedRequest.signers, hsignature, hauthor]
  | _ => cases hc

/-- What the default rules for roles have in common: none leaves the new role open, an edit does not
leave the old role open either, and the rules that lead to a privileged role ask for a trustee,
except where the role stays. -/
def roleRule (rule : String × Constraint) : Bool :=
  match splitActionId rule.1 with
  | none => true
  | some am =>
    if am.txnType = ['1'] ∧ (am.field = "role".toList ∨ am.field = ['*']) then
      am.newValue ≠ ['*'] && !am.newValue.contains '-' &&
        (am.mark = addMark.toList || am.oldValue ≠ ['*']) &&
        ((am.newValue ≠ Role.trustee.code.toList && am.newValue ≠ Role.steward.code.toList) ||
          am.oldValue = am.newValue || rule.2.asksTrustee)
    else true

/-- The default rules for verkeys ask for the owner. -/
def verkeyRule (rule : String × Constraint) : Bool :=
  match splitActionId rule.1 with
  | none => true
  | some am =>
    if am.txnType = ['1'] ∧ am.mark = editMark.toList ∧
      (am.field = "verkey".toList ∨ am.field = ['*']) then
      rule.2.asksOwner
    else true

/-- Both together, for the keys are split only once then. -/
theorem authMap_rules : authMap.all (fun rule => roleRule rule && verkeyRule rule) = true := by
  decide

theorem authMap_roleRule : authMap.all roleRule = true := by
  rw [List.all_eq_true]
  intro rule hrule
  have hboth := List.all_eq_true.mp authMap_rules rule hrule
  exact (Bool.and_eq_true_iff.mp hboth).1

theorem authMap_verkeyRule : authMap.all verkeyRule = true := by
  rw [List.all_eq_true]
  intro rule hrule
  have hboth := List.all_eq_true.mp authMap_rules rule hrule
  exact (Bool.and_eq_true_iff.mp hboth).2

/-- Roles whose holders can change the network. -/
def Role.Privileging (role : Role) : Prop := role = .trustee ∨ role = .steward

theorem Role.Privileging.code_toList {role : Role} (h : role.Privileging) :
    '-' ∉ role.code.toList := by
  rcases h with rfl | rfl <;> decide

/-- A default rule that covers giving a privileged role, unless the role stays, asks for a
trustee. -/
theorem asksTrustee_of_covers {key : String} {c : Constraint} {am r : ActionDef} {role : Role}
    (hrole : role.Privileging) (hmem : (key, c) ∈ authMap) (ham : splitActionId key = some am)
    (hcovers : am.covers r = true) (htype : r.txnType = ['1']) (hfield : r.field = "role".toList)
    (hnew : am.newValue = role.code.toList) (hchange : am.oldValue ≠ am.newValue) :
    c.asksTrustee = true := by
  have hrule := List.all_eq_true.mp authMap_roleRule _ hmem
  obtain ⟨-, htype', hfield', -, -⟩ := ActionDef.covers_iff.mp hcovers
  rw [htype] at htype'
  rw [hfield] at hfield'
  simp only [roleRule, ham] at hrule
  rw [if_pos ⟨htype'.symm, hfield'.imp_left Eq.symm⟩] at hrule
  simp only [Bool.and_eq_true, Bool.or_eq_true, decide_eq_true_eq] at hrule
  rcases hrule.2 with (⟨htrustee, hsteward⟩ | hsame) | hasks
  · rcases hrole with rfl | rfl
    · exact absurd hnew htrustee
    · exact absurd hnew hsteward
  · exact absurd hsame hchange
  · exact hasks

/-- The parts that a default rule for roles fixes. -/
theorem fixed_of_covers {key : String} {c : Constraint} {am r : ActionDef}
    (hmem : (key, c) ∈ authMap)
    (ham : splitActionId key = some am) (hcovers : am.covers r = true) (htype : r.txnType = ['1'])
    (hfield : r.field = "role".toList) :
    r.newValue = am.newValue ∧ '-' ∉ am.newValue ∧
    (r.mark = addMark.toList ∨ r.oldValue = am.oldValue) := by
  have hrule := List.all_eq_true.mp authMap_roleRule _ hmem
  obtain ⟨hmark, htype', hfield', hold, hnew⟩ := ActionDef.covers_iff.mp hcovers
  rw [htype] at htype'
  rw [hfield] at hfield'
  simp only [roleRule, ham] at hrule
  rw [if_pos ⟨htype'.symm, hfield'.imp_left Eq.symm⟩] at hrule
  simp only [Bool.and_eq_true, Bool.or_eq_true, Bool.not_eq_true', decide_eq_true_eq] at hrule
  obtain ⟨⟨⟨hopen, hdash⟩, hadd⟩, -⟩ := hrule
  refine ⟨hnew.resolve_right hopen, by simpa using hdash, ?_⟩
  rcases hadd with hadd | hadd
  · exact Or.inl (hmark.trans hadd)
  · exact Or.inr (hold.resolve_right hadd)

theorem trustee_of_add {role : Role} (hrole : role.Privileging)
    (h : validate authMap cache request [.add "1" "role" role.code true] = .ok ()) :
    ∃ signer ∈ request.signers, cache signer = some Role.trustee.code := by
  obtain ⟨key, c, am, r, hmem, ham, hr, hcovers, hholds⟩ := exists_rule_of_validate h
  have hparts : splitActionId (AuthAction.add "1" "role" role.code true).getActionId =
      some ⟨['1'], addMark.toList, "role".toList, ['*'], role.code.toList⟩ := by
    rcases hrole with rfl | rfl <;> decide
  obtain rfl := Option.some.inj (hr.symm.trans hparts)
  obtain ⟨hnew, -, -⟩ := fixed_of_covers hmem ham hcovers rfl rfl
  have hold : am.oldValue = ['*'] := by
    obtain ⟨-, -, -, hold, -⟩ := ActionDef.covers_iff.mp hcovers
    rcases hold with hold | hold
    · exact hold.symm
    · exact hold
  refine exists_trustee (asksTrustee_of_covers hrole hmem ham hcovers rfl rfl hnew.symm ?_) hholds
  rw [hold, ← hnew]
  rcases hrole with rfl | rfl <;> decide

theorem trustee_of_edit {role : Role} {oldValue : String} {isOwner : Bool}
    (hrole : role.Privileging) (hchange : oldValue ≠ role.code)
    (h : validate authMap cache request [.edit "1" "role" oldValue role.code isOwner] = .ok ()) :
    ∃ signer ∈ request.signers, cache signer = some Role.trustee.code := by
  obtain ⟨key, c, am, r, hmem, ham, hr, hcovers, hholds⟩ := exists_rule_of_validate h
  obtain ⟨htype, hmark, hfield, hparts⟩ := splitActionId_editId (by decide) hr
  obtain ⟨hnew, hdash, hold⟩ := fixed_of_covers hmem ham hcovers htype hfield
  have hold : r.oldValue = am.oldValue := by
    apply hold.resolve_left
    rw [hmark]
    decide
  -- The two parts put together again are the two values, so they are these values.
  have htext := intercalate_splitDelimiter [] (oldValue.toList ++ '-' :: '-' :: role.code.toList)
  rw [hparts, hold, hnew] at htext
  obtain ⟨hold', hnew'⟩ := append_delimiter_inj hdash hrole.code_toList (by simpa using htext)
  refine exists_trustee (asksTrustee_of_covers hrole hmem ham hcovers htype hfield hnew' ?_) hholds
  rw [hold', hnew']
  intro heq
  exact hchange (String.toList_inj.mp heq)

theorem owner_of_edit {oldValue newValue : String} {isOwner : Bool}
    (h : validate authMap cache request [.edit "1" "verkey" oldValue newValue isOwner] = .ok ()) :
    isOwner = true ∧ ∃ author ∈ request.signers, request.identifier = some author := by
  obtain ⟨key, c, am, r, hmem, ham, hr, hcovers, hholds⟩ := exists_rule_of_validate h
  obtain ⟨htype, hmark, hfield, -⟩ := splitActionId_editId (by decide) hr
  have hrule := List.all_eq_true.mp authMap_verkeyRule _ hmem
  obtain ⟨hmark', htype', hfield', -, -⟩ := ActionDef.covers_iff.mp hcovers
  rw [htype] at htype'
  rw [hmark] at hmark'
  rw [hfield] at hfield'
  simp only [verkeyRule, ham] at hrule
  rw [if_pos ⟨htype'.symm, hmark'.symm, hfield'.imp_left Eq.symm⟩] at hrule
  exact exists_owner hrule hholds

section Steps

variable {sha256 : Bytes → Bytes} {stores : NymStores} {req : NymRequest} {did : String}

/-- Role of a DID on the ledger. -/
def roleOf (sha256 : Bytes → Bytes) (stores : NymStores) (did : String) : Option String :=
  (stores.state (makeStatePathForNym sha256 did)).bind (·.role)

/-- Verkey of a DID on the ledger. -/
def verkeyOf (sha256 : Bytes → Bytes) (stores : NymStores) (did : String) : Option String :=
  (stores.state (makeStatePathForNym sha256 did)).bind (·.verkey)

theorem get_of_cached (hcached : Cached sha256 stores) (did : String) :
    stores.cache.get did = (stores.state (makeStatePathForNym sha256 did)).map fun record =>
      ⟨record.seqNo, record.txnTime, record.identifier.getD "", record.role.getD "",
        IdrCache.decodeVerkey (IdrCache.encodeVerkey record.verkey)⟩ := by
  have hdid := hcached did
  rcases hrecord : stores.state (makeStatePathForNym sha256 did) with _ | record
  · rw [hrecord, Option.map_none] at hdid
    rw [IdrCache.get, hdid]
    rfl
  · rw [hrecord, Option.map_some] at hdid
    rw [get_packed hdid, Option.map_some]

/-- A role in the cache is that on the ledger. -/
theorem roleOf_of_getRole (hcached : Cached sha256 stores) {role : Role}
    (h : stores.cache.getRole did = some role.code) :
    roleOf sha256 stores did = some role.code := by
  rw [IdrCache.getRole, get_of_cached hcached, Option.map_map] at h
  obtain ⟨record, hrecord, hrole⟩ := Option.map_eq_some_iff.mp h
  rw [roleOf, hrecord, Option.bind_some]
  rcases hvalue : record.role with _ | value
  · have hempty : "" = role.code := by simpa [hvalue] using hrole
    exact absurd hempty.symm role.code_ne_empty
  · simpa [hvalue] using hrole

/-- The cache knows the DIDs on the ledger, with their role as an action names it. -/
theorem getNym_of_cached (hcached : Cached sha256 stores) {data : IdrCache.NymData}
    (h : stores.cache.getNym did none = some data) :
    ∃ record, stores.state (makeStatePathForNym sha256 did) = some record ∧
      data.role.getD "" = record.role.getD "" := by
  unfold IdrCache.getNym at h
  rw [get_of_cached hcached] at h
  rcases hrecord : stores.state (makeStatePathForNym sha256 did) with _ | record
  · simp [hrecord] at h
  · refine ⟨record, rfl, ?_⟩
    simp only [hrecord, Option.map_some, Option.any_none, Bool.false_eq_true, if_false,
      Option.some.injEq] at h
    rw [← h]
    by_cases hempty : record.role.getD "" = "" <;> simp [IdrCache.orNone, hempty]

theorem state_none_of_getNym (hcached : Cached sha256 stores)
    (h : stores.cache.getNym did none = none) :
    stores.state (makeStatePathForNym sha256 did) = none := by
  unfold IdrCache.getNym at h
  rw [get_of_cached hcached] at h
  rcases hrecord : stores.state (makeStatePathForNym sha256 did) with _ | record
  · rfl
  · simp [hrecord] at h

/-- What changed a record: an accepted request for this DID. -/
theorem accepted_of_changed (hsha : Function.Injective sha256)
    (hchanged : (nymStep sha256 authMap stores req).state (makeStatePathForNym sha256 did) ≠
      stores.state (makeStatePathForNym sha256 did)) :
    nymDynamicValidation authMap stores.cache req = .ok () ∧ req.operation.dest = did ∧
      (nymStep sha256 authMap stores req).state (makeStatePathForNym sha256 did) =
        some (mergedRecord (stores.state (makeStatePathForNym sha256 did)) req.txn) := by
  unfold nymStep at hchanged ⊢
  rcases hvalid : nymDynamicValidation authMap stores.cache req with error | ok
  · simp [hvalid] at hchanged
  · simp only [hvalid] at hchanged
    have hdest : req.operation.dest = did := by
      by_contra hne
      have hne' : did ≠ req.txn.operation.dest := Ne.symm hne
      exact hchanged (state_applyNym_of_ne hsha hne')
    subst hdest
    have hself := @state_applyNym_self sha256 stores req.txn
    exact ⟨rfl, rfl, hself⟩

theorem validate_of_action {rules : List (String × Constraint)} {cache : IdrCache}
    (h : validateAction rules cache req action = .ok ()) :
    validate rules cache.getRole req.signed [action] = .ok () := by
  unfold validateAction at h
  rcases hvalid : validate rules cache.getRole req.signed [action] with error | ok
  · simp [hvalid, Except.mapError] at h
  · rfl

theorem validate_of_newNym {rules : List (String × Constraint)} {cache : IdrCache}
    (h : validateNewNym rules cache req = .ok ()) :
    validate rules cache.getRole req.signed
      [.add "1" "role" (req.operation.role.join.getD "") true] = .ok () := by
  unfold validateNewNym at h
  rcases hid : req.signed.identifier with _ | identifier
  · simp [hid] at h
  · simp only [hid] at h
    split_ifs at h
    exact validate_of_action h

/-- Both keys of the operation were checked. -/
theorem validate_of_existingNym {rules : List (String × Constraint)} {cache : IdrCache}
    {data : IdrCache.NymData} (h : validateExistingNym rules cache req data = .ok ()) :
    (∀ role, req.operation.role = some role → validate rules cache.getRole req.signed
      [.edit "1" "role" (data.role.getD "") (role.getD "")
        (req.signed.identifier = cache.getOwnerFor req.operation.dest)] = .ok ()) ∧
    ∀ verkey, req.operation.verkey = some verkey → validate rules cache.getRole req.signed
      [.edit "1" "verkey" (data.verkey.getD "") (verkey.getD "")
        (req.signed.identifier = cache.getOwnerFor req.operation.dest)] = .ok () := by
  unfold validateExistingNym at h
  obtain ⟨_, hrole, h⟩ := Library.except_bind_eq_ok.mp h
  obtain ⟨_, hverkey, -⟩ := Library.except_bind_eq_ok.mp h
  constructor
  · intro role heq
    rw [heq] at hrole
    exact validate_of_action hrole
  · intro verkey heq
    rw [heq] at hverkey
    exact validate_of_action hverkey

/-- A role that a record gets is the one in the operation, if the role before was another. -/
theorem operation_role_of_merged {existing : Option NymRecord} {txn : NymTxn} {value : String}
    (hbefore : existing.bind (·.role) ≠ some value)
    (hafter : (mergedRecord existing txn).role = some value) :
    txn.operation.role = some (some value) := by
  rcases hrole : txn.operation.role with _ | role
  · exfalso
    rcases existing with _ | existing
    · simp [mergedRecord, hrole] at hafter
    · apply hbefore
      simpa [mergedRecord, hrole] using hafter
  · simpa [mergedRecord, hrole] using hafter

/-- A step that gives a DID a privileged role is signed by a trustee. -/
theorem trustee_of_step (hsha : Function.Injective sha256) (hcached : Cached sha256 stores)
    {role : Role} (hrole : role.Privileging) (hbefore : roleOf sha256 stores did ≠ some role.code)
    (hafter : roleOf sha256 (nymStep sha256 authMap stores req) did = some role.code) :
    nymDynamicValidation authMap stores.cache req = .ok () ∧
      ∃ signer ∈ req.signed.signers, roleOf sha256 stores signer = some Role.trustee.code := by
  have hchanged : (nymStep sha256 authMap stores req).state (makeStatePathForNym sha256 did) ≠
      stores.state (makeStatePathForNym sha256 did) := by
    intro heq
    apply hbefore
    rw [roleOf, ← heq]
    exact hafter
  obtain ⟨hvalid, hdest, hrecord⟩ := accepted_of_changed hsha hchanged
  refine ⟨hvalid, ?_⟩
  rw [roleOf, hrecord, Option.bind_some] at hafter
  have hop : req.operation.role = some (some role.code) := operation_role_of_merged hbefore hafter
  unfold nymDynamicValidation at hvalid
  rw [hdest] at hvalid
  have htrustee : ∃ signer ∈ req.signed.signers,
      stores.cache.getRole signer = some Role.trustee.code := by
    rcases hnym : stores.cache.getNym did none with _ | data
    · simp only [hnym] at hvalid
      have hadd := validate_of_newNym hvalid
      rw [hop] at hadd
      exact trustee_of_add hrole hadd
    · simp only [hnym] at hvalid
      obtain ⟨record, hexisting, hdata⟩ := getNym_of_cached hcached hnym
      have hedit := (validate_of_existingNym hvalid).1 _ hop
      refine trustee_of_edit hrole ?_ hedit
      intro heq
      apply hbefore
      rw [roleOf, hexisting, Option.bind_some]
      rw [hdata] at heq
      rcases hvalue : record.role with _ | value
      · rw [hvalue] at heq
        exact absurd heq.symm role.code_ne_empty
      · rw [hvalue] at heq
        exact congrArg some heq
  obtain ⟨signer, hsigner, hgetRole⟩ := htrustee
  exact ⟨signer, hsigner, roleOf_of_getRole hcached hgetRole⟩

/-- A step that changes the verkey of a DID is signed by the owner of the DID. -/
theorem owner_of_step (hsha : Function.Injective sha256) (hcached : Cached sha256 stores)
    {record : NymRecord} (hexisting : stores.state (makeStatePathForNym sha256 did) = some record)
    (hchange : verkeyOf sha256 (nymStep sha256 authMap stores req) did ≠ record.verkey) :
    nymDynamicValidation authMap stores.cache req = .ok () ∧
      ∃ owner ∈ req.signed.signers, stores.cache.getOwnerFor did = some owner := by
  have hchanged : (nymStep sha256 authMap stores req).state (makeStatePathForNym sha256 did) ≠
      stores.state (makeStatePathForNym sha256 did) := by
    intro heq
    apply hchange
    rw [verkeyOf, heq, hexisting, Option.bind_some]
  obtain ⟨hvalid, hdest, hrecord⟩ := accepted_of_changed hsha hchanged
  refine ⟨hvalid, ?_⟩
  obtain ⟨verkey, hop⟩ : ∃ verkey, req.operation.verkey = some verkey := by
    rcases hverkey : req.operation.verkey with _ | verkey
    · exfalso
      apply hchange
      rw [verkeyOf, hrecord, hexisting, Option.bind_some]
      simp [mergedRecord, NymRequest.txn, hverkey]
    · exact ⟨verkey, rfl⟩
  unfold nymDynamicValidation at hvalid
  rw [hdest] at hvalid
  rcases hnym : stores.cache.getNym did none with _ | data
  · rw [state_none_of_getNym hcached hnym] at hexisting
    cases hexisting
  · simp only [hnym] at hvalid
    obtain ⟨howner, author, hauthor, hid⟩ :=
      owner_of_edit ((validate_of_existingNym hvalid).2 _ hop)
    rw [decide_eq_true_eq, hdest, hid] at howner
    exact ⟨author, hauthor, howner.symm⟩

theorem Cached.nymStep (hsha : Function.Injective sha256) (h : Cached sha256 stores)
    (rules : List (String × Constraint)) :
    Cached sha256 (IndyNode.nymStep sha256 rules stores req) := by
  unfold IndyNode.nymStep
  split
  · exact h.applyNym hsha
  · exact h

theorem Cached.runNym (hsha : Function.Injective sha256) (h : Cached sha256 stores)
    (rules : List (String × Constraint)) (reqs : List NymRequest) :
    Cached sha256 (IndyNode.runNym sha256 rules stores reqs) := by
  induction reqs generalizing stores with
  | nil => exact h
  | cons req reqs ih => exact ih (h.nymStep hsha rules)

end Steps

section Runs

variable (sha256 : Bytes → Bytes)

/-- A node at this domain state. -/
def storesAt (state : NymState) : NymStores :=
  ⟨state, fun did => (state (makeStatePathForNym sha256 did)).map NymRecord.packed⟩

/-- The request changes the role of the DID to this role. -/
def GivesRole (stores : NymStores) (req : NymRequest) (did : String) (role : Role) : Prop :=
  roleOf sha256 stores did ≠ some role.code ∧
    roleOf sha256 (nymStep sha256 authMap stores req) did = some role.code

/-- The request is accepted and one of its signers is a trustee on the ledger. -/
def AcceptedFromTrustee (stores : NymStores) (req : NymRequest) : Prop :=
  nymDynamicValidation authMap stores.cache req = .ok () ∧
    ∃ signer ∈ req.signed.signers, roleOf sha256 stores signer = some Role.trustee.code

/-- The request is accepted and the owner of the DID is one of its signers. -/
def AcceptedFromOwner (stores : NymStores) (req : NymRequest) (did : String) : Prop :=
  nymDynamicValidation authMap stores.cache req = .ok () ∧
    ∃ owner ∈ req.signed.signers, stores.cache.getOwnerFor did = some owner

variable {sha256}

/-- In a run from any domain state a privileged role that is new was given by a request that a
trustee signed, each time it was given, and the verkey of a DID on the ledger only changes when its
owner signs. -/
theorem nym_run_no_escalation (hsha : Function.Injective sha256) (state : NymState)
    (reqs : List NymRequest) :
    (∀ did role, Role.Privileging role →
      roleOf sha256 (storesAt sha256 state) did ≠ some role.code →
      roleOf sha256 (runNym sha256 authMap (storesAt sha256 state) reqs) did = some role.code →
      ∃ pre req, pre ++ [req] <+: reqs ∧
        GivesRole sha256 (runNym sha256 authMap (storesAt sha256 state) pre) req did role) ∧
    ∀ pre req, pre ++ [req] <+: reqs →
      ∀ stores, stores = runNym sha256 authMap (storesAt sha256 state) pre →
      ∀ did,
        (∀ role, Role.Privileging role → GivesRole sha256 stores req did role →
          AcceptedFromTrustee sha256 stores req) ∧
        ∀ record, stores.state (makeStatePathForNym sha256 did) = some record →
          verkeyOf sha256 (nymStep sha256 authMap stores req) did ≠ record.verkey →
          AcceptedFromOwner stores req did := by
  constructor
  · intro did role _ hbefore hafter
    exact Library.exists_step_of_foldl
      (P := fun stores => roleOf sha256 stores did = some role.code) hbefore hafter
  · intro pre req _ stores hstores did
    have hcached : Cached sha256 stores := by
      rw [hstores]
      exact Cached.runNym hsha (fun _ => rfl) authMap pre
    constructor
    · intro role hrole hgives
      exact trustee_of_step hsha hcached hrole hgives.1 hgives.2
    · intro record hexisting hchange
      exact owner_of_step hsha hcached hexisting hchange

/-- A hash without collisions that is SHA-256 on the DIDs of the sample. -/
def sampleDidSha256 (bytes : Bytes) : Bytes :=
  if bytes = asBytes "V4SGRU86Z58d6TV7PBUe6f" then
    [89, 189, 237, 47, 218, 203, 9, 163, 97, 104, 187, 158, 33, 55, 233, 1, 115, 151, 184, 242, 152,
      223, 26, 109, 179, 178, 5, 59, 103, 255, 220, 130]
  else if bytes = asBytes "Th7MpTaRZVRYnPiabds81Y" then
    [217, 190, 221, 100, 158, 150, 172, 233, 75, 66, 174, 187, 0, 86, 24, 17, 181, 206, 21, 106, 57,
      34, 133, 81, 152, 247, 175, 79, 181, 242, 242, 119]
  else 0 :: bytes

theorem sampleDidSha256_injective : Function.Injective sampleDidSha256 := by
  intro a b h
  unfold sampleDidSha256 at h
  split at h <;> split at h <;> (try split at h) <;> (try split at h) <;> simp_all

/-- The trustee of the sample is on the ledger. -/
def sampleTrusteeState (key : Bytes) : Option NymRecord :=
  if key = makeStatePathForNym sampleDidSha256 "V4SGRU86Z58d6TV7PBUe6f" then
    some ⟨none, some "0", some "~CoRER63DVYnWZtK8uAzNbx", 1, none⟩
  else none

/-- The trustee makes another DID a steward. -/
def sampleStewardRequest : NymRequest where
  signed := .single "V4SGRU86Z58d6TV7PBUe6f"
  operation := ⟨"Th7MpTaRZVRYnPiabds81Y", some (some "2"), some (some "~7TYfekw4GUagBnBVCqPjiC")⟩
  seqNo := 2
  txnTime := some 1000

theorem nym_run_no_escalation_steward :
    roleOf sampleDidSha256
      (runNym sampleDidSha256 authMap (storesAt sampleDidSha256 sampleTrusteeState)
      [sampleStewardRequest]) "Th7MpTaRZVRYnPiabds81Y" = some Role.steward.code ∧
    ∃ pre req, pre ++ [req] <+: [sampleStewardRequest] ∧
      GivesRole sampleDidSha256
        (runNym sampleDidSha256 authMap (storesAt sampleDidSha256 sampleTrusteeState) pre) req
        "Th7MpTaRZVRYnPiabds81Y" .steward := by
  have hafter : roleOf sampleDidSha256 (runNym sampleDidSha256 authMap
      (storesAt sampleDidSha256 sampleTrusteeState) [sampleStewardRequest])
        "Th7MpTaRZVRYnPiabds81Y" = some Role.steward.code := by
    decide
  refine ⟨hafter, ?_⟩
  apply (nym_run_no_escalation sampleDidSha256_injective sampleTrusteeState
    [sampleStewardRequest]).1
  · exact Or.inr rfl
  · decide
  · exact hafter

end Runs

end SimpleAsset.IndyNode
