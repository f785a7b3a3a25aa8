import Mathlib.Data.Finset.Card
import SimpleAsset.IndyNode.Authorizer

/-! What the tree of an auth rule means, and that authorization decides it. -/
namespace SimpleAsset.IndyNode

variable (cache : RoleCache) (request : SignedRequest) (action : AuthAction)

/-- Who has signed. -/
def SignedRequest.signers (request : SignedRequest) : Finset String :=
  if request.signature then request.identifier.toList.toFinset else request.signatures.toFinset

/-- A role on the ledger is one the constraint asks for. -/
def ConstraintRole.Accepts (constraintRole : ConstraintRole) (role : String) : Prop :=
  match constraintRole with
  | .any => True
  | .one none => role = ""
  | .one (some r) => role = r.code

/-- A signer counts by its role on the ledger, and off the ledger where such signatures are
accepted. -/
def Counts (c : AuthConstraint) (signer : String) : Prop :=
  c.offLedger = true ∨ ∃ role, cache signer = some role ∧ c.role.Accepts role

def Privileged (idr : String) : Prop :=
  ∃ role ∈ [Role.endorser, Role.trustee, Role.steward], cache idr = some role.code

/-- The rules for endorsers: an endorser has that role and has signed, and one is named when an
author without privileges has the transaction signed by someone with privileges. -/
structure EndorserRules : Prop where
  role : ∀ endorser, request.endorser = some endorser → cache endorser = some Role.endorser.code
  signed : ∀ endorser, request.endorser = some endorser → endorser ≠ "" →
    request.identifier ≠ some endorser →
    endorser ∈ request.signatures
  named : (∃ idr ∈ request.signatures, request.identifier ≠ some idr) →
    (∀ author, request.identifier = some author → ¬ Privileged cache author) →
      (∃ idr ∈ request.signatures, Privileged cache idr) → request.endorser ≠ none

/-- What a role asks for beside the number of signers. -/
structure RoleAdmits (c : AuthConstraint) : Prop where
  owner : c.needToBeOwner = true → action.isOwner = true
  onLedger : 0 < c.sigCount → c.offLedger = false →
    ∃ author role, request.identifier = some author ∧ cache author = some role
  signedByAuthor : 0 < c.sigCount → request.signatures ≠ [] →
    ∃ author ∈ request.signatures, request.identifier = some author
  endorser : EndorserRules cache request

structure RoleHolds (c : AuthConstraint) : Prop extends RoleAdmits cache request action c where
  enough : ∃ signers : Finset String, signers ⊆ request.signers ∧ c.sigCount ≤ signers.card ∧
    ∀ signer ∈ signers, Counts cache c signer

/-- A role `*` for which the signers on the ledger are too few and all who have signed are
enough. -/
structure RoleMiscounts (c : AuthConstraint) : Prop extends RoleAdmits cache request action c where
  wildcard : c.role = .any
  ledgerOnly : c.offLedger = false
  multiSigned : request.signature = false
  tooFew : request.signatures.countP (fun signer => (cache signer).isSome) < c.sigCount
  allSigned : c.sigCount ≤ request.signatures.length

/-- The declarative meaning of a rule; what is forbidden never holds. -/
inductive Constraint.Holds : Constraint → Prop
  | role {c : AuthConstraint} (h : RoleHolds cache request action c) : Holds (.role c)
  | and {cs : List Constraint} (h : ∀ c ∈ cs, Holds c) : Holds (.and cs)
  | or {cs : List Constraint} {c : Constraint} (hmem : c ∈ cs) (h : Holds c) : Holds (.or cs)

/-- A miscount decides the rule: under an AND all the children that do not hold miscount, under an
OR none holds. -/
inductive Constraint.Miscounts : Constraint → Prop
  | role {c : AuthConstraint} (h : RoleMiscounts cache request action c) : Miscounts (.role c)
  | and {cs : List Constraint} {c : Constraint} (hmem : c ∈ cs) (h : Miscounts c)
    (hrest : ∀ d ∈ cs, ¬ d.Holds cache request action → Miscounts d) : Miscounts (.and cs)
  | or {cs : List Constraint} {c : Constraint} (hmem : c ∈ cs) (h : Miscounts c)
    (hnone : ∀ d ∈ cs, ¬ d.Holds cache request action) : Miscounts (.or cs)

def Constraint.Granted (c : Constraint) : Prop :=
  c.Holds cache request action ∨ c.Miscounts cache request action

/-- The roles that a rule names. -/
inductive Constraint.Names : Constraint → AuthConstraint → Prop
  | role (c : AuthConstraint) : Names (.role c) c
  | and {cs : List Constraint} {c : Constraint} {r : AuthConstraint} (hmem : c ∈ cs)
      (h : Names c r) :
    Names (.and cs) r
  | or {cs : List Constraint} {c : Constraint} {r : AuthConstraint} (hmem : c ∈ cs)
      (h : Names c r) :
    Names (.or cs) r

variable {cache request action}

namespace Constraint

@[simp] theorem holds_role_iff {c : AuthConstraint} :
    (role c).Holds cache request action ↔ RoleHolds cache request action c := by
  constructor
  · rintro ⟨h⟩
    exact h
  · exact .role

@[simp] theorem holds_and_iff {cs : List Constraint} :
    (and cs).Holds cache request action ↔ ∀ c ∈ cs, c.Holds cache request action := by
  constructor
  · rintro (_ | h)
    exact h
  · exact .and

@[simp] theorem holds_or_iff {cs : List Constraint} :
    (or cs).Holds cache request action ↔ ∃ c ∈ cs, c.Holds cache request action := by
  constructor
  · rintro (_ | _ | ⟨hmem, h⟩)
    exact ⟨_, hmem, h⟩
  · rintro ⟨c, hmem, h⟩
    exact .or hmem h

@[simp] theorem not_holds_forbidden : ¬ forbidden.Holds cache request action := by
  rintro ⟨⟩

theorem granted_role_iff {c : AuthConstraint} : (role c).Granted cache request action ↔
    RoleHolds cache request action c ∨ RoleMiscounts cache request action c := by
  refine or_congr holds_role_iff ?_
  constructor
  · rintro ⟨h⟩
    exact h
  · exact .role

theorem granted_and_iff {cs : List Constraint} :
    (and cs).Granted cache request action ↔ ∀ c ∈ cs, c.Granted cache request action := by
  constructor
  · rintro (h | h) c hc
    · exact Or.inl (holds_and_iff.mp h c hc)
    · cases h with
      | and hmem h hrest => exact or_iff_not_imp_left.mpr (hrest c hc)
  · intro h
    by_cases hall : ∀ c ∈ cs, c.Holds cache request action
    · exact Or.inl (holds_and_iff.mpr hall)
    · simp only [not_forall] at hall
      obtain ⟨c, hc, hnot⟩ := hall
      exact Or.inr
        (.and hc ((h c hc).resolve_left hnot) fun d hd hnot => (h d hd).resolve_left hnot)

theorem granted_or_iff {cs : List Constraint} :
    (or cs).Granted cache request action ↔ ∃ c ∈ cs, c.Granted cache request action := by
  constructor
  · rintro (h | h)
    · obtain ⟨c, hc, hholds⟩ := holds_or_iff.mp h
      exact ⟨c, hc, Or.inl hholds⟩
    · cases h with
      | or hmem h hnone => exact ⟨_, hmem, Or.inr h⟩
  · rintro ⟨c, hc, h⟩
    by_cases hsome : ∃ d ∈ cs, d.Holds cache request action
    · exact Or.inl (holds_or_iff.mpr hsome)
    · simp only [not_exists, not_and] at hsome
      exact Or.inr (.or hc (h.resolve_left (hsome c hc)) hsome)

theorem not_granted_forbidden : ¬ forbidden.Granted cache request action := by
  rintro (h | h)
  · exact not_holds_forbidden h
  · cases h

/-- A rule that is decided by a miscount does not hold. -/
theorem Miscounts.not_holds {c : Constraint} (h : c.Miscounts cache request action) :
    ¬ c.Holds cache request action := by
  induction h with
  | @role c h =>
    intro hholds
    obtain ⟨signers, hsub, hcard, hcounts⟩ := (holds_role_iff.mp hholds).enough
    have hsigners : signers ⊆
        (request.signatures.filter fun signer => (cache signer).isSome).toFinset := by
      intro signer hsigner
      have hmem := hsub hsigner
      rw [SignedRequest.signers, h.multiSigned, if_neg Bool.false_ne_true, List.mem_toFinset]
        at hmem
      rcases hcounts signer hsigner with hoff | ⟨role, hrole, -⟩
      · exact absurd (h.ledgerOnly.symm.trans hoff) Bool.false_ne_true
      · rw [List.mem_toFinset, List.mem_filter, hrole]
        exact ⟨hmem, rfl⟩
    have hfew := (Finset.card_le_card hsigners).trans (List.toFinset_card_le _)
    rw [← List.countP_eq_length_filter] at hfew
    exact absurd h.tooFew (hcard.trans hfew).not_gt
  | and hmem h hrest ih => exact fun hholds => ih (holds_and_iff.mp hholds _ hmem)
  | or hmem h hnone ih =>
    intro hholds
    obtain ⟨d, hd, hholds⟩ := holds_or_iff.mp hholds
    exact hnone d hd hholds

end Constraint

namespace RolesAuthorizer

theorem isRoleAccepted_iff (role : Option String) (constraintRole : ConstraintRole) :
    isRoleAccepted role constraintRole = true ↔ ∃ r, role = some r ∧ constraintRole.Accepts r := by
  rcases role with _ | role
  · simp [isRoleAccepted]
  · rcases constraintRole with _ | _ | r
    · simp [isRoleAccepted, ConstraintRole.Accepts]
    · simp [isRoleAccepted, ConstraintRole.Accepts]
    · have hne := r.code_ne_empty
      simp only [isRoleAccepted, ConstraintRole.Accepts, Bool.and_eq_true, decide_eq_true_eq,
        Option.some.injEq, exists_eq_left']
      constructor
      · exact fun h => h.2
      · intro h
        exact ⟨h ▸ hne, h⟩

variable (cache request) in
/-- A signer counts, or has signed a request with several signatures for any role. -/
def Counted (c : AuthConstraint) (signer : String) : Prop :=
  Counts cache c signer ∨ (c.role = .any ∧ request.signature = false)

theorem counted_iff (c : AuthConstraint) (signer : String)
    (h : c.role ≠ .any ∨ request.signature = true) :
    Counted cache request c signer ↔
    (c.offLedger || isRoleAccepted (cache signer) c.role) = true := by
  rw [Bool.or_eq_true, isRoleAccepted_iff]
  have hnot : ¬ (c.role = .any ∧ request.signature = false) := by
    rintro ⟨hany, hsignature⟩
    rcases h with h | h
    · exact h hany
    · rw [hsignature] at h
      cases h
  simp [Counted, Counts, hnot]

open Classical in
/-- The count is the number of distinct signers that are counted. -/
theorem getSigCount_eq (c : AuthConstraint) :
    getSigCount cache request c.role c.offLedger =
      (request.signers.filter (Counted cache request c)).card := by
  rcases hsignature : request.signature with _ | _
  · have hsigners : request.signers = request.signatures.toFinset := by
      rw [SignedRequest.signers, hsignature]
      rfl
    rw [hsigners]
    by_cases hempty : request.signatures = []
    · simp [getSigCount, hsignature, hempty]
    · by_cases hany : c.role = .any
      · have hall : ∀ signer ∈ request.signatures.toFinset, Counted cache request c signer :=
          fun _ _ => Or.inr ⟨hany, hsignature⟩
        rw [Finset.filter_true_of_mem hall, List.toFinset_card_of_nodup request.signatures_nodup]
        simp [getSigCount, hsignature, hempty, hany]
      · rw [Finset.filter_congr fun signer _ =>
          counted_iff c signer (Or.inl hany), ← List.toFinset_filter,
          List.toFinset_card_of_nodup (request.signatures_nodup.filter _),
          ← List.countP_eq_length_filter]
        simp [getSigCount, hsignature, hempty, hany]
  · obtain ⟨author, hauthor⟩ :=
      Option.isSome_iff_exists.mp (request.identifier_of_signature hsignature)
    have hsigners : request.signers = {author} := by
      rw [SignedRequest.signers, hsignature, hauthor]
      rfl
    rw [hsigners, Finset.filter_congr fun signer _ =>
      counted_iff c signer (Or.inr hsignature), Finset.filter_singleton]
    simp only [getSigCount, hsignature, if_true, hauthor, RoleCache.getRole, Option.bind_some]
    split <;> simp

open Classical in
/-- Where every signature has to be one on the ledger, the count is that of the signers with a role
the constraint accepts. Any role at all is taken for granted of the signers of a multi-signed
request. -/
theorem getSigCount_ledger_iff (role : ConstraintRole) :
    getSigCount cache request role false =
        (request.signers.filter fun signer => ∃ r, cache signer = some r ∧ role.Accepts r).card ↔
      request.signature = true ∨ role ≠ .any ∨
      ∀ signer ∈ request.signatures, cache signer ≠ none := by
  obtain ⟨c, rfl, hledger⟩ : ∃ c : AuthConstraint, c.role = role ∧ c.offLedger = false :=
    ⟨⟨role, 0, false, none, [], nofun⟩, rfl, rfl⟩
  have hsub : (request.signers.filter fun signer => ∃ r, cache signer = some r ∧ c.role.Accepts r) ⊆
      request.signers.filter (Counted cache request c) := by
    intro signer hsigner
    obtain ⟨hmem, hrole⟩ := Finset.mem_filter.mp hsigner
    exact Finset.mem_filter.mpr ⟨hmem, Or.inl (Or.inr hrole)⟩
  have hcount : getSigCount cache request c.role c.offLedger = _ := getSigCount_eq c
  rw [hledger] at hcount
  rw [hcount]
  constructor
  · intro hcard
    rw [or_iff_not_imp_left, or_iff_not_imp_left]
    intro hmulti hany signer hsigner
    have hsame := Finset.eq_of_subset_of_card_le hsub hcard.le
    have hsigners : signer ∈ request.signers := by
      rw [SignedRequest.signers, if_neg hmulti]
      exact List.mem_toFinset.mpr hsigner
    have hcounted : signer ∈ request.signers.filter (Counted cache request c) :=
      Finset.mem_filter.mpr ⟨hsigners, Or.inr ⟨not_not.mp hany, Bool.eq_false_iff.mpr hmulti⟩⟩
    rw [← hsame] at hcounted
    obtain ⟨-, r, hr, -⟩ := Finset.mem_filter.mp hcounted
    rw [hr]
    exact Option.some_ne_none r
  · intro hwhen
    apply congrArg Finset.card
    apply (hsub.antisymm _).symm
    intro signer hsigner
    obtain ⟨hmem, hcounts⟩ := Finset.mem_filter.mp hsigner
    refine Finset.mem_filter.mpr ⟨hmem, ?_⟩
    rcases hcounts with (hoff | hrole) | ⟨hany, hmulti⟩
    · exact absurd (hledger.symm.trans hoff) Bool.false_ne_true
    · exact hrole
    · rcases hwhen with hsingle | hne | hall
      · exact absurd (hmulti.symm.trans hsingle) Bool.false_ne_true
      · exact absurd hany hne
      · rw [SignedRequest.signers, if_neg (by rw [hmulti]; exact Bool.false_ne_true)] at hmem
        obtain ⟨r, hr⟩ := Option.ne_none_iff_exists'.mp (hall signer (List.mem_toFinset.mp hmem))
        refine ⟨r, hr, ?_⟩
        rw [hany]
        trivial

open Classical in
/-- Two have signed, and only the first is on the ledger. -/
theorem not_getSigCount_ledger : ∃ (cache : RoleCache) (request : SignedRequest),
    getSigCount cache request .any false = 2 ∧
      (request.signers.filter fun signer => ∃ r, cache signer = some r ∧
        ConstraintRole.any.Accepts r).card = 1 := by
  refine ⟨fun idr => if idr = "alice" then some "" else none,
    ⟨some "alice", false, ["alice", "bob"], none, by decide, nofun⟩, by decide, ?_⟩
  have hone : ((["alice", "bob"].toFinset : Finset String).filter fun signer =>
      ∃ r, (if signer = "alice" then some "" else none : Option String) = some r ∧
        ConstraintRole.any.Accepts r) = {"alice"} := by
    ext signer
    simp only [Finset.mem_filter, List.mem_toFinset, Finset.mem_singleton]
    constructor
    · rintro ⟨-, r, hr, -⟩
      by_contra hne
      rw [if_neg hne] at hr
      exact nomatch hr
    · rintro rfl
      exact ⟨List.mem_cons_self, "", rfl, trivial⟩
  exact congrArg Finset.card hone

/-- The count is taken for enough when it is, and when those who are not on the ledger make it
so. -/
theorem isSigCountAccepted_iff (c : AuthConstraint) :
    isSigCountAccepted cache request c = true ↔
      (∃ signers : Finset String, signers ⊆ request.signers ∧ c.sigCount ≤ signers.card ∧
        ∀ signer ∈ signers, Counts cache c signer) ∨
      (c.role = .any ∧ c.offLedger = false ∧ request.signature = false ∧
        request.signatures.countP (fun signer => (cache signer).isSome) < c.sigCount ∧
        c.sigCount ≤ request.signatures.length) := by
  classical
  rw [isSigCountAccepted, decide_eq_true_eq]
  constructor
  · intro h
    by_cases hmulti : c.role = .any ∧ c.offLedger = false ∧ request.signature = false
    · obtain ⟨hany, hledger, hsignature⟩ := hmulti
      have hlength : getSigCount cache request c.role c.offLedger ≤ request.signatures.length := by
        simp only [getSigCount, hsignature, hany, Bool.false_eq_true, if_false, if_true]
        split <;> simp
      rcases Nat.lt_or_ge (request.signatures.countP fun signer => (cache signer).isSome) c.sigCount
        with hfew | henough
      · exact Or.inr ⟨hany, hledger, hsignature, hfew, h.trans hlength⟩
      · refine Or.inl
          ⟨(request.signatures.filter fun signer => (cache signer).isSome).toFinset, ?_, ?_, ?_⟩
        · rw [SignedRequest.signers, hsignature, if_neg Bool.false_ne_true, List.toFinset_filter]
          exact Finset.filter_subset _ _
        · rwa [List.toFinset_card_of_nodup (request.signatures_nodup.filter _),
            ← List.countP_eq_length_filter]
        · intro signer hsigner
          obtain ⟨role, hrole⟩ :=
            Option.isSome_iff_exists.mp (List.mem_filter.mp (List.mem_toFinset.mp hsigner)).2
          refine Or.inr ⟨role, hrole, ?_⟩
          rw [hany]
          trivial
    · rw [getSigCount_eq] at h
      refine Or.inl ⟨_, Finset.filter_subset _ _, h, ?_⟩
      intro signer hsigner
      rcases (Finset.mem_filter.mp hsigner).2 with hcounts | ⟨hany, hsignature⟩
      · exact hcounts
      · left
        by_contra hledger
        exact hmulti ⟨hany, Bool.eq_false_iff.mpr hledger, hsignature⟩
  · rintro (⟨signers, hsub, hcard, hcounts⟩ | ⟨hany, hledger, hsignature, -, hall⟩)
    · rw [getSigCount_eq]
      apply hcard.trans
      apply Finset.card_le_card
      intro signer hsigner
      exact Finset.mem_filter.mpr ⟨hsub hsigner, Or.inl (hcounts signer hsigner)⟩
    · simp only [getSigCount, hsignature, hany, Bool.false_eq_true, if_false, if_true]
      split
      · rename_i hempty
        rwa [hempty] at hall
      · exact hall

theorem isOwnerAccepted_iff (c : AuthConstraint) :
    isOwnerAccepted c action = true ↔ (c.needToBeOwner = true → action.isOwner = true) := by
  cases hneed : c.needToBeOwner <;> cases howner :
    action.isOwner <;> simp [isOwnerAccepted, hneed, howner]

theorem getRole_ne_none_iff :
    cache.getRole request.identifier ≠ none ↔
      ∃ author role, request.identifier = some author ∧ cache author = some role := by
  rw [RoleCache.getRole, Option.ne_none_iff_exists']
  constructor
  · rintro ⟨role, hrole⟩
    obtain ⟨author, hauthor, hcache⟩ := Option.bind_eq_some_iff.mp hrole
    exact ⟨author, role, hauthor, hcache⟩
  · rintro ⟨author, role, hauthor, hcache⟩
    exact ⟨role, Option.bind_eq_some_iff.mpr ⟨author, hauthor, hcache⟩⟩

theorem signed_iff : (request.identifier.any fun idr => request.signatures.contains idr) = true ↔
    ∃ author ∈ request.signatures, request.identifier = some author := by
  cases request.identifier <;> simp [eq_comm]

/-- The verdict of the first authorizer; a positive one has no reason. -/
theorem authorize_eq_iff (c : AuthConstraint) :
    authorize cache request c action = (true, "") ↔
      (c.needToBeOwner = true → action.isOwner = true) ∧
      (0 < c.sigCount → c.offLedger = false →
        ∃ author role, request.identifier = some author ∧ cache author = some role) ∧
      (0 < c.sigCount → request.signatures ≠ [] →
        ∃ author ∈ request.signatures, request.identifier = some author) ∧
      ((∃ signers : Finset String, signers ⊆ request.signers ∧ c.sigCount ≤ signers.card ∧
        ∀ signer ∈ signers, Counts cache c signer) ∨
      (c.role = .any ∧ c.offLedger = false ∧ request.signature = false ∧
        request.signatures.countP (fun signer => (cache signer).isSome) < c.sigCount ∧
        c.sigCount ≤ request.signatures.length)) := by
  rw [← isOwnerAccepted_iff, ← getRole_ne_none_iff, ← signed_iff, ← isSigCountAccepted_iff]
  unfold authorize
  -- One check after the other, each with its own reason.
  split_ifs with howner hledger hsigned hcount <;> simp_all

theorem authorize_fst_iff (c : AuthConstraint) :
    (authorize cache request c action).1 = true ↔
    authorize cache request c action = (true, "") := by
  unfold authorize
  split_ifs <;> simp

end RolesAuthorizer

namespace EndorserAuthorizer

theorem isPrivileged_iff (idr : String) : isPrivileged (cache idr) = true ↔
    Privileged cache idr := by
  simp [isPrivileged, Privileged, or_assoc]

theorem isPrivileged_getRole_iff :
    isPrivileged (cache.getRole request.identifier) = true ↔
      ∃ author, request.identifier = some author ∧ Privileged cache author := by
  rcases request.identifier with _ | author
  · simp [RoleCache.getRole, isPrivileged]
  · simpa [RoleCache.getRole] using isPrivileged_iff author

theorem checkEndorserRole_iff :
    (checkEndorserRole cache request).1 = true ↔
      ∀ endorser, request.endorser = some endorser → cache endorser = some Role.endorser.code := by
  unfold checkEndorserRole
  rcases request.endorser with _ | endorser
  · simp
  · simp only [Option.some.injEq, forall_eq']
    split <;> simp_all

/-- Someone beside the author has signed. -/
theorem extraSigs_iff (hne : request.signatures ≠ []) :
    (1 < request.signatures.length || !request.identifier.any fun idr =>
      request.signatures.contains idr) = true ↔
      ∃ idr ∈ request.signatures, request.identifier ≠ some idr := by
  have hnodup := request.signatures_nodup
  simp only [Bool.or_eq_true, decide_eq_true_eq, Bool.not_eq_true', Bool.eq_false_iff]
  rw [ne_eq, RolesAuthorizer.signed_iff]
  rcases hsigs : request.signatures with _ | ⟨idr, _ | ⟨idr', idrs⟩⟩
  · exact absurd hsigs hne
  · simp
  · rw [hsigs, List.nodup_cons] at hnodup
    have hdiff : idr ≠ idr' := by
      rintro rfl
      exact hnodup.1 (List.mem_cons_self ..)
    -- The author is not both of the first two signers.
    by_cases hauthor : request.identifier = some idr
    · have : request.identifier ≠ some idr' := by
        rw [hauthor]
        simpa using hdiff
      simp [this]
    · simp [hauthor]

/-- An endorser who is not the author has signed. -/
theorem endorserSigned_iff :
    (request.endorser ≠ request.identifier &&
      (request.endorser.any fun idr => idr ≠ "" && !request.signatures.contains idr)) = false ↔
      ∀ endorser, request.endorser = some endorser → endorser ≠ "" →
        request.identifier ≠ some endorser →
        endorser ∈ request.signatures := by
  rcases request.endorser with _ | endorser
  · simp
  · simp only [Option.some.injEq, forall_eq']
    by_cases hid : request.identifier = some endorser
    · simp [hid]
    · simp [hid, Ne.symm hid]

theorem checkEndorserFieldPresence_iff :
    (checkEndorserFieldPresence cache request).1 = true ↔
      (∀ endorser, request.endorser = some endorser → endorser ≠ "" →
        request.identifier ≠ some endorser →
        endorser ∈ request.signatures) ∧
      ((∃ idr ∈ request.signatures, request.identifier ≠ some idr) →
        (∀ author, request.identifier = some author → ¬ Privileged cache author) →
          (∃ idr ∈ request.signatures, Privileged cache idr) → request.endorser ≠ none) := by
  have hprivileged : (request.signatures.any fun idr => isPrivileged (cache idr)) = true ↔
      ∃ idr ∈ request.signatures, Privileged cache idr := by
    simp only [List.any_eq_true, isPrivileged_iff]
  rw [← endorserSigned_iff, ← hprivileged]
  unfold checkEndorserFieldPresence
  dsimp only
  split
  · rename_i hbad
    rw [hbad]
    exact iff_of_false (by simp) (by simp)
  rename_i hbad
  rw [Bool.not_eq_true] at hbad
  rw [and_iff_right hbad]
  split
  · rename_i hempty
    simp [hempty]
  rename_i hempty
  rw [← extraSigs_iff hempty]
  split
  · rename_i hextra
    rw [(Bool.not_eq_true' _).mp hextra]
    exact iff_of_true rfl (by simp)
  split
  · rename_i hauthor
    obtain ⟨author, hid, hpriv⟩ := isPrivileged_getRole_iff.mp hauthor
    refine iff_of_true rfl ?_
    intro _ hall
    exact absurd hpriv (hall author hid)
  rename_i hextra hauthor
  split
  · rename_i hsigs
    rw [(Bool.not_eq_true' _).mp hsigs]
    exact iff_of_true rfl (by simp)
  rename_i hsigs
  split
  · -- The endorsed transaction of an author without privileges names no endorser.
    rename_i hnone
    refine iff_of_false (by simp) ?_
    intro hnamed
    apply hnamed _ _ _ hnone
    · rwa [Bool.not_eq_true', Bool.not_eq_false] at hextra
    · intro author hid hpriv
      exact hauthor (isPrivileged_getRole_iff.mpr ⟨author, hid, hpriv⟩)
    · rwa [Bool.not_eq_true', Bool.not_eq_false] at hsigs
  · rename_i hnone
    simp [hnone]

theorem authorize_eq_iff : authorize cache request = (true, "") ↔ EndorserRules cache request := by
  have hrules : EndorserRules cache request ↔
      (checkEndorserRole cache request).1 = true ∧
      (checkEndorserFieldPresence cache request).1 = true := by
    rw [checkEndorserRole_iff, checkEndorserFieldPresence_iff]
    constructor
    · intro h
      exact ⟨h.role, h.signed, h.named⟩
    · rintro ⟨hrole, hsigned, hnamed⟩
      exact ⟨hrole, hsigned, hnamed⟩
  rw [hrules]
  unfold authorize
  dsimp only
  split_ifs with hrole hpresence <;> simp_all

theorem authorize_fst_iff : (authorize cache request).1 = true ↔
    authorize cache request = (true, "") := by
  unfold authorize
  dsimp only
  split_ifs <;> simp_all

end EndorserAuthorizer

namespace CompositeAuthorizer

/-- The two outcomes of authorization. -/
def Decides (result : Except String Verdict) (holds : Prop) : Prop :=
  (holds → result = .ok (true, "")) ∧ (¬ holds → ∃ reason, result = .error reason)

theorem Decides.composite_single {result : Except String Verdict} {holds : Prop}
    (h : Decides result holds) :
    Decides (composite [result]) holds := by
  constructor
  · intro hholds
    rw [h.1 hholds]
    rfl
  · intro hnot
    obtain ⟨reason, hreason⟩ := h.2 hnot
    rw [hreason]
    exact ⟨reason, rfl⟩

theorem granted_iff (c : AuthConstraint) :
    RoleHolds cache request action c ∨ RoleMiscounts cache request action c ↔
      RolesAuthorizer.authorize cache request c action = (true, "") ∧
        EndorserAuthorizer.authorize cache request = (true, "") := by
  rw [RolesAuthorizer.authorize_eq_iff, EndorserAuthorizer.authorize_eq_iff]
  constructor
  · rintro (h | h)
    · exact ⟨⟨h.owner, h.onLedger, h.signedByAuthor, Or.inl h.enough⟩, h.endorser⟩
    · exact ⟨⟨h.owner, h.onLedger, h.signedByAuthor,
        Or.inr ⟨h.wildcard, h.ledgerOnly, h.multiSigned, h.tooFew, h.allSigned⟩⟩, h.endorser⟩
  · rintro ⟨⟨howner, hledger, hsigned, hcount⟩, hendorser⟩
    have hadmits : RoleAdmits cache request action c := ⟨howner, hledger, hsigned, hendorser⟩
    rcases hcount with henough | ⟨hany, honly, hmulti, hfew, hall⟩
    · exact Or.inl ⟨hadmits, henough⟩
    · exact Or.inr ⟨hadmits, hany, honly, hmulti, hfew, hall⟩

theorem decides_role (c : AuthConstraint) :
    Decides (authorize cache request action (.role c))
      (RoleHolds cache request action c ∨ RoleMiscounts cache request action c) := by
  rw [granted_iff, authorize]
  constructor
  · rintro ⟨hroles, hendorser⟩
    rw [hroles, hendorser]
    rfl
  · intro hnot
    rw [← RolesAuthorizer.authorize_fst_iff, ← EndorserAuthorizer.authorize_fst_iff, not_and]
      at hnot
    simp only [composite, Library.except_ok_bind]
    split
    · rename_i hroles
      rw [if_neg (hnot hroles)]
      exact ⟨_, rfl⟩
    · exact ⟨_, rfl⟩

mutual

/-- By recursion on the tree, with the loops over the children alongside. -/
theorem authorize_decides (c : Constraint) :
    Decides (authorize cache request action c) (c.Granted cache request action) := by
  match c with
  | .role c =>
    rw [Constraint.granted_role_iff]
    exact decides_role c
  | .and cs =>
    rw [Constraint.granted_and_iff, authorize]
    exact (andAuthorize_decides cs).composite_single
  | .or cs =>
    rw [Constraint.granted_or_iff, ← orChecks_ne_zero_iff cs, authorize]
    apply Decides.composite_single
    constructor
    · intro hne
      rw [if_neg hne]
    · intro hzero
      rw [if_pos (not_not.mp hzero)]
      exact ⟨_, rfl⟩
  | .forbidden =>
    rw [authorize]
    exact ⟨fun h => absurd h Constraint.not_granted_forbidden, fun _ => ⟨_, rfl⟩⟩

theorem andAuthorize_decides (cs : List Constraint) :
    Decides (andAuthorize cache request action cs) (∀ c ∈ cs, c.Granted cache request action) := by
  match cs with
  | [] =>
    rw [andAuthorize]
    exact ⟨fun _ => rfl, fun h => absurd (by simp) h⟩
  | c :: cs =>
    have hc := authorize_decides c
    have hcs := andAuthorize_decides cs
    rw [andAuthorize, List.forall_mem_cons]
    constructor
    · rintro ⟨hhead, htail⟩
      rw [hc.1 hhead]
      exact hcs.1 htail
    · intro hnot
      by_cases hhead : c.Granted cache request action
      · rw [hc.1 hhead]
        exact hcs.2 fun htail => hnot ⟨hhead, htail⟩
      · obtain ⟨reason, hreason⟩ := hc.2 hhead
        rw [hreason]
        exact ⟨reason, rfl⟩

theorem orChecks_ne_zero_iff (cs : List Constraint) :
    (orChecks cache request action cs).1 ≠ 0 ↔ ∃ c ∈ cs, c.Granted cache request action := by
  match cs with
  | [] =>
    rw [orChecks]
    simp
  | c :: cs =>
    have hc := authorize_decides c
    have hcs := orChecks_ne_zero_iff cs
    rw [orChecks, List.exists_mem_cons_iff]
    by_cases hhead : c.Granted cache request action
    · simp [hc.1 hhead, hhead]
    · -- A failed check is recorded and the loop goes on.
      obtain ⟨reason, hreason⟩ := hc.2 hhead
      simp only [hreason, hhead, false_or]
      exact hcs

end

end CompositeAuthorizer

/-- A role is counted right: with a single signature, for a role by name, with signatures off the
ledger accepted, or with all signers on the ledger. -/
def CountsRight (cache : RoleCache) (request : SignedRequest) (c : AuthConstraint) : Prop :=
  request.signature = true ∨ c.role ≠ .any ∨ c.offLedger = true ∨
    ∀ signer ∈ request.signatures, cache signer ≠ none

theorem RoleMiscounts.not_countsRight {c : AuthConstraint}
    (h : RoleMiscounts cache request action c) :
    ¬ CountsRight cache request c := by
  rintro (hsingle | hnamed | hoff | hall)
  · exact absurd (h.multiSigned.symm.trans hsingle) Bool.false_ne_true
  · exact hnamed h.wildcard
  · exact absurd (h.ledgerOnly.symm.trans hoff) Bool.false_ne_true
  · have hcount : request.signatures.countP
        (fun signer => (cache signer).isSome) = request.signatures.length :=
      List.countP_eq_length.mpr fun signer hsigner =>
        Option.isSome_iff_ne_none.mpr (hall signer hsigner)
    exact absurd h.allSigned (hcount ▸ h.tooFew).not_ge

theorem Constraint.Miscounts.exists_role {c : Constraint} (h : c.Miscounts cache request action) :
    ∃ r, c.Names r ∧ RoleMiscounts cache request action r := by
  induction h with
  | role h => exact ⟨_, .role _, h⟩
  | and hmem h hrest ih =>
    obtain ⟨r, hr, hmiscounts⟩ := ih
    exact ⟨r, .and hmem hr, hmiscounts⟩
  | or hmem h hnone ih =>
    obtain ⟨r, hr, hmiscounts⟩ := ih
    exact ⟨r, .or hmem hr, hmiscounts⟩

/-- Authorization returns for a rule that holds and raises for one that does not, unless a miscount
decides the rule. None does where every role of the rule is counted right. -/
theorem authorize_evaluates_tree_iff (cache : RoleCache) (request : SignedRequest)
    (action : AuthAction) (c : Constraint) :
    (((c.Holds cache request action →
      CompositeAuthorizer.authorize cache request action c = .ok (true, "")) ∧
        (¬ c.Holds cache request action →
          ∃ reason, CompositeAuthorizer.authorize cache request action c = .error reason)) ↔
      ¬ c.Miscounts cache request action) ∧
    ((∀ r, c.Names r → CountsRight cache request r) → ¬ c.Miscounts cache request action) := by
  have hdecides : CompositeAuthorizer.Decides (CompositeAuthorizer.authorize cache request action c)
      (c.Granted cache request action) := CompositeAuthorizer.authorize_decides c
  refine ⟨⟨?_, ?_⟩, ?_⟩
  · rintro ⟨-, hraises⟩ hmiscounts
    obtain ⟨reason, hreason⟩ := hraises hmiscounts.not_holds
    rw [hdecides.1 (Or.inr hmiscounts)] at hreason
    cases hreason
  · intro hright
    refine ⟨fun hholds => hdecides.1 (Or.inl hholds), fun hnot => hdecides.2 ?_⟩
    rintro (hholds | hmiscounts)
    · exact hnot hholds
    · exact hright hmiscounts
  · intro hright hmiscounts
    obtain ⟨r, hr, hrole⟩ := hmiscounts.exists_role
    exact hrole.not_countsRight (hright r hr)

/-- Alice is on the ledger and Bob is not: two signatures on the ledger are asked for, and the
request is let through. -/
theorem not_authorize_evaluates_tree :
    ∃ (cache : RoleCache) (request : SignedRequest) (action : AuthAction)
    (c : Constraint), ¬ c.Holds cache request action ∧
      CompositeAuthorizer.authorize cache request action c = .ok (true, "") := by
  let cache : RoleCache := fun idr => if idr = "alice" then some "" else none
  let request : SignedRequest := ⟨some "alice", false, ["alice", "bob"], none, by decide, nofun⟩
  let c : AuthConstraint := ⟨.any, 2, false, none, [], nofun⟩
  let action : AuthAction := .add "1" "alias" "*" false
  have hadmits : RoleAdmits cache request action c := by
    refine ⟨nofun, fun _ _ => ⟨"alice", "", rfl, rfl⟩, fun _ _ =>
      ⟨"alice", List.mem_cons_self, rfl⟩, ?_⟩
    refine (EndorserAuthorizer.authorize_eq_iff).mp ?_
    decide
  have hmiscounts : (Constraint.role c).Miscounts cache request action :=
    .role ⟨hadmits, rfl, rfl, rfl, by decide, by decide⟩
  exact ⟨cache, request, action, .role c, hmiscounts.not_holds,
    (CompositeAuthorizer.authorize_decides _).1 (Or.inr hmiscounts)⟩

end SimpleAsset.IndyNode
