import Mathlib.Data.Finset.Basic
import SimpleAsset.Indy.Primitive

/-! The revocation registry of an issuer (commands/anoncreds/issuer.rs): credentials are issued and
revoked. -/
namespace SimpleAsset.Indy.Issuer

inductive IssuanceType
  | issuanceByDefault
  | issuanceOnDemand
  deriving DecidableEq, Repr

/-- The accumulators of ursa, which take whatever index they are given. -/
structure Accumulators where
  Registry : Type
  Delta : Type
  /-- `sign_credential_with_revoc` on the registry, with the index, `max_cred_num` and whether all
  are issued. -/
  sign : Registry → ℕ → ℕ → Bool → Registry × Option Delta
  /-- `revoke_credential` with `max_cred_num` and the index. -/
  revoke : Registry → ℕ → ℕ → Registry × Delta

structure RevocationRegistryInfo where
  currId : ℕ
  usedIds : Finset ℕ

/-- What the wallet has under the id of a registry. -/
structure Registry (U : Accumulators) where
  maxCredNum : ℕ
  issuanceType : IssuanceType
  revReg : U.Registry
  info : RevocationRegistryInfo

/-- An error of the wallet, of the blob storage or of the signature. None of them says that the
registry is full. -/
abbrev Refusal := {e : IndyError // e.kind ≠ .revocationRegistryFull}

def ofRefusal (result : Except Refusal Unit) : Outcome Unit :=
  match result with
  | .ok _ => .ok ()
  | .error e => .error (.err e.1)

/-- The results of the two `update_indy_object` calls at the end: of the registry, then of its
information. -/
structure Writes where
  revReg : Except Refusal Unit
  info : Except Refusal Unit

/-- What a call of `new_credential` meets besides the registry. -/
structure CredentialCall where
  /-- The credential definition and its private key, from the wallet. -/
  credDef : Except Refusal Unit
  blobStorageReaderHandle : Option (BitVec 32)
  tailsAccessor : Except Refusal Unit
  signature : Except Refusal Unit
  witness : Except Refusal Unit
  writes : Writes

def registryFull : IndyError := ⟨.revocationRegistryFull, "RevocationRegistryAccumulator is full"⟩

def revocIdNotFound (credRevocId : ℕ) : IndyError :=
  ⟨.invalidUserRevocId, "Revocation id: " ++ u64ToString credRevocId ++
    " not found in RevocationRegistry"⟩

def parseCredRevId (credRevId : String) : IndyResult ℕ :=
  match (parseU64 credRevId).filter (· < 2 ^ 32) with
  | some id => .ok id
  | none => .error ⟨.invalidStructure, "Cannot parse CredentialRevocationId"⟩

section Calls
variable {U : Accumulators} (build : Build) (s : Registry U)

/-- `new_credential` up to its writes: the registry and the information that it writes, and the
delta. -/
def issueCredential (call : CredentialCall) :
    Outcome (U.Registry × RevocationRegistryInfo × Option U.Delta) := do
  ofRefusal call.credDef
  let currId ← addU32 build s.info.currId 1
  if s.maxCredNum < currId then .error (.err registryFull)
  else do
    let usedIds :=
      match s.issuanceType with
      | .issuanceOnDemand => insert currId s.info.usedIds
      | .issuanceByDefault => s.info.usedIds
    match call.blobStorageReaderHandle with
    | none => errMsg .invalidStructure "TailsReaderHandle not found"
    | some _ => do
      ofRefusal call.tailsAccessor
      ofRefusal call.signature
      let (revReg, delta) :=
        U.sign s.revReg currId s.maxCredNum (s.issuanceType = .issuanceByDefault)
      ofRefusal call.witness
      pure (revReg, ⟨currId, usedIds⟩, delta)

/-- The two writes. The first stays when the second fails. -/
def writeRegistry (revReg : U.Registry) (info : RevocationRegistryInfo) (writes : Writes) :
    Outcome Unit × Registry U :=
  match writes.revReg with
  | .error e => (.error (.err e.1), s)
  | .ok _ =>
    let s := { s with revReg := revReg }
    match writes.info with
    | .error e => (.error (.err e.1), s)
    | .ok _ => (.ok (), { s with info := info })

/-- `new_credential` with a registry: the index of the credential. -/
def newCredential (call : CredentialCall) : Outcome (ℕ × Option U.Delta) × Registry U :=
  match issueCredential build s call with
  | .error fault => (.error fault, s)
  | .ok (revReg, info, delta) =>
    let (result, s) := writeRegistry s revReg info call.writes
    (result.map fun _ => (info.currId, delta), s)

/-- `revoke_credential` up to its writes. -/
def revokeIndex (credRevocId : String) (tailsAccessor : Except Refusal Unit) :
    Outcome (U.Registry × RevocationRegistryInfo × U.Delta) := do
  let credRevocId ← ofIndyResult (parseCredRevId credRevocId)
  ofRefusal tailsAccessor
  let bound ← addU32 build s.maxCredNum 1
  if bound < credRevocId then .error (.err (revocIdNotFound credRevocId))
  else do
    let usedIds ← match s.issuanceType with
      | .issuanceOnDemand =>
        if credRevocId ∈ s.info.usedIds then pure (s.info.usedIds.erase credRevocId)
        else .error (.err (revocIdNotFound credRevocId))
      | .issuanceByDefault =>
        if credRevocId ∈ s.info.usedIds then .error (.err (revocIdNotFound credRevocId))
        else pure (insert credRevocId s.info.usedIds)
    let (revReg, delta) := U.revoke s.revReg s.maxCredNum credRevocId
    pure (revReg, { s.info with usedIds := usedIds }, delta)

def revokeCredential (credRevocId : String) (tailsAccessor : Except Refusal Unit)
    (writes : Writes) : Outcome U.Delta × Registry U :=
  match revokeIndex build s credRevocId tailsAccessor with
  | .error fault => (.error fault, s)
  | .ok (revReg, info, delta) =>
    let (result, s) := writeRegistry s revReg info writes
    (result.map fun _ => delta, s)

end Calls

inductive Call
  | newCredential (call : CredentialCall)
  | revokeCredential (credRevocId : String) (tailsAccessor : Except Refusal Unit)
    (writes : Writes)

/-- What can be seen of a call: the sums that it forms at `u32`, and its result. -/
inductive Note
  | sum (a b : ℕ)
  | issued (call : CredentialCall) (result : IndyResult ℕ)
  | revoked (credRevocId : String) (result : IndyResult Unit)

section Run
variable {U : Accumulators} (build : Build) (s : Registry U)

/-- The sums that a call forms. -/
def Call.sums : Call → List Note
  | .newCredential call => match call.credDef with
    | .ok _ => [.sum s.info.currId 1]
    | .error _ => []
  | .revokeCredential credRevocId tailsAccessor _ =>
    match parseCredRevId credRevocId, tailsAccessor with
    | .ok _, .ok _ => [.sum s.maxCredNum 1]
    | _, _ => []

def execute (call : Call) : Outcome (Registry U × List Note) :=
  match call with
  | .newCredential c => match newCredential build s c with
    | (.ok (id, _), s') => .ok (s', call.sums s ++ [.issued c (.ok id)])
    | (.error (.err e), s') => .ok (s', call.sums s ++ [.issued c (.error e)])
    | (.error fault, _) => .error fault
  | .revokeCredential credRevocId tailsAccessor writes =>
    match revokeCredential build s credRevocId tailsAccessor writes with
    | (.ok _, s') => .ok (s', call.sums s ++ [.revoked credRevocId (.ok ())])
    | (.error (.err e), s') => .ok (s', call.sums s ++ [.revoked credRevocId (.error e)])
    | (.error fault, _) => .error fault

/-- What `create_and_store_revocation_registry` stores. -/
def newRegistry (maxCredNum : ℕ) (issuanceType : IssuanceType) (revReg : U.Registry) : Registry U :=
  ⟨maxCredNum, issuanceType, revReg, ⟨0, ∅⟩⟩

end Run

end SimpleAsset.Indy.Issuer
