import SimpleAsset.Library.Table
import SimpleAsset.Vcx.Messages

/-! Revocation states for a proof (libvcx, disclosed_proof.rs), and their cache in the wallet
(libvcx, utils/libindy/cache.rs). -/
namespace SimpleAsset.Vcx
open SimpleAsset.Library

structure NonRevokedInterval where
  fromTime : Option ℕ
  toTime : Option ℕ
  deriving DecidableEq, Repr

structure CredInfo where
  revRegId : Option String
  credRevId : Option String
  revocationInterval : Option NonRevokedInterval
  tailsFile : Option String
  timestamp : Option ℕ
  deriving DecidableEq, Repr

namespace CredInfo

/-- Registry, index and tails file, where all three are there. -/
def revocable (credInfo : CredInfo) : Option (String × String × String) :=
  match credInfo.revRegId, credInfo.credRevId, credInfo.tailsFile with
  | some revRegId, some credRevId, some tailsFile => some (revRegId, credRevId, tailsFile)
  | _, _, _ => none

def fromTime (credInfo : CredInfo) : Option ℕ :=
  credInfo.revocationInterval.bind NonRevokedInterval.fromTime

def toTime (credInfo : CredInfo) : Option ℕ :=
  credInfo.revocationInterval.bind NonRevokedInterval.toTime

end CredInfo

section Cache

structure RevState where
  timestamp : ℕ
  value : String
  deriving DecidableEq, Repr

structure RevRegCache where
  revState : Option RevState
  deriving DecidableEq, Repr

/-- The cache records of the wallet, by registry. -/
abbrev WalletCache := Table String RevRegCache

def getRevRegCache (wallet : WalletCache) (revRegId : String) : RevRegCache :=
  (wallet.lookup revRegId).getD ⟨none⟩

def setRevRegCache (wallet : WalletCache) (revRegId : String) (cache : RevRegCache) : WalletCache :=
  wallet.insert revRegId cache

theorem getRevRegCache_set (wallet : WalletCache) (revRegId : String) (cache : RevRegCache) :
    getRevRegCache (setRevRegCache wallet revRegId cache) revRegId = cache := by
  rw [getRevRegCache, setRevRegCache, AList.lookup_insert]
  rfl

theorem getRevRegCache_set_of_ne (wallet : WalletCache) {revRegId id : String} (cache : RevRegCache)
    (h : id ≠ revRegId) :
    getRevRegCache (setRevRegCache wallet revRegId cache) id = getRevRegCache wallet id := by
  rw [getRevRegCache, setRevRegCache, AList.lookup_insert_ne h]
  rfl

end Cache

/-- The calls of the ledger and of libindy. A delta is asked for at some time, which counts where no
end is given. States are read as JSON at the end. -/
structure RevocationCalls (Value : Type) where
  getRevRegDefJson (revRegId : String) : VcxResult (String × String)
  getRevRegDeltaJson (now : ℕ) (revRegId : String) (fromTime toTime : Option ℕ) : VcxResult
    (String × String × ℕ)
  proverCreateRevocationState (revRegDefJson revRegDeltaJson credRevId tailsFile : String) :
    VcxResult String
  proverUpdateRevocationState
    (revRegDefJson revStateJson revRegDeltaJson credRevId tailsFile : String) :
    VcxResult String
  fromStr (revStateJson : String) : VcxResult Value

section Build
variable {Value : Type} (calls : RevocationCalls Value) (now : ℕ)

/-- The state of a registry that is not cached. -/
def createdState (wallet : WalletCache) (revRegId credRevId tailsFile : String)
    (toTime : Option ℕ) :
    VcxResult (RevState × WalletCache) := do
  let (_, revRegDefJson) ← calls.getRevRegDefJson revRegId
  let (revRegId, revRegDeltaJson, timestamp) ← calls.getRevRegDeltaJson now revRegId none toTime
  let value ← calls.proverCreateRevocationState revRegDefJson revRegDeltaJson credRevId tailsFile
  return (⟨timestamp, value⟩, setRevRegCache wallet revRegId ⟨some ⟨timestamp, value⟩⟩)

/-- From where a cached state is updated. -/
def updateFrom (cached : RevState) : Option ℕ → Option ℕ
  | some fromTime => if cached.timestamp ≤ fromTime then some cached.timestamp else none
  | none => none

/-- The state of a registry whose cached state does not lie in the interval. -/
def updatedState (wallet : WalletCache) (cached : RevState) (revRegId credRevId tailsFile : String)
    (fromTime toTime : Option ℕ) : VcxResult (RevState × WalletCache) := do
  let (_, revRegDefJson) ← calls.getRevRegDefJson revRegId
  let (revRegId, revRegDeltaJson, timestamp) ←
    calls.getRevRegDeltaJson now revRegId (updateFrom cached fromTime) toTime
  let value ←
    calls.proverUpdateRevocationState revRegDefJson cached.value revRegDeltaJson credRevId tailsFile
  let wallet :=
    if cached.timestamp < timestamp
      then setRevRegCache wallet revRegId ⟨some ⟨timestamp, value⟩⟩ else wallet
  return (⟨timestamp, value⟩, wallet)

/-- The cached state lies in the interval, up to now where it has no end. -/
def inInterval (cached : RevState) (fromTime toTime : Option ℕ) : Prop :=
  fromTime.getD 0 ≤ cached.timestamp ∧ cached.timestamp ≤ toTime.getD now

instance (cached : RevState) (fromTime toTime : Option ℕ) :
    Decidable (inInterval now cached fromTime toTime) :=
  inferInstanceAs (Decidable (_ ∧ _))

def revStateOf (wallet : WalletCache) (revRegId credRevId tailsFile : String)
    (fromTime toTime : Option ℕ) :
    VcxResult (RevState × WalletCache) :=
  match (getRevRegCache wallet revRegId).revState with
  | none => createdState calls now wallet revRegId credRevId tailsFile toTime
  | some cached =>
    if inInterval now cached fromTime toTime then .ok (cached, wallet)
    else updatedState calls now wallet cached revRegId credRevId tailsFile fromTime toTime

/-- The object that is built: for every registry one time with one state. -/
abbrev RevStates (Value : Type) := Table String (ℕ × Value)

abbrev RevStatesResult (Value : Type) := VcxResult (RevStates Value × List CredInfo)

/-- An info in front of those that the rounds after it leave. -/
def withInfo (credInfo : CredInfo) (r : WalletCache × RevStatesResult Value) :
    WalletCache × RevStatesResult Value :=
  (r.1, r.2.map fun built => (built.1, credInfo :: built.2))

/-- The rounds of the loop. A round that fails leaves behind what is cached so far. -/
def buildRevStatesLoop (wallet : WalletCache) (rtn : RevStates Value)
    (timestamps : Table String ℕ) :
    List CredInfo → WalletCache × RevStatesResult Value
  | [] => (wallet, .ok (rtn, []))
  | credInfo :: rest =>
    match credInfo.revocable with
    | none => withInfo credInfo (buildRevStatesLoop wallet rtn timestamps rest)
    | some (revRegId, credRevId, tailsFile) =>
      if revRegId ∈ rtn then
        withInfo { credInfo with timestamp := credInfo.timestamp.or (timestamps.lookup revRegId) }
          (buildRevStatesLoop wallet rtn timestamps rest)
      else
        match revStateOf calls now wallet revRegId credRevId tailsFile credInfo.fromTime
          credInfo.toTime with
        | .error e => (wallet, .error e)
        | .ok (state, wallet) =>
          match calls.fromStr state.value with
          | .error e => (wallet, .error e)
          | .ok value =>
            withInfo { credInfo with timestamp := some state.timestamp }
              (buildRevStatesLoop wallet (rtn.insert revRegId (state.timestamp, value))
                (timestamps.insert revRegId state.timestamp) rest)

/-- The new cache, and what is returned together with the infos as they are then. -/
def buildRevStatesJson (wallet : WalletCache) (credentialsIdentifiers : List CredInfo) :
    WalletCache × RevStatesResult Value :=
  buildRevStatesLoop calls now wallet ∅ ∅ credentialsIdentifiers

end Build

section Runs
variable {Value : Type}

structure WalletAt where
  now : ℕ
  wallet : WalletCache

/-- A proof for these credentials, some time after the one before. -/
structure ProofCall where
  elapsed : ℕ
  credentialsIdentifiers : List CredInfo

def proveNext (calls : RevocationCalls Value) (s : WalletAt) (call : ProofCall) :
    VcxResult (WalletAt × List (RevStatesResult Value)) :=
  let now := s.now + call.elapsed
  let built := buildRevStatesJson calls now s.wallet call.credentialsIdentifiers
  .ok (⟨now, built.1⟩, [built.2])

end Runs

end SimpleAsset.Vcx
