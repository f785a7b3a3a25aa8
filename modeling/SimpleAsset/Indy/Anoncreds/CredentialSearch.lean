import SimpleAsset.Indy.Anoncreds.CredentialQuery
import SimpleAsset.Indy.Wallet.Wallet

/-! Searches for the credentials of a proof request, read page by page
(commands/anoncreds/prover.rs). -/
namespace SimpleAsset.Indy.Anoncreds
open SimpleAsset.Library
open Wallet
  (Cipher Keys Sqlite Db StorageRecord WalletRecord SearchOptions transform optimised encryptType
  decryptStorageRecord)

section Predicates

/-- `str::parse` at `i32`. -/
def parseI32 (s : String) : Option ℤ :=
  match s.toList with
  | '-' :: ds => ((readNat asciiDigit ds).filter (· ≤ 2 ^ 31)).map fun n => -(n : ℤ)
  | '+' :: ds => ((readNat asciiDigit ds).filter (· < 2 ^ 31)).map (↑)
  | ds => ((readNat asciiDigit ds).filter (· < 2 ^ 31)).map (↑)

def PredicateTypes.compares (value bound : ℤ) : PredicateTypes → Bool
  | .ge => decide (bound ≤ value)
  | .gt => decide (bound < value)
  | .le => decide (value ≤ bound)
  | .lt => decide (value < bound)

def attributeSatisfyPredicate (predicate : PredicateInfo) (attributeValue : String) :
    IndyResult Bool :=
  match parseI32 attributeValue with
  | some value => .ok (predicate.pType.compares value predicate.pValue)
  | none =>
    .error ⟨.invalidStructure, "Credential attribute value \"" ++ attributeValue ++ "\" is invalid"⟩

end Predicates

structure CredentialInfo where
  referent : String
  attrs : Table String String
  schemaId : SchemaId
  credDefId : CredentialDefinitionId
  revRegId : Option RevocationRegistryId
  credRevId : Option String

structure RequestedCredential where
  credInfo : CredentialInfo
  interval : Option NonRevocedInterval

/-- What the code uses of serde and ursa for a stored credential. -/
structure CredentialCodec (Signature : Type) where
  /-- `serde_json::from_str`. -/
  fromJson : String → Option (Credential Signature)
  /-- `CredentialSignature::extract_index`. -/
  extractIndex : Signature → Option ℕ

/-- The records that the iterator has not handed out yet, and the keys that it decrypts them
with. -/
structure WalletSearch where
  records : List StorageRecord
  keys : Keys

structure SearchForProofRequest where
  search : WalletSearch
  interval : Option NonRevocedInterval
  predicateInfo : Option PredicateInfo

section Fetch
variable {Signature : Type} (C : Cipher) (lc : Lowercase) (codec : CredentialCodec Signature)

def getCredentialInfo (referent : String) (credential : Credential Signature) : CredentialInfo where
  referent
  attrs := credential.values.mapValues fun _ values => values.raw
  schemaId := credential.schemaId
  credDefId := credential.credDefId
  revRegId := credential.revRegId
  credRevId := (codec.extractIndex credential.signature).map u64ToString

def getCredential (record : WalletRecord) : IndyResult (String × Credential Signature) :=
  match record.value with
  | none => .error ⟨.invalidState, "Credential not found for id: " ++ record.id⟩
  | some value => match codec.fromJson value with
    | some credential => .ok (record.id, credential)
    | none => .error ⟨.invalidState, "Cannot deserialize Credential"⟩

def satisfies (predicateInfo : Option PredicateInfo) (credential : Credential Signature) :
    IndyResult Bool :=
  match predicateInfo with
  | none => .ok true
  | some predicate =>
    match getCredentialValuesForAttribute lc credential.values predicate.name with
    | some values => attributeSatisfyPredicate predicate values.encoded
    | none => .error ⟨.invalidState, "Credential values not found"⟩

/-- What one round of the loop makes of a record: nothing when the credential does not satisfy the
predicate. -/
def requestedCredential (s : SearchForProofRequest) (record : StorageRecord) :
    Outcome (Option RequestedCredential) := do
  let record ← decryptStorageRecord C s.search.keys record
  let (referent, credential) ← ofIndyResult (getCredential codec record)
  let satisfy ← ofIndyResult (satisfies lc s.predicateInfo credential)
  pure (if satisfy then some ⟨getCredentialInfo codec referent credential, s.interval⟩ else none)

/-- `while let Some(..) = fetch_next_record()?`. -/
def requestedCredentialsLoop (round : StorageRecord → Outcome (Option RequestedCredential))
    (maxCount : Option ℕ) (credentials : List RequestedCredential) :
    List StorageRecord → Outcome (List RequestedCredential) × List StorageRecord
  | [] => (.ok credentials, [])
  | record :: records =>
    match round record with
    | .error fault => (.error fault, records)
    | .ok none => requestedCredentialsLoop round maxCount credentials records
    | .ok (some credential) =>
      -- `if let Some(mut count)` takes a copy: the next round counts down from `maxCount` again
      match maxCount with
      | some count =>
        if count - 1 = 0 then (.ok (credentials ++ [credential]), records)
        else requestedCredentialsLoop round maxCount (credentials ++ [credential]) records
      | none => requestedCredentialsLoop round maxCount (credentials ++ [credential]) records

def getRequestedCredentials (s : SearchForProofRequest) (maxCount : Option ℕ) :
    Outcome (List RequestedCredential) × SearchForProofRequest :=
  if maxCount = some 0 then (.ok [], s)
  else
    let (result, records) :=
      requestedCredentialsLoop (requestedCredential C lc codec s) maxCount [] s.search.records
    (result, { s with search := { s.search with records } })

end Fetch

section Executor
variable {Signature Nonce : Type} (C : Cipher) (S : Sqlite) (build : Build) (lc : Lowercase)
  (codec : CredentialCodec Signature)

abbrev SearchHandle := BitVec 32

/-- `searches_for_proof_requests`. -/
abbrev ProofRequestSearches := Table SearchHandle (Table String SearchForProofRequest)

/-- An open wallet. -/
structure WalletAccess where
  keys : Keys
  db : Db

def idValue : SearchOptions where
  retrieveRecords := true
  retrieveTotalCount := true
  retrieveType := true
  retrieveValue := true
  retrieveTags := false

/-- `search_indy_records::<Credential>`. -/
def searchCredentials (wallet : WalletAccess) (query : Query) : Outcome WalletSearch := do
  let encryptedQuery ← ofIndyResult (transform C wallet.keys (optimised query))
  let (_, records) ← Wallet.SQLiteStorage.search S build
      (encryptType C wallet.keys "Indy::Credential") encryptedQuery
    (some idValue) wallet.db
  pure ⟨records, wallet.keys⟩

/-- A search for one item of a proof request. -/
structure RequestedSearch where
  referent : String
  name : Option String
  names : Option (List String)
  restrictions : Option Query
  nonRevoked : Option NonRevocedInterval
  predicateInfo : Option PredicateInfo

def RequestedSearch.ofAttribute (attrId : String) (requestedAttr : AttributeInfo) :
    RequestedSearch :=
  ⟨attrId, requestedAttr.name, requestedAttr.names, requestedAttr.restrictions,
    requestedAttr.nonRevoked, none⟩

def RequestedSearch.ofPredicate (predicateId : String) (requestedPredicate : PredicateInfo) :
    RequestedSearch :=
  ⟨predicateId, some requestedPredicate.name, none, requestedPredicate.restrictions,
    requestedPredicate.nonRevoked, some requestedPredicate⟩

/-- The request of one item, with the query that the wallet is searched for. -/
def RequestedSearch.start (wallet : WalletAccess) (version : ProofRequestsVersion)
    (globalInterval : Option NonRevocedInterval) (extraQuery : Option (Table String Query))
    (item : RequestedSearch) :
    Outcome SearchForProofRequest := do
  let query ← ofIndyResult
      (processProofRequestRestrictions lc version item.name item.names item.referent
    item.restrictions extraQuery)
  let credentialsSearch ← searchCredentials C S build wallet query
  pure ⟨credentialsSearch, getNonRevocInterval globalInterval item.nonRevoked, item.predicateInfo⟩

/-- The searches of a request; a predicate takes the place of an attribute with its referent. -/
def startSearches (wallet : WalletAccess) (version : ProofRequestsVersion)
    (proofReq : ProofRequestPayload Nonce)
    (extraQuery : Option (Table String Query)) : Outcome (Table String SearchForProofRequest) := do
  let start := RequestedSearch.start C S build lc wallet version proofReq.nonRevoked extraQuery
  let searches ← Table.insertAllM start
      (proofReq.requestedAttributes.mapValues RequestedSearch.ofAttribute) ∅
  Table.insertAllM start
    (proofReq.requestedPredicates.mapValues RequestedSearch.ofPredicate) searches

def searchCredentialsForProofReq (wallet : WalletAccess) (version : ProofRequestsVersion)
    (proofReq : ProofRequestPayload Nonce) (extraQuery : Option (Table String Query))
    (searchHandle : SearchHandle)
    (s : ProofRequestSearches) : Outcome SearchHandle × ProofRequestSearches :=
  match startSearches C S build lc wallet version proofReq extraQuery with
  | .error fault => (.error fault, s)
  | .ok searches => (.ok searchHandle, s.insert searchHandle searches)

def fetchCredentialForProofRequest (searchHandle : SearchHandle) (itemReferent : String) (count : ℕ)
    (s : ProofRequestSearches) : Outcome (List RequestedCredential) × ProofRequestSearches :=
  match s.lookup searchHandle with
  | none => (errMsg .invalidWalletHandle "Unknown CredentialsSearch handle", s)
  | some searches => match searches.lookup itemReferent with
    | none => (errMsg .invalidWalletHandle
        ("Unknown item referent " ++ itemReferent ++ " for CredentialsSearch handle"), s)
    | some search =>
      let (result, search) := getRequestedCredentials C lc codec search (some count)
      (result, s.insert searchHandle (searches.insert itemReferent search))

def closeCredentialsSearchForProofReq (searchHandle : SearchHandle) (s : ProofRequestSearches) :
    Outcome Unit × ProofRequestSearches :=
  if searchHandle ∈ s then (.ok (), s.erase searchHandle)
  else (errMsg .invalidWalletHandle "Unknown CredentialsSearch handle", s)

/-- The commands about searches for proof requests. -/
inductive SearchCommand (Nonce : Type)
  | search (wallet : WalletAccess) (version : ProofRequestsVersion)
      (proofReq : ProofRequestPayload Nonce)
      (extraQuery : Option (Table String Query)) (searchHandle : SearchHandle)
  | fetch (searchHandle : SearchHandle) (itemReferent : String) (count : ℕ)
  | close (searchHandle : SearchHandle)

/-- The searches after a command. -/
def ProofRequestSearches.after (s : ProofRequestSearches) :
    SearchCommand Nonce → ProofRequestSearches
  | .search wallet version proofReq extraQuery searchHandle =>
    (searchCredentialsForProofReq C S build lc wallet version proofReq extraQuery searchHandle s).2
  | .fetch searchHandle itemReferent count =>
    (fetchCredentialForProofRequest C lc codec searchHandle itemReferent count s).2
  | .close searchHandle => (closeCredentialsSearchForProofReq searchHandle s).2

end Executor

end SimpleAsset.Indy.Anoncreds
