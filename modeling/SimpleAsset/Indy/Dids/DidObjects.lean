import SimpleAsset.Indy.Dids.DidService
import SimpleAsset.Indy.Wallet.IndyObjects

/-! What is kept in a wallet about DIDs and keys (domain/crypto/did.rs, domain/pairwise/mod.rs). -/
namespace SimpleAsset.Indy.Dids
open Crypto Wallet
open Anoncreds (DidValue)

structure DidMetadata where
  value : String
  deriving DecidableEq, Repr

structure KeyMetadata where
  value : String
  deriving DecidableEq, Repr

structure Endpoint where
  ha : String
  verkey : Option String
  deriving DecidableEq, Repr

structure Pairwise where
  myDid : DidValue
  theirDid : DidValue
  metadata : Option String
  deriving DecidableEq, Repr

structure DidWithMeta where
  did : DidValue
  verkey : String
  tempVerkey : Option String
  metadata : Option String
  deriving DecidableEq, Repr

/-- The serializations of what these commands keep in a wallet. -/
structure DidSerde where
  did : Serde Did
  temporaryDid : Serde TemporaryDid
  theirDid : Serde TheirDid
  didMetadata : Serde DidMetadata
  key : Serde Crypto.Key
  keyMetadata : Serde KeyMetadata
  endpoint : Serde Endpoint
  pairwise : Serde Pairwise

namespace DidSerde
variable (J : DidSerde)

def didType : ObjectType Did := ⟨J.did, "Did"⟩

def temporaryDidType : ObjectType TemporaryDid := ⟨J.temporaryDid, "TemporaryDid"⟩

def theirDidType : ObjectType TheirDid := ⟨J.theirDid, "TheirDid"⟩

def didMetadataType : ObjectType DidMetadata := ⟨J.didMetadata, "DidMetadata"⟩

def keyType : ObjectType Crypto.Key := ⟨J.key, "Key"⟩

def keyMetadataType : ObjectType KeyMetadata := ⟨J.keyMetadata, "KeyMetadata"⟩

def endpointType : ObjectType Endpoint := ⟨J.endpoint, "Endpoint"⟩

def pairwiseType : ObjectType Pairwise := ⟨J.pairwise, "Pairwise"⟩

end DidSerde

end SimpleAsset.Indy.Dids
