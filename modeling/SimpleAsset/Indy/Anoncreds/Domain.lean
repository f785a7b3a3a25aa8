import SimpleAsset.Library.Table
import SimpleAsset.Indy.Result

/-! Identifiers, restriction queries, proof requests and proofs. -/
namespace SimpleAsset.Indy.Anoncreds
open SimpleAsset.Library

/-- `wql::Query`. -/
inductive Query
  | and (operators : List Query)
  | or (operators : List Query)
  | not (operator : Query)
  | eq (tagName tagValue : String)
  | neq (tagName tagValue : String)
  | gt (tagName tagValue : String)
  | gte (tagName tagValue : String)
  | lt (tagName tagValue : String)
  | lte (tagName tagValue : String)
  | like (tagName tagValue : String)
  | isIn (tagName : String) (tagValues : List String)

section Identifiers

def delimiter : String := ":"

/-- `split_terminator`: an empty last part does not count. -/
def splitTerminator (s : String) : List String :=
  let parts := (s.toList.splitOn ':').map String.ofList
  if parts.getLast? = some "" then parts.dropLast else parts

/-- `[a-z0-9]`. -/
def isLowerAlnum (c : Char) : Bool := c.isLower || c.isDigit

/-- The captures of `^[a-z0-9]+:([a-z0-9]+):(.*)$` (qualifier.rs). -/
def qualifierCaptures (entity : String) : Option (String × String) :=
  match entity.toList.span isLowerAlnum with
  | ([], _) => none
  | (_ :: _, ':' :: afterPrefix) =>
    match afterPrefix.span isLowerAlnum with
    | ([], _) => none
    | (method, ':' :: rest) =>
      if '\n' ∈ rest then none else some (String.ofList method, String.ofList rest)
    | _ => none
  | _ => none

def qualify (entity : String) ( prefix_ method : String) : String :=
  prefix_ ++ ":" ++ method ++ ":" ++ entity

def toUnqualified (entity : String) : String :=
  match qualifierCaptures entity with
  | none => entity
  | some (_, rest) => rest

structure DidValue where
  value : String
  deriving DecidableEq, Repr

@[ext] structure SchemaId where
  value : String
  deriving DecidableEq, Repr

@[ext] structure CredentialDefinitionId where
  value : String
  deriving DecidableEq, Repr

structure RevocationRegistryId where
  value : String
  deriving DecidableEq, Repr

def DidValue.getMethod (did : DidValue) : Option String :=
  (qualifierCaptures did.value).map Prod.fst

def DidValue.toUnqualified (did : DidValue) : DidValue := ⟨Anoncreds.toUnqualified did.value⟩

def DidValue.qualify (did : DidValue) (method : String) : DidValue :=
  ⟨Anoncreds.qualify did.value "did" method⟩

/-- `parts[from..to].join(DELIMITER)`. -/
def joinParts (parts : List String) (start stop : ℕ) : String :=
  delimiter.intercalate ((parts.take stop).drop start)

def partAt (parts : List String) (i : ℕ) : String := parts.getD i ""

def SchemaId.marker : String := "2"

def SchemaId.new (did : DidValue) (name version : String) : SchemaId :=
  let id := delimiter.intercalate [did.value, marker, name, version]
  match did.getMethod with
  | some method => ⟨qualify id "schema" method⟩
  | none => ⟨id⟩

def SchemaId.parts (id : SchemaId) : Option (DidValue × String × String) :=
  let parts := splitTerminator id.value
  if parts.length = 1 then none
  else if parts.length = 4 then some (⟨partAt parts 0⟩, partAt parts 2, partAt parts 3)
  else if parts.length = 8 then some (⟨joinParts parts 2 5⟩, partAt parts 6, partAt parts 7)
  else none

def SchemaId.toUnqualified (id : SchemaId) : SchemaId :=
  match id.parts with
  | some (did, name, version) => .new did.toUnqualified name version
  | none => id

def SchemaId.qualify (id : SchemaId) (method : String) : SchemaId :=
  match id.parts with
  | some (did, name, version) => .new (did.qualify method) name version
  | none => id

def CredentialDefinitionId.marker : String := "3"

/-- `node13` is `ProtocolVersion::is_node_1_3()`. -/
def CredentialDefinitionId.new (node13 : Bool) (did : DidValue) (schemaId : SchemaId)
    (signatureType tag : String) :
    CredentialDefinitionId :=
  let id := delimiter.intercalate [did.value, marker, signatureType, schemaId.value]
  let id := if node13 then id else id ++ (if tag.isEmpty then "" else delimiter ++ tag)
  match did.getMethod with
  | some method => ⟨qualify id "creddef" method⟩
  | none => ⟨id⟩

def CredentialDefinitionId.parts (id : CredentialDefinitionId) :
    Option (DidValue × String × SchemaId × String) :=
  let parts := splitTerminator id.value
  let part := partAt parts
  if parts.length = 4 then some (⟨part 0⟩, part 2, ⟨part 3⟩, "")
  else if parts.length = 5 then some (⟨part 0⟩, part 2, ⟨part 3⟩, part 4)
  else if parts.length = 7 then some (⟨part 0⟩, part 2, ⟨joinParts parts 3 7⟩, "")
  else if parts.length = 8 then some (⟨part 0⟩, part 2, ⟨joinParts parts 3 7⟩, part 7)
  else if parts.length = 9 then some (⟨joinParts parts 2 5⟩, part 6, ⟨part 7⟩, part 8)
  else if parts.length = 16
    then some (⟨joinParts parts 2 5⟩, part 6, ⟨joinParts parts 7 15⟩, part 15)
  else none

def CredentialDefinitionId.issuerDid (id : CredentialDefinitionId) : Option DidValue :=
  id.parts.map fun (did, _, _, _) => did

def CredentialDefinitionId.isFullyQualified (id : CredentialDefinitionId) : Bool :=
  id.value.startsWith "creddef" && (qualifierCaptures id.value).isSome

def CredentialDefinitionId.toUnqualified (node13 : Bool) (id : CredentialDefinitionId) :
    CredentialDefinitionId :=
  match id.parts with
  | some (did, signatureType, schemaId, tag) =>
    .new node13 did.toUnqualified schemaId.toUnqualified signatureType tag
  | none => id

def CredentialDefinitionId.qualify (node13 : Bool) (id : CredentialDefinitionId) (method : String) :
    CredentialDefinitionId :=
  match id.parts with
  | some (did, signatureType, schemaId, tag) =>
    .new node13 (did.qualify method) (schemaId.qualify method) signatureType tag
  | none => id

/-- `(.+)` and what follows it, tried as the regex engine does: the longest match first. -/
def dotPlus {α : Type} (next : List Char → Option α) : List Char → Option (String × α)
  | [] => none
  | c :: s =>
    if c = '\n' then none
    else match dotPlus next s with
      | some (matched, rest) => some (String.ofList (c :: matched.toList), rest)
      | none => (next s).map fun rest => (String.ofList [c], rest)

def literal {α : Type} (text : String) (next : List Char → Option α) (s : List Char) : Option α :=
  if text.toList.isPrefixOf s then next (s.drop text.length) else none

/-- `(?P<did>.+):4:(?P<cred_def_id>.+):(?P<rev_reg_type>.+):(?P<tag>.+)$`. -/
def revRegIdBody : List Char → Option (String × String × String × String × Unit) :=
  dotPlus <| literal ":4:" <| dotPlus <| literal ":" <| dotPlus <| literal ":" <| dotPlus fun s =>
    if s = [] then some () else none

/-- `(^revreg:(?P<method>[a-z0-9]+):)?` stands at the start of the text only. -/
def revRegIdQualified (s : List Char) : Option (String × String × String × String × Unit) :=
  literal "revreg:" (fun s =>
    match s.span isLowerAlnum with
    | (_ :: _, ':' :: rest) => revRegIdBody rest
    | _ => none) s

/-- The leftmost place from which the rest of the pattern matches. -/
def revRegIdSearch : List Char → Option (String × String × String × String × Unit)
  | [] => none
  | c :: s => (revRegIdBody (c :: s)).or (revRegIdSearch s)

def RevocationRegistryId.parts (id : RevocationRegistryId) :
    Option (DidValue × CredentialDefinitionId × String × String) :=
  ((revRegIdQualified id.value.toList).or (revRegIdSearch id.value.toList)).map
    fun (did, credDefId, revRegType, tag, ()) => (⟨did⟩, ⟨credDefId⟩, revRegType, tag)

def RevocationRegistryId.new (did : DidValue) (credDefId : CredentialDefinitionId)
    (revRegType tag : String) :
    RevocationRegistryId :=
  let id := delimiter.intercalate [did.value, "4", credDefId.value, revRegType, tag]
  match did.getMethod with
  | some method => ⟨qualify id "revreg" method⟩
  | none => ⟨id⟩

def RevocationRegistryId.toUnqualified (node13 : Bool) (id : RevocationRegistryId) :
    RevocationRegistryId :=
  match id.parts with
  | some (did, credDefId, revRegType, tag) =>
    .new did.toUnqualified (credDefId.toUnqualified node13) revRegType tag
  | none => id

end Identifiers

section Requests

structure NonRevocedInterval where
  start : Option ℕ
  stop : Option ℕ
  deriving DecidableEq, Repr

structure AttributeInfo where
  name : Option String
  names : Option (List String)
  restrictions : Option Query
  nonRevoked : Option NonRevocedInterval

inductive PredicateTypes
  | ge
  | le
  | gt
  | lt
  deriving DecidableEq, Repr

structure PredicateInfo where
  name : String
  pType : PredicateTypes
  pValue : ℤ
  restrictions : Option Query
  nonRevoked : Option NonRevocedInterval

structure ProofRequestPayload (Nonce : Type) where
  nonce : Nonce
  requestedAttributes : Table String AttributeInfo
  requestedPredicates : Table String PredicateInfo
  nonRevoked : Option NonRevocedInterval

/-- The interval of an attribute or predicate, or else that of the whole request. -/
def getNonRevocInterval (globalInterval localInterval : Option NonRevocedInterval) :
    Option NonRevocedInterval :=
  (localInterval.or globalInterval).filter fun x => x.stop.isSome || x.start.isSome

end Requests

section Proofs

structure SubProofReferent where
  subProofIndex : ℕ
  deriving DecidableEq, Repr

structure RevealedAttributeInfo where
  subProofIndex : ℕ
  raw : String
  encoded : String
  deriving DecidableEq, Repr

structure AttributeValue where
  raw : String
  encoded : String
  deriving DecidableEq, Repr

structure RevealedAttributeGroupInfo where
  subProofIndex : ℕ
  values : Table String AttributeValue

structure Identifier where
  schemaId : SchemaId
  credDefId : CredentialDefinitionId
  revRegId : Option RevocationRegistryId
  timestamp : Option ℕ
  deriving DecidableEq, Repr

structure RequestedProof where
  revealedAttrs : Table String RevealedAttributeInfo := ∅
  revealedAttrGroups : Table String RevealedAttributeGroupInfo := ∅
  selfAttestedAttrs : Table String String := ∅
  unrevealedAttrs : Table String SubProofReferent := ∅
  predicates : Table String SubProofReferent := ∅

end Proofs

end SimpleAsset.Indy.Anoncreds
