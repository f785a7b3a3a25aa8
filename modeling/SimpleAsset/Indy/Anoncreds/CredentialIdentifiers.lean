import SimpleAsset.Indy.Anoncreds.IdentifierParts
import SimpleAsset.Indy.Anoncreds.Restriction

/-! The identifiers of a credential by their parts, as they are and made unqualified. -/
namespace SimpleAsset.Indy.Anoncreds
open SimpleAsset.Library

/-- The identifiers made unqualified, as a proof for a request of the first version has them. -/
def Identifier.unqualified (node13 : Bool) (identifier : Identifier) : Identifier :=
  ⟨identifier.schemaId.toUnqualified, identifier.credDefId.toUnqualified node13,
    identifier.revRegId.map (·.toUnqualified node13), identifier.timestamp⟩

/-- Parts that the identifier gives back, in either form. -/
structure CredDefParts.Regular (p : CredDefParts) : Prop where
  like : p.Like
  didSimple : p.did.Simple
  refSimple : p.schema.Simple
  refVersioned : p.schema.Versioned
  tagged : p.tag.text ≠ ""

section
variable {p : CredDefParts}

theorem CredDefParts.Regular.parts (h : p.Regular) :
    p.id.parts = some (p.did.value, p.signatureType.text, p.schema.id, p.tag.text) :=
  credDefId_parts h.like h.didSimple h.refSimple fun htag => absurd htag h.tagged

theorem CredDefParts.Regular.toUnqualified (h : p.Regular) :
    p.id.toUnqualified false = (p.unqualified h.didSimple h.refSimple).id :=
  p.toUnqualified_id h.like h.didSimple h.refSimple h.refVersioned fun htag => absurd htag h.tagged

theorem CredDefParts.Regular.unqualified (h : p.Regular) :
    (p.unqualified h.didSimple h.refSimple).Regular where
  like := SchemaRef.unqualified_like h.refSimple h.didSimple
  didSimple := h.didSimple
  refSimple := SchemaRef.unqualified_simple h.refSimple
  refVersioned := SchemaRef.unqualified_versioned h.refSimple h.refVersioned
  tagged := h.tagged

end

/-- The parts of a credential's identifiers: all are qualified, or none is. -/
structure CredentialIds where
  schemaIssuer : Did
  schemaName : Component
  schemaVersion : Component
  credDef : CredDefParts
  like : schemaIssuer.method.isSome = credDef.did.method.isSome
  schemaSimple : schemaIssuer.Simple
  versioned : schemaVersion.text ≠ ""
  regular : credDef.Regular

section
variable (ids : CredentialIds)

def CredentialIds.schemaId : SchemaId :=
  .new ids.schemaIssuer.value ids.schemaName.text ids.schemaVersion.text

def CredentialIds.filter : Filter where
  schemaId := ids.schemaId.value
  schemaIssuerDid := ids.schemaIssuer.value.value
  schemaName := ids.schemaName.text
  schemaVersion := ids.schemaVersion.text
  issuerDid := ids.credDef.did.value.value
  credDefId := ids.credDef.id.value

def CredentialIds.unqualified : CredentialIds where
  schemaIssuer := ids.schemaIssuer.unqualified ids.schemaSimple
  schemaName := ids.schemaName
  schemaVersion := ids.schemaVersion
  credDef := ids.credDef.unqualified ids.regular.didSimple ids.regular.refSimple
  like := rfl
  schemaSimple := ids.schemaSimple
  versioned := ids.versioned
  regular := ids.regular.unqualified

theorem CredentialIds.parts_schemaId : ids.schemaId.parts =
    some (ids.schemaIssuer.value, ids.schemaName.text, ids.schemaVersion.text) :=
  (schemaId_parts_iff _ _ _).mpr ⟨ids.schemaSimple, ids.versioned⟩

theorem CredentialIds.issuerDid_credDef :
    ids.credDef.id.issuerDid = some ids.credDef.did.value := by
  rw [CredentialDefinitionId.issuerDid, ids.regular.parts]
  rfl

theorem CredentialIds.filterOf_eq {identifier : Identifier}
    (hschema : identifier.schemaId = ids.schemaId)
    (hcredDef : identifier.credDefId = ids.credDef.id) : filterOf identifier = .ok ids.filter := by
  unfold filterOf
  rw [hschema, hcredDef, ids.parts_schemaId, ids.issuerDid_credDef]
  rfl

theorem CredentialIds.toUnqualified_schemaId :
    ids.schemaId.toUnqualified = ids.unqualified.schemaId := by
  unfold SchemaId.toUnqualified
  rw [ids.parts_schemaId]
  dsimp only
  rw [Did.toUnqualified_eq _ ids.schemaSimple]
  rfl

theorem CredentialIds.toUnqualified_credDef :
    ids.credDef.id.toUnqualified false = ids.unqualified.credDef.id :=
  ids.regular.toUnqualified

theorem CredentialIds.filterOf_unqualified {identifier : Identifier}
    (hschema : identifier.schemaId = ids.schemaId)
    (hcredDef : identifier.credDefId = ids.credDef.id) :
    filterOf (identifier.unqualified false) = .ok ids.unqualified.filter := by
  apply ids.unqualified.filterOf_eq
  · rw [← ids.toUnqualified_schemaId, ← hschema]
    rfl
  · rw [← ids.toUnqualified_credDef, ← hcredDef]
    rfl

theorem CredentialIds.unqualified_eq_self (h : ids.credDef.did.method = none) :
    ids.unqualified = ids := by
  have hissuer : ids.schemaIssuer.method = none := by simpa [h] using ids.like
  have hdid := Did.unqualified_eq_self hissuer ids.schemaSimple
  have hcredDid := Did.unqualified_eq_self h ids.regular.didSimple
  have href := SchemaRef.unqualified_eq_self ids.regular.like h ids.regular.refSimple
  obtain ⟨schemaIssuer, name, version, ⟨did, schema, signatureType, tag⟩, _, _, _, _⟩ := ids
  unfold CredentialIds.unqualified CredDefParts.unqualified
  dsimp only at hdid hcredDid href ⊢
  simp only [hdid, hcredDid, href]

end

end SimpleAsset.Indy.Anoncreds
