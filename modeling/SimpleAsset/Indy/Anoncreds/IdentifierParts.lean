import SimpleAsset.Library.Joined
import SimpleAsset.Indy.Anoncreds.Domain

/-! Schema and credential definition ids against the parts they are made of. -/
namespace SimpleAsset.Indy.Anoncreds
open SimpleAsset.Library

section Inputs

/-- The name of a DID method, as `DidMethod::validate` lets it through. -/
structure MethodName where
  name : String
  nonempty : name.toList ≠ []
  alnum : ∀ c ∈ name.toList, isLowerAlnum c = true

/-- A DID as `DidValue::validate` lets it through: plain, or `did:<method>:<main>`. -/
structure Did where
  method : Option MethodName
  main : String
  oneLine : '\n' ∉ main.toList
  plain : method = none → ':' ∉ main.toList

def Did.value (did : Did) : DidValue :=
  match did.method with
  | some method => DidValue.qualify ⟨did.main⟩ method.name
  | none => ⟨did.main⟩

/-- A text without the delimiter. -/
structure Component where
  text : String
  noDelimiter : ':' ∉ text.toList

/-- What a credential definition id says of its schema. -/
inductive SchemaRef
  | seqNo (number : ℕ)
  | full (issuer : Did) (name version : Component)

def SchemaRef.id : SchemaRef → SchemaId
  | .seqNo number => ⟨number.repr⟩
  | .full issuer name version => .new issuer.value name.text version.text

/-- A schema id is qualified when the DID is. -/
def SchemaRef.Like (did : Did) : SchemaRef → Prop
  | .seqNo _ => True
  | .full issuer _ _ => issuer.method.isSome = did.method.isSome

/-- What a credential definition id is made of. -/
structure CredDefParts where
  did : Did
  schema : SchemaRef
  signatureType : Component
  tag : Component

def CredDefParts.Like (p : CredDefParts) : Prop := p.schema.Like p.did

def CredDefParts.id (p : CredDefParts) : CredentialDefinitionId :=
  .new false p.did.value p.schema.id p.signatureType.text p.tag.text

end Inputs

section Qualifier

theorem isLowerAlnum_colon : isLowerAlnum ':' = false := by decide

theorem span_isLowerAlnum {w rest : List Char} (hw : ∀ c ∈ w, isLowerAlnum c = true) :
    (w ++ ':' :: rest).span isLowerAlnum = (w, ':' :: rest) := by
  rw [List.span_eq_takeWhile_dropWhile, List.takeWhile_append_of_pos hw,
    List.dropWhile_append_of_pos hw]
  simp [isLowerAlnum_colon]

theorem qualifierCaptures_qualify {entity : String} (pre : String) (method : MethodName)
    (hpre : pre.toList ≠ [])
    (halnum : ∀ c ∈ pre.toList, isLowerAlnum c = true) (hline : '\n' ∉ entity.toList) :
    qualifierCaptures (qualify entity pre method.name) = some (method.name, entity) := by
  obtain ⟨p, ps, hp⟩ := List.exists_cons_of_ne_nil hpre
  obtain ⟨m, ms, hm⟩ := List.exists_cons_of_ne_nil method.nonempty
  have htext : (qualify entity pre method.name).toList =
      pre.toList ++ ':' :: (method.name.toList ++ ':' :: entity.toList) := by simp [qualify]
  unfold qualifierCaptures
  rw [htext, span_isLowerAlnum halnum, hp]
  simp only
  rw [span_isLowerAlnum method.alnum, hm]
  have hname : String.ofList (m :: ms) = method.name := by rw [← hm, String.ofList_toList]
  simp only [if_neg hline, hname, String.ofList_toList]

theorem qualifierCaptures_eq_none {entity : String} (h : ':' ∉ entity.toList) :
    qualifierCaptures entity = none := by
  have hrest : ∀ c rest, (entity.toList.span isLowerAlnum).2 = c :: rest → c ≠ ':' := by
    rintro c rest hspan rfl
    rw [List.span_eq_takeWhile_dropWhile] at hspan
    exact h ((List.dropWhile_sublist _).subset (hspan ▸ List.mem_cons_self))
  unfold qualifierCaptures
  split
  · rfl
  · rename_i hspan
    exact absurd rfl (hrest _ _ (congrArg Prod.snd hspan))
  · rfl

end Qualifier

section Dids

theorem Did.getMethod_value (did : Did) : did.value.getMethod = did.method.map MethodName.name := by
  unfold Did.value DidValue.getMethod
  cases h : did.method with
  | none => simp [qualifierCaptures_eq_none (did.plain h)]
  | some method =>
    have hcaptures := qualifierCaptures_qualify "did" method (by decide)
      (List.all_eq_true.mp (by decide)) did.oneLine
    simp [DidValue.qualify, hcaptures]

theorem Did.toUnqualified_value (did : Did) : did.value.toUnqualified = ⟨did.main⟩ := by
  unfold Did.value DidValue.toUnqualified toUnqualified
  cases h : did.method with
  | none => simp [qualifierCaptures_eq_none (did.plain h)]
  | some method =>
    have hcaptures := qualifierCaptures_qualify "did" method (by decide)
      (List.all_eq_true.mp (by decide)) did.oneLine
    simp [DidValue.qualify, hcaptures]

end Dids

section Pieces

/-- What stands before a qualified DID in an identifier. -/
def Did.frame (did : Did) (pre : String) : List String :=
  match did.method with
  | some method => [pre, method.name]
  | none => []

def Did.pieces (did : Did) : List String :=
  match did.method with
  | some method => ["did", method.name, did.main]
  | none => [did.main]

def SchemaRef.pieces : SchemaRef → List String
  | .seqNo number => [number.repr]
  | .full issuer name version => issuer.frame "schema" ++
      (issuer.pieces ++ ["2", name.text, version.text])

def CredDefParts.pieces (p : CredDefParts) : List String :=
  p.did.frame "creddef" ++ (p.did.pieces ++ ("3" :: p.signatureType.text :: (p.schema.pieces ++
    if p.tag.text = "" then [] else [p.tag.text])))

theorem Did.value_eq (did : Did) : did.value.value = delimiter.intercalate did.pieces := by
  unfold Did.value Did.pieces
  cases did.method with
  | none => simp
  | some method => simp [DidValue.qualify, qualify, delimiter, String.append_assoc]

theorem schemaId_value_eq (did : Did) (name version : String) :
    (SchemaId.new did.value name version).value =
      delimiter.intercalate (did.frame "schema" ++ (did.pieces ++ ["2", name, version])) := by
  unfold SchemaId.new Did.frame Did.pieces
  rw [Did.getMethod_value]
  unfold Did.value
  cases did.method with
  | none => simp [SchemaId.marker]
  | some method => simp [DidValue.qualify, qualify, delimiter, SchemaId.marker, String.append_assoc]

theorem SchemaRef.value_eq (schema : SchemaRef) :
    schema.id.value = delimiter.intercalate schema.pieces := by
  cases schema with
  | seqNo number => simp [SchemaRef.id, SchemaRef.pieces]
  | full issuer name version => exact schemaId_value_eq issuer name.text version.text

theorem SchemaRef.pieces_ne_nil (schema : SchemaRef) : schema.pieces ≠ [] := by
  cases schema <;> simp [SchemaRef.pieces]

theorem CredDefParts.value_eq (p : CredDefParts) : p.id.value = delimiter.intercalate p.pieces := by
  have htail : delimiter.intercalate
      (p.schema.pieces ++ if p.tag.text = "" then [] else [p.tag.text]) =
      p.schema.id.value ++ if p.tag.text.isEmpty then "" else delimiter ++ p.tag.text := by
    rw [SchemaRef.value_eq]
    by_cases htag : p.tag.text = ""
    · simp [htag]
    · rw [if_neg htag, String.intercalate_append_of_ne_nil p.schema.pieces_ne_nil (by simp)]
      simp [htag, String.append_assoc]
  have hne : (p.schema.pieces ++ if p.tag.text = "" then [] else [p.tag.text]) ≠ [] := by
    simp [p.schema.pieces_ne_nil]
  unfold delimiter at htail
  unfold CredDefParts.id CredentialDefinitionId.new CredDefParts.pieces Did.frame Did.pieces
  rw [Did.getMethod_value]
  unfold Did.value
  cases p.did.method with
  | none =>
    simp [delimiter, CredentialDefinitionId.marker, String.intercalate_cons_of_ne_nil hne, htail,
      String.append_assoc]
  | some method =>
    simp [DidValue.qualify, qualify, delimiter, CredentialDefinitionId.marker,
      String.intercalate_cons_of_ne_nil hne, htail, String.append_assoc]

end Pieces

section Splitting

/-- The main part of a DID has no delimiter of its own. -/
def Did.Simple (did : Did) : Prop := ':' ∉ did.main.toList

def SchemaRef.Simple : SchemaRef → Prop
  | .seqNo _ => True
  | .full issuer _ _ => issuer.Simple

/-- Texts that a split at the delimiter leaves whole. -/
def NoDelimiter (pieces : List String) : Prop := ∀ piece ∈ pieces, ':' ∉ piece.toList

theorem MethodName.noDelimiter (method : MethodName) : ':' ∉ method.name.toList := fun hmem =>
  absurd (method.alnum _ hmem) (by simp [isLowerAlnum_colon])

theorem repr_noDelimiter (n : ℕ) : ':' ∉ n.repr.toList := by
  rw [Nat.toList_repr]
  exact fun hmem => absurd (Nat.isDigit_of_mem_toDigits (by decide) (by decide) hmem) (by decide)

theorem Did.frame_noDelimiter (did : Did) {pre : String} (hpre : ':' ∉ pre.toList) :
    NoDelimiter (did.frame pre) := by
  unfold Did.frame NoDelimiter
  cases did.method with
  | none => simp
  | some method => simp [hpre, method.noDelimiter]

theorem Did.pieces_noDelimiter {did : Did} (h : did.Simple) : NoDelimiter did.pieces := by
  unfold Did.Simple at h
  unfold Did.pieces NoDelimiter
  cases did.method with
  | none => simp [h]
  | some method => simp [h, method.noDelimiter]

theorem NoDelimiter.append {a b : List String} (ha : NoDelimiter a) (hb : NoDelimiter b) :
    NoDelimiter (a ++ b) := by
  intro piece hmem
  rcases List.mem_append.mp hmem with hmem | hmem
  · exact ha piece hmem
  · exact hb piece hmem

theorem schemaPieces_noDelimiter {did : Did} (h : did.Simple) (name version : Component) :
    NoDelimiter (did.frame "schema" ++ (did.pieces ++ ["2", name.text, version.text])) := by
  refine (did.frame_noDelimiter (by decide)).append ((Did.pieces_noDelimiter h).append ?_)
  simp [NoDelimiter, name.noDelimiter, version.noDelimiter]

theorem SchemaRef.pieces_noDelimiter {schema : SchemaRef} (h : schema.Simple) :
    NoDelimiter schema.pieces := by
  cases schema with
  | seqNo number => simpa [SchemaRef.pieces, NoDelimiter] using repr_noDelimiter number
  | full issuer name version => exact schemaPieces_noDelimiter h name version

theorem CredDefParts.pieces_noDelimiter {p : CredDefParts} (hdid : p.did.Simple)
    (hschema : p.schema.Simple) :
    NoDelimiter p.pieces := by
  have htag : NoDelimiter (if p.tag.text = "" then [] else [p.tag.text]) := by
    split
    · simp [NoDelimiter]
    · simp [NoDelimiter, p.tag.noDelimiter]
  have hrest := (SchemaRef.pieces_noDelimiter hschema).append htag
  refine (p.did.frame_noDelimiter (by decide)).append ((Did.pieces_noDelimiter hdid).append ?_)
  intro piece hmem
  rcases List.mem_cons.mp hmem with rfl | hmem
  · decide
  rcases List.mem_cons.mp hmem with rfl | hmem
  · exact p.signatureType.noDelimiter
  · exact hrest piece hmem

theorem splitOn_intercalate {pieces : List String} (h : NoDelimiter pieces) (hne : pieces ≠ []) :
    ((delimiter.intercalate pieces).toList.splitOn ':').map String.ofList = pieces := by
  have hdelimiter : delimiter.toList = [':'] := by decide
  have hparts : ∀ part ∈ pieces.map String.toList, ':' ∉ part := by simpa [NoDelimiter] using h
  rw [String.toList_intercalate, hdelimiter,
    List.splitOn_intercalate ':' hparts (by simpa using hne), List.map_map]
  simp [Function.comp_def]

/-- An empty last piece is lost. -/
theorem splitTerminator_intercalate {pieces : List String} (h : NoDelimiter pieces)
    (hne : pieces ≠ []) :
    splitTerminator (delimiter.intercalate pieces) =
      if pieces.getLast? = some "" then pieces.dropLast else pieces := by
  unfold splitTerminator
  rw [splitOn_intercalate h hne]

theorem splitTerminator_noDelimiter (s : String) : NoDelimiter (splitTerminator s) := by
  have hall : NoDelimiter ((s.toList.splitOn ':').map String.ofList) := by
    intro piece hmem
    obtain ⟨part, hpart, rfl⟩ := List.mem_map.mp hmem
    rw [String.toList_ofList]
    exact notMem_of_mem_splitOn hpart
  unfold splitTerminator
  simp only
  split
  · exact fun piece hmem => hall piece ((List.dropLast_sublist _).subset hmem)
  · exact hall

theorem count_intercalate {pieces : List String} (h : NoDelimiter pieces) :
    (delimiter.intercalate pieces).toList.count ':' = pieces.length - 1 := by
  have hdelimiter : delimiter.toList = [':'] := by decide
  induction pieces with
  | nil => rfl
  | cons piece pieces ih =>
    have hpiece : piece.toList.count ':' = 0 := List.count_eq_zero.mpr (h piece (by simp))
    cases pieces with
    | nil => simpa using hpiece
    | cons next rest =>
      have ih' := ih fun piece' hmem => h piece' (List.mem_cons_of_mem _ hmem)
      rw [String.intercalate_cons_cons, String.toList_append, String.toList_append,
        List.count_append, List.count_append, hpiece, ih', hdelimiter]
      simp [Nat.add_comm]

theorem count_joinParts_le {parts : List String} (h : NoDelimiter parts) (start stop : ℕ) :
    (joinParts parts start stop).toList.count ':' ≤ stop - start - 1 := by
  have hsub : NoDelimiter ((parts.take stop).drop start) := fun piece hmem =>
    h piece (List.mem_of_mem_take (List.mem_of_mem_drop hmem))
  rw [joinParts, count_intercalate hsub, List.length_drop, List.length_take]
  omega

theorem count_partAt {parts : List String} (h : NoDelimiter parts) (i : ℕ) :
    (partAt parts i).toList.count ':' = 0 := by
  rw [List.count_eq_zero, partAt, List.getD_eq_getElem?_getD]
  cases hget : parts[i]? with
  | none => simp
  | some piece => simpa using h piece (List.mem_of_getElem? hget)

end Splitting

section SchemaIds

theorem Did.count_value (did : Did) :
    did.value.value.toList.count ':' = did.main.toList.count ':' +
    if did.method.isSome then 2 else 0 := by
  unfold Did.value
  cases did.method with
  | none => simp
  | some method =>
    have hmethod : method.name.toList.count ':' = 0 := List.count_eq_zero.mpr method.noDelimiter
    simp [DidValue.qualify, qualify, hmethod]

theorem Did.simple_iff (did : Did) : did.Simple ↔ did.value.value.toList.count ':' ≤ 2 := by
  rw [did.count_value, Did.Simple, ← List.count_eq_zero]
  cases h : did.method with
  | none => simp [List.count_eq_zero.mpr (did.plain h)]
  | some method => simp

theorem count_did_of_schemaParts {id : SchemaId} {did : DidValue} {name version : String}
    (h : id.parts = some (did, name, version)) : did.value.toList.count ':' ≤ 2 := by
  have hparts := splitTerminator_noDelimiter id.value
  unfold SchemaId.parts at h
  simp only at h
  split_ifs at h
  · obtain ⟨rfl, -, -⟩ : (⟨partAt (splitTerminator id.value) 0⟩ : DidValue) = did ∧ _ ∧ _ := by
      simpa using h
    simp [count_partAt hparts]
  · obtain ⟨rfl, -, -⟩ : (⟨joinParts (splitTerminator id.value) 2 5⟩ : DidValue) = did ∧ _ ∧ _ := by
      simpa using h
    exact count_joinParts_le hparts 2 5

/-- With an empty version the identifier is a piece short. -/
theorem schemaId_parts {did : Did} (hdid : did.Simple) (name version : Component) :
    (SchemaId.new did.value name.text version.text).parts =
      if version.text = "" then none else some (did.value, name.text, version.text) := by
  have hsplit := splitTerminator_intercalate (schemaPieces_noDelimiter hdid name version) (by simp)
  rw [← schemaId_value_eq] at hsplit
  have hvalue : did.value = ⟨delimiter.intercalate did.pieces⟩ := by rw [← did.value_eq]
  unfold SchemaId.parts
  rw [hsplit, hvalue]
  unfold Did.frame Did.pieces
  by_cases hversion : version.text = ""
  · cases did.method <;> simp [hversion]
  · cases did.method <;> simp [partAt, joinParts, hversion]

/-- A schema id gives back what it was made of exactly when its DID is in three parts at most and
its version is not empty. -/
theorem schemaId_parts_iff (did : Did) (name version : Component) :
    (SchemaId.new did.value name.text version.text).parts = some
      (did.value, name.text, version.text) ↔
      did.Simple ∧ version.text ≠ "" := by
  constructor
  · intro h
    have hdid : did.Simple := did.simple_iff.mpr (count_did_of_schemaParts h)
    rw [schemaId_parts hdid] at h
    refine ⟨hdid, fun hversion => ?_⟩
    simp [hversion] at h
  · rintro ⟨hdid, hversion⟩
    rw [schemaId_parts hdid, if_neg hversion]

end SchemaIds

section CredentialDefinitionIds
variable {p : CredDefParts}

/-- The schema has a version that is not empty, if it has one. -/
def SchemaRef.Versioned : SchemaRef → Prop
  | .seqNo _ => True
  | .full _ _ version => version.text ≠ ""

theorem CredDefParts.pieces_ne_nil (p : CredDefParts) : p.pieces ≠ [] := by
  simp [CredDefParts.pieces]

theorem credDefId_split (hdid : p.did.Simple) (hschema : p.schema.Simple) :
    splitTerminator p.id.value = if p.pieces.getLast? = some "" then p.pieces.dropLast
      else p.pieces := by
  rw [p.value_eq]
  exact splitTerminator_intercalate (CredDefParts.pieces_noDelimiter hdid hschema) p.pieces_ne_nil

/-- A credential definition id gives back what it was made of, except where its last piece is lost:
without a tag after an empty version, or at a qualified DID. -/
theorem credDefId_parts (hlike : p.Like) (hdid : p.did.Simple) (hschema : p.schema.Simple)
    (htag : p.tag.text = "" → p.did.method = none ∧ p.schema.Versioned) :
    p.id.parts = some (p.did.value, p.signatureType.text, p.schema.id, p.tag.text) := by
  have hsplit := credDefId_split hdid hschema
  have hdidValue : p.did.value = ⟨delimiter.intercalate p.did.pieces⟩ := by rw [← p.did.value_eq]
  have hschemaValue : p.schema.id = ⟨delimiter.intercalate p.schema.pieces⟩ := by
    rw [← p.schema.value_eq]
  unfold CredentialDefinitionId.parts
  rw [hsplit, hdidValue, hschemaValue]
  obtain ⟨did, schema, signatureType, tag⟩ := p
  unfold CredDefParts.pieces Did.frame Did.pieces
  dsimp only at htag ⊢
  cases schema with
  | seqNo number =>
    have hnumber : number.repr ≠ "" := Nat.repr_ne_empty
    by_cases ht : tag.text = ""
    · rw [(htag ht).1]
      simp [SchemaRef.pieces, ht, hnumber, partAt]
    · cases did.method <;> simp [SchemaRef.pieces, ht, partAt, joinParts]
  | full issuer name version =>
    unfold SchemaRef.pieces Did.frame Did.pieces
    have like : issuer.method.isSome = did.method.isSome := hlike
    by_cases ht : tag.text = ""
    · obtain ⟨hplain, hversion⟩ := htag ht
      unfold SchemaRef.Versioned at hversion
      rw [hplain] at like ⊢
      cases hissuer : issuer.method with
      | some method => simp [hissuer] at like
      | none =>
        dsimp only at hversion
        simp [hissuer, ht, hversion, partAt, joinParts]
    · cases hmethod : did.method with
      | none =>
        cases hissuer : issuer.method with
        | some method => simp [hissuer, hmethod] at like
        | none => simp [hissuer, ht, partAt, joinParts]
      | some method =>
        cases hissuer : issuer.method with
        | none => simp [hissuer, hmethod] at like
        | some issuerMethod => simp [hissuer, ht, partAt, joinParts]

end CredentialDefinitionIds

section Conversions

def Did.qualified (did : Did) (method : MethodName) : Did :=
  ⟨some method, did.main, did.oneLine, by simp⟩

def Did.unqualified (did : Did) (h : did.Simple) : Did := ⟨none, did.main, did.oneLine, fun _ => h⟩

def SchemaRef.qualified (method : MethodName) : SchemaRef → SchemaRef
  | .seqNo number => .seqNo number
  | .full issuer name version => .full (issuer.qualified method) name version

def SchemaRef.unqualified : (schema : SchemaRef) → schema.Simple → SchemaRef
  | .seqNo number, _ => .seqNo number
  | .full issuer name version, h => .full (issuer.unqualified h) name version

theorem Did.qualify_value {did : Did} (hplain : did.method = none) (method : MethodName) :
    did.value.qualify method.name = (did.qualified method).value := by
  have hvalue : did.value = ⟨did.main⟩ := by
    unfold Did.value
    rw [hplain]
  rw [hvalue]
  rfl

theorem Did.toUnqualified_eq (did : Did) (h : did.Simple) :
    did.value.toUnqualified = (did.unqualified h).value :=
  did.toUnqualified_value

theorem parts_seqNo (number : ℕ) : (SchemaRef.seqNo number).id.parts = none := by
  have hnumber : NoDelimiter [number.repr] := by simpa [NoDelimiter] using repr_noDelimiter number
  have hsplit := splitTerminator_intercalate hnumber (by simp)
  rw [String.intercalate_singleton, List.getLast?_singleton, if_neg (by simp)] at hsplit
  unfold SchemaId.parts SchemaRef.id
  simp [hsplit]

theorem SchemaRef.qualify_id {did : Did} {schema : SchemaRef} (hlike : schema.Like did)
    (hplain : did.method = none) (hversion : schema.Versioned) (method : MethodName) :
    schema.id.qualify method.name = (schema.qualified method).id := by
  cases schema with
  | seqNo number =>
    unfold SchemaId.qualify
    rw [parts_seqNo]
    rfl
  | full issuer name version =>
    have hissuer : issuer.method = none := by simpa [SchemaRef.Like, hplain] using hlike
    have hparts := schemaId_parts (issuer.plain hissuer) name version
    rw [if_neg hversion] at hparts
    unfold SchemaId.qualify SchemaRef.id SchemaRef.qualified
    dsimp only
    rw [hparts]
    dsimp only
    rw [Did.qualify_value hissuer]

theorem SchemaRef.toUnqualified_id {schema : SchemaRef} (h : schema.Simple)
    (hversion : schema.Versioned) :
    schema.id.toUnqualified = (schema.unqualified h).id := by
  cases schema with
  | seqNo number =>
    unfold SchemaId.toUnqualified
    rw [parts_seqNo]
    rfl
  | full issuer name version =>
    have hparts := schemaId_parts h name version
    rw [if_neg hversion] at hparts
    unfold SchemaId.toUnqualified SchemaRef.id SchemaRef.unqualified
    dsimp only
    rw [hparts]
    dsimp only
    rw [issuer.toUnqualified_eq h]

/-- An identifier with an empty version is in no layout: it is left alone. -/
theorem SchemaRef.toUnqualified_of_not_versioned {schema : SchemaRef} (h : schema.Simple)
    (hversion : ¬ schema.Versioned) : schema.id.toUnqualified = schema.id := by
  cases schema with
  | seqNo number => exact absurd trivial hversion
  | full issuer name version =>
    have hparts := schemaId_parts h name version
    rw [if_pos (not_not.mp hversion)] at hparts
    unfold SchemaId.toUnqualified SchemaRef.id
    dsimp only
    rw [hparts]

@[simp] theorem SchemaRef.qualified_simple {schema : SchemaRef} {method : MethodName} :
    (schema.qualified method).Simple ↔ schema.Simple := by
  cases schema <;> rfl

@[simp] theorem SchemaRef.qualified_versioned {schema : SchemaRef} {method : MethodName} :
    (schema.qualified method).Versioned ↔ schema.Versioned := by
  cases schema <;> rfl

theorem SchemaRef.unqualified_simple {schema : SchemaRef} (h : schema.Simple) :
    (schema.unqualified h).Simple := by
  cases schema with
  | seqNo number => trivial
  | full issuer name version => exact h

theorem SchemaRef.unqualified_versioned {schema : SchemaRef} (h : schema.Simple)
    (hversion : schema.Versioned) :
    (schema.unqualified h).Versioned := by
  cases schema with
  | seqNo number => trivial
  | full issuer name version => exact hversion

theorem SchemaRef.qualified_like (schema : SchemaRef) (did : Did) (method : MethodName) :
    (schema.qualified method).Like (did.qualified method) := by
  cases schema <;> simp [SchemaRef.qualified, SchemaRef.Like, Did.qualified]

theorem SchemaRef.unqualified_like {schema : SchemaRef} {did : Did} (h : schema.Simple)
    (hdid : did.Simple) :
    (schema.unqualified h).Like (did.unqualified hdid) := by
  cases schema with
  | seqNo number => trivial
  | full issuer name version => rfl

def CredDefParts.qualified (p : CredDefParts) (method : MethodName) : CredDefParts :=
  ⟨p.did.qualified method, p.schema.qualified method, p.signatureType, p.tag⟩

def CredDefParts.unqualified (p : CredDefParts) (hdid : p.did.Simple) (hschema : p.schema.Simple) :
    CredDefParts :=
  ⟨p.did.unqualified hdid, p.schema.unqualified hschema, p.signatureType, p.tag⟩

theorem CredDefParts.qualify_id {p : CredDefParts} (hlike : p.Like) (hschema : p.schema.Simple)
    (hplain : p.did.method = none) (hversion : p.schema.Versioned) (method : MethodName) :
    p.id.qualify false method.name = (p.qualified method).id := by
  have hparts := credDefId_parts hlike (p.did.plain hplain) hschema fun _ => ⟨hplain, hversion⟩
  unfold CredentialDefinitionId.qualify
  rw [hparts]
  dsimp only
  rw [Did.qualify_value hplain, SchemaRef.qualify_id hlike hplain hversion]
  rfl

theorem CredDefParts.toUnqualified_id {p : CredDefParts} (hlike : p.Like) (hdid : p.did.Simple)
    (hschema : p.schema.Simple) (hversion : p.schema.Versioned)
    (htag : p.tag.text = "" → p.did.method = none) :
    p.id.toUnqualified false = (p.unqualified hdid hschema).id := by
  have hparts := credDefId_parts hlike hdid hschema fun h => ⟨htag h, hversion⟩
  unfold CredentialDefinitionId.toUnqualified
  rw [hparts]
  dsimp only
  rw [Did.toUnqualified_eq _ hdid, SchemaRef.toUnqualified_id hschema hversion]
  rfl

theorem Did.unqualified_eq_self {did : Did} (hplain : did.method = none) (h : did.Simple) :
    did.unqualified h = did := by
  unfold Did.unqualified
  cases did
  simp_all

theorem Did.qualified_unqualified {did : Did} (hplain : did.method = none) (method : MethodName)
    (h : (did.qualified method).Simple) : (did.qualified method).unqualified h = did :=
  Did.unqualified_eq_self hplain h

theorem SchemaRef.unqualified_eq_self {did : Did} {schema : SchemaRef} (hlike : schema.Like did)
    (hplain : did.method = none) (h : schema.Simple) : schema.unqualified h = schema := by
  cases schema with
  | seqNo number => rfl
  | full issuer name version =>
    have hissuer : issuer.method = none := by simpa [SchemaRef.Like, hplain] using hlike
    exact congrArg (SchemaRef.full · name version) (Did.unqualified_eq_self hissuer h)

theorem SchemaRef.qualified_unqualified {did : Did} {schema : SchemaRef} (hlike : schema.Like did)
    (hplain : did.method = none) (method : MethodName) (h : (schema.qualified method).Simple) :
    (schema.qualified method).unqualified h = schema := by
  cases schema with
  | seqNo number => rfl
  | full issuer name version =>
    have hissuer : issuer.method = none := by simpa [SchemaRef.Like, hplain] using hlike
    exact congrArg (SchemaRef.full · name version) (Did.qualified_unqualified hissuer method h)

end Conversions

section LostPieces
variable {p : CredDefParts}

theorem CredDefParts.getLast_pieces (p : CredDefParts) (htag : p.tag.text ≠ "") :
    p.pieces.getLast? ≠ some "" := by
  have hpieces : p.pieces = p.did.frame "creddef" ++
      (p.did.pieces ++ ("3" :: p.signatureType.text ::
      p.schema.pieces)) ++ [p.tag.text] := by simp [CredDefParts.pieces, htag]
  rw [hpieces, List.getLast?_concat]
  simpa using htag

theorem credDefId_splitTerminator (hdid : p.did.Simple) (hschema : p.schema.Simple)
    (htag : p.tag.text ≠ "") :
    splitTerminator p.id.value = p.pieces := by
  rw [credDefId_split hdid hschema, if_neg (p.getLast_pieces htag)]

theorem Did.length_frame_pieces (did : Did) (pre : String) :
    (did.frame pre).length + did.pieces.length = if did.method.isSome then 5 else 1 := by
  unfold Did.frame Did.pieces
  cases did.method <;> rfl

/-- With a schema id in full, the layouts differ in the two DIDs and in the tag. -/
theorem CredDefParts.length_pieces {issuer : Did} {name version : Component}
    (hp : p.schema = .full issuer name version) : p.pieces.length =
      (if p.did.method.isSome then 5 else 1) + (if issuer.method.isSome then 5 else 1) + 5 +
        if p.tag.text = "" then 0 else 1 := by
  have hdid := p.did.length_frame_pieces "creddef"
  have hissuer := issuer.length_frame_pieces "schema"
  rw [← hdid, ← hissuer, CredDefParts.pieces, hp, SchemaRef.pieces]
  by_cases htag : p.tag.text = ""
  · rw [if_pos htag, if_pos htag]
    simp only [List.length_append, List.length_cons, List.length_nil]
    omega
  · rw [if_neg htag, if_neg htag]
    simp only [List.length_append, List.length_cons, List.length_nil]
    omega

/-- A qualified DID beside a plain schema id, or the other way round, is in no layout. -/
theorem credDefId_parts_of_mixed {issuer : Did} {name version : Component} (hdid : p.did.Simple)
    (hp : p.schema = .full issuer name version) (hissuer : issuer.Simple)
    (hmixed : issuer.method.isSome ≠ p.did.method.isSome) (htag : p.tag.text ≠ "") :
    p.id.parts = none ∧ p.pieces.length = 12 := by
  have hschema : p.schema.Simple := by
    rw [hp]
    exact hissuer
  have hlength : p.pieces.length = 12 := by
    rw [CredDefParts.length_pieces hp, if_neg htag]
    cases hmethod : p.did.method.isSome <;> cases hissuerMethod : issuer.method.isSome <;> simp_all
  refine ⟨?_, hlength⟩
  unfold CredentialDefinitionId.parts
  rw [credDefId_splitTerminator hdid hschema htag]
  simp [hlength]

/-- Without a tag a qualified identifier is read in the layout of a plain one that has a schema id
and a tag. -/
theorem credDefId_parts_untagged_seqNo {method : MethodName} {number : ℕ} (hdid : p.did.Simple)
    (hp : p.schema = .seqNo number) (hmethod : p.did.method = some method)
    (htag : p.tag.text = "") :
    p.id.parts = some (⟨"creddef"⟩, "did", ⟨joinParts p.pieces 3 7⟩, number.repr) := by
  have hschema : p.schema.Simple := by
    rw [hp]
    trivial
  have hnumber : number.repr ≠ "" := Nat.repr_ne_empty
  have hpieces : p.pieces =
      ["creddef", method.name, "did", method.name, p.did.main, "3", p.signatureType.text,
      number.repr] := by
    unfold CredDefParts.pieces Did.frame Did.pieces
    simp [hmethod, hp, htag, SchemaRef.pieces]
  have hsplit : splitTerminator p.id.value = p.pieces := by
    rw [credDefId_split hdid hschema, if_neg]
    simp [hpieces, hnumber]
  unfold CredentialDefinitionId.parts
  rw [hsplit, hpieces]
  simp [partAt]

theorem credDefId_parts_untagged_full {method : MethodName} {issuer : Did}
    {name version : Component} (hlike : p.Like)
    (hdid : p.did.Simple) (hp : p.schema = .full issuer name version) (hissuer : issuer.Simple)
    (hmethod : p.did.method = some method) (htag : p.tag.text = "") :
    p.id.parts = none ∧ p.pieces.length = 15 := by
  have hschema : p.schema.Simple := by
    rw [hp]
    exact hissuer
  have hlength : p.pieces.length = 15 := by
    have hissuerMethod : issuer.method.isSome = true := by
      simpa [CredDefParts.Like, hp, SchemaRef.Like, hmethod] using hlike
    rw [CredDefParts.length_pieces hp, if_pos htag, hmethod, hissuerMethod]
    rfl
  refine ⟨?_, hlength⟩
  unfold CredentialDefinitionId.parts
  rw [credDefId_split hdid hschema]
  by_cases hlast : p.pieces.getLast? = some ""
  · simp [hlast, hlength]
  · simp [hlast, hlength]

theorem credDefId_parts_untagged_unversioned (hlike : p.Like) (hplain : p.did.method = none)
    (hschema : p.schema.Simple) (hversion : ¬ p.schema.Versioned) (htag : p.tag.text = "") :
    p.id.parts = none := by
  cases hp : p.schema with
  | seqNo number =>
    rw [hp] at hversion
    exact absurd trivial hversion
  | full issuer name version =>
    have hissuerMethod : issuer.method = none := by
      simpa [CredDefParts.Like, hp, SchemaRef.Like, hplain] using hlike
    have hempty : version.text = "" := by simpa [hp, SchemaRef.Versioned] using hversion
    have hpieces : p.pieces =
        [p.did.main, "3", p.signatureType.text, issuer.main, "2", name.text, ""] := by
      unfold CredDefParts.pieces Did.frame Did.pieces
      rw [hp, if_pos htag]
      unfold SchemaRef.pieces Did.frame Did.pieces
      simp [hplain, hissuerMethod, hempty]
    unfold CredentialDefinitionId.parts
    rw [credDefId_split (p.did.plain hplain) hschema, hpieces]
    simp

theorem CredDefParts.count_id (hdid : p.did.Simple) (hschema : p.schema.Simple) :
    p.id.value.toList.count ':' = p.pieces.length - 1 := by
  rw [p.value_eq, count_intercalate (CredDefParts.pieces_noDelimiter hdid hschema)]

/-- Made qualified and then unqualified again, an identifier without a tag is longer than it was. -/
theorem requalified_untagged_ne (hlike : p.Like) (hplain : p.did.method = none)
    (hschema : p.schema.Simple)
    (hversion : p.schema.Versioned) (htag : p.tag.text = "") (method : MethodName) :
    (p.id.qualify false method.name).toUnqualified false ≠ p.id := by
  have hdid : p.did.Simple := p.did.plain hplain
  have hcount := CredDefParts.count_id hdid hschema
  rw [CredDefParts.qualify_id hlike hschema hplain hversion]
  intro heq
  rw [← heq] at hcount
  cases hp : p.schema with
  | seqNo number =>
    have hq : (p.qualified method).schema = .seqNo number := by
      simp [CredDefParts.qualified, SchemaRef.qualified, hp]
    have hparts := credDefId_parts_untagged_seqNo (p := p.qualified method) hdid hq rfl htag
    have hlength : p.pieces.length = 4 := by
      unfold CredDefParts.pieces Did.frame Did.pieces
      simp [hplain, hp, htag, SchemaRef.pieces]
    unfold CredentialDefinitionId.toUnqualified at hcount
    rw [hparts, hlength] at hcount
    have hmethod : DidValue.getMethod (DidValue.toUnqualified ⟨"creddef"⟩) = none := by decide
    have hvalue : (DidValue.toUnqualified ⟨"creddef"⟩).value = "creddef" := by decide
    dsimp only at hcount
    unfold CredentialDefinitionId.new at hcount
    rw [hmethod, hvalue] at hcount
    have hnumber : number.repr ≠ "" := Nat.repr_ne_empty
    simp [CredentialDefinitionId.marker, delimiter, hnumber] at hcount
  | full issuer name version =>
    have hissuer : issuer.Simple := by simpa [hp, SchemaRef.Simple] using hschema
    have hissuerMethod : issuer.method = none := by
      simpa [CredDefParts.Like, hp, SchemaRef.Like, hplain] using hlike
    have hq : (p.qualified method).schema = .full (issuer.qualified method) name version := by
      simp [CredDefParts.qualified, SchemaRef.qualified, hp]
    have hqschema : (p.qualified method).schema.Simple := by
      rw [hq]
      exact hissuer
    have hqlike : (p.qualified method).Like := by
      rw [CredDefParts.Like, hq]
      rfl
    obtain ⟨hparts, hlength⟩ := credDefId_parts_untagged_full hqlike hdid hq hissuer rfl htag
    have hplength : p.pieces.length = 7 := by
      rw [CredDefParts.length_pieces hp, if_pos htag, hplain, hissuerMethod]
      rfl
    unfold CredentialDefinitionId.toUnqualified at hcount
    rw [hparts, hplength] at hcount
    dsimp only at hcount
    rw [CredDefParts.count_id (p := p.qualified method) hdid hqschema, hlength] at hcount
    omega

/-- With an empty version only the DID is made qualified, and the two stay as they are. -/
theorem requalified_unversioned_ne (hlike : p.Like) (hplain : p.did.method = none)
    (hschema : p.schema.Simple)
    (hversion : ¬ p.schema.Versioned) (htag : p.tag.text ≠ "") (method : MethodName) :
    (p.id.qualify false method.name).toUnqualified false ≠ p.id := by
  have hdid : p.did.Simple := p.did.plain hplain
  cases hp : p.schema with
  | seqNo number =>
    rw [hp] at hversion
    exact absurd trivial hversion
  | full issuer name version =>
    have hissuer : issuer.Simple := by simpa [hp, SchemaRef.Simple] using hschema
    have hissuerMethod : issuer.method = none := by
      simpa [CredDefParts.Like, hp, SchemaRef.Like, hplain] using hlike
    have hempty : version.text = "" := by simpa [hp, SchemaRef.Versioned] using hversion
    have hkept : p.schema.id.qualify method.name = p.schema.id := by
      have hnone := schemaId_parts hissuer name version
      rw [if_pos hempty] at hnone
      rw [hp]
      unfold SchemaId.qualify SchemaRef.id
      dsimp only
      rw [hnone]
    let q : CredDefParts := ⟨p.did.qualified method, p.schema, p.signatureType, p.tag⟩
    have hqualify : p.id.qualify false method.name = q.id := by
      have hparts := credDefId_parts hlike hdid hschema fun h => absurd h htag
      unfold CredentialDefinitionId.qualify
      rw [hparts]
      dsimp only
      rw [hkept, Did.qualify_value hplain]
      rfl
    obtain ⟨hparts, hlength⟩ := credDefId_parts_of_mixed (p := q) hdid hp hissuer
      (by simp [hissuerMethod, q, Did.qualified]) htag
    have hplength : p.pieces.length = 8 := by
      rw [CredDefParts.length_pieces hp, if_neg htag, hplain, hissuerMethod]
      rfl
    have hcount := CredDefParts.count_id hdid hschema
    intro heq
    rw [hqualify] at heq
    unfold CredentialDefinitionId.toUnqualified at heq
    rw [hparts] at heq
    dsimp only at heq
    rw [← heq, CredDefParts.count_id (p := q) hdid hschema, hlength, hplength] at hcount
    omega

end LostPieces

section RoundTrip

/-- What a schema id is expected to give back. -/
structure SchemaIdRoundTrip (did : Did) (name version : Component) : Prop where
  parts : (SchemaId.new did.value name.text version.text).parts = some
    (did.value, name.text, version.text)
  requalified : did.method = none → ∀ method : MethodName,
    ((SchemaId.new did.value name.text version.text).qualify method.name).toUnqualified =
      .new did.value name.text version.text
  idempotent : (SchemaId.new did.value name.text version.text).toUnqualified.toUnqualified =
    (SchemaId.new did.value name.text version.text).toUnqualified

/-- What a credential definition id is expected to give back. -/
structure CredDefIdRoundTrip (p : CredDefParts) : Prop where
  parts : p.id.parts = some (p.did.value, p.signatureType.text, p.schema.id, p.tag.text)
  requalified : p.did.method = none → ∀ method : MethodName,
    (p.id.qualify false method.name).toUnqualified false = p.id
  idempotent : (p.id.toUnqualified false).toUnqualified false = p.id.toUnqualified false

theorem schemaId_roundTrip_iff (did : Did) (name version : Component) :
    SchemaIdRoundTrip did name version ↔ did.Simple ∧ version.text ≠ "" := by
  constructor
  · intro h
    exact (schemaId_parts_iff did name version).mp h.parts
  · rintro ⟨hdid, hversion⟩
    have hlike : (SchemaRef.full did name version).Like did := rfl
    have hsimple : (SchemaRef.full did name version).Simple := hdid
    have hversioned : (SchemaRef.full did name version).Versioned := hversion
    have hunqualified := SchemaRef.toUnqualified_id hsimple hversioned
    refine ⟨(schemaId_parts_iff did name version).mpr ⟨hdid, hversion⟩, fun hplain method => ?_, ?_⟩
    · have hqualify := SchemaRef.qualify_id hlike hplain hversioned method
      have hsimple' : ((SchemaRef.full did name version).qualified method).Simple := hdid
      have hback := SchemaRef.toUnqualified_id hsimple' hversioned
      rw [SchemaRef.qualified_unqualified hlike hplain] at hback
      unfold SchemaRef.id at hqualify hback
      dsimp only at hqualify hback
      rw [hqualify]
      exact hback
    · have hagain : ((SchemaRef.full did name version).unqualified hsimple).id.toUnqualified =
          ((SchemaRef.full did name version).unqualified hsimple).id :=
        @SchemaRef.toUnqualified_id ((SchemaRef.full did name version).unqualified hsimple)
          hdid hversion
      change ((SchemaRef.full did name version).id.toUnqualified).toUnqualified = _
      rw [hunqualified, hagain]
      exact hunqualified.symm

theorem count_of_credDefParts {id : CredentialDefinitionId} {did : DidValue}
    {signatureType tag : String}
    {schema : SchemaId} (h : id.parts = some (did, signatureType, schema, tag)) :
    did.value.toList.count ':' ≤ 2 ∧ schema.value.toList.count ':' ≤ 7 := by
  have hparts := splitTerminator_noDelimiter id.value
  have hpart := count_partAt hparts
  have hjoin := count_joinParts_le hparts
  unfold CredentialDefinitionId.parts at h
  simp only at h
  split_ifs at h <;>
  · simp only [Option.some.injEq, Prod.mk.injEq] at h
    obtain ⟨rfl, -, rfl, -⟩ := h
    simp [hpart, hjoin, (hjoin _ _).trans]

theorem SchemaRef.simple_of_count {schema : SchemaRef} (h : schema.id.value.toList.count ':' ≤ 7) :
    schema.Simple := by
  cases schema with
  | seqNo number => trivial
  | full issuer name version =>
    have hname : name.text.toList.count ':' = 0 := List.count_eq_zero.mpr name.noDelimiter
    have hversion : version.text.toList.count ':' = 0 := List.count_eq_zero.mpr version.noDelimiter
    have hdid := issuer.count_value
    have hsimple : issuer.main.toList.count ':' = 0 → issuer.Simple := List.count_eq_zero.mp
    unfold SchemaRef.id SchemaId.new at h
    dsimp only at h
    rw [issuer.getMethod_value] at h
    cases hmethod : issuer.method with
    | none => exact issuer.plain hmethod
    | some method =>
      have hmethodName : method.name.toList.count ':' = 0 :=
        List.count_eq_zero.mpr method.noDelimiter
      rw [hmethod] at h hdid
      simp [qualify, delimiter, SchemaId.marker, hname, hversion, hmethodName, hdid] at h
      exact hsimple (by omega)

variable {p : CredDefParts}

theorem requalified_eq (hlike : p.Like) (hdid : p.did.Simple) (hschema : p.schema.Simple)
    (htag : p.tag.text ≠ "")
    (hplain : p.did.method = none) (hversioned : p.schema.Versioned) (method : MethodName) :
    (p.id.qualify false method.name).toUnqualified false = p.id := by
  have hqschema : (p.qualified method).schema.Simple := SchemaRef.qualified_simple.mpr hschema
  have hqversion : (p.qualified method).schema.Versioned :=
    SchemaRef.qualified_versioned.mpr hversioned
  rw [CredDefParts.qualify_id hlike hschema hplain hversioned,
    CredDefParts.toUnqualified_id (p := p.qualified method)
    (p.schema.qualified_like p.did method) hdid hqschema
      hqversion fun h => absurd h htag]
  have hdidBack : (p.did.qualified method).unqualified hdid = p.did :=
    Did.qualified_unqualified hplain method hdid
  have hschemaBack := SchemaRef.qualified_unqualified hlike hplain method hqschema
  unfold CredDefParts.unqualified CredDefParts.id CredDefParts.qualified
  dsimp only
  rw [hdidBack, hschemaBack]

theorem toUnqualified_idempotent (hlike : p.Like) (hdid : p.did.Simple) (hschema : p.schema.Simple)
    (htag : p.tag.text ≠ "") (hversioned : p.schema.Versioned) :
    (p.id.toUnqualified false).toUnqualified false = p.id.toUnqualified false := by
  have hagain := CredDefParts.toUnqualified_id (p := p.unqualified hdid hschema)
    (SchemaRef.unqualified_like hschema hdid) hdid (SchemaRef.unqualified_simple hschema)
    (SchemaRef.unqualified_versioned hschema hversioned) fun h => absurd h htag
  rw [CredDefParts.toUnqualified_id hlike hdid hschema hversioned fun h => absurd h htag, hagain]
  have hschemaSame := SchemaRef.unqualified_eq_self (SchemaRef.unqualified_like hschema hdid) rfl
    (SchemaRef.unqualified_simple hschema)
  have hdidSame := @Did.unqualified_eq_self (p.did.unqualified hdid) rfl hdid
  unfold CredDefParts.unqualified CredDefParts.id
  dsimp only
  rw [hdidSame, hschemaSame]

/-- With an empty version only the DID is made unqualified, and what is left has no parts any
more. -/
theorem toUnqualified_idempotent_unversioned (hlike : p.Like) (hdid : p.did.Simple)
    (hschema : p.schema.Simple) (htag : p.tag.text ≠ "") (hqualified : p.did.method.isSome = true)
    (hversion : ¬ p.schema.Versioned) :
    (p.id.toUnqualified false).toUnqualified false = p.id.toUnqualified false := by
  cases hp : p.schema with
  | seqNo number =>
    rw [hp] at hversion
    exact absurd trivial hversion
  | full issuer name version =>
    have hissuer : issuer.Simple := by simpa [hp, SchemaRef.Simple] using hschema
    have hissuerMethod : issuer.method.isSome = true := by
      rw [CredDefParts.Like, hp] at hlike
      exact hlike.trans hqualified
    have hparts := credDefId_parts hlike hdid hschema fun h => absurd h htag
    let q : CredDefParts := ⟨p.did.unqualified hdid, p.schema, p.signatureType, p.tag⟩
    have hq : p.id.toUnqualified false = q.id := by
      unfold CredentialDefinitionId.toUnqualified
      rw [hparts]
      dsimp only
      rw [Did.toUnqualified_eq _ hdid, SchemaRef.toUnqualified_of_not_versioned hschema hversion]
      rfl
    obtain ⟨hnone, -⟩ := credDefId_parts_of_mixed (p := q) hdid hp hissuer
      (by simp [hissuerMethod, q, Did.unqualified]) htag
    rw [hq]
    unfold CredentialDefinitionId.toUnqualified
    rw [hnone]

theorem credDefId_roundTrip_of (hlike : p.Like) (hdid : p.did.Simple) (hschema : p.schema.Simple)
    (htag : p.tag.text ≠ "") (hversion : p.did.method = none → p.schema.Versioned) :
    CredDefIdRoundTrip p := by
  refine ⟨credDefId_parts hlike hdid hschema fun h => absurd h htag, fun hplain method => ?_, ?_⟩
  · exact requalified_eq hlike hdid hschema htag hplain (hversion hplain) method
  · by_cases hversioned : p.schema.Versioned
    · exact toUnqualified_idempotent hlike hdid hschema htag hversioned
    · have hqualified : p.did.method.isSome = true := by
        rw [Option.isSome_iff_ne_none]
        exact fun hplain => hversioned (hversion hplain)
      exact toUnqualified_idempotent_unversioned hlike hdid hschema htag hqualified hversioned

theorem credDefId_roundTrip_iff (hlike : p.Like) : CredDefIdRoundTrip p ↔
    p.did.Simple ∧ p.schema.Simple ∧ p.tag.text ≠ "" ∧
    (p.did.method = none → p.schema.Versioned) := by
  constructor
  · intro h
    obtain ⟨hdidCount, hschemaCount⟩ := count_of_credDefParts h.parts
    have hdid : p.did.Simple := p.did.simple_iff.mpr hdidCount
    have hschema : p.schema.Simple := SchemaRef.simple_of_count hschemaCount
    have hmethod : MethodName := ⟨"sov", by decide, List.all_eq_true.mp (by decide)⟩
    have htag : p.tag.text ≠ "" := by
      intro htag
      cases hplain : p.did.method with
      | none =>
        by_cases hversion : p.schema.Versioned
        · exact requalified_untagged_ne hlike hplain hschema hversion htag hmethod
            (h.requalified hplain hmethod)
        · have hexact := h.parts
          rw [credDefId_parts_untagged_unversioned hlike hplain hschema hversion htag] at hexact
          cases hexact
      | some method =>
        have hexact := h.parts
        cases hp : p.schema with
        | seqNo number =>
          rw [credDefId_parts_untagged_seqNo hdid hp hplain htag] at hexact
          have hnumber : number.repr ≠ "" := Nat.repr_ne_empty
          simp [htag, hnumber] at hexact
        | full issuer name version =>
          have hissuer : issuer.Simple := by simpa [hp, SchemaRef.Simple] using hschema
          rw [(credDefId_parts_untagged_full hlike hdid hp hissuer hplain htag).1] at hexact
          cases hexact
    refine ⟨hdid, hschema, htag, fun hplain => ?_⟩
    by_contra hversion
    exact requalified_unversioned_ne hlike hplain hschema hversion htag hmethod
      (h.requalified hplain hmethod)
  · rintro ⟨hdid, hschema, htag, hversion⟩
    exact credDefId_roundTrip_of hlike hdid hschema htag hversion

/-- When identifiers give back what they were made of, and survive being made qualified and
unqualified again. -/
theorem identifiers_roundTrip_iff (did : Did) (name version : Component) (p : CredDefParts) :
    (SchemaIdRoundTrip did name version ↔ did.Simple ∧ version.text ≠ "") ∧
    (p.Like → (CredDefIdRoundTrip p ↔
      p.did.Simple ∧ p.schema.Simple ∧ p.tag.text ≠ "" ∧
      (p.did.method = none → p.schema.Versioned))) :=
  ⟨schemaId_roundTrip_iff did name version, fun hlike => credDefId_roundTrip_iff hlike⟩

def sovrin : MethodName := ⟨"sov", by decide, List.all_eq_true.mp (by decide)⟩

theorem sampleMain_oneLine : '\n' ∉ "NcYxiDXkpYi6ov5FcYDi1e".toList := by decide

theorem sampleMain_simple : ':' ∉ "NcYxiDXkpYi6ov5FcYDi1e".toList := by decide

theorem sampleMain_plain : (none : Option MethodName) = none →
    ':' ∉ "NcYxiDXkpYi6ov5FcYDi1e".toList := fun _ =>
  sampleMain_simple

theorem sovrin_plain : some sovrin = none → ':' ∉ "NcYxiDXkpYi6ov5FcYDi1e".toList := by simp

theorem sampleName_noDelimiter : ':' ∉ "gvt".toList := by decide

theorem sampleVersion_noDelimiter : ':' ∉ "1.0".toList := by decide

theorem sampleVersion_ne_empty : "1.0" ≠ "" := by decide

theorem sampleSignature_noDelimiter : ':' ∉ "CL".toList := by decide

theorem sampleTag_noDelimiter : ':' ∉ "tag".toList := by decide

/-- Schema 1 and no tag, at `did:sov:NcYxiDXkpYi6ov5FcYDi1e`. -/
def untaggedParts : CredDefParts :=
  ⟨⟨some sovrin, "NcYxiDXkpYi6ov5FcYDi1e", sampleMain_oneLine, sovrin_plain⟩, .seqNo 1,
    ⟨"CL", sampleSignature_noDelimiter⟩, ⟨"", by decide⟩⟩

theorem identifiers_roundTrip_iff_untagged :
    untaggedParts.Like ∧ (CredDefIdRoundTrip untaggedParts ↔
    untaggedParts.did.Simple ∧ untaggedParts.schema.Simple ∧ untaggedParts.tag.text ≠ "" ∧
      (untaggedParts.did.method = none → untaggedParts.schema.Versioned)) :=
  ⟨trivial, (identifiers_roundTrip_iff untaggedParts.did ⟨"name", by decide⟩
    ⟨"1.0", by decide⟩ untaggedParts).2 trivial⟩

/-- The tag of this identifier comes back as the schema's number, and its DID as `creddef`. -/
theorem untagged_not_roundTrip : untaggedParts.Like ∧ ¬ CredDefIdRoundTrip untaggedParts ∧
    untaggedParts.id.parts = some
      (⟨"creddef"⟩, "did", ⟨"sov:NcYxiDXkpYi6ov5FcYDi1e:3:CL"⟩, "1") := by
  have hparts : untaggedParts.id.parts = some
      (⟨"creddef"⟩, "did", ⟨"sov:NcYxiDXkpYi6ov5FcYDi1e:3:CL"⟩, "1") := by
    decide
  refine ⟨trivial, fun h => ?_, hparts⟩
  have hexact := h.parts
  rw [hparts] at hexact
  simp [untaggedParts] at hexact

end RoundTrip

end SimpleAsset.Indy.Anoncreds
