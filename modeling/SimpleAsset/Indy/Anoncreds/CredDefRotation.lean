import SimpleAsset.Indy.Anoncreds.CredDefDesk

/-! The keys of credential definitions stay together, and a rotation puts in force what was told of
it, in every order of commands and generated keys. -/
namespace SimpleAsset.Indy.IssuerCommandExecutor
open SimpleAsset.Library Wallet Wallet.WalletService
open Anoncreds (CredentialDefinitionId)

section Histories
variable {K : ClKeys}

variable (J : IssuerSerde K) (like : String → String → Bool)

def afterIssuerEvents (m : RecordMap) (events : List (IssuerEvent K)) : Executor K :=
  events.foldl (Executor.step J like) (.new m)

/-- No record of a credential definition is there yet. -/
def NoDefinitions (m : RecordMap) : Prop :=
  ∀ part name, part ≠ .schema → m.lookup (partKey part name) = none

variable {G : GeneratedKeys K → Prop} {J like} {desk desk' : Desk K} {m : RecordMap}
    {s : Executor K}
  {events : List (IssuerEvent K)} {name : String} {id : CredentialDefinitionId} {json : String}

/-- What every change keeps holds after any events. -/
theorem run_induction (like : String → String → Bool) {P : Desk K → List (Told K) → Prop}
    (hchange : ∀ desk desk' told new,
      (∀ name d, desk name = some d → d.Valid G name) → Change J desk desk' new → P desk told →
        P desk' (told ++ new))
    (h : Orderly G J desk s) (hP : P desk (s.told.map Prod.snd))
    (hgood : ∀ e ∈ events, GoodKeys G e) :
    ∃ desk', Orderly G J desk' (events.foldl (Executor.step J like) s) ∧
      P desk' ((events.foldl (Executor.step J like) s).told.map Prod.snd) := by
  induction events generalizing desk s with
  | nil => exact ⟨desk, h, hP⟩
  | cons e events ih =>
    obtain ⟨desk', told, hstep, htold, h'⟩ := advances_step like h e (hgood e List.mem_cons_self)
    refine ih h' ?_ fun e' he' => hgood e' (List.mem_cons_of_mem _ he')
    rw [htold, List.map_append]
    exact hchange desk desk' _ _ h.valid hstep hP

theorem orderly_new (h0 : NoDefinitions m) : Orderly G J (fun _ => none) (.new m) where
  stores name := ⟨h0 _ _ (by decide), h0 _ _ (by decide), h0 _ _ (by decide), h0 _ _ (by decide),
    h0 _ _ (by decide)⟩
  valid name d h := by cases h
  rotations cbId p h := by cases h

variable (J G) in
/-- The records under a name are of one definition, and the keys in them belong together. -/
structure KeysMatch (m : RecordMap) (name : String) : Prop where
  privateKey : partKey .privateKey name ∈ m ↔ partKey .credDef name ∈ m
  correctnessProof : partKey .correctnessProof name ∈ m ↔ partKey .credDef name ∈ m
  current : partKey .credDef name ∈ m → ∃ credDef privateKey correctnessProof,
    object J.credDefType m name = some credDef ∧ object J.privateKeyType m name = some privateKey ∧
      object J.correctnessProofType m name = some correctnessProof ∧ credDef.id.value = name ∧
      G ⟨credDef.value, privateKey.value, correctnessProof.value⟩
  prepared : partKey .temporary name ∈ m →
    ∃ credDef temporary, object J.credDefType m name = some credDef ∧
    object J.temporaryType m name = some temporary ∧ temporary.credDef.identity = credDef.identity ∧
    G temporary.keys

theorem Orderly.keysMatch (h : Orderly G J desk s) (name : String) :
    KeysMatch J G s.wallet name := by
  have hstores := h.stores name
  rcases hdesk : desk name with _ | d
  · rw [hdesk] at hstores
    have hcredDef : partKey .credDef name ∉ s.wallet := Finmap.lookup_eq_none.mp hstores.credDef
    have htemporary : partKey .temporary name ∉ s.wallet :=
      Finmap.lookup_eq_none.mp hstores.temporary
    exact ⟨iff_of_false (Finmap.lookup_eq_none.mp hstores.privateKey) hcredDef,
      iff_of_false (Finmap.lookup_eq_none.mp hstores.correctnessProof) hcredDef,
      fun hmem => absurd hmem hcredDef, fun hmem => absurd hmem htemporary⟩
  · rw [hdesk] at hstores
    have hvalid := h.valid name d hdesk
    have hcredDef : partKey .credDef name ∈ s.wallet := Finmap.mem_iff.mpr ⟨_, hstores.credDef⟩
    have hobject : object J.credDefType s.wallet name = some d.credDef :=
      object_of_lookup hstores.credDef rfl
    refine ⟨iff_of_true (Finmap.mem_iff.mpr ⟨_, hstores.privateKey⟩) hcredDef,
      iff_of_true (Finmap.mem_iff.mpr ⟨_, hstores.correctnessProof⟩) hcredDef, fun _ =>
        ?_, fun hmem => ?_⟩
    · exact ⟨d.credDef, d.privateKey, d.correctnessProof, hobject,
        object_of_lookup hstores.privateKey rfl,
        object_of_lookup hstores.correctnessProof rfl, hvalid.id, hvalid.keys⟩
    · obtain ⟨entry, hentry⟩ := Finmap.mem_iff.mp hmem
      have hlookup := hstores.temporary
      rw [hentry, Option.bind_some] at hlookup
      obtain ⟨t, hnext, -⟩ := Option.map_eq_some_iff.mp hlookup.symm
      obtain ⟨hidentity, hkeys⟩ := hvalid.next t hnext
      rw [← hentry, hnext] at hlookup
      exact ⟨d.credDef, t, hobject, object_of_lookup hlookup rfl, hidentity, hkeys⟩

/-- In every run all records of a definition are there or none, and its keys are of one
generation. -/
theorem keysMatch_afterIssuerEvents (h0 : NoDefinitions m) (hgood : ∀ e ∈ events, GoodKeys G e)
    (name : String) :
    KeysMatch J G (afterIssuerEvents J like m events).wallet name := by
  obtain ⟨desk, horderly, -⟩ :=
    run_induction like (P := fun _ _ => True) (fun _ _ _ _ _ _ _ => trivial)
    (orderly_new h0) trivial hgood
  exact horderly.keysMatch name

/-- A definition stays, with all that it is besides its keys. -/
theorem Change.identity {new : List (Told K)} (h : Change J desk desk' new)
    (hvalid : ∀ name d, desk name = some d → d.Valid G name) {d : Definition K}
    (hd : desk name = some d) :
    ∃ d', desk' name = some d' ∧ d'.credDef.identity = d.credDef.identity := by
  cases h with
  | nothing | failed | found | offered | told => exact ⟨d, hd, rfl⟩
  | created id d' hnew hnext =>
    have hne : name ≠ id.value := by
      rintro rfl
      rw [hnew] at hd
      cases hd
    exact ⟨d, (Function.update_of_ne hne _ _).trans hd, rfl⟩
  | prepared id d' t hd' hnext =>
    by_cases hname : name = id.value
    · subst hname
      rw [hd', Option.some.injEq] at hd
      exact ⟨_, Function.update_self _ _ _, by rw [hd]⟩
    · exact ⟨d, (Function.update_of_ne hname _ _).trans hd, rfl⟩
  | applied id d' t hd' hnext =>
    by_cases hname : name = id.value
    · subst hname
      have hidentity := ((hvalid _ d' hd').next t hnext).1
      rw [hd', Option.some.injEq] at hd
      exact ⟨_, Function.update_self _ _ _, by rw [← hd]; exact hidentity⟩
    · exact ⟨d, (Function.update_of_ne hname _ _).trans hd, rfl⟩

theorem Orderly.of_object (h : Orderly G J desk s) {credDef : CredentialDefinitionV1 K}
    (hobject : object J.credDefType s.wallet name = some credDef) :
    ∃ d, desk name = some d ∧ d.credDef = credDef := by
  have hlookup : s.wallet.lookup (keyOf J.credDefType name) = _ := (h.stores name).credDef
  rcases hdesk : desk name with _ | d
  · rw [object, hlookup, hdesk] at hobject
    cases hobject
  · rw [hdesk] at hlookup
    have hd : object J.credDefType s.wallet name = some d.credDef := object_of_lookup hlookup rfl
    exact ⟨d, rfl, Option.some.inj (hd.symm.trans hobject)⟩

theorem goodKeys_true (e : IssuerEvent K) : GoodKeys (fun _ => True) e := by
  cases e with
  | createCredDefContinue _ result | rotateStartComplete _ result => cases result <;> trivial
  | createCredDef | rotateStart | rotateApply | createCredentialOffer | wallet => trivial

/-- Whatever is done, a credential definition keeps its id, schema, type and tag. -/
theorem identity_stays (h0 : NoDefinitions m) (later : List (IssuerEvent K))
    {credDef : CredentialDefinitionV1 K} (hobject : object J.credDefType
      (afterIssuerEvents J like m events).wallet name = some credDef) :
    ∃ credDef', object J.credDefType (afterIssuerEvents J like m (events ++ later)).wallet name =
      some credDef' ∧
      credDef'.identity = credDef.identity := by
  obtain ⟨desk, horderly, -⟩ :=
    run_induction like (P := fun _ _ => True) (fun _ _ _ _ _ _ _ => trivial)
    (orderly_new (G := fun _ => True) h0) trivial fun e _ => goodKeys_true e
  obtain ⟨d, hd, rfl⟩ := horderly.of_object hobject
  let P : Desk K → List (Told K) → Prop := fun desk _ =>
    ∃ d', desk name = some d' ∧ d'.credDef.identity = d.credDef.identity
  have hchange : ∀ desk desk' told new,
      (∀ name d, desk name = some d → d.Valid (fun _ => True) name) →
      Change J desk desk' new → P desk told → P desk' (told ++ new) := by
    rintro desk desk' told new hvalid hchange ⟨d', hd', hidentity⟩
    obtain ⟨d'', hd'', hidentity'⟩ := hchange.identity hvalid hd'
    exact ⟨d'', hd'', hidentity'.trans hidentity⟩
  obtain ⟨desk', horderly', d', hd', hidentity⟩ := run_induction like hchange horderly ⟨d, hd, rfl⟩
    fun e _ => goodKeys_true e
  rw [afterIssuerEvents, List.foldl_append]
  refine ⟨d'.credDef, ?_, hidentity⟩
  have hstores := horderly'.stores name
  rw [hd'] at hstores
  exact object_of_lookup hstores.credDef rfl

/-- A rotation that was told of and not applied is prepared, and nothing else was told of since. -/
def Announced (J : IssuerSerde K) (desk : Desk K) (told : List (Told K)) : Prop :=
  ∀ id json before after, told = before ++ .rotationStarted id json :: after →
    .rotationApplied id ∉ after →
    (∀ json', .rotationStarted id json' ∈ after → json' = json) ∧
      ∃ d t, desk id.value = some d ∧ d.next = some t ∧ J.credDef.toJson t.credDef = json

/-- What is prepared stays so until it is applied, and it is what is told of. -/
theorem Change.keeps_next {new : List (Told K)} (h : Change J desk desk' new) {d : Definition K}
    {t : TemporaryCredentialDefinition K} (hd : desk id.value = some d) (hnext : d.next = some t)
    (hnot : .rotationApplied id ∉ new) :
    desk' id.value = some d ∧ ∀ json, .rotationStarted id json ∈ new →
      json = J.credDef.toJson t.credDef := by
  cases h with
  | nothing | failed | found | offered => exact ⟨hd, by simp⟩
  | told id' d' t' hd' hnext' =>
    refine ⟨hd, ?_⟩
    intro json hjson
    obtain ⟨rfl, rfl⟩ := Told.rotationStarted.inj (List.mem_singleton.mp hjson)
    rw [hd, Option.some.injEq] at hd'
    rw [← hd', hnext, Option.some.injEq] at hnext'
    rw [hnext']
  | created id' d' hnew hnone =>
    have hne : id.value ≠ id'.value := by
      intro heq
      rw [heq, hnew] at hd
      cases hd
    exact ⟨(Function.update_of_ne hne _ _).trans hd, by simp⟩
  | prepared id' d' t' hd' hnone =>
    have hne : id.value ≠ id'.value := by
      intro heq
      rw [heq, hd', Option.some.injEq] at hd
      rw [hd, hnext] at hnone
      cases hnone
    refine ⟨(Function.update_of_ne hne _ _).trans hd, ?_⟩
    intro json hjson
    exact absurd (congrArg CredentialDefinitionId.value
      (Told.rotationStarted.inj (List.mem_singleton.mp hjson)).1) hne
  | applied id' d' t' hd' hnext' =>
    have hne : id.value ≠ id'.value := by
      intro heq
      apply hnot
      rw [CredentialDefinitionId.ext heq]
      exact List.mem_singleton_self _
    exact ⟨(Function.update_of_ne hne _ _).trans hd, by simp⟩

/-- Who is told of a rotation can apply it. -/
theorem Change.started {new : List (Told K)} (h : Change J desk desk' new)
    (hnew : new = [.rotationStarted id json]) :
    ∃ d t, desk' id.value = some d ∧ d.next = some t ∧ J.credDef.toJson t.credDef = json := by
  cases h with
  | told id' d t hd hnext =>
    obtain ⟨rfl, rfl⟩ := Told.rotationStarted.inj (List.cons.inj hnew).1
    exact ⟨d, t, hd, hnext, rfl⟩
  | prepared id' d t hd hnext =>
    obtain ⟨rfl, rfl⟩ := Told.rotationStarted.inj (List.cons.inj hnew).1
    exact ⟨{ d with next := some t }, t, Function.update_self _ _ _, rfl, rfl⟩
  | nothing | failed | found | created | offered | applied => simp at hnew

theorem Change.length_le {new : List (Told K)} (h : Change J desk desk' new) :
    new = [] ∨ ∃ told, new = [told] := by
  cases h with
  | nothing => exact Or.inl rfl
  | _ => exact Or.inr ⟨_, rfl⟩

theorem Change.announced {told new : List (Told K)} (h : Change J desk desk' new)
    (hold : Announced J desk told) :
    Announced J desk' (told ++ new) := by
  intro id json before after heq hnot
  rcases h.length_le with rfl | ⟨last, rfl⟩
  · rw [List.append_nil] at heq
    obtain ⟨hsame, d, t, hd, hnext, hjson⟩ := hold id json before after heq hnot
    exact ⟨hsame, d, t, (h.keeps_next hd hnext (by simp)).1, hnext, hjson⟩
  · rcases List.eq_nil_or_concat' after with rfl | ⟨after, last', rfl⟩
    · obtain ⟨-, hlast⟩ := List.append_inj' heq rfl
      exact ⟨by simp, h.started hlast⟩
    · rw [← List.cons_append, ← List.append_assoc] at heq
      obtain ⟨rfl, hlast⟩ := List.append_inj' heq rfl
      obtain rfl := List.singleton_injective hlast
      rw [List.mem_append, not_or] at hnot
      obtain ⟨hsame, d, t, hd, hnext, rfl⟩ := hold id json before after rfl hnot.1
      obtain ⟨hd', htold⟩ := h.keeps_next hd hnext hnot.2
      refine ⟨?_, d, t, hd', hnext, rfl⟩
      intro json' hjson'
      exact (List.mem_append.mp hjson').elim (hsame json') (htold json')

/-- Whoever starts a rotation is told of the same keys until one applies it, and then these are in
force. -/
theorem rotation_agrees (h0 : NoDefinitions m) {before after : List (Told K)}
    (htold : (afterIssuerEvents J like m events).told.map Prod.snd = before ++
      .rotationStarted id json :: after)
    (hnot : .rotationApplied id ∉ after)
    (hdead : (afterIssuerEvents J like m events).dead = false) (cb : ℕ) :
    (∀ json', .rotationStarted id json' ∈ after → json' = json) ∧
      (afterIssuerEvents J like m (events ++ [.rotateApply id cb])).told =
        (afterIssuerEvents J like m events).told ++ [(cb, .rotationApplied id)] ∧
      ∃ credDef, object J.credDefType
        (afterIssuerEvents J like m (events ++ [.rotateApply id cb])).wallet id.value =
        some credDef ∧ J.credDef.toJson credDef = json := by
  have hnone : Announced J (fun _ => none) ((Executor.new m : Executor K).told.map Prod.snd) := by
    intro id json before after heq
    simp [Executor.new] at heq
  obtain ⟨desk, horderly, hannounced⟩ := run_induction like
    (fun _ _ _ _ _ hchange hold => hchange.announced hold)
    (orderly_new (G := fun _ => True) h0) hnone fun e _ => goodKeys_true e
  obtain ⟨hsame, d, t, hd, hnext, hjson⟩ := hannounced id json before after htold hnot
  refine ⟨hsame, ?_⟩
  have hstores := horderly.stores id.value
  rw [hd] at hstores
  obtain ⟨m', hrun, hstores', -⟩ := runOn_applyRotation hstores hnext
  have hstep : afterIssuerEvents J like m (events ++ [.rotateApply id cb]) =
      { afterIssuerEvents J like m events with wallet := m' }.tell cb (.rotationApplied id) := by
    rw [afterIssuerEvents, List.foldl_concat, Executor.step]
    refine (if_neg (Bool.eq_false_iff.mp hdead)).trans ?_
    rw [Executor.process, Executor.onWallet, hrun]
    rfl
  rw [hstep]
  exact ⟨rfl, t.credDef, object_of_lookup hstores'.credDef rfl, hjson⟩

end Histories

section Samples

/-- Texts in one text: each character is marked, and each text has an end. -/
def textOfList (texts : List String) : String :=
  String.ofList (texts.flatMap fun text => (text.toList.flatMap fun c => ['-', c]) ++ ['.'])

def readTexts : List Char → List Char → List String
  | '-' :: c :: cs, read => readTexts cs (read ++ [c])
  | '.' :: cs, read => String.ofList read :: readTexts cs []
  | _, _ => []

theorem readTexts_marked (text rest read : List Char) :
    readTexts ((text.flatMap fun c => ['-', c]) ++ '.' :: rest) read =
      String.ofList (read ++ text) :: readTexts rest [] := by
  induction text generalizing read with
  | nil => simp [readTexts]
  | cons c cs ih => simp [readTexts, ih]

theorem readTexts_textOfList (texts : List String) :
    readTexts (textOfList texts).toList [] = texts := by
  rw [textOfList, String.toList_ofList]
  induction texts with
  | nil => rfl
  | cons text texts ih =>
    rw [List.flatMap_cons, List.append_assoc, List.singleton_append, readTexts_marked, ih,
      List.nil_append, String.ofList_toList]

/-- A type whose values are lists of texts. -/
def serdeOfList {α : Type} (texts : α → List String) (mk : List String → Except String α)
    (h : ∀ a, mk (texts a) = .ok a) : Serde α where
  toJson a := textOfList (texts a)
  fromJson text := mk (readTexts text.toList [])
  fromJson_toJson a := by rw [readTexts_textOfList, h]

/-- Keys that are texts. -/
def textKeys : ClKeys := ⟨String, String, String⟩

def sampleIssuerSerde : IssuerSerde textKeys where
  schema := serdeOfList
    (fun schema => schema.id.value :: schema.name :: schema.version ::
      String.ofList ((schema.seqNo.map fun n => List.replicate n.toNat '1' ++ ['.']).getD []) ::
      schema.attrNames)
    (fun texts => match texts with
      | id :: name :: version :: seqNo :: attrNames => .ok ⟨⟨id⟩, name, version, attrNames,
          if seqNo.toList = [] then none else some (UInt32.ofNat (seqNo.toList.length - 1))⟩
      | _ => .error "")
    (by
      rintro ⟨⟨id⟩, name, version, attrNames, _ | seqNo⟩ <;> simp)
  credDef := serdeOfList (fun c => [c.id.value, c.schemaId.value, c.tag, c.value])
    (fun texts => match texts with
      | [id, schemaId, tag, value] => .ok ⟨⟨id⟩, ⟨schemaId⟩, .CL, tag, value⟩
      | _ => .error "")
    (by
      rintro ⟨id, schemaId, ⟨⟩, tag, value⟩
      rfl)
  privateKey := serdeOfList (fun k => [k.value])
    (fun texts => match texts with
      | [value] => .ok ⟨value⟩
      | _ => .error "")
    fun _ => rfl
  correctnessProof := serdeOfList (fun k => [k.value])
    (fun texts => match texts with
      | [value] => .ok ⟨value⟩
      | _ => .error "")
    fun _ => rfl
  temporary := serdeOfList
    (fun t => [t.credDef.id.value, t.credDef.schemaId.value, t.credDef.tag, t.credDef.value,
      t.credDefPrivKey.value, t.credDefCorrectnessProof.value])
    (fun texts => match texts with
      | [id, schemaId, tag, value, privateKey, proof] =>
        .ok ⟨⟨⟨id⟩, ⟨schemaId⟩, .CL, tag, value⟩, ⟨privateKey⟩, ⟨proof⟩⟩
      | _ => .error "")
    (by
      rintro ⟨⟨id, schemaId, ⟨⟩, tag, value⟩, privateKey, proof⟩
      rfl)
  signatureType _ := .ok .CL

/-- Two rotations of a definition are started at the same time; the keys of the second one come
first. -/
def racingEvents : List (IssuerEvent textKeys) :=
  [.createCredDef false ⟨"d"⟩ ⟨⟨"s"⟩, "n", "1", [], some 5⟩ "t" none none 1,
    .createCredDefContinue 1 (.ok ⟨"a", "a", "a"⟩),
    .rotateStart ⟨"d:3:CL:5:t"⟩ none 2, .rotateStart ⟨"d:3:CL:5:t"⟩ none 3,
    .rotateStartComplete 3 (.ok ⟨"b", "b", "b"⟩), .rotateStartComplete 2 (.ok ⟨"c", "c", "c"⟩)]

def racingId : CredentialDefinitionId := ⟨"d:3:CL:5:t"⟩

/-- After these events, and when the rotation is applied as well. -/
def racing : Executor textKeys := afterIssuerEvents sampleIssuerSerde maxSqlite.like ∅ racingEvents

def racingApplied : Executor textKeys :=
  afterIssuerEvents sampleIssuerSerde maxSqlite.like ∅ (racingEvents ++ [.rotateApply racingId 4])

/-- The keys of a sample are all of one letter. -/
def OneLetter (keys : GeneratedKeys textKeys) : Prop :=
  keys.privateKey = keys.data ∧ keys.correctnessProof = keys.data

theorem noDefinitions_empty : NoDefinitions ∅ := fun _ _ _ => rfl

theorem keysMatch_racing : KeysMatch sampleIssuerSerde OneLetter racing.wallet "d:3:CL:5:t" := by
  refine keysMatch_afterIssuerEvents noDefinitions_empty ?_ "d:3:CL:5:t"
  simp only [racingEvents, List.forall_mem_cons]
  exact ⟨trivial, ⟨rfl, rfl⟩, trivial, trivial, ⟨rfl, rfl⟩, ⟨rfl, rfl⟩, by simp⟩

/-- The definition of the sample with keys of a letter. -/
def sampleCredDef (letter : String) : CredentialDefinitionV1 textKeys :=
  ⟨racingId, ⟨"5"⟩, .CL, "t", letter⟩

def sampleJson (letter : String) : String := sampleIssuerSerde.credDef.toJson (sampleCredDef letter)

set_option maxRecDepth 20000 in
theorem rotation_agrees_racing : racingApplied.told = racing.told ++
    [(4, .rotationApplied racingId)] ∧
    ∃ credDef,
      object sampleIssuerSerde.credDefType racingApplied.wallet racingId.value = some credDef ∧
      sampleIssuerSerde.credDef.toJson credDef = sampleJson "b" := by
  have htold : racing.told.map Prod.snd = [.created racingId (sampleJson "a")] ++
      .rotationStarted racingId (sampleJson "b") ::
      [.failed ⟨.walletItemAlreadyExists,
        "Wallet item already exists with type: Indy::TemporaryCredentialDefinition, id: d:3:CL:5:t"⟩] := by
    rfl
  exact (rotation_agrees noDefinitions_empty htold (by simp) rfl 4).2

set_option maxRecDepth 20000 in
theorem identity_stays_racing :
    ∃ credDef, object sampleIssuerSerde.credDefType racingApplied.wallet racingId.value =
    some credDef ∧ credDef.identity = (sampleCredDef "a").identity := by
  have hcreated : object sampleIssuerSerde.credDefType racing.wallet racingId.value = some
      (sampleCredDef "a") := by rfl
  exact identity_stays noDefinitions_empty [.rotateApply racingId 4] hcreated

end Samples
end SimpleAsset.Indy.IssuerCommandExecutor
