import SimpleAsset.IndyNode.ReadRequest

/-! The key a client checks a proof against is the path the node proves. -/
namespace SimpleAsset.IndyNode
open SimpleAsset.Indy

variable {env : KeyEnv} {plenum : Plenum} {authKeys : List String} {op : Operation} {doc : Json}
    {path : Bytes}

theorem index_object (name : String) : (Json.object op).index name = op.get name := rfl

theorem marker_two (h : env.protocolVersion = 2) (old new : String) : env.marker old new = new := by
  rw [KeyEnv.marker, KeyEnv.isNode13, h]
  rfl

theorem isNode13_two (h : env.protocolVersion = 2) : env.isNode13 = false := by
  rw [KeyEnv.isNode13, h]
  rfl

/-- The key of a request of a known type. -/
theorem parseKey_of_type {type : ReadType} (hop : doc.index "operation" = .object op)
    (htype : op.lookup "type" = some (.string type.code)) :
    parseKeyFromRequestForBuiltinSp env doc.serde =
      (keySuffix env type (Json.object op).serde).bind fun suffix =>
        (keyPrefix env type (Json.object op).serde).map (· ++ asBytes suffix) := by
  have htype' : ((Json.object op).serde.index "type").asStr = some type.code := by
    rw [Json.index_serde, Json.asStr_serde, index_object, Operation.get_of_lookup htype, Json.asStr]
  simp only [parseKeyFromRequestForBuiltinSp, Json.index_serde, hop]
  rw [← Json.index_serde, htype']
  simp only [Option.bind_eq_bind, Option.bind_some, ReadType.ofCode_code, Option.pure_def,
    Option.map_eq_bind]
  rfl

theorem lookup_type {type : ReadType} {schema : List FieldSpec}
    (h : plenum.validateMessage schema op = true)
    (hfield : typeField type ∈ schema) : op.lookup "type" = some (.string type.code) := by
  obtain ⟨val, hval, hvalid⟩ := exists_lookup h hfield rfl
  have : val = .string type.code := of_decide_eq_true hvalid
  rw [← this]
  exact hval

theorem exists_string_of_required {schema : List FieldSpec} {name : String} {specific : Json → Bool}
    (h : plenum.validateMessage schema op = true)
    (hfield : ⟨name, false, plenum.validateField [.str] specific⟩ ∈ schema) :
    ∃ s, op.lookup name = some (.string s) := by
  obtain ⟨val, hval, hvalid⟩ := exists_lookup h hfield rfl
  obtain ⟨s, rfl⟩ := exists_string_of_validateField hvalid
  exact ⟨s, hval⟩

theorem exists_string_of_has {schema : List FieldSpec} {name : String} {specific : Json → Bool}
    {optional : Bool} (h : plenum.validateMessage schema op = true)
    (hfield : ⟨name, optional, plenum.validateField [.str] specific⟩ ∈ schema)
    (hhas : op.has name = true) : ∃ s, op.lookup name = some (.string s) := by
  obtain ⟨val, hval⟩ := Option.isSome_iff_exists.mp hhas
  obtain ⟨s, rfl⟩ := exists_string_of_validateField (validate_of_lookup h hfield hval)
  exact ⟨s, hval⟩

theorem asStr_get {name s : String} (h : op.lookup name = some (.string s)) :
    (op.get name).asStr = some s := by
  rw [Operation.get_of_lookup h, Json.asStr]

theorem parseKey_getNym (haccept : acceptsRead plenum authKeys .getNym op = true)
    (hop : doc.index "operation" = .object op)
    (hpath : readPath env.sha256 .getNym op = some path) :
    parseKeyFromRequestForBuiltinSp env doc.serde = some path := by
  rw [parseKey_of_type hop (lookup_type haccept (.head _))]
  obtain ⟨dest, hdest⟩ := exists_string_of_required haccept (.tail _ (.head _))
  simp only [readPath, asStr_get hdest, Option.map_some, Option.some.injEq] at hpath
  simp only [keySuffix, keyPrefix, Json.index_serde, Json.asStr_serde, index_object,
    asStr_get hdest, Option.bind_some, Option.orElse_some, Option.map_some, Option.orElse_eq_orElse]
  rw [← hpath, makeStatePathForNym, show asBytes "" = [] from rfl, List.append_nil]

theorem parseKey_getRevocRegDef (haccept : acceptsRead plenum authKeys .getRevocRegDef op = true)
    (hop : doc.index "operation" = .object op)
    (hpath : readPath env.sha256 .getRevocRegDef op = some path) :
    parseKeyFromRequestForBuiltinSp env doc.serde = some path := by
  rw [parseKey_of_type hop (lookup_type haccept (.tail _ (.head _)))]
  simp only [readPath] at hpath
  simp only [keySuffix, keyPrefix, Json.index_serde, Json.asStr_serde, index_object,
    Option.bind_some, hpath, Option.map_some]
  rw [show asBytes "" = [] from rfl, List.append_nil]

theorem parseKey_getRevocReg (hversion : env.protocolVersion = 2)
    (haccept : acceptsRead plenum authKeys .getRevocReg op = true)
    (hop : doc.index "operation" = .object op)
    (hpath : readPath env.sha256 .getRevocReg op = some path) :
    parseKeyFromRequestForBuiltinSp env doc.serde = some path := by
  rw [parseKey_of_type hop (lookup_type haccept (.tail _ (.tail _ (.head _))))]
  obtain ⟨id, hid⟩ := exists_string_of_required haccept (.head _)
  simp only [readPath, asStr_get hid, Option.map_some, Option.some.injEq] at hpath
  simp only [keySuffix, keyPrefix, Json.index_serde, Json.asStr_serde, index_object, asStr_get hid,
    marker_two hversion, Option.bind_eq_bind, Option.bind_some, Option.pure_def, Option.map_some,
    List.nil_append]
  rw [← hpath, makeStatePathForRevocRegEntryAccum]
  rfl

theorem parseKey_getSchema (hversion : env.protocolVersion = 2)
    (haccept : acceptsRead plenum authKeys .getSchema op = true)
    (hop : doc.index "operation" = .object op)
    (hpath : readPath env.sha256 .getSchema op = some path) :
    parseKeyFromRequestForBuiltinSp env doc.serde = some path := by
  rw [parseKey_of_type hop (lookup_type haccept (.head _))]
  simp only [readPath, getSchemaPath, Option.bind_eq_bind, Option.bind_eq_some_iff, Option.pure_def,
    Option.some.injEq] at hpath
  obtain ⟨dest, hdest, name, hname, version, hver, rfl⟩ := hpath
  simp only [keySuffix, keyPrefix, Json.index_serde, Json.asStr_serde, index_object, hdest,
    hname, hver,
    marker_two hversion, Option.bind_eq_bind, Option.bind_some, Option.pure_def, Option.map_some,
    Option.orElse_some, Option.orElse_eq_orElse]
  rw [makeStatePathForSchema, ← asBytes_append]
  simp only [String.append_assoc]
  rfl

/-- A rule value is a string or `None`. -/
theorem strOrEmpty_authRuleValue {name : String}
    (h : plenum.validateMessage (clientGetAuthRuleOperation plenum) op = true)
    (hfield : authRuleValueField plenum name ∈ clientGetAuthRuleOperation plenum)
    (hhas : op.has name = true) :
    strOrEmpty (op.get name) = some ((op.get name).asStr.getD "") := by
  obtain ⟨val, hval⟩ := Option.isSome_iff_exists.mp hhas
  obtain ⟨htype, -⟩ := plenum.field_passed (validate_of_lookup h hfield hval)
  simp only [List.any_cons, List.any_nil, Bool.or_false, Bool.or_eq_true] at htype
  rw [Operation.get_of_lookup hval]
  cases val with
  | null => rfl
  | string s => rfl
  | _ => simp_all [PyType.isInstance]

/-- The client's key of a rule is an action id too. -/
theorem keySuffix_getAuthRule {authType action field : String}
    (htype : op.lookup "auth_type" = some (.string authType))
    (haction : op.lookup "auth_action" = some (.string action))
    (hfield : op.lookup "field" = some (.string field)) :
    keySuffix env .getAuthRule (Json.object op).serde =
      some ("1:" ++ compileActionId authType field
        ((op.get "old_value").asStr.getD (if action = addMark then "*" else ""))
        ((op.get "new_value").asStr.getD "") action) := by
  simp only [keySuffix, Json.index_serde, Json.asStr_serde, index_object, asStr_get htype,
    asStr_get haction,
    asStr_get hfield, Option.bind_eq_bind, Option.bind_some, Option.pure_def, compileActionId_eq,
    String.append_assoc]
  rfl

theorem parseKey_getAuthRule (haccept : acceptsRead plenum authKeys .getAuthRule op = true)
    (hop : doc.index "operation" = .object op)
    (hpath : readPath env.sha256 .getAuthRule op = some path) :
    parseKeyFromRequestForBuiltinSp env doc.serde = some path := by
  simp only [acceptsRead, Bool.and_eq_true] at haccept
  obtain ⟨hschema, hstatic⟩ := haccept
  simp only [readPath, getAuthRulePath, Option.ite_none_right_eq_some, Option.map_eq_some_iff]
    at hpath
  obtain ⟨hlength, key, hkey, rfl⟩ := hpath
  rw [getAuthRuleStaticValidation, if_pos (by omega)] at hstatic
  simp only [List.all_cons, List.all_nil, Bool.and_true, Bool.and_eq_true] at hstatic
  obtain ⟨⟨-, haction, htype, hfield, hnew⟩, hcheck⟩ := hstatic
  obtain ⟨authType, hauthType⟩ := exists_string_of_has hschema (.tail _ (.tail _ (.head _))) htype
  obtain ⟨field, hfield⟩ :=
    exists_string_of_has hschema (.tail _ (.tail _ (.tail _ (.head _)))) hfield
  have hnewValue := strOrEmpty_authRuleValue hschema
    (.tail _ (.tail _ (.tail _ (.tail _ (.tail _ (.head _)))))) hnew
  obtain ⟨action, hlookup⟩ := Option.isSome_iff_exists.mp haction
  have hchoice := validate_of_lookup hschema (.tail _ (.head _)) hlookup
  simp only [chooseField, List.mem_cons, List.not_mem_nil, or_false, decide_eq_true_eq] at hchoice
  simp only [getAuthKey, asStr_get hauthType, Operation.get_of_lookup hfield,
    Operation.get_of_lookup hlookup,
    hnewValue, strOrEmpty_string, Option.bind_eq_bind, Option.bind_some, Option.pure_def] at hkey
  simp only [checkAuthKey, Operation.get_of_lookup hlookup] at hcheck
  rw [parseKey_of_type hop (lookup_type hschema (.head _))]
  obtain rfl | rfl := hchoice
  · -- Adding: the old value is not given, and both sides write an asterisk.
    have hold : op.has "old_value" = false := by
      by_contra h
      simp [Bool.eq_true_of_not_eq_false h, addMark, editMark] at hcheck
    rw [if_neg (by simp [addMark, editMark]), Option.some.injEq, AuthAction.getActionId] at hkey
    rw [keySuffix_getAuthRule hauthType hlookup hfield, if_pos rfl,
      Operation.get_of_not_has hold, ← hkey]
    rfl
  · -- Editing: the old value is given, and `None` is written as nothing.
    have hold : op.has "old_value" = true := by
      by_contra h
      simp [h, addMark, editMark] at hcheck
    have holdValue :=
      strOrEmpty_authRuleValue hschema (.tail _ (.tail _ (.tail _ (.tail _ (.head _))))) hold
    rw [if_pos rfl, holdValue, Option.bind_some, Option.some.injEq, AuthAction.getActionId] at hkey
    rw [keySuffix_getAuthRule hauthType hlookup hfield,
      if_neg (by simp [addMark, editMark]), ← hkey]
    rfl

/-- The attribute that is asked for, as the client and the node find it. -/
theorem attr_cases (hschema : plenum.validateMessage (clientGetAttribOperation plenum) op = true)
    (hset : validateFieldSet op = true) :
    (op.has "hash" = false ∧ ∃ attrType name, attrType ≠ "hash" ∧
      (if op.has "raw" then "raw" else if op.has "enc" then "enc" else "hash") = attrType ∧
      (op.get attrType).asStr = some name ∧ ((op.get "raw").asStr <|> (op.get "enc").asStr <|>
        (op.get "hash").asStr) = some name) ∨
    (op.has "raw" = false ∧ op.has "enc" = false ∧
      ∃ name, op.lookup "hash" = some (.string name)) := by
  simp only [validateFieldSet, List.countP_cons, List.countP_nil, decide_eq_true_eq] at hset
  rcases hraw : op.has "raw" with _ | _
  · rcases henc : op.has "enc" with _ | _
    · have hhash : op.has "hash" = true := by
        by_contra h
        simp [hraw, henc, h] at hset
      exact Or.inr ⟨rfl, rfl,
        exists_string_of_has hschema (.tail _ (.tail _ (.tail _ (.tail _ (.head _))))) hhash⟩
    · obtain ⟨name, hname⟩ :=
        exists_string_of_has hschema (.tail _ (.tail _ (.tail _ (.head _)))) henc
      have hhash : op.has "hash" = false := by
        by_contra h
        simp [hraw, henc, Bool.eq_true_of_not_eq_false h] at hset
      refine Or.inl ⟨hhash, "enc", name, by decide, by simp, asStr_get hname, ?_⟩
      rw [Operation.get_of_not_has hraw, asStr_get hname]
      rfl
  · obtain ⟨name, hname⟩ := exists_string_of_has hschema (.tail _ (.tail _ (.head _))) hraw
    have hhash : op.has "hash" = false := by
      by_contra h
      simp [hraw, Bool.eq_true_of_not_eq_false h] at hset
    refine Or.inl ⟨hhash, "raw", name, by decide, by simp, asStr_get hname, ?_⟩
    rw [asStr_get hname]
    rfl

/-- The client hashes the name, whichever field it is given in. -/
theorem parseKey_getAttr {dest name : String} (hversion : env.protocolVersion = 2)
    (htype : op.lookup "type" = some (.string ReadType.getAttr.code))
    (hop : doc.index "operation" = .object op) (hdest : (op.get "dest").asStr = some dest)
    (hname : ((op.get "raw").asStr <|> (op.get "enc").asStr <|> (op.get "hash").asStr) =
      some name) :
    parseKeyFromRequestForBuiltinSp env doc.serde = some
      (makeStatePathForAttr env.sha256 dest name false) := by
  rw [parseKey_of_type hop htype]
  simp only [Option.orElse_eq_orElse] at hname
  simp only [keySuffix, keyPrefix, Json.index_serde, Json.asStr_serde, index_object,
    Option.orElse_eq_orElse, hname,
    hdest, marker_two hversion, Option.bind_eq_bind, Option.bind_some, Option.pure_def,
    Option.map_some, Option.orElse_some]
  rw [makeStatePathForAttr, ← asBytes_append, if_neg (by simp), hexdigest]
  simp only [String.append_assoc]
  rfl

theorem parseKey_getAttr_iff (hversion : env.protocolVersion = 2)
    (haccept : acceptsRead plenum authKeys .getAttr op = true)
    (hop : doc.index "operation" = .object op)
    (hpath : readPath env.sha256 .getAttr op = some path) :
    parseKeyFromRequestForBuiltinSp env doc.serde = some path ↔
      ∀ h, op.get "hash" = .string h → hexdigest env.sha256 h = h := by
  simp only [acceptsRead, Bool.and_eq_true] at haccept
  obtain ⟨hschema, hset⟩ := haccept
  have htype := lookup_type hschema (.head _)
  simp only [readPath, getAttrPath, Option.bind_eq_bind, Option.bind_eq_some_iff, Option.pure_def,
    Option.some.injEq] at hpath
  obtain ⟨dest, hdest, attrKey, hkey, rfl⟩ := hpath
  obtain ⟨hhash, attrType, name, hne, hattr, hget, hname⟩ | ⟨hraw, henc, name, hlookup⟩ :=
    attr_cases hschema hset
  · rw [hattr, hget, Option.some.injEq] at hkey
    rw [parseKey_getAttr hversion htype hop hdest hname, hattr, hkey, decide_eq_false hne]
    simp [Operation.get_of_not_has hhash]
  · have hname : ((op.get "raw").asStr <|> (op.get "enc").asStr <|> (op.get "hash").asStr) =
        some name := by
      rw [Operation.get_of_not_has hraw, Operation.get_of_not_has henc, asStr_get hlookup]
      rfl
    simp only [hraw, henc, Bool.false_eq_true, if_false, asStr_get hlookup, Option.some.injEq]
      at hkey
    rw [parseKey_getAttr hversion htype hop hdest hname, Operation.get_of_lookup hlookup, ← hkey]
    simp [hraw, henc, makeStatePathForAttr, asBytes_inj, String.append_right_inj]

/-- The key of a definition with a tag; the author is read from `dest` when that is a string. -/
theorem parseKey_getCredDef {dest signType : String} {n : ℕ} (hversion : env.protocolVersion = 2)
    (htype : op.lookup "type" = some (.string ReadType.getCredDef.code))
    (hop : doc.index "operation" = .object op)
    (hdest : ((op.get "dest").asStr <|> (op.get "origin").asStr) = some dest)
    (hsign : (op.get "signature_type").asStr = some signType)
    (href : op.get "ref" = .number (.posInt n)) (hn : n < 2 ^ 64) :
    parseKeyFromRequestForBuiltinSp env doc.serde =
      some (asBytes (dest ++ ":3:" ++ signType ++ ":" ++ u64ToString n ++
        ((op.get "tag").asStr.map fun t => ":" ++ t).getD "")) := by
  have hn' : (op.get "ref").serde.asU64 = some n := by
    rw [Json.asU64_serde, href, Json.asU64, Option.filter_some, if_pos (by simpa using hn)]
  rw [parseKey_of_type hop htype]
  simp only [Option.orElse_eq_orElse] at hdest
  simp only [keySuffix, keyPrefix, Json.index_serde, Json.asStr_serde, index_object,
    Option.orElse_eq_orElse, hdest,
    hsign, hn', isNode13_two hversion, marker_two hversion, Option.bind_eq_bind, Option.bind_some,
    Option.pure_def, Option.map_some, Bool.false_eq_true, if_false]
  rw [← asBytes_append]
  simp only [String.append_assoc]
  rfl

/-- A decimal does not end like the default tag. -/
theorem append_u64ToString_ne (s t : String) (n : ℕ) : s ++ u64ToString n ≠ t ++ "tag" := by
  intro h
  have hlist := congrArg (fun r : String => r.toList.getLast?) h
  obtain ⟨c, cs, hcs, -⟩ := Library.exists_cons_toDigits n
  have hlast : (Nat.toDigits 10 n).getLast? = some 'g' := by
    have hne : Nat.toDigits 10 n ≠ [] := by
      rw [hcs]
      simp
    simpa [u64ToString, List.getLast?_append_of_ne_nil _ hne] using hlist
  have hdigit := Nat.isDigit_of_mem_toDigits (by decide) (by decide) (List.mem_of_getLast? hlast)
  exact absurd hdigit (by decide)

theorem parseKey_getCredDef_eq_none
    (htype : op.lookup "type" = some (.string ReadType.getCredDef.code))
    (hop : doc.index "operation" = .object op)
    (href : ∀ n < 2 ^ 64, op.get "ref" ≠ .number (.posInt n)) :
    parseKeyFromRequestForBuiltinSp env doc.serde = none := by
  have hnone : (op.get "ref").serde.asU64 = none := by
    rw [Json.asU64_serde, Option.filter_eq_none_iff]
    intro n hn hlt
    apply href n (by simpa using hlt)
    cases hval : op.get "ref" with
    | number m =>
      rw [hval] at hn
      cases m <;> simp_all [Json.asU64]
    | _ => simp [hval, Json.asU64] at hn
  rw [parseKey_of_type hop htype]
  simp [keySuffix, index_object, hnone]

/-- The client takes the author from `origin` unless `dest` is a string too. -/
theorem dest_eq_origin_iff {dest origin : String}
    (horigin : op.lookup "origin" = some (.string origin))
    (hdest : ((op.get "dest").asStr <|> (op.get "origin").asStr) = some dest) :
    dest = origin ↔ ∀ d, op.get "dest" = .string d → op.get "origin" = .string d := by
  rw [asStr_get horigin] at hdest
  rw [Operation.get_of_lookup horigin]
  generalize op.get "dest" = val at hdest ⊢
  cases val with
  | string s =>
    have : s = dest := by simpa [asStr_string] using hdest
    simp [this, eq_comm]
  | _ =>
    have : origin = dest := by simpa [Json.asStr] using hdest
    simp [this]

theorem parseKey_getCredDef_iff (hversion : env.protocolVersion = 2)
    (haccept : acceptsRead plenum authKeys .getCredDef op = true)
    (hop : doc.index "operation" = .object op)
    (hpath : readPath env.sha256 .getCredDef op = some path) :
    parseKeyFromRequestForBuiltinSp env doc.serde = some path ↔
      (∃ n < 2 ^ 64, op.get "ref" = .number (.posInt n)) ∧ op.has "tag" = true ∧
        ∀ dest, op.get "dest" = .string dest → op.get "origin" = .string dest := by
  have htype := lookup_type haccept (.head _)
  obtain ⟨origin, horigin⟩ := exists_string_of_required haccept (.tail _ (.tail _ (.head _)))
  obtain ⟨signType, hsign⟩ :=
    exists_string_of_required haccept (.tail _ (.tail _ (.tail _ (.head _))))
  simp only [readPath, getClaimDefPath, asStr_get horigin, hsign, Option.getD_some, asStr_string,
    Option.bind_eq_bind,
    Option.bind_some, Option.bind_eq_some_iff, Option.pure_def, Option.some.injEq] at hpath
  obtain ⟨ref, href, tag, htag, rfl⟩ := hpath
  by_cases hn : ∃ n < 2 ^ 64, op.get "ref" = .number (.posInt n)
  · obtain ⟨dest, hdest⟩ : ∃ dest,
        ((op.get "dest").asStr <|> (op.get "origin").asStr) = some dest := by
      rw [asStr_get horigin]
      cases (op.get "dest").asStr <;> simp
    rw [← dest_eq_origin_iff horigin hdest, and_iff_right hn]
    obtain ⟨n, hn, hnum⟩ := hn
    rw [hnum, pyStr, Option.some.injEq] at href
    rw [parseKey_getCredDef hversion htype hop hdest (asStr_get hsign) hnum hn,
      makeStatePathForClaimDef, ← href, Option.some.injEq, asBytes_inj]
    rcases hhas : op.has "tag" with _ | _
    · -- Without a tag the client's key ends with the number, the node's with the default tag.
      have hnone : op.lookup "tag" = none := by
        rwa [Operation.has, Option.isSome_eq_false_iff, Option.isNone_iff_eq_none] at hhas
      rw [hnone, Option.getD_none, asStr_string, Option.some.injEq] at htag
      rw [Operation.get_of_not_has hhas, ← htag]
      simp only [Json.asStr, Option.map_none, Option.getD_none, String.append_empty,
        Bool.false_eq_true, false_and, iff_false]
      exact append_u64ToString_ne _ _ n
    · obtain ⟨tag', htag'⟩ :=
        exists_string_of_has haccept (.tail _ (.tail _ (.tail _ (.tail _ (.head _))))) hhas
      rw [htag', Option.getD_some, asStr_string, Option.some.injEq] at htag
      rw [asStr_get htag', Option.map_some, Option.getD_some, htag]
      simp [String.append_assoc]
  · have hnone : parseKeyFromRequestForBuiltinSp env doc.serde = none := by
      apply parseKey_getCredDef_eq_none htype hop
      intro n hlt hnum
      exact hn ⟨n, hlt, hnum⟩
    rw [hnone]
    exact iff_of_false (by simp) (fun h => hn h.1)

/-- What a request must have for both sides to agree: an attribute is not asked for by its hash
(unless the hash is its own), and the definition of a credential is asked for with a tag, a plain
64-bit schema number and no other author. -/
def KeyAgrees (sha256 : Bytes → Bytes) (type : ReadType) (op : Operation) : Prop :=
  match type with
  | .getAttr => ∀ h, op.get "hash" = .string h → hexdigest sha256 h = h
  | .getCredDef =>
    (∃ n < 2 ^ 64, op.get "ref" = .number (.posInt n)) ∧ op.has "tag" = true ∧
      ∀ dest, op.get "dest" = .string dest → op.get "origin" = .string dest
  | _ => True

theorem parseKey_eq_readPath_iff {type : ReadType} (hversion : env.protocolVersion = 2)
    (haccept : acceptsRead plenum authKeys type op = true)
    (hop : doc.index "operation" = .object op) (hpath : readPath env.sha256 type op = some path) :
    parseKeyFromRequestForBuiltinSp env doc.serde = some path ↔ KeyAgrees env.sha256 type op := by
  cases type with
  | getNym => exact iff_of_true (parseKey_getNym haccept hop hpath) trivial
  | getAttr => exact parseKey_getAttr_iff hversion haccept hop hpath
  | getSchema => exact iff_of_true (parseKey_getSchema hversion haccept hop hpath) trivial
  | getCredDef => exact parseKey_getCredDef_iff hversion haccept hop hpath
  | getRevocRegDef => exact iff_of_true (parseKey_getRevocRegDef haccept hop hpath) trivial
  | getRevocReg => exact iff_of_true (parseKey_getRevocReg hversion haccept hop hpath) trivial
  | getAuthRule => exact iff_of_true (parseKey_getAuthRule haccept hop hpath) trivial
  | _ => cases haccept

def sampleCredDefOperation : Operation :=
  [("origin", .string "V4SGRU86Z58d6TV7PBUe6f"), ("ref", .number (.posInt 15)),
    ("signature_type", .string "CL"), ("tag", .string "TAG1"), ("type", .string "108")]

theorem parseKey_eq_readPath_credDef :
    parseKeyFromRequestForBuiltinSp ⟨fun _ => [], 2⟩
      (Json.object [("operation", .object sampleCredDefOperation)]).serde =
      some (asBytes "V4SGRU86Z58d6TV7PBUe6f:3:CL:15:TAG1") := by
  have haccept : acceptsRead standardPlenum [] .getCredDef sampleCredDefOperation = true := by
    decide
  apply (parseKey_eq_readPath_iff rfl haccept rfl (by decide)).mpr
  refine ⟨⟨15, by decide, rfl⟩, rfl, ?_⟩
  intro dest h
  cases h

/-- An attribute asked for by the hash of `endpoint`. -/
def sampleHashOperation : Operation :=
  [("dest", .string "V4SGRU86Z58d6TV7PBUe6f"),
    ("hash", .string "b6bf7bc8d96f3ea9d132c83b3da8e7760e420138485657372db4d6a981d3fd9e"),
    ("type", .string "104")]

/-- SHA-256 of the hash above. -/
def sampleSha256 (_ : Bytes) : Bytes :=
  [7, 63, 96, 94, 215, 222, 159, 96, 34, 43, 214, 157, 171, 6, 89, 40, 48, 133, 146, 131, 196, 13,
    121, 53, 214, 4, 73, 194, 130, 112, 15, 90]

/-- The node looks the hash up as it is, the client hashes it again. -/
theorem parseKey_hash_ne :
    acceptsRead standardPlenum [] .getAttr sampleHashOperation = true ∧
      readPath sampleSha256 .getAttr sampleHashOperation = some (asBytes
        "V4SGRU86Z58d6TV7PBUe6f:1:b6bf7bc8d96f3ea9d132c83b3da8e7760e420138485657372db4d6a981d3fd9e") ∧
      parseKeyFromRequestForBuiltinSp ⟨sampleSha256, 2⟩
        (Json.object [("operation", .object sampleHashOperation)]).serde ≠
          readPath sampleSha256 .getAttr sampleHashOperation := by
  decide

end SimpleAsset.IndyNode
