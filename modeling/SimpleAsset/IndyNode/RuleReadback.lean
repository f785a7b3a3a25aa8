import SimpleAsset.Library.Log
import SimpleAsset.IndyNode.AuthRules
import SimpleAsset.IndyNode.RuleLookup

/-! Auth rules are enforced and reported as they were written last. -/
namespace SimpleAsset.IndyNode
open SimpleAsset.Indy SimpleAsset.Library

section RoundTrip

theorem RoleConstraint.fromDict_asDict {dict : Operation} (c : RoleConstraint)
    (h : (RuleConstraint.role c).asDict = .object dict) : RoleConstraint.fromDict dict = .ok c := by
  obtain ⟨role, sigCount, needToBeOwner, offLedgerSignature, metadata, hany⟩ := c
  rw [RuleConstraint.asDict, Json.object.injEq] at h
  subst h
  by_cases hoff : offLedgerSignature = .null
  · subst hoff
    simp [RoleConstraint.fromDict, Operation.get, List.lookup_cons, pyTrue]
  · simp [RoleConstraint.fromDict, Operation.get, List.lookup_cons, hoff]
    exact dif_pos hany

mutual

/-- A constraint is read back from its dictionary. -/
theorem createConstraint_asDict : (c : RuleConstraint) → createConstraint c.asDict = .ok c
  | .forbidden => rfl
  | .role c => by
    obtain ⟨dict, hdict⟩ : ∃ dict, (RuleConstraint.role c).asDict = .object dict := by
      rw [RuleConstraint.asDict]
      exact ⟨_, rfl⟩
    have hid : dict.lookup "constraint_id" = some (.string "ROLE") := by
      rw [RuleConstraint.asDict, Json.object.injEq] at hdict
      simp [← hdict]
    rw [hdict, createConstraint, fromDict, hid]
    simp [RoleConstraint.fromDict_asDict c hdict]
  | .and cs => by
    have hnested := createConstraints_asDicts cs
    have hid : List.lookup "constraint_id"
        [("auth_constraints", Json.array (RuleConstraint.asDicts cs)),
        ("constraint_id", .string "AND")] = some (.string "AND") := rfl
    rw [RuleConstraint.asDict, createConstraint, fromDict, hid]
    simp [nestedConstraints, listedConstraints, hnested]
  | .or cs => by
    have hnested := createConstraints_asDicts cs
    have hid : List.lookup "constraint_id"
        [("auth_constraints", Json.array (RuleConstraint.asDicts cs)),
        ("constraint_id", .string "OR")] = some (.string "OR") := rfl
    rw [RuleConstraint.asDict, createConstraint, fromDict, hid]
    simp [nestedConstraints, listedConstraints, hnested]

theorem createConstraints_asDicts : (cs : List RuleConstraint) →
    createConstraints (RuleConstraint.asDicts cs) = .ok cs
  | [] => rfl
  | c :: cs => by
    have hc := createConstraint_asDict c
    have hcs := createConstraints_asDicts cs
    simp [RuleConstraint.asDicts, createConstraints, hc, hcs]

end

end RoundTrip

section Keys

variable {rules : List (String × Constraint)} {actionId key : String}

theorem exists_split_of_key (h : key ∈ authKeys) : ∃ am, splitActionId key = some am := by
  obtain ⟨action, -, -, hsplit⟩ := exists_action_of_key h
  exact ⟨action.actionDef, hsplit⟩

theorem isAcceptedActionId_iff : isAcceptedActionId key actionId = some true ↔
    ∃ am r, splitActionId key = some am ∧ splitActionId actionId = some r ∧ am.covers r = true := by
  rcases ham : splitActionId key with _ | am
  · simp [isAcceptedActionId, ham]
  · rcases hr : splitActionId actionId with _ | r
    · simp [isAcceptedActionId, ham, hr]
    · simp [isAcceptedActionId, ham, hr]

/-- The search stops at the rule that covers the action if it is the only one. -/
theorem findAuthConstraintKey_eq (hsplit : ∀ rule ∈ rules, ∃ am, splitActionId rule.1 = some am)
    (hunique : ∀ rule ∈ rules, isAcceptedActionId rule.1 actionId = some true → rule.1 = key)
    (hcovers : isAcceptedActionId key actionId = some true) (hkey : key ∈ rules.map Prod.fst) :
    findAuthConstraintKey actionId rules = some (some key) := by
  induction rules with
  | nil => simp at hkey
  | cons rule rules ih =>
    obtain ⟨amId, constraint⟩ := rule
    by_cases hfirst : isAcceptedActionId amId actionId = some true
    · obtain rfl : amId = key := hunique (amId, constraint) (by simp) hfirst
      simp [findAuthConstraintKey, hfirst]
    · obtain ⟨am, ham⟩ := hsplit (amId, constraint) (by simp)
      obtain ⟨-, r, -, hr, -⟩ := isAcceptedActionId_iff.mp hcovers
      have hnot : isAcceptedActionId amId actionId = some false := by
        simpa [isAcceptedActionId, ham, hr] using hfirst
      have hrest : key ∈ rules.map Prod.fst := by
        rw [List.map_cons, List.mem_cons] at hkey
        rcases hkey with rfl | hkey
        · exact absurd hcovers hfirst
        · exact hkey
      simp only [findAuthConstraintKey, hnot, Option.bind_eq_bind, Option.bind_some]
      exact ih (fun rule hrule => hsplit rule (by simp [hrule]))
        (fun rule hrule => hunique rule (by simp [hrule])) hrest

/-- An action is authorized by the key of the auth map that covers it. -/
theorem findAuthConstraintKey_authMap (hkey : key ∈ authKeys)
    (hcovers : isAcceptedActionId key actionId = some true) :
    findAuthConstraintKey actionId authMap = some (some key) := by
  have hmem : ∀ rule ∈ authMap, rule.1 ∈ authKeys := fun rule hrule => List.mem_map_of_mem hrule
  apply findAuthConstraintKey_eq _ _ hcovers hkey
  · intro rule hrule
    exact exists_split_of_key (hmem rule hrule)
  · intro rule hrule hrule'
    obtain ⟨am, r, ham, hr, hcovers⟩ := isAcceptedActionId_iff.mp hcovers
    obtain ⟨am', r', ham', hr', hcovers'⟩ := isAcceptedActionId_iff.mp hrule'
    obtain rfl : r = r' := Option.some.inj (hr.symm.trans hr')
    exact key_eq_of_covers (hmem rule hrule) hkey ham' ham hcovers' hcovers

theorem lookup_authMap {rule : String × Constraint} (h : rule ∈ authMap) :
    authMap.lookup rule.1 = some rule.2 := by
  have hnodup := nodup_authMap_keys
  generalize authMap = rules at h hnodup
  induction rules with
  | nil => simp at h
  | cons first rules ih =>
    obtain ⟨key, constraint⟩ := first
    rw [List.map_cons, List.nodup_cons] at hnodup
    rcases List.mem_cons.mp h with rfl | hrest
    · simp
    · have hne : rule.1 ≠ key := by
        rintro rfl
        exact hnodup.1 (List.mem_map.mpr ⟨rule, hrest, rfl⟩)
      rw [List.lookup_cons, beq_false_of_ne hne]
      exact ih hrest hnodup.2

theorem ne_empty_of_key (h : key ∈ authKeys) : key ≠ "" := by
  rintro rfl
  obtain ⟨am, ham⟩ := exists_split_of_key h
  simp [splitActionId, splitDelimiter] at ham

end Keys

section Log

variable {serializer : StateSerializer} {s : ConfigState} {txn : AuthRuleTxn}
    {txns : List AuthRuleTxn}
  {rule : Operation}

/-- The key and the constraint that a rule writes. -/
def ruleWrite (handler : AuthRuleHandler) (rule : Operation) :
    Option (String × RuleConstraint) := do
  let constraint ← (createConstraint (rule.get "constraint")).toOption
  let authKey ← getAuthKey rule
  return (authKey, handler.written constraint)

/-- What a transaction writes, in order. -/
def AuthRuleTxn.writes : AuthRuleTxn → List (String × RuleConstraint)
  | authRule handler op => (ruleWrite handler op).toList
  | authRules op => ((rulesOf op).getD []).filterMap (ruleWrite .current)

/-- The state after a log of constraints. -/
def storeRules (serializer : StateSerializer) (s : ConfigState)
    (writes : List (String × RuleConstraint)) :
    ConfigState :=
  writeAll handlerStatePathForAuthRule (fun c => serializer.serialize c.asDict) s writes

/-- A rule that passes the validation has a constraint and a key of the auth map. -/
theorem exists_ruleWrite (handler : AuthRuleHandler) (h : staticValidationForRule rule = true) :
    ∃ w, ruleWrite handler rule = some w ∧ w.1 ∈ authKeys := by
  rw [staticValidationForRule, Bool.and_eq_true] at h
  obtain ⟨hconstraint, hcheck⟩ := h
  rcases hc : createConstraint (rule.get "constraint") with x | c
  · simp [hc, Except.isOk, Except.toBool] at hconstraint
  · rcases hkey : getAuthKey rule with _ | authKey
    · simp [checkAuthKey, hkey] at hcheck
    · refine ⟨(authKey, handler.written c), by simp [ruleWrite, hc, hkey, Except.toOption], ?_⟩
      simp only [checkAuthKey, hkey] at hcheck
      split_ifs at hcheck
      simpa using hcheck

theorem updateRule_eq {handler : AuthRuleHandler} {w : String × RuleConstraint}
    (h : ruleWrite handler rule = some w) :
    updateRule serializer handler s rule = some (storeRules serializer s [w]) := by
  simp only [ruleWrite, Option.bind_eq_bind, Option.bind_eq_some_iff, Option.pure_def,
    Option.some.injEq] at h
  obtain ⟨c, hc, authKey, hkey, rfl⟩ := h
  simp only [updateRule, hc, hkey, Option.bind_eq_bind, Option.bind_some, Option.pure_def]
  rfl

theorem storeRules_append (s : ConfigState) (writes writes' : List (String × RuleConstraint)) :
    storeRules serializer s (writes ++ writes') = storeRules serializer
      (storeRules serializer s writes) writes' :=
  List.foldl_append

theorem foldlM_updateRule {rules : List Operation}
    (h : ∀ rule ∈ rules, staticValidationForRule rule = true) :
    rules.foldlM (updateRule serializer .current) s =
      some (storeRules serializer s (rules.filterMap (ruleWrite .current))) := by
  induction rules generalizing s with
  | nil => rfl
  | cons rule rules ih =>
    obtain ⟨w, hw, -⟩ := exists_ruleWrite .current (h rule (by simp))
    rw [List.foldlM_cons, updateRule_eq hw, List.filterMap_cons_some hw, Option.bind_eq_bind,
      Option.bind_some, ih fun rule hrule => h rule (by simp [hrule]), ← storeRules_append]
    rfl

/-- An accepted transaction stores what it writes. -/
theorem updateRules_eq (h : txn.staticValidation = true) :
    updateRules serializer s txn = some (storeRules serializer s txn.writes) := by
  cases txn with
  | authRule handler op =>
    obtain ⟨w, hw, -⟩ := exists_ruleWrite handler h
    rw [updateRules, AuthRuleTxn.writes, updateRule_eq hw, hw]
    rfl
  | authRules op =>
    rw [AuthRuleTxn.staticValidation, Option.any_eq_true] at h
    obtain ⟨rules, hrules, hall⟩ := h
    rw [updateRules, AuthRuleTxn.writes, hrules]
    exact foldlM_updateRule (List.all_eq_true.mp hall)

/-- A run of accepted transactions stores everything they write. -/
theorem foldlM_updateRules (h : ∀ txn ∈ txns, txn.staticValidation = true) :
    txns.foldlM (updateRules serializer) s = some
      (storeRules serializer s (txns.flatMap AuthRuleTxn.writes)) := by
  induction txns generalizing s with
  | nil => rfl
  | cons txn txns ih =>
    rw [List.foldlM_cons, updateRules_eq (h txn (by simp)), Option.bind_eq_bind, Option.bind_some,
      ih fun txn htxn => h txn (by simp [htxn]), ← storeRules_append, List.flatMap_cons]

theorem statePath_injective : Function.Injective handlerStatePathForAuthRule := by
  intro key key' h
  rw [handlerStatePathForAuthRule, handlerStatePathForAuthRule, asBytes_append, asBytes_append] at h
  exact asBytes_inj.mp (List.append_cancel_left h)

theorem storeRules_apply {key : String} (h : s (makeStatePathForAuthRule key) = none)
    (writes : List (String × RuleConstraint)) :
    storeRules serializer s writes (makeStatePathForAuthRule key) =
      (lastWrite key writes).map fun c => serializer.serialize c.asDict := by
  have happly := writeAll_apply statePath_injective
    (fun c : RuleConstraint => serializer.serialize c.asDict) s writes key
  have hpath : s (handlerStatePathForAuthRule key) = none := h
  refine happly.trans ?_
  rw [hpath]
  cases lastWrite key writes <;> rfl

end Log

section Reading

variable {serializer : StateSerializer} {s : ConfigState} {rule : String × Constraint}
    {last : Option RuleConstraint}

/-- A constraint gets through the serializer: its text is not empty and is read back as the same
dictionary. -/
def StateSerializer.Keeps (serializer : StateSerializer) (c : RuleConstraint) : Prop :=
  serializer.serialize c.asDict ≠ [] ∧
    serializer.deserialize (serializer.serialize c.asDict) = some c.asDict

theorem deserializeConstraint_serialize {c : RuleConstraint} (h : serializer.Keeps c) :
    deserializeConstraint serializer (serializer.serialize c.asDict) = some c := by
  rw [deserializeConstraint, h.2]
  simp [createConstraint_asDict, Except.toOption]

/-- The record of a key: the constraint it got last, if any. -/
structure Stored (serializer : StateSerializer) (s : ConfigState) (key : String)
    (last : Option RuleConstraint) :
    Prop where
  value : s (makeStatePathForAuthRule key) = last.map fun c => serializer.serialize c.asDict
  keeps : ∀ c, last = some c → serializer.Keeps c

theorem Stored.getFromState_eq (h : Stored serializer s rule.1 last) :
    getFromState serializer s (makeStatePathForAuthRule rule.1) = some last := by
  rcases last with _ | c
  · simp [getFromState, h.value]
  · have hkeeps := h.keeps c rfl
    simp [getFromState, h.value, hkeeps.1, deserializeConstraint_serialize hkeeps]

theorem Stored.configLedgerAuthConstraint_eq (h : Stored serializer s rule.1 last)
    (hrule : rule ∈ authMap)
    {actionId : String} (hcovers : isAcceptedActionId rule.1 actionId = some true) :
    configLedgerAuthConstraint serializer s actionId = some (some (last.getD rule.2.toRule)) := by
  have hkey : rule.1 ∈ authKeys := List.mem_map_of_mem hrule
  have hfound := findAuthConstraintKey_authMap hkey hcovers
  have hne := ne_empty_of_key hkey
  unfold configLedgerAuthConstraint
  rcases last with _ | c
  · simp [hfound, hne, h.getFromState_eq, lookup_authMap hrule]
  · simp [hfound, hne, h.getFromState_eq]

theorem Stored.getAuthRule_eq (h : Stored serializer s rule.1 last) (hrule : rule ∈ authMap)
    {am : ActionDef} (ham : splitActionId rule.1 = some am) :
    getAuthRule serializer s rule.1 = some [makeAuthRuleData (last.getD rule.2.toRule) am] := by
  rcases last with _ | c
  · simp [getAuthRule, h.value, ham, lookup_authMap hrule]
  · have hkeeps := h.keeps c rfl
    simp [getAuthRule, h.value, ham, hkeeps.1, deserializeConstraint_serialize hkeeps]

theorem Stored.reportedRule_eq (h : Stored serializer s rule.1 last) {am : ActionDef}
    (ham : splitActionId rule.1 = some am) :
    reportedRule serializer s rule = some (makeAuthRuleData (last.getD rule.2.toRule) am) := by
  have hvalue : s (handlerStatePathForAuthRule rule.1) = last.map fun c =>
      serializer.serialize c.asDict := h.value
  rcases last with _ | c
  · simp [reportedRule, hvalue, ham]
  · have hkeeps := h.keeps c rfl
    simp [reportedRule, hvalue, ham, hkeeps.1, deserializeConstraint_serialize hkeeps]

/-- A reported rule names the key it belongs to, as an AUTH_RULE for it would. -/
theorem getAuthKey_makeAuthRuleData {key : String} {am : ActionDef} (hkey : key ∈ authKeys)
    (ham : splitActionId key = some am) (c : RuleConstraint) :
    getAuthKey (makeAuthRuleData c am) = some key := by
  obtain ⟨action, -, rfl, hsplit⟩ := exists_action_of_key hkey
  obtain rfl : action.actionDef = am := Option.some.inj (hsplit.symm.trans ham)
  have hmarks : addMark ≠ editMark := by decide
  have hmarks' : addMark.toList ≠ editMark.toList := by decide
  cases action with
  | add txnType field value isOwner =>
    simp [getAuthKey, makeAuthRuleData, AuthAction.actionDef, Operation.get, List.lookup_cons,
      hmarks, hmarks', AuthAction.getActionId, Json.asStr]
  | edit txnType field oldValue newValue isOwner =>
    simp [getAuthKey, makeAuthRuleData, AuthAction.actionDef, Operation.get, List.lookup_cons,
      AuthAction.getActionId, Json.asStr]

/-- An accepted request for one rule has as many fields as the handler looks for. -/
theorem five_le_length {op : Operation} (hlength : 1 < op.length)
    (h : getAuthRuleStaticValidation authKeys op = true) :
    5 ≤ op.length := by
  rw [getAuthRuleStaticValidation, if_pos hlength, Bool.and_eq_true, List.all_eq_true] at h
  have hsub : ["type", "auth_action", "auth_type", "field", "new_value"] ⊆ op.map Prod.fst := by
    intro name hname
    have hhas := h.1 name hname
    rw [Operation.has, Option.isSome_iff_exists] at hhas
    obtain ⟨val, hval⟩ := hhas
    obtain ⟨before, after, hop, -⟩ := List.lookup_eq_some_iff.mp hval
    simp [hop]
  have hnodup : ["type", "auth_action", "auth_type", "field", "new_value"].Nodup := by decide
  simpa using (hnodup.subperm hsub).length_le

end Reading

/-- In a list with one entry for each row, the entries of a row's key are its own entry alone. -/
theorem filter_entries {rules : List (String × Constraint)}
    {entry : String × Constraint → Operation}
    {rule : String × Constraint} (hkey : ∀ rule ∈ rules, getAuthKey (entry rule) = some rule.1)
    (hnodup : (rules.map Prod.fst).Nodup) (hrule : rule ∈ rules) :
    (rules.map entry).filter (fun data => getAuthKey data = some rule.1) = [entry rule] := by
  induction rules with
  | nil => simp at hrule
  | cons first rules ih =>
    rw [List.map_cons, List.nodup_cons] at hnodup
    have hfirst := hkey first (by simp)
    have hkey' : ∀ rule ∈ rules, getAuthKey (entry rule) = some rule.1 :=
      fun rule hrule => hkey rule (by simp [hrule])
    rcases List.mem_cons.mp hrule with rfl | hrest
    · have hnone : (rules.map entry).filter (fun data => getAuthKey data = some rule.1) = [] := by
        rw [List.filter_eq_nil_iff]
        intro data hdata
        obtain ⟨other, hother, rfl⟩ := List.mem_map.mp hdata
        rw [hkey' other hother, decide_eq_true_eq, Option.some.injEq]
        rintro heq
        exact hnodup.1 (List.mem_map.mpr ⟨other, hother, heq⟩)
      rw [List.map_cons, List.filter_cons_of_pos (by simpa using hfirst), hnone]
    · have hne : first.1 ≠ rule.1 := by
        rintro heq
        exact hnodup.1 (List.mem_map.mpr ⟨rule, hrest, heq.symm⟩)
      rw [List.map_cons, List.filter_cons_of_neg (by simpa [hfirst] using hne)]
      exact ih hkey' hnodup.2 hrest

/-- After accepted AUTH_RULE and AUTH_RULES transactions, the constraint written last under a key of
the auth map, or its default, is the one that authorizes the actions of the key and the one that is
reported for it, by itself and among all rules. -/
theorem auth_rules_read_back {serializer : StateSerializer} {s₀ : ConfigState}
    {txns : List AuthRuleTxn} (hs₀ : ∀ key ∈ authKeys, s₀ (makeStatePathForAuthRule key) = none)
    (hkeeps : ∀ w ∈ txns.flatMap AuthRuleTxn.writes, serializer.Keeps w.2)
    (haccepted : ∀ txn ∈ txns, txn.staticValidation = true) :
    ∃ s, txns.foldlM (updateRules serializer) s₀ = some s ∧
      ∀ rule ∈ authMap, ∃ c,
        c = (lastWrite rule.1 (txns.flatMap AuthRuleTxn.writes)).getD rule.2.toRule ∧
        isAcceptedActionId rule.1 rule.1 = some true ∧
        (∀ actionId, isAcceptedActionId rule.1 actionId = some true →
          configLedgerAuthConstraint serializer s actionId = some (some c)) ∧
        (∀ op, 1 < op.length → getAuthRuleStaticValidation authKeys op = true →
          getAuthKey op = some rule.1 →
          ∃ data, getAuthRuleResult serializer s op = some [data] ∧ getAuthKey data = some rule.1 ∧
            data.get "constraint" = c.asDict) ∧
        ∀ op, op.length ≤ 1 →
          ∃ all data, getAuthRuleResult serializer s op = some all ∧
            all.filter (fun data => getAuthKey data = some rule.1) = [data] ∧
            data.get "constraint" = c.asDict := by
  refine ⟨_, foldlM_updateRules haccepted, ?_⟩
  set s := storeRules serializer s₀ (txns.flatMap AuthRuleTxn.writes)
  have hstored : ∀ rule ∈ authMap,
      Stored serializer s rule.1 (lastWrite rule.1 (txns.flatMap AuthRuleTxn.writes)) := by
    intro rule hrule
    refine ⟨storeRules_apply (hs₀ rule.1 (List.mem_map_of_mem hrule)) _, ?_⟩
    intro c hc
    exact hkeeps _ (mem_of_lastWrite hc)
  have hdata : ∀ c am, (makeAuthRuleData c am).get "constraint" = c.asDict := fun _ _ => rfl
  intro rule hrule
  have hkey : rule.1 ∈ authKeys := List.mem_map_of_mem hrule
  obtain ⟨am, ham⟩ := exists_split_of_key hkey
  refine ⟨_, rfl, ?_, ?_, ?_, ?_⟩
  · exact isAcceptedActionId_iff.mpr ⟨am, am, ham, ham, by simp [ActionDef.covers_iff]⟩
  · intro actionId hcovers
    exact (hstored rule hrule).configLedgerAuthConstraint_eq hrule hcovers
  · intro op hlength hvalid hop
    refine ⟨_, ?_, getAuthKey_makeAuthRuleData hkey ham _, hdata _ am⟩
    rw [getAuthRuleResult, if_pos (five_le_length hlength hvalid), hop]
    exact (hstored rule hrule).getAuthRule_eq hrule ham
  · intro op hlength
    -- The parts of every key, to write all entries as one function of the row.
    have hsplit : ∀ rule ∈ authMap,
        splitActionId rule.1 = some ((splitActionId rule.1).getD am) := by
      intro rule hrule
      obtain ⟨am', ham'⟩ := exists_split_of_key (List.mem_map_of_mem hrule)
      rw [ham', Option.getD_some]
    have hall : getAllAuthRules serializer s = some (authMap.map fun rule => makeAuthRuleData
        ((lastWrite rule.1 (txns.flatMap AuthRuleTxn.writes)).getD rule.2.toRule)
        ((splitActionId rule.1).getD am)) := by
      rw [getAllAuthRules, mapM_eq_some_iff, List.map_map]
      apply List.map_congr_left
      intro rule hrule
      exact (hstored rule hrule).reportedRule_eq (hsplit rule hrule)
    have hresult : getAuthRuleResult serializer s op = getAllAuthRules serializer s := by
      rw [getAuthRuleResult, if_neg (by omega)]
    refine ⟨_, _, hresult.trans hall, filter_entries ?_ nodup_authMap_keys hrule, ?_⟩
    · intro rule hrule
      exact getAuthKey_makeAuthRuleData (List.mem_map_of_mem hrule) (hsplit rule hrule) _
    · exact hdata _ _

/-- An AUTH_RULE that asks two trustees for new schemas, and an AUTH_RULES that forbids them. -/
def sampleRuleTxns : List AuthRuleTxn :=
  [.authRule .current
    [("type", .string "120"), ("auth_type", .string "101"), ("auth_action", .string "ADD"),
      ("field", .string "*"), ("new_value", .string "*"),
      ("constraint", .object [("constraint_id", .string "ROLE"),
        ("role", .string "0"), ("sig_count", .number (.posInt 2))])],
    .authRules [("type", .string "122"), ("rules", .array [.object [("auth_type", .string "101"),
      ("auth_action", .string "ADD"), ("field", .string "*"), ("new_value", .string "*"),
      ("constraint", .object [("constraint_id", .string "FORBIDDEN")])]])]]

/-- The dictionaries of the two constraints and their texts. -/
def sampleTexts : List (Json × Bytes) :=
  [(.object
    [("constraint_id", .string "ROLE"), ("metadata", .object []), ("need_to_be_owner", .bool false),
      ("role", .string "0"), ("sig_count", .number (.posInt 2))],
      asBytes "\x7b\"constraint_id\":\"ROLE\",\"metadata\":\x7b\x7d,\"need_to_be_owner\":false,\"role\":\"0\",\"sig_count\":2\x7d"),
    (.object [("constraint_id", .string "FORBIDDEN")],
      asBytes "\x7b\"constraint_id\":\"FORBIDDEN\"\x7d")]

def sampleSerializer : StateSerializer where
  serialize dict := (sampleTexts.lookup dict).getD (asBytes "null")
  deserialize bytes := (sampleTexts.map Prod.swap).lookup bytes

theorem auth_rules_read_back_forbidden :
    ∃ s c, sampleRuleTxns.foldlM (updateRules sampleSerializer) (fun _ => none) = some s ∧
      configLedgerAuthConstraint sampleSerializer s (addAnyId "101") = some (some c) ∧
        c.asDict = .object [("constraint_id", .string "FORBIDDEN")] := by
  have hwrites : (sampleRuleTxns.flatMap AuthRuleTxn.writes).map (fun w => (w.1, w.2.asDict)) =
      sampleTexts.map fun text => (addAnyId "101", text.1) := by
    decide
  have hkeeps : ∀ w ∈ sampleRuleTxns.flatMap AuthRuleTxn.writes, sampleSerializer.Keeps w.2 := by
    intro w hw
    have hmem : (w.1, w.2.asDict) ∈ sampleTexts.map fun text => (addAnyId "101", text.1) :=
      hwrites ▸ List.mem_map_of_mem hw
    obtain ⟨text, htext, heq⟩ := List.mem_map.mp hmem
    have hall : ∀ text ∈ sampleTexts, sampleSerializer.serialize text.1 ≠ [] ∧
        sampleSerializer.deserialize (sampleSerializer.serialize text.1) = some text.1 := by
      decide
    rw [StateSerializer.Keeps, ← (Prod.mk.inj heq).2]
    exact hall text htext
  have haccepted : ∀ txn ∈ sampleRuleTxns, txn.staticValidation = true := by
    decide
  obtain ⟨s, hrun, h⟩ :=
    @auth_rules_read_back sampleSerializer (fun _ => none) _ (fun _ _ => rfl) hkeeps haccepted
  obtain ⟨c, hc, hself, henforced, -⟩ :=
    h (addAnyId "101", endorserOrStewardOrTrusteeConstraint) (by
    apply List.mem_append_left
    simp [baseAuthMap])
  refine ⟨s, c, hrun, henforced _ hself, ?_⟩
  have hlast : ((lastWrite (addAnyId "101") (sampleRuleTxns.flatMap AuthRuleTxn.writes)).map
      RuleConstraint.asDict) = some (.object [("constraint_id", .string "FORBIDDEN")]) := by
    decide
  obtain ⟨c', hc', hdict⟩ := Option.map_eq_some_iff.mp hlast
  rw [hc, hc', Option.getD_some, hdict]

end SimpleAsset.IndyNode
