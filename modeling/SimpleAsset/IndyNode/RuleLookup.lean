import Mathlib.Data.List.Pairwise
import SimpleAsset.IndyNode.AuthMap
import SimpleAsset.IndyNode.Authorization

/-! Which rules cover an action, by the parts of their ids. -/
namespace SimpleAsset.IndyNode

/-- A word without dashes before a delimiter is a part of its own. -/
theorem splitDelimiter_append {word : List Char} (hword : '-' ∉ word) (part rest : List Char) :
    splitDelimiter part (word ++ '-' :: '-' :: rest) = (part.reverse ++ word) ::
      splitDelimiter [] rest := by
  induction word generalizing part with
  | nil => simp [splitDelimiter]
  | cons c word ih =>
    rw [List.mem_cons, not_or] at hword
    rw [List.cons_append, splitDelimiter, ih hword.2]
    · simp
    · intro rest' hc
      exact absurd hc.symm hword.1

theorem splitDelimiter_ne_nil (part text : List Char) : splitDelimiter part text ≠ [] := by
  induction part, text using splitDelimiter.induct with
  | case1 part rest ih => simp [splitDelimiter]
  | case2 part c rest hdash ih => rwa [splitDelimiter.eq_2 _ _ _ hdash]
  | case3 part => simp [splitDelimiter]

/-- The parts with delimiters between them are the text. -/
theorem intercalate_splitDelimiter (part text : List Char) :
    ['-', '-'].intercalate (splitDelimiter part text) = part.reverse ++ text := by
  induction part, text using splitDelimiter.induct with
  | case1 part rest ih =>
    rw [splitDelimiter, List.intercalate_cons_of_ne_nil (splitDelimiter_ne_nil _ _), ih]
    simp
  | case2 part c rest hdash ih =>
    rw [splitDelimiter.eq_2 _ _ _ hdash, ih]
    simp
  | case3 part => simp [splitDelimiter]

/-- A text has one last word without dashes. -/
theorem append_delimiter_inj {a b c d : List Char} (hb : '-' ∉ b) (hd : '-' ∉ d)
    (h : a ++ '-' :: '-' :: b = c ++ '-' :: '-' :: d) : a = c ∧ b = d := by
  have hrev := congrArg List.reverse h
  simp only [List.reverse_append, List.reverse_cons, List.append_assoc, List.cons_append,
    List.nil_append] at hrev
  have htake : ∀ w rest : List Char, '-' ∉ w →
      (w.reverse ++ '-' :: rest).takeWhile (· ≠ '-') = w.reverse := by
    intro w rest hw
    rw [List.takeWhile_append_of_pos]
    · simp
    · intro x hx
      rw [List.mem_reverse] at hx
      simpa using fun heq : x = '-' => hw (heq ▸ hx)
  have hbd : b = d := by
    have := congrArg (List.takeWhile (· ≠ '-')) hrev
    rw [htake b _ hb, htake d _ hd] at this
    exact List.reverse_injective this
  subst hbd
  exact ⟨List.append_cancel_right h, rfl⟩

/-- The parts of the id of an edit with a field without dashes. -/
theorem splitActionId_editId {field oldValue newValue : String} {r : ActionDef}
    (hfield : '-' ∉ field.toList)
    (h : splitActionId (editId "1" field oldValue newValue) = some r) :
    r.txnType = ['1'] ∧ r.mark = editMark.toList ∧ r.field = field.toList ∧
      splitDelimiter [] (oldValue.toList ++ '-' :: '-' :: newValue.toList) =
        [r.oldValue, r.newValue] := by
  have htext : (editId "1" field oldValue newValue).toList =
      ['1'] ++ '-' :: '-' :: (editMark.toList ++ '-' :: '-' ::
        (field.toList ++ '-' :: '-' :: (oldValue.toList ++ '-' :: '-' :: newValue.toList))) := by
    rw [editId, AuthAction.getActionId, compileActionId_eq]
    simp [String.toList_append]
  rw [splitActionId, htext, splitDelimiter_append (by decide), splitDelimiter_append (by decide),
    splitDelimiter_append hfield] at h
  generalize splitDelimiter [] (oldValue.toList ++ '-' :: '-' :: newValue.toList) = parts at h ⊢
  rcases parts with _ | ⟨o, _ | ⟨n, _ | _⟩⟩
  · cases h
  · cases h
  · obtain rfl := Option.some.inj h
    exact ⟨rfl, rfl, rfl, rfl⟩
  · cases h

/-- A rule that is found is one of the rules and covers the action. -/
theorem exists_rule {actionId : String} {rules : List (String × Constraint)} {c : Constraint}
    (h : getAuthConstraint actionId rules = some (some c)) :
    ∃ key am r, (key, c) ∈ rules ∧ splitActionId key = some am ∧ splitActionId actionId = some r ∧
      am.covers r = true := by
  induction rules with
  | nil => cases h
  | cons rule rules ih =>
    obtain ⟨amId, constraint⟩ := rule
    simp only [getAuthConstraint, Option.bind_eq_bind, Option.bind_eq_some_iff, Option.pure_def]
      at h
    obtain ⟨accepted, haccepted, h⟩ := h
    rcases accepted with _ | _
    · obtain ⟨key, am, r, hmem, hrest⟩ := ih (by simpa using h)
      exact ⟨key, am, r, List.mem_cons_of_mem _ hmem, hrest⟩
    · simp only [if_true, Option.some.injEq] at h
      simp only [isAcceptedActionId, Option.bind_eq_bind, Option.bind_eq_some_iff, Option.pure_def,
        Option.some.injEq] at haccepted
      obtain ⟨am, ham, r, hr, hcovers⟩ := haccepted
      exact ⟨amId, am, r, by simp [h], ham, hr, hcovers⟩

theorem ActionDef.covers_iff {am r : ActionDef} : am.covers r = true ↔
    r.mark = am.mark ∧ r.txnType = am.txnType ∧ (r.field = am.field ∨ am.field = ['*']) ∧
      (r.oldValue = am.oldValue ∨ am.oldValue = ['*']) ∧
      (r.newValue = am.newValue ∨ am.newValue = ['*']) := by
  simp [ActionDef.covers, and_assoc]

/-- A word without dashes is one part. -/
theorem splitDelimiter_word {word : List Char} (hword : '-' ∉ word) (part : List Char) :
    splitDelimiter part word = [part.reverse ++ word] := by
  induction word generalizing part with
  | nil => simp [splitDelimiter]
  | cons c word ih =>
    rw [List.mem_cons, not_or] at hword
    rw [splitDelimiter, ih hword.2]
    · simp
    · intro rest' hc
      exact absurd hc.symm hword.1

/-- The parts of the id of an action. -/
def AuthAction.parts : AuthAction → List String
  | add txnType field value _ => [txnType, addMark, field, "*", value]
  | edit txnType field oldValue newValue _ => [txnType, editMark, field, oldValue, newValue]

def AuthAction.actionDef : AuthAction → ActionDef
  | add txnType field value _ => ⟨txnType.toList, addMark.toList, field.toList, ['*'], value.toList⟩
  | edit txnType field oldValue newValue _ =>
    ⟨txnType.toList, editMark.toList, field.toList, oldValue.toList, newValue.toList⟩

theorem splitActionId_compileActionId {txnType field oldValue newValue mark : String}
    (h : ∀ part ∈ [txnType, mark, field, oldValue, newValue], '-' ∉ part.toList) :
    splitActionId (compileActionId txnType field oldValue newValue mark) =
      some ⟨txnType.toList, mark.toList, field.toList, oldValue.toList, newValue.toList⟩ := by
  simp only [List.mem_cons, List.not_mem_nil, or_false, forall_eq_or_imp, forall_eq] at h
  obtain ⟨htype, hmark, hfield, hold, hnew⟩ := h
  have htext : (compileActionId txnType field oldValue newValue mark).toList =
      txnType.toList ++ '-' :: '-' :: (mark.toList ++ '-' :: '-' ::
        (field.toList ++ '-' :: '-' :: (oldValue.toList ++ '-' :: '-' :: newValue.toList))) := by
    rw [compileActionId_eq]
    simp [String.toList_append]
  rw [splitActionId, htext, splitDelimiter_append htype, splitDelimiter_append hmark,
    splitDelimiter_append hfield, splitDelimiter_append hold, splitDelimiter_word hnew]
  rfl

theorem AuthAction.splitActionId_getActionId {action : AuthAction}
    (h : ∀ part ∈ action.parts, '-' ∉ part.toList) :
    splitActionId action.getActionId = some action.actionDef := by
  cases action with
  | add txnType field value isOwner => exact splitActionId_compileActionId h
  | edit txnType field oldValue newValue isOwner => exact splitActionId_compileActionId h

def allRoles : List (Option Role) :=
  [some .trustee, some .steward, some .endorser, some .networkMonitor, none]

/-- Actions for a type of transaction that has the same rule for all of them. -/
def addAny (txnType : String) : AuthAction := .add txnType "*" "*" true

def editAny (txnType : String) : AuthAction := .edit txnType "*" "*" "*" true

/-- The actions whose ids are the keys of the auth map. -/
def authMapActions : List AuthAction :=
  allRoles.map (fun role => .add "1" "role" (roleStr role) true) ++
  [.edit "1" "verkey" "*" "*" true, addAny "4", editAny "4", addAny "8", addAny "5"] ++
  ["100", "101", "200", "201", "202", "203", "204", "205", "102"].flatMap
    (fun type => [addAny type, editAny type]) ++
  ["['VALIDATOR']", "[]"].map (fun services => .add "0" "services" services true) ++
  [.edit "0" "services" "['VALIDATOR']" "[]" true,
    .edit "0" "services" "[]" "['VALIDATOR']" true] ++
  ["node_ip", "node_port", "client_ip", "client_port", "blskey"].map
    (fun field => .edit "0" field "*" "*" true) ++
  [.add "109" "action" "start" true, .edit "109" "action" "start" "cancel" true,
    .add "118" "action" "*" true,
    .edit "111" "action" "*" "*" true, editAny "120", editAny "122", addAny "119", addAny "113",
    addAny "114", editAny "113", editAny "114", editAny "9"] ++
  allRoles.flatMap
    (fun old => allRoles.map fun new => .edit "1" "role" (roleStr old) (roleStr new) true)

/-- Rules that may cover one action. -/
def ActionDef.Overlaps (a b : ActionDef) : Prop :=
  a.txnType = b.txnType ∧ a.mark = b.mark ∧
    (a.field = b.field ∨ a.field = ['*'] ∨ b.field = ['*']) ∧
    (a.oldValue = b.oldValue ∨ a.oldValue = ['*'] ∨ b.oldValue = ['*']) ∧
      (a.newValue = b.newValue ∨ a.newValue = ['*'] ∨ b.newValue = ['*'])

instance (a b : ActionDef) : Decidable (a.Overlaps b) := inferInstanceAs (Decidable (_ ∧ _))

theorem ActionDef.Overlaps.symm {a b : ActionDef} (h : a.Overlaps b) : b.Overlaps a := by
  obtain ⟨htype, hmark, hfield, hold, hnew⟩ := h
  have hswap : ∀ {x y : List Char}, (x = y ∨ x = ['*'] ∨ y = ['*']) →
      (y = x ∨ y = ['*'] ∨ x = ['*']) := by
    intro x y h
    rcases h with h | h | h
    · exact Or.inl h.symm
    · exact Or.inr (Or.inr h)
    · exact Or.inr (Or.inl h)
  exact ⟨htype.symm, hmark.symm, hswap hfield, hswap hold, hswap hnew⟩

theorem ActionDef.overlaps_of_covers {a b r : ActionDef} (ha : a.covers r = true)
    (hb : b.covers r = true) :
    a.Overlaps b := by
  obtain ⟨hmark, htype, hfield, hold, hnew⟩ := ActionDef.covers_iff.mp ha
  obtain ⟨hmark', htype', hfield', hold', hnew'⟩ := ActionDef.covers_iff.mp hb
  have hpart : ∀ {x y z : List Char}, (z = x ∨ x = ['*']) → (z = y ∨ y = ['*']) → x = y ∨
      x = ['*'] ∨ y = ['*'] := by
    intro x y z hx hy
    rcases hx with rfl | hx
    · rcases hy with rfl | hy
      · exact Or.inl rfl
      · exact Or.inr (Or.inr hy)
    · exact Or.inr (Or.inl hx)
  exact ⟨htype.symm.trans htype', hmark.symm.trans hmark', hpart hfield hfield', hpart hold hold',
    hpart hnew hnew'⟩

theorem authMap_keys : authMap.map Prod.fst = authMapActions.map AuthAction.getActionId := rfl

theorem authMapActions_dashFree :
    ∀ action ∈ authMapActions, ∀ part ∈ action.parts, '-' ∉ part.toList := by
  decide

/-- No two of the default rules cover the same action. -/
theorem authMapActions_disjoint : authMapActions.Pairwise fun a b =>
    ¬ a.actionDef.Overlaps b.actionDef := by
  decide

/-- A key of the auth map is the id of one of these actions, and splits into its parts. -/
theorem exists_action_of_key {key : String} (h : key ∈ authMap.map Prod.fst) :
    ∃ action ∈ authMapActions, key = action.getActionId ∧
      splitActionId key = some action.actionDef := by
  rw [authMap_keys, List.mem_map] at h
  obtain ⟨action, hmem, rfl⟩ := h
  exact ⟨action, hmem, rfl,
    AuthAction.splitActionId_getActionId (authMapActions_dashFree action hmem)⟩

/-- An action has at most one rule in the auth map. -/
theorem key_eq_of_covers {key key' : String} {am am' r : ActionDef}
    (hkey : key ∈ authMap.map Prod.fst)
    (hkey' : key' ∈ authMap.map Prod.fst) (ham : splitActionId key = some am)
    (ham' : splitActionId key' = some am')
    (hcovers : am.covers r = true) (hcovers' : am'.covers r = true) : key = key' := by
  obtain ⟨a, ha, rfl, hsplit⟩ := exists_action_of_key hkey
  obtain ⟨b, hb, rfl, hsplit'⟩ := exists_action_of_key hkey'
  obtain rfl : a.actionDef = am := Option.some.inj (hsplit.symm.trans ham)
  obtain rfl : b.actionDef = am' := Option.some.inj (hsplit'.symm.trans ham')
  by_contra hne
  have hsymm : Std.Symm fun a b : AuthAction => ¬ a.actionDef.Overlaps b.actionDef :=
    ⟨fun _ _ hab hba => hab hba.symm⟩
  have hdisjoint := authMapActions_disjoint.forall ha hb fun hab => hne (by rw [hab])
  exact hdisjoint (ActionDef.overlaps_of_covers hcovers hcovers')

theorem nodup_authMap_keys : (authMap.map Prod.fst).Nodup := by
  rw [authMap_keys, List.Nodup, List.pairwise_map]
  refine authMapActions_disjoint.imp_of_mem ?_
  intro a b ha hb hdisjoint heq
  have hsplit := AuthAction.splitActionId_getActionId (authMapActions_dashFree a ha)
  have hsplit' := AuthAction.splitActionId_getActionId (authMapActions_dashFree b hb)
  have hdef : a.actionDef = b.actionDef := Option.some.inj (hsplit.symm.trans (heq ▸ hsplit'))
  apply hdisjoint
  rw [hdef]
  exact ⟨rfl, rfl, Or.inl rfl, Or.inl rfl, Or.inl rfl⟩

variable {rules : List (String × Constraint)} {cache : RoleCache} {request : SignedRequest}
    {action : AuthAction}

/-- A write that is let through has a rule that grants it. -/
theorem exists_rule_of_validate (h : validate rules cache request [action] = .ok ()) :
    ∃ key c am r, (key, c) ∈ rules ∧ splitActionId key = some am ∧
      splitActionId action.getActionId = some r ∧
      am.covers r = true ∧ c.Granted cache request action := by
  unfold validate at h
  rcases hfound : getAuthConstraint action.getActionId rules with _ | _ | c
  · simp [hfound] at h
  · simp [hfound] at h
  · obtain ⟨key, am, r, hmem, ham, hr, hcovers⟩ := exists_rule hfound
    refine ⟨key, c, am, r, hmem, ham, hr, hcovers, ?_⟩
    by_contra hnot
    obtain ⟨reason, herror⟩ := (CompositeAuthorizer.authorize_decides c).2 hnot
    simp [hfound, herror] at h

end SimpleAsset.IndyNode
