import SimpleAsset.IndyNode.RuleLookup

/-! Matching of rules with the actions of requests, whose values are the clients' own
(`auth_actions.py`, `auth_cons_strategies.py`). -/
namespace SimpleAsset.IndyNode

/-- Two dashes next to each other. -/
def HasDelimiter (text : List Char) : Prop := ['-', '-'] <:+: text

instance (text : List Char) : Decidable (HasDelimiter text) :=
  inferInstanceAs (Decidable (_ <:+: _))

/-- The dash at the end of a part, which `split` takes for the first one of the delimiter. The
second dash of the delimiter then begins the next part. -/
def carried (part : List Char) : List Char := if part.getLast? = some '-' then ['-'] else []

/-- A part without the dash at its end. -/
def cut (part : List Char) : List Char := if part.getLast? = some '-' then part.dropLast else part

theorem cut_append_carried (part : List Char) : cut part ++ carried part = part := by
  unfold cut carried
  split_ifs with h
  · exact List.dropLast_append_getLast? _ h
  · exact List.append_nil part

theorem cut_dash_cons (part : List Char) : cut ('-' :: part) = [] ∨ '-' ∈ cut ('-' :: part) := by
  unfold cut
  split_ifs
  · rcases part with _ | ⟨c, part⟩
    · exact Or.inl rfl
    · exact Or.inr List.mem_cons_self
  · exact Or.inr List.mem_cons_self

theorem length_splitDelimiter (part part' text : List Char) :
    (splitDelimiter part text).length = (splitDelimiter part' text).length := by
  induction part, text using splitDelimiter.induct generalizing part' with
  | case1 part rest ih => rw [splitDelimiter, splitDelimiter, List.length_cons, List.length_cons]
  | case2 part c rest hdash ih =>
    rw [splitDelimiter.eq_2 _ _ _ hdash, splitDelimiter.eq_2 _ _ _ hdash]
    exact ih (c :: part')
  | case3 part => rfl

/-- A text is not split in fewer parts with more text before it. -/
theorem length_splitDelimiter_cons (c : Char) (text : List Char) :
    (splitDelimiter [] text).length ≤ (splitDelimiter [] (c :: text)).length := by
  induction hlen : text.length using Nat.strong_induction_on generalizing c text with
  | h n ih =>
    by_cases hdash : ∃ rest, c = '-' ∧ text = '-' :: rest
    · obtain ⟨rest, rfl, rfl⟩ := hdash
      have hwhole : splitDelimiter [] ('-' :: '-' :: rest) = [] :: splitDelimiter [] rest := by
        rw [splitDelimiter]; rfl
      rw [hwhole, List.length_cons]
      by_cases hnext : ∃ rest', rest = '-' :: rest'
      · obtain ⟨rest', rfl⟩ := hnext
        have hpart : splitDelimiter [] ('-' :: '-' :: rest') = [] :: splitDelimiter [] rest' := by
          rw [splitDelimiter]; rfl
        rw [hpart, List.length_cons]
        apply Nat.add_le_add_right
        apply ih rest'.length ?_ '-' rest' rfl
        simp only [List.length_cons] at hlen
        omega
      · rw [splitDelimiter.eq_2 _ _ _ fun rest' _ hrest =>
          hnext ⟨rest', hrest⟩, length_splitDelimiter _ []]
        exact Nat.le_succ _
    · rw [splitDelimiter.eq_2 _ _ _ fun rest hc hrest => hdash ⟨rest, hc, hrest⟩]
      exact (length_splitDelimiter [] [c] text).le

theorem length_splitDelimiter_append (a rest : List Char) :
    (splitDelimiter [] rest).length + 1 ≤ (splitDelimiter [] (a ++ '-' :: '-' :: rest)).length := by
  induction a with
  | nil => exact le_of_eq (by rw [List.nil_append, splitDelimiter, List.length_cons])
  | cons c a ih => exact ih.trans (length_splitDelimiter_cons c _)

theorem HasDelimiter.cons {a : List Char} (h : HasDelimiter a) (c : Char) : HasDelimiter (c :: a) :=
  h.trans (List.suffix_cons c a).isInfix

/-- The dash that `split` sees after a character is not there. -/
theorem eq_two_of_not_hasDelimiter {c : Char} {a : List Char} (h : ¬ HasDelimiter (c :: a))
    (rest : List Char) (hc : c = '-') : a ≠ '-' :: rest := by
  intro ha
  apply h
  rw [hc, ha]
  exact (List.prefix_append ['-', '-'] rest).isInfix

/-- The first delimiter, where there is none within the text before it. -/
theorem splitDelimiter_first {a : List Char} (ha : ¬ HasDelimiter a) (part rest : List Char) :
    splitDelimiter part (a ++ '-' :: '-' :: rest) = (part.reverse ++ cut a) ::
      splitDelimiter [] (carried a ++ rest) := by
  induction a generalizing part with
  | nil => simp [splitDelimiter, cut, carried]
  | cons c a ih =>
    rcases a with _ | ⟨d, a⟩
    · by_cases hc : c = '-'
      · simp [splitDelimiter, cut, carried, hc]
      · rw [List.cons_append, splitDelimiter.eq_2 _ _ _ fun _ h _ => hc h]
        simp [splitDelimiter, cut, carried, hc]
    · have hcut : cut (c :: d :: a) = c :: cut (d :: a) := by
        unfold cut
        rw [List.getLast?_cons_cons, List.dropLast_cons_cons]
        split_ifs <;> rfl
      have hcarried : carried (c :: d :: a) = carried (d :: a) := by
        unfold carried
        rw [List.getLast?_cons_cons]
      rw [List.cons_append, splitDelimiter.eq_2, ih fun h => ha (h.cons c), hcut, hcarried]
      · simp
      · intro rest' hc hrest
        exact eq_two_of_not_hasDelimiter ha a hc (by rw [(List.cons.inj hrest).1])

/-- Without a delimiter all is one part. -/
theorem splitDelimiter_none {a : List Char} (ha : ¬ HasDelimiter a) (part : List Char) :
    splitDelimiter part a = [part.reverse ++ a] := by
  induction a generalizing part with
  | nil => simp [splitDelimiter]
  | cons c a ih =>
    rw [splitDelimiter.eq_2 _ _ _ fun rest hc hrest => eq_two_of_not_hasDelimiter ha rest hc hrest,
      ih fun h => ha (h.cons c)]
    simp

theorem HasDelimiter.two_le_length {a : List Char} (h : HasDelimiter a) :
    2 ≤ (splitDelimiter [] a).length := by
  obtain ⟨s, t, hst⟩ := h
  have happend := length_splitDelimiter_append s t
  have hpos := List.length_pos_of_ne_nil (splitDelimiter_ne_nil [] t)
  rw [← hst, List.append_assoc]
  exact (Nat.succ_le_succ hpos).trans happend

/-- A delimiter within the text before another makes one part more. -/
theorem HasDelimiter.length_append {a : List Char} (h : HasDelimiter a) (rest : List Char) :
    (splitDelimiter [] rest).length + 2 ≤ (splitDelimiter [] (a ++ '-' :: '-' :: rest)).length := by
  obtain ⟨s, t, hst⟩ := h
  have hinner := length_splitDelimiter_append t rest
  have houter := length_splitDelimiter_append s (t ++ '-' :: '-' :: rest)
  have htext : a ++ '-' :: '-' :: rest = s ++ '-' :: '-' :: (t ++ '-' :: '-' :: rest) := by
    simp [← hst]
  rw [htext]
  omega

/-- Field, old value and new value come out of the id as three parts. -/
structure Fits (field oldValue newValue : List Char) : Prop where
  inField : ¬ HasDelimiter field
  inOld : ¬ HasDelimiter (carried field ++ oldValue)
  inNew : ¬ HasDelimiter (carried (carried field ++ oldValue) ++ newValue)

/-- The three parts: what `split` makes of them when they fit, and more parts when they do not. -/
theorem splitDelimiter_three (field oldValue newValue : List Char) :
    (Fits field oldValue newValue →
      splitDelimiter [] (field ++ '-' :: '-' :: (oldValue ++ '-' :: '-' :: newValue)) =
        [cut field, cut (carried field ++ oldValue), carried (carried field ++ oldValue) ++
          newValue]) ∧
    (¬ Fits field oldValue newValue →
      3 < (splitDelimiter []
        (field ++ '-' :: '-' :: (oldValue ++ '-' :: '-' :: newValue))).length) := by
  have hold := length_splitDelimiter_append (carried field ++ oldValue) newValue
  have hpos := List.length_pos_of_ne_nil (splitDelimiter_ne_nil [] newValue)
  constructor
  · intro h
    rw [splitDelimiter_first h.inField, ← List.append_assoc, splitDelimiter_first h.inOld,
      splitDelimiter_none h.inNew]
    rfl
  · intro h
    by_cases hfield : HasDelimiter field
    · have hwhole := hfield.length_append (oldValue ++ '-' :: '-' :: newValue)
      have hrest := length_splitDelimiter_append oldValue newValue
      omega
    · rw [splitDelimiter_first hfield, List.length_cons, ← List.append_assoc]
      by_cases holdValue : HasDelimiter (carried field ++ oldValue)
      · have hrest := holdValue.length_append newValue
        omega
      · rw [splitDelimiter_first holdValue, List.length_cons]
        have hnewValue : HasDelimiter (carried (carried field ++ oldValue) ++ newValue) :=
          not_not.mp fun hnew => h ⟨hfield, holdValue, hnew⟩
        have hrest := hnewValue.two_le_length
        omega

namespace AuthAction

def mark : AuthAction → String
  | add .. => addMark
  | edit .. => editMark

/-- An action that adds something has any old value. -/
def oldValue : AuthAction → String
  | add .. => "*"
  | edit _ _ oldValue _ _ => oldValue

def newValue : AuthAction → String
  | add _ _ value _ => value
  | edit _ _ _ newValue _ => newValue

theorem getActionId_eq (action : AuthAction) :
    action.getActionId = compileActionId action.txnType action.field action.oldValue action.newValue
      action.mark := by
  cases action <;> rfl

theorem actionDef_eq (action : AuthAction) :
    action.actionDef = ⟨action.txnType.toList, action.mark.toList,
    action.field.toList, action.oldValue.toList, action.newValue.toList⟩ := by
  cases action with
  | add => simp [actionDef, txnType, mark, field, oldValue, newValue]
  | edit => rfl

theorem parts_eq (action : AuthAction) :
    action.parts =
      [action.txnType, action.mark, action.field, action.oldValue, action.newValue] := by
  cases action <;> rfl

/-- The rule covers the action, component by component. -/
structure CoveredBy (action rule : AuthAction) : Prop where
  txnType : action.txnType = rule.txnType
  mark : action.mark = rule.mark
  field : action.field = rule.field ∨ rule.field = "*"
  oldValue : action.oldValue = rule.oldValue ∨ rule.oldValue = "*"
  newValue : action.newValue = rule.newValue ∨ rule.newValue = "*"

/-- What `split` makes of the components. -/
def shifted (action : AuthAction) : ActionDef :=
  let field := action.field.toList
  let oldValue := carried field ++ action.oldValue.toList
  ⟨action.txnType.toList, action.mark.toList, cut field, cut oldValue, carried oldValue ++
    action.newValue.toList⟩

/-- The components of the id come out as five parts. -/
def Separable (action : AuthAction) : Prop :=
  Fits action.field.toList action.oldValue.toList action.newValue.toList

theorem mark_dashFree (action : AuthAction) : '-' ∉ action.mark.toList := by
  have hmarks : '-' ∉ addMark.toList ∧ '-' ∉ editMark.toList := by decide
  cases action with
  | add => exact hmarks.1
  | edit => exact hmarks.2

theorem splitActionId_eq {action : AuthAction} (htype : '-' ∉ action.txnType.toList) :
    (action.Separable → splitActionId action.getActionId = some action.shifted) ∧
      (¬ action.Separable → splitActionId action.getActionId = none) := by
  have htext : action.getActionId.toList = action.txnType.toList ++
      '-' :: '-' :: (action.mark.toList ++ '-' :: '-' ::
      (action.field.toList ++
        '-' :: '-' :: (action.oldValue.toList ++ '-' :: '-' :: action.newValue.toList))) := by
    rw [getActionId_eq, compileActionId_eq]
    simp [String.toList_append]
  obtain ⟨hfits, hnot⟩ :=
    splitDelimiter_three action.field.toList action.oldValue.toList action.newValue.toList
  rw [splitActionId, htext, splitDelimiter_append htype, splitDelimiter_append action.mark_dashFree]
  constructor
  · intro h
    rw [hfits h]
    rfl
  · intro h
    have hlength := hnot h
    generalize splitDelimiter []
      (action.field.toList ++ '-' :: '-' :: (action.oldValue.toList ++ '-' :: '-' ::
      action.newValue.toList)) = parts at hlength ⊢
    rcases parts with _ | ⟨a, _ | ⟨b, _ | ⟨c, _ | ⟨d, parts⟩⟩⟩⟩
    · exact absurd hlength (by simp)
    · exact absurd hlength (by simp)
    · exact absurd hlength (by simp)
    · exact absurd hlength (by simp)
    · rfl

/-- What request handlers ask for; texts that are not given here are the client's or come from the
state. -/
inductive Requested : AuthAction → Prop
  | addNym (role : String) : Requested (.add "1" "role" role true)
  | editNym {field : String} (hfield : field ∈ ["role", "verkey"]) (oldValue newValue : String)
      (isOwner : Bool) :
    Requested (.edit "1" field oldValue newValue isOwner)
  | addAttrib {field : String} (hfield : field ∈ ["raw", "enc", "hash"]) (value : String)
      (isOwner : Bool) :
    Requested (.add "100" field value isOwner)
  | editAttrib {field : String} (hfield : field ∈ ["raw", "enc", "hash"]) (oldValue value : String)
      (isOwner : Bool) :
    Requested (.edit "100" field oldValue value isOwner)
  | addNode (services : String) : Requested (.add "0" "services" services true)
  -- The fields are the keys of the client's data.
  | editNode (field oldValue newValue : String) (isOwner : Bool) :
    Requested (.edit "0" field oldValue newValue isOwner)
  | addUpgrade (action : String) : Requested (.add "109" "action" action true)
  | editUpgrade (status action : String) : Requested (.edit "109" "action" status action true)
  | restart (action : String) : Requested (.add "118" "action" action true)
  | editConfig : Requested (.edit "111" "action" "*" "*" true)
  | addAny {type : String}
      (htype : type ∈ ["101", "102", "113", "114", "119", "200", "201", "202", "203", "204", "205",
      "4", "5", "8"]) (isOwner : Bool) : Requested (.add type "*" "*" isOwner)
  | editAny {type : String}
      (htype : type ∈ ["101", "102", "113", "114", "120", "122", "200", "201", "202", "203", "204",
      "205", "4", "9"]) (isOwner : Bool) : Requested (.edit type "*" "*" "*" isOwner)

/-- The types of transaction that are authorized, and the fields that handlers name themselves. -/
def requestedTypes : List String :=
  ["0", "1", "100", "101", "102", "109", "111", "113", "114", "118", "119", "120", "122",
  "200", "201", "202", "203", "204", "205", "4", "5", "8", "9"]

def requestedFields : List String :=
  ["role", "verkey", "raw", "enc", "hash", "services", "action", "*"]

theorem Requested.mem {action : AuthAction} (h : action.Requested) :
    action.txnType ∈ requestedTypes ∧
    (action.field ∈ requestedFields ∨ action.txnType = "0" ∧ action.mark = editMark) := by
  have htype : ∀ type ∈ ["0", "1", "100", "109", "111", "118"], type ∈ requestedTypes := by decide
  have hfield : ∀ field ∈ ["role", "services", "action", "*"], field ∈ requestedFields := by decide
  cases h with
  | addNym role => exact ⟨htype "1" (by decide), Or.inl (hfield "role" (by decide))⟩
  | editNym hnym =>
    exact ⟨htype "1" (by decide), Or.inl ((by decide : ["role", "verkey"] ⊆ requestedFields) hnym)⟩
  | addAttrib hattr =>
    exact ⟨htype "100" (by decide),
      Or.inl ((by decide : ["raw", "enc", "hash"] ⊆ requestedFields) hattr)⟩
  | editAttrib hattr =>
    exact ⟨htype "100" (by decide),
      Or.inl ((by decide : ["raw", "enc", "hash"] ⊆ requestedFields) hattr)⟩
  | addNode services => exact ⟨htype "0" (by decide), Or.inl (hfield "services" (by decide))⟩
  | editNode field => exact ⟨htype "0" (by decide), Or.inr ⟨rfl, rfl⟩⟩
  | addUpgrade action => exact ⟨htype "109" (by decide), Or.inl (hfield "action" (by decide))⟩
  | editUpgrade status action =>
    exact ⟨htype "109" (by decide), Or.inl (hfield "action" (by decide))⟩
  | restart action => exact ⟨htype "118" (by decide), Or.inl (hfield "action" (by decide))⟩
  | editConfig => exact ⟨htype "111" (by decide), Or.inl (hfield "action" (by decide))⟩
  | addAny hany =>
    have hsub : ["101", "102", "113", "114", "119", "200", "201", "202", "203", "204", "205",
        "4", "5", "8"] ⊆
      requestedTypes := by decide
    exact ⟨hsub hany, Or.inl (hfield "*" (by decide))⟩
  | editAny hany =>
    have hsub : ["101", "102", "113", "114", "120", "122", "200", "201", "202", "203", "204",
        "205", "4", "9"] ⊆
      requestedTypes := by decide
    exact ⟨hsub hany, Or.inl (hfield "*" (by decide))⟩

/-- The type of a transaction has no dash, and only a field of a node may end in one. -/
theorem Requested.dashes {action : AuthAction} (h : action.Requested) :
    '-' ∉ action.txnType.toList ∧
    (action.field.toList.getLast? = some '-' → action.txnType = "0" ∧ action.mark = editMark) := by
  have htypes : ∀ type ∈ requestedTypes, '-' ∉ type.toList := by decide
  have hfields : ∀ field ∈ requestedFields, '-' ∉ field.toList := by decide
  obtain ⟨htype, hfield⟩ := h.mem
  refine ⟨htypes _ htype, ?_⟩
  intro hlast
  rcases hfield with hfield | hnode
  · exact absurd (List.mem_of_getLast? hlast) (hfields _ hfield)
  · exact hnode

/-- A rule for an edit has both values or none; the rules for nodes name a field and an old
value. -/
theorem authMapActions_values : ∀ rule ∈ authMapActions, rule.mark = editMark →
    (rule.oldValue = "*" ↔ rule.newValue = "*") ∧
    (rule.txnType = "0" → rule.field ≠ "*" ∧ rule.oldValue ≠ "") := by
  decide

theorem toList_append_dash {a b : String} : a = b ++ "-" ↔ a.toList = b.toList ++ ['-'] := by
  rw [← String.toList_inj, String.toList_append]
  rfl

theorem toList_eq_star {a : String} : a.toList = ['*'] ↔ a = "*" := by
  rw [← String.toList_inj]
  rfl

theorem coveredBy_iff {action rule : AuthAction} : action.CoveredBy rule ↔
    action.mark = rule.mark ∧ action.txnType = rule.txnType ∧
    (action.field = rule.field ∨ rule.field = "*") ∧
      (action.oldValue = rule.oldValue ∨ rule.oldValue = "*") ∧
        (action.newValue = rule.newValue ∨ rule.newValue = "*") :=
  ⟨fun h => ⟨h.mark, h.txnType, h.field, h.oldValue, h.newValue⟩,
    fun h => ⟨h.2.1, h.1, h.2.2.1, h.2.2.2.1, h.2.2.2.2⟩⟩

theorem covers_shifted_iff {rule action : AuthAction} :
    rule.actionDef.covers action.shifted = true ↔
    action.mark = rule.mark ∧ action.txnType = rule.txnType ∧
      (cut action.field.toList = rule.field.toList ∨ rule.field = "*") ∧
      (cut (carried action.field.toList ++ action.oldValue.toList) = rule.oldValue.toList ∨
        rule.oldValue = "*") ∧
      (carried (carried action.field.toList ++ action.oldValue.toList) ++ action.newValue.toList =
        rule.newValue.toList ∨ rule.newValue = "*") := by
  rw [ActionDef.covers_iff, actionDef_eq]
  simp only [shifted, String.toList_inj, toList_eq_star]

/-- A dash at the end of an old value does no harm: rules have both values or none. -/
theorem covers_shifted_old {rule action : AuthAction} (hrule : rule ∈ authMapActions)
    (hfield : action.field.toList.getLast? ≠ some '-') :
    rule.actionDef.covers action.shifted = true ↔ action.CoveredBy rule := by
  have hdashFree := authMapActions_dashFree rule hrule
  rw [parts_eq] at hdashFree
  have hcarried : carried action.field.toList = [] := if_neg hfield
  have hcut : cut action.field.toList = action.field.toList := if_neg hfield
  rw [covers_shifted_iff, coveredBy_iff, hcarried, hcut, List.nil_append, String.toList_inj]
  by_cases hlast : action.oldValue.toList.getLast? = some '-'
  · have hold : action.oldValue ≠ rule.oldValue := by
      intro heq
      rw [heq] at hlast
      exact hdashFree rule.oldValue (by simp) (List.mem_of_getLast? hlast)
    have hnew : carried action.oldValue.toList ++
        action.newValue.toList ≠ rule.newValue.toList := by
      intro heq
      apply hdashFree rule.newValue (by simp)
      rw [← heq, carried, if_pos hlast]
      exact List.mem_cons_self
    have hedit : action.mark = editMark := by
      cases action with
      | add => exact absurd hlast (show "*".toList.getLast? ≠ some '-' by decide)
      | edit => rfl
    simp only [hold, hnew, false_or]
    constructor
    · rintro ⟨hmark, htype, hmatch, -, hstar⟩
      have hvalues := (authMapActions_values rule hrule (hmark ▸ hedit)).1
      exact ⟨hmark, htype, hmatch, hvalues.mpr hstar, Or.inr hstar⟩
    · rintro ⟨hmark, htype, hmatch, hstar, -⟩
      have hvalues := (authMapActions_values rule hrule (hmark ▸ hedit)).1
      exact ⟨hmark, htype, hmatch, Or.inr hstar, hvalues.mp hstar⟩
  · have hcarriedOld : carried action.oldValue.toList = [] := if_neg hlast
    have hcutOld : cut action.oldValue.toList = action.oldValue.toList := if_neg hlast
    rw [hcarriedOld, hcutOld, List.nil_append, String.toList_inj, String.toList_inj]

/-- A dash at the end of the field of a node makes it another field. -/
theorem covers_shifted_field {rule action : AuthAction} (hrule : rule ∈ authMapActions)
    (hlast : action.field.toList.getLast? = some '-') (hnode : action.txnType = "0")
    (hedit : action.mark = editMark) :
    ¬ action.CoveredBy rule ∧ (rule.actionDef.covers action.shifted = true ↔
      action.mark = rule.mark ∧ action.txnType = rule.txnType ∧ action.field = rule.field ++ "-" ∧
        rule.oldValue = "*") := by
  have hdashFree := authMapActions_dashFree rule hrule
  rw [parts_eq] at hdashFree
  have hvalues := authMapActions_values rule hrule
  have hfield : action.field.toList = cut action.field.toList ++ ['-'] := by
    have happend := cut_append_carried action.field.toList
    rw [carried, if_pos hlast] at happend
    exact happend.symm
  have hcut : cut action.field.toList = rule.field.toList ↔ action.field = rule.field ++ "-" := by
    rw [toList_append_dash]
    constructor
    · intro heq
      rw [← heq]
      exact hfield
    · intro heq
      rw [heq] at hfield
      rw [heq]
      exact (List.append_cancel_right hfield).symm
  constructor
  · intro h
    rcases h.field with hsame | hstar
    · rw [hsame] at hlast
      exact hdashFree rule.field (by simp) (List.mem_of_getLast? hlast)
    · exact ((hvalues (h.mark ▸ hedit)).2 (h.txnType ▸ hnode)).1 hstar
  · rw [covers_shifted_iff]
    constructor
    · rintro ⟨hmark, htype, hmatch, hold, -⟩
      obtain ⟨-, hnamed⟩ := hvalues (hmark ▸ hedit)
      obtain ⟨hstar, hempty⟩ := hnamed (htype ▸ hnode)
      refine ⟨hmark, htype, hcut.mp (hmatch.resolve_right hstar), ?_⟩
      rcases hold with hold | hold
      · -- What is left of a dash and the old value is empty or begins with the dash.
        exfalso
        rw [carried, if_pos hlast] at hold
        rcases cut_dash_cons action.oldValue.toList with hnone | hdash
        · exact hempty (String.toList_eq_nil_iff.mp (hold.symm.trans hnone))
        · exact hdashFree rule.oldValue (by simp) (hold ▸ hdash)
      · exact hold
    · rintro ⟨hmark, htype, hsame, hold⟩
      have hboth := (hvalues (hmark ▸ hedit)).1
      exact ⟨hmark, htype, Or.inl (hcut.mpr hsame), Or.inr hold, Or.inr (hboth.mp hold)⟩

/-- Rules of the auth map and actions of requests are matched component by component, if no
delimiter is in the components or arises from a dash at the end of one, and if the field is not that
of the rule with a dash after it. -/
theorem isAcceptedActionId_requested_iff {rule action : AuthAction} (hrule : rule ∈ authMapActions)
    (haction : action.Requested) :
    (∃ accepted, isAcceptedActionId rule.getActionId action.getActionId = some accepted ∧
      (accepted = true ↔ action.CoveredBy rule)) ↔
    action.Separable ∧
    ¬ (action.mark = rule.mark ∧ action.txnType = rule.txnType ∧ action.field = rule.field ++ "-" ∧
      rule.oldValue = "*") := by
  obtain ⟨htype, hdash⟩ := haction.dashes
  obtain ⟨hsome, hnone⟩ := splitActionId_eq htype
  have hsplit := splitActionId_getActionId (authMapActions_dashFree rule hrule)
  unfold isAcceptedActionId
  rw [hsplit]
  by_cases hseparable : action.Separable
  · rw [hsome hseparable]
    have hanswer : (∃ accepted, some (rule.actionDef.covers action.shifted) = some accepted ∧
        (accepted = true ↔ action.CoveredBy rule)) ↔
          (rule.actionDef.covers action.shifted = true ↔ action.CoveredBy rule) := by
      simp
    refine hanswer.trans ?_
    by_cases hlast : action.field.toList.getLast? = some '-'
    · obtain ⟨hnode, hedit⟩ := hdash hlast
      obtain ⟨hnot, hcovers⟩ := covers_shifted_field hrule hlast hnode hedit
      rw [hcovers, iff_false_right hnot]
      exact ⟨fun h => ⟨hseparable, h⟩, fun h => h.2⟩
    · refine iff_of_true (covers_shifted_old hrule hlast) ⟨hseparable, ?_⟩
      rintro ⟨-, -, hsame, -⟩
      apply hlast
      rw [toList_append_dash.mp hsame]
      exact List.getLast?_concat
  · rw [hnone hseparable]
    refine iff_of_false ?_ fun h => hseparable h.1
    rintro ⟨accepted, haccepted, -⟩
    exact nomatch haccepted

theorem isAcceptedActionId_requested_iff_attrib :
    (∃ accepted, isAcceptedActionId (addAny "100").getActionId
      (add "100" "enc" "a" true).getActionId = some accepted ∧
      (accepted = true ↔ (add "100" "enc" "a" true).CoveredBy (addAny "100"))) ↔
    (add "100" "enc" "a" true).Separable ∧
    ¬ ((add "100" "enc" "a" true).mark = (addAny "100").mark ∧
      (add "100" "enc" "a" true).txnType = (addAny "100").txnType ∧
        (add "100" "enc" "a" true).field = (addAny "100").field ++ "-" ∧
        (addAny "100").oldValue = "*") :=
  isAcceptedActionId_requested_iff (by decide) (.addAttrib (by decide) "a" true)

/-- An attribute with two dashes in it cannot be looked up. -/
theorem not_isAcceptedActionId_attrib : addAny "100" ∈ authMapActions ∧
    (add "100" "enc" "a--b" true).Requested ∧
    ¬ ∃ accepted, isAcceptedActionId (addAny "100").getActionId
      (add "100" "enc" "a--b" true).getActionId = some accepted := by
  refine ⟨by decide, .addAttrib (by decide) "a--b" true, ?_⟩
  have hnone : isAcceptedActionId (addAny "100").getActionId
      (add "100" "enc" "a--b" true).getActionId = none := by
    decide
  rw [hnone]
  rintro ⟨accepted, haccepted⟩
  exact nomatch haccepted

end AuthAction

end SimpleAsset.IndyNode
