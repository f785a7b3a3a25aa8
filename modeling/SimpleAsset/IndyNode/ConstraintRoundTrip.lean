import SimpleAsset.IndyNode.ConstraintObjects

/-! Auth constraints survive being turned into dictionaries and made again, and the dictionaries
they are made of are left as they are. -/
namespace SimpleAsset.IndyNode
open SimpleAsset.Indy SimpleAsset.Library SimpleAsset.Library.HeapM

section Frame

variable {h₀ : PyHeap} {fromDict : ConstraintClass → ℕ → PyM ConstraintObject} {d : ℕ}

theorem spares_iterate (v : PyValue) : Spares h₀ (iterate v) fun _ => True := by
  cases v with
  | ref a =>
    refine (spares_deref _ a).bind fun o _ => ?_
    rcases o with items | items | _ | ⟨c, cs⟩
    · exact spares_pure trivial
    · exact spares_pure trivial
    · exact spares_pure trivial
    · exact spares_throw _
  | str s => exact spares_pure trivial
  | none => exact spares_throw _
  | bool b => exact spares_throw _
  | number n => exact spares_throw _

theorem spares_insertPair (items : PyDict) (item : PyValue) :
    Spares h₀ (insertPair items item) fun _ => True := by
  refine (spares_iterate item).bind fun pair _ => ?_
  split
  · split
    · exact spares_pure trivial
    · exact spares_throw _
  · exact spares_throw _

theorem spares_pairsDict (v : PyValue) : Spares h₀ (pairsDict v) (h₀.length ≤ ·) :=
  (spares_iterate v).bind fun items _ =>
    (spares_foldlM spares_insertPair [] items).bind fun _ _ => spares_alloc _

/-- A copy is a new object. -/
theorem spares_copyDict (v : PyValue) : Spares h₀ (copyDict v) (h₀.length ≤ ·) := by
  cases v with
  | ref a =>
    refine (spares_deref _ a).bind fun o _ => ?_
    cases o with
    | dict items => exact spares_alloc _
    | list items => exact spares_pairsDict _
    | constraints cs => exact spares_pairsDict _
  | _ => exact spares_pairsDict _

theorem spares_dictAt (d : ℕ) : Spares h₀ (dictAt d) fun _ => True := by
  refine (spares_deref _ d).bind fun o _ => ?_
  cases o with
  | dict items => exact spares_pure trivial
  | list items => exact spares_throw _
  | constraints cs => exact spares_throw _

theorem spares_getItem (d : ℕ) (key : String) : Spares h₀ (getItem d key) fun _ => True := by
  refine (spares_dictAt d).bind fun items _ => ?_
  split
  · exact spares_pure trivial
  · exact spares_throw _

theorem spares_getOr (d : ℕ) (key : String) (default : PyValue) :
    Spares h₀ (getOr d key default) fun _ => True :=
  (spares_dictAt d).bind fun _ _ => spares_pure trivial

/-- What is popped from is a copy. -/
theorem spares_popItem (hd : h₀.length ≤ d) (key : String) :
    Spares h₀ (popItem d key) fun _ => True := by
  refine (spares_dictAt d).bind fun items _ => ?_
  split
  · exact (spares_put hd _).bind fun _ _ => spares_pure trivial
  · exact spares_throw _

theorem spares_pyTruth (v : PyValue) : Spares h₀ (pyTruth v) fun _ => True := by
  refine spares_get.bind fun h _ => ?_
  split
  · exact spares_pure trivial
  · exact spares_throw _

theorem spares_newAuthConstraint
    (role sigCount needToBeOwner offLedgerSignature metadata : PyValue) :
    Spares h₀ (newAuthConstraint role sigCount needToBeOwner offLedgerSignature metadata)
      fun _ => True := by
  unfold newAuthConstraint
  split
  · exact spares_throw _
  · refine (spares_pyTruth _).bind fun b _ => ?_
    split
    · exact spares_throw _
    · exact spares_pure trivial

theorem spares_authConstraintFromDict (d : ℕ) :
    Spares h₀ (authConstraintFromDict d) fun _ => True :=
  (spares_getItem d _).bind fun _ _ => (spares_getItem d _).bind fun _ _ =>
    (spares_getOr d _ _).bind fun _ _ =>
    (spares_getOr d _ _).bind fun _ _ => (spares_alloc _).bind fun _ _ =>
      (spares_getOr d _ _).bind fun _ _ =>
      spares_newAuthConstraint _ _ _ _ _

theorem spares_constraintsArgument (d : ℕ) : Spares h₀ (constraintsArgument d) fun _ => True := by
  refine (spares_dictAt d).bind fun items _ => ?_
  split
  · split
    · refine (spares_deref _ _).bind fun o _ => ?_
      cases o with
      | constraints cs => exact spares_pure trivial
      | dict items => exact spares_throw _
      | list items => exact spares_throw _
    · exact spares_throw _
  · exact spares_throw _

theorem spares_constraintClass (constraintId : PyValue) :
    Spares h₀ (constraintClass constraintId) fun _ => True := by
  unfold constraintClass
  split
  · exact spares_throw _
  · split
    · exact spares_pure trivial
    · exact spares_throw _

theorem spares_dispatch (hfrom : ∀ cls d, h₀.length ≤ d → Spares h₀ (fromDict cls d) fun _ => True)
    (checked : Bool)
    (input : PyValue) : Spares h₀ (dispatch fromDict checked input) fun _ => True := by
  refine (spares_copyDict input).bind fun d hd =>
    (spares_popItem hd _).bind fun constraintId _ => ?_
  split
  · exact spares_throw _
  · exact (spares_constraintClass _).bind fun cls _ => hfrom cls d hd

theorem spares_nestedFromDict
    (hfrom : ∀ cls d, h₀.length ≤ d → Spares h₀ (fromDict cls d) fun _ => True)
    (checked : Bool) (hd : h₀.length ≤ d) :
    Spares h₀ (nestedFromDict fromDict checked d) fun _ => True :=
  (spares_getItem d _).bind fun _ _ => (spares_iterate _).bind fun inputs _ =>
    (spares_mapM (spares_dispatch hfrom checked) inputs).bind fun _ _ =>
      (spares_alloc _).bind fun _ _ =>
      (spares_dictAt d).bind fun _ _ => (spares_put hd _).bind fun _ _ =>
        spares_constraintsArgument d

/-- `from_dict` changes the dictionary it is given, and nothing that was there before. -/
theorem spares_classFromDict (fuel : ℕ) (cls : ConstraintClass) (hd : h₀.length ≤ d) :
    Spares h₀ (classFromDict fuel cls d) fun _ => True := by
  induction fuel generalizing cls d with
  | zero =>
    cases cls with
    | role => exact spares_authConstraintFromDict d
    | forbidden => exact spares_pure trivial
    | and => exact spares_throw _
    | or => exact spares_throw _
  | succ fuel ih =>
    have hnested := fun checked => spares_nestedFromDict (fun cls d hd => ih cls hd) checked hd
    cases cls with
    | role => exact spares_authConstraintFromDict d
    | forbidden => exact spares_pure trivial
    | and => exact (hnested false).bind fun _ _ => spares_pure trivial
    | or => exact (hnested true).bind fun _ _ => spares_pure trivial

theorem spares_createConstraintObject (fuel : ℕ) (input : PyValue) :
    Spares h₀ (createConstraintObject fuel input) fun _ => True :=
  spares_dispatch (fun cls _ hd => spares_classFromDict fuel cls hd) true input

end Frame

section Equality

/-- Both dictionaries have the same keys, with values that are related. -/
def SameItems (R : PyValue → PyValue → Prop) (items items' : PyDict) : Prop :=
  ∀ key, Option.Rel R (items.lookup key) (items'.lookup key)

/-- Two values are equal as far as can be seen by following at most `n` addresses. -/
def SameTo : ℕ → PyHeap → PyValue → PyHeap → PyValue → Prop
  | 0, _, _, _, _ => True
  | n + 1, h, .ref a, h', .ref b =>
    match h[a]?, h'[b]? with
    | some (.dict items), some (.dict items') =>
      SameItems (fun v w => SameTo n h v h' w) items items'
    | some (.list items), some (.list items') =>
      List.Forall₂ (fun v w => SameTo n h v h' w) items items'
    | _, _ => False
  | _ + 1, _, v, _, w => v = w

/-- `v == w`. Values without parts are told apart more finely than Python does. -/
def Equal (h : PyHeap) (v : PyValue) (h' : PyHeap) (w : PyValue) : Prop := ∀ n, SameTo n h v h' w

variable {h h' h₁ h₁' : PyHeap} {v w : PyValue} {a b n : ℕ}

theorem SameItems.imp {R S : PyValue → PyValue → Prop} (himp : ∀ v w, R v w → S v w)
    {items items' : PyDict} (h : SameItems R items items') : SameItems S items items' := by
  intro key
  specialize h key
  generalize items.lookup key = x, items'.lookup key = y at h
  cases h with
  | none => exact .none
  | some h => exact .some (himp _ _ h)

theorem SameTo.mono (hkept : Kept h h₁) (hkept' : Kept h' h₁') (hsame : SameTo n h v h' w) :
    SameTo n h₁ v h₁' w := by
  induction n generalizing v w with
  | zero => trivial
  | succ n ih =>
    cases v <;> cases w <;> try exact hsame
    rename_i a b
    unfold SameTo at hsame ⊢
    rcases ha : h[a]? with _ | o
    · simp [ha] at hsame
    · rcases hb : h'[b]? with _ | o'
      · simp [ha, hb] at hsame
      · rw [ha, hb] at hsame
        rw [hkept a o ha, hkept' b o' hb]
        cases o <;> cases o' <;> try exact hsame
        · exact SameItems.imp (fun v w => ih) hsame
        · exact List.Forall₂.imp (fun v w => ih) hsame

theorem Equal.mono (hkept : Kept h h₁) (hkept' : Kept h' h₁') (hequal : Equal h v h' w) :
    Equal h₁ v h₁' w :=
  fun n => (hequal n).mono hkept hkept'

theorem Equal.eq_of_atom (hequal : Equal h v h' w) (hw : ∀ a, w ≠ .ref a) : v = w := by
  have hsame := hequal 1
  cases v <;> cases w <;> try exact hsame
  exact absurd rfl (hw _)

/-- What equals a dictionary is a dictionary with equal values. -/
theorem Equal.dict {items' : PyDict} (hequal : Equal h v h' (.ref b))
    (hb : h'[b]? = some (.dict items')) :
    ∃ a items, v = .ref a ∧ h[a]? = some (.dict items) ∧
      SameItems (fun v w => Equal h v h' w) items items' := by
  have hone := hequal 1
  cases v with
  | ref a =>
    unfold SameTo at hone
    rw [hb] at hone
    rcases ha : h[a]? with _ | o
    · simp [ha] at hone
    · rw [ha] at hone
      cases o with
      | dict items =>
        refine ⟨a, items, rfl, ha, ?_⟩
        intro key
        have hkey : ∀ n,
            Option.Rel (fun v w => SameTo n h v h' w) (items.lookup key) (items'.lookup key) := by
          intro n
          have hsame := hequal (n + 1)
          unfold SameTo at hsame
          rw [ha, hb] at hsame
          exact hsame key
        rcases hx : items.lookup key with _ | x <;> rcases hy : items'.lookup key with _ | y
        · exact .none
        · have hrel := hkey 0
          rw [hx, hy] at hrel
          cases hrel
        · have hrel := hkey 0
          rw [hx, hy] at hrel
          cases hrel
        · refine .some fun n => ?_
          have hrel := hkey n
          rw [hx, hy] at hrel
          cases hrel with
          | some hsame => exact hsame
      | list items => exact hone.elim
      | constraints cs => exact hone.elim
  | none => cases hone
  | bool b => cases hone
  | number n => cases hone
  | str s => cases hone

theorem Equal.list {items' : List PyValue} (hequal : Equal h v h' (.ref b))
    (hb : h'[b]? = some (.list items')) :
    ∃ a items, v = .ref a ∧ h[a]? = some (.list items) ∧
      List.Forall₂ (fun v w => Equal h v h' w) items items' := by
  have hone := hequal 1
  cases v with
  | ref a =>
    unfold SameTo at hone
    rw [hb] at hone
    rcases ha : h[a]? with _ | o
    · simp [ha] at hone
    · rw [ha] at hone
      cases o with
      | dict items => exact hone.elim
      | list items =>
        have hall : ∀ n, List.Forall₂ (fun v w => SameTo n h v h' w) items items' := by
          intro n
          have hsame := hequal (n + 1)
          unfold SameTo at hsame
          rwa [ha, hb] at hsame
        refine ⟨a, items, rfl, ha, ?_⟩
        rw [List.forall₂_iff_get]
        refine ⟨(hall 0).length_eq, ?_⟩
        intro i hi hi' n
        exact (List.forall₂_iff_get.mp (hall n)).2 i hi hi'
      | constraints cs => exact hone.elim
  | none => cases hone
  | bool b => cases hone
  | number n => cases hone
  | str s => cases hone

end Equality

section Meaning

variable {h h' h₀ h₁ : PyHeap} {R : PyValue → PyValue → Prop}

theorem truth_mono (hkept : Kept h h') {v : PyValue} {b : Bool} (htruth : truth h v = some b) :
    truth h' v = some b := by
  cases v with
  | ref a =>
    rw [truth, Option.map_eq_some_iff] at htruth ⊢
    obtain ⟨o, ho, hb⟩ := htruth
    exact ⟨o, hkept a o ho, hb⟩
  | _ => exact htruth

/-- What `__init__` has made sure of: an `off_ledger_signature` that is true goes with any role. -/
inductive ConstraintObject.Built (h : PyHeap) : ConstraintObject → Prop
  | forbidden : Built h .forbidden
  | role {c : RoleObject} {b : Bool} (htruth : truth h c.offLedgerSignature = some b)
    (hany : b = true → c.role = .any) : Built h (.role c)
  | and {cs : List ConstraintObject} (hall : ∀ c ∈ cs, Built h c) : Built h (.and cs)
  | or {cs : List ConstraintObject} (hall : ∀ c ∈ cs, Built h c) : Built h (.or cs)

theorem ConstraintObject.Built.mono (htruth : ∀ v b, truth h v = some b → truth h' v = some b)
    {c : ConstraintObject} (hbuilt : c.Built h) : c.Built h' := by
  induction hbuilt with
  | forbidden => exact .forbidden
  | role hb hany => exact .role (htruth _ _ hb) hany
  | and _ ih => exact .and ih
  | or _ ih => exact .or ih

/-- A value that was read stands for one of a constraint: the same one, or an equal one. -/
structure Reads (R : PyValue → PyValue → Prop) (h h₀ : PyHeap) : Prop where
  atom : ∀ v w, R v w → (∀ a, w ≠ .ref a) → v = w
  none : R .none .none
  truth : ∀ v w b, R v w → truth h₀ w = some b → truth h v = some b

theorem Reads.mono (hreads : Reads R h h₀) (hkept : Kept h h') : Reads R h' h₀ :=
  ⟨hreads.atom, hreads.none, fun v w b hrel htruth =>
    truth_mono hkept (hreads.truth v w b hrel htruth)⟩

theorem reads_eq (hkept : Kept h₀ h) : Reads Eq h h₀ :=
  ⟨fun _ _ hvw _ => hvw, rfl, fun _ _ _ hvw htruth => hvw ▸ truth_mono hkept htruth⟩

theorem SameItems.isEmpty_eq {items items' : PyDict} (hsame : SameItems R items items') :
    items.isEmpty = items'.isEmpty := by
  cases items with
  | nil =>
    cases items' with
    | nil => rfl
    | cons item items' =>
      have hrel := hsame item.1
      rw [List.lookup_cons_self] at hrel
      cases hrel
  | cons item items =>
    cases items' with
    | nil =>
      have hrel := hsame item.1
      rw [List.lookup_cons_self] at hrel
      cases hrel
    | cons item' items' => rfl

theorem reads_equal : Reads (fun v w => Equal h v h₀ w) h h₀ := by
  refine ⟨fun v w hequal => hequal.eq_of_atom, fun n => by cases n <;> trivial, ?_⟩
  intro v w b hequal htruth
  by_cases hw : ∃ a, w = .ref a
  · obtain ⟨a, rfl⟩ := hw
    rw [truth, Option.map_eq_some_iff] at htruth
    obtain ⟨o, ho, rfl⟩ := htruth
    cases o with
    | dict items' =>
      obtain ⟨a, items, rfl, ha, hsame⟩ := hequal.dict ho
      simp [truth, ha, hsame.isEmpty_eq]
    | list items' =>
      obtain ⟨a, items, rfl, ha, hsame⟩ := hequal.list ho
      cases hsame <;> simp [truth, ha]
    | constraints cs =>
      have hone := hequal 1
      cases v with
      | ref a =>
        unfold SameTo at hone
        rw [ho] at hone
        split at hone <;> simp_all
      | _ => cases hone
  · have hatom : ∀ a, w ≠ .ref a := fun a ha => hw ⟨a, ha⟩
    obtain rfl : v = w := hequal.eq_of_atom hatom
    cases v with
    | ref a => exact absurd rfl (hatom a)
    | _ => exact htruth

/-- The dictionary of a list of constraints with the values the list has. -/
def StandsGroup (h : PyHeap) (constraintId : String) (v : PyValue) (vs : List PyValue) : Prop :=
  ∃ a items l, v = .ref a ∧ h[a]? = some (.dict items) ∧ h[l]? = some (.list vs) ∧
    SameItems Eq items
    [(.str "constraint_id", .str constraintId), (.str "auth_constraints", .ref l)]

mutual

/-- A value is a dictionary for a constraint: `R` relates its values to those of the constraint. -/
def Stands (R : PyValue → PyValue → Prop) (h : PyHeap) (v : PyValue) : ConstraintObject → Prop
  | .forbidden => ∃ a items, v = .ref a ∧ h[a]? = some (.dict items) ∧
      SameItems R items [(.str "constraint_id", .str "FORBIDDEN")]
  | .role c => ∃ a items, v = .ref a ∧ h[a]? = some (.dict items) ∧ SameItems R items c.items
  | .and cs => ∃ vs, StandsGroup h "AND" v vs ∧ StandAll R h vs cs
  | .or cs => ∃ vs, StandsGroup h "OR" v vs ∧ StandAll R h vs cs

def StandAll (R : PyValue → PyValue → Prop) (h : PyHeap) (vs : List PyValue) :
    List ConstraintObject → Prop
  | [] => vs = []
  | c :: cs => ∃ v vs', vs = v :: vs' ∧ Stands R h v c ∧ StandAll R h vs' cs

end

mutual

/-- Constraints of the same shape with related values. -/
def Alike (R : PyValue → PyValue → Prop) (c' : ConstraintObject) : ConstraintObject → Prop
  | .forbidden => c' = .forbidden
  | .role c => ∃ d, c' = .role d ∧ d.role = c.role ∧ R d.sigCount c.sigCount ∧
      R d.needToBeOwner c.needToBeOwner ∧
      R d.offLedgerSignature c.offLedgerSignature ∧ R d.metadata c.metadata
  | .and cs => ∃ ds, c' = .and ds ∧ AllAlike R ds cs
  | .or cs => ∃ ds, c' = .or ds ∧ AllAlike R ds cs

def AllAlike (R : PyValue → PyValue → Prop) (ds : List ConstraintObject) :
    List ConstraintObject → Prop
  | [] => ds = []
  | c :: cs => ∃ d ds', ds = d :: ds' ∧ Alike R d c ∧ AllAlike R ds' cs

end

mutual

theorem eq_of_alike {c' : ConstraintObject} : (c : ConstraintObject) → Alike Eq c' c → c' = c
  | .forbidden, h => h
  | .role c, h => by
    obtain ⟨d, rfl, hrole, hsig, hneed, hoff, hmeta⟩ := h
    cases c
    cases d
    simp_all
  | .and cs, h => by
    obtain ⟨ds, rfl, hall⟩ := h
    rw [eq_of_allAlike cs hall]
  | .or cs, h => by
    obtain ⟨ds, rfl, hall⟩ := h
    rw [eq_of_allAlike cs hall]

theorem eq_of_allAlike {ds : List ConstraintObject} :
    (cs : List ConstraintObject) → AllAlike Eq ds cs → ds = cs
  | [], h => h
  | c :: cs, h => by
    obtain ⟨d, ds', rfl, hhead, htail⟩ := h
    rw [eq_of_alike c hhead, eq_of_allAlike cs htail]

end

theorem StandsGroup.mono (hkept : Kept h h') {constraintId : String} {v : PyValue}
    {vs : List PyValue}
    (hstands : StandsGroup h constraintId v vs) : StandsGroup h' constraintId v vs := by
  obtain ⟨a, items, l, hv, ha, hl, hsame⟩ := hstands
  exact ⟨a, items, l, hv, hkept a _ ha, hkept l _ hl, hsame⟩

mutual

theorem Stands.mono (hkept : Kept h h') {v : PyValue} :
    {c : ConstraintObject} → Stands R h v c → Stands R h' v c
  | .forbidden, hstands => by
    obtain ⟨a, items, hv, ha, hsame⟩ := hstands
    exact ⟨a, items, hv, hkept a _ ha, hsame⟩
  | .role _, hstands => by
    obtain ⟨a, items, hv, ha, hsame⟩ := hstands
    exact ⟨a, items, hv, hkept a _ ha, hsame⟩
  | .and _, hstands => by
    obtain ⟨vs, hgroup, hall⟩ := hstands
    exact ⟨vs, hgroup.mono hkept, hall.mono hkept⟩
  | .or _, hstands => by
    obtain ⟨vs, hgroup, hall⟩ := hstands
    exact ⟨vs, hgroup.mono hkept, hall.mono hkept⟩

theorem StandAll.mono (hkept : Kept h h') {vs : List PyValue} :
    {cs : List ConstraintObject} → StandAll R h vs cs → StandAll R h' vs cs
  | [], hall => hall
  | _ :: _, hall => by
    obtain ⟨v, vs', rfl, hstands, hrest⟩ := hall
    exact ⟨v, vs', rfl, hstands.mono hkept, hrest.mono hkept⟩

end

end Meaning

section Creation

variable {h h' h₀ : PyHeap} {R : PyValue → PyValue → Prop}
    {fromDict : ConstraintClass → ℕ → PyM ConstraintObject}
  {checked : Bool} {items : PyDict} {a d : ℕ}

theorem gives_dictAt (hd : h[d]? = some (.dict items)) : (dictAt d).Gives h items h :=
  (gives_deref _ hd).bind (gives_pure _ _)

theorem gives_getItem {key : String} {v : PyValue} (hd : h[d]? = some (.dict items))
    (hkey : items.lookup (.str key) = some v) : (getItem d key).Gives h v h := by
  refine (gives_dictAt hd).bind ?_
  rw [hkey]
  exact gives_pure _ _

theorem gives_getOr {key : String} {default : PyValue} (hd : h[d]? = some (.dict items)) :
    (getOr d key default).Gives h ((items.lookup (.str key)).getD default) h :=
  (gives_dictAt hd).bind (gives_pure _ _)

theorem lookup_filter_ne {key key' : PyValue} (hne : key' ≠ key) (items : PyDict) :
    (items.filter fun item => item.1 ≠ key).lookup key' = items.lookup key' := by
  induction items with
  | nil => rfl
  | cons item items ih =>
    obtain ⟨k, v⟩ := item
    by_cases hk : k = key
    · subst hk
      rw [List.filter_cons_of_neg (by simp), ih, List.lookup_cons, beq_false_of_ne hne]
    · rw [List.filter_cons_of_pos (by simpa using hk), List.lookup_cons, List.lookup_cons, ih]

theorem constraintClass_constraintId (cls : ConstraintClass) (h : PyHeap) :
    (constraintClass (.str cls.constraintId)).Gives h cls h := by
  cases cls <;> rfl

/-- The copy of a dictionary goes to its class without the name of the class. -/
theorem gives_dispatch (cls : ConstraintClass) {c : ConstraintObject}
    (ha : h[a]? = some (.dict items))
    (hid : items.lookup (.str "constraint_id") = some (.str cls.constraintId))
    (hfrom : (fromDict cls h.length).Gives
      (h ++ [.dict (items.filter fun item => item.1 ≠ .str "constraint_id")]) c h') :
    (dispatch fromDict checked (.ref a)).Gives h c h' := by
  have hcopy : (copyDict (.ref a)).Gives h h.length (h ++ [.dict items]) :=
    (gives_deref _ ha).bind (gives_alloc _ _)
  have hnew : (h ++ [PyObject.dict items])[h.length]? = some (.dict items) := by simp
  have hpop : (popItem h.length "constraint_id").Gives (h ++ [.dict items]) (.str cls.constraintId)
      (h ++ [.dict (items.filter fun item => item.1 ≠ .str "constraint_id")]) := by
    refine (gives_dictAt hnew).bind ?_
    rw [hid]
    refine (gives_put _ _ _).bind ?_
    rw [List.set_append_right _ _ (Nat.le_refl _), Nat.sub_self]
    exact gives_pure _ _
  refine hcopy.bind (hpop.bind ?_)
  rw [if_neg (by simp)]
  exact (constraintClass_constraintId cls _).bind hfrom

theorem ConstraintRole.ofPy_asPy (role : ConstraintRole) : ofPy role.asPy = some role := by
  rcases role with _ | _ | role
  · decide
  · decide
  · cases role <;> decide

theorem ConstraintRole.asPy_ne_ref (role : ConstraintRole) (a : ℕ) : role.asPy ≠ .ref a := by
  rcases role with _ | _ | role <;> simp [asPy]

theorem lookup_of_sameItems {items' : PyDict} {w : PyValue} (hsame : SameItems R items items')
    (key : PyValue)
    (hkey : items'.lookup key = some w) : ∃ v, items.lookup key = some v ∧ R v w := by
  have hrel := hsame key
  rw [hkey] at hrel
  rcases hv : items.lookup key with _ | v
  · rw [hv] at hrel
    cases hrel
  · rw [hv] at hrel
    cases hrel with
    | some hvw => exact ⟨v, rfl, hvw⟩

theorem lookup_none_of_sameItems {items' : PyDict} (hsame : SameItems R items items')
    (key : PyValue) (hkey : items'.lookup key = none) : items.lookup key = none := by
  have hrel := hsame key
  rw [hkey] at hrel
  rcases hv : items.lookup key with _ | v
  · rfl
  · rw [hv] at hrel
    cases hrel

/-- The dictionary of a role makes one with related values. -/
theorem gives_role {c : RoleObject} (hreads : Reads R h h₀)
    (hbuilt : (ConstraintObject.role c).Built h₀)
    (ha : h[a]? = some (.dict items)) (hsame : SameItems R items c.items) (fuel : ℕ) :
    ∃ c' h', (dispatch (classFromDict fuel) checked (.ref a)).Gives h c' h' ∧ Kept h h' ∧
      Alike R c' (.role c) := by
  obtain ⟨role, sigCount, needToBeOwner, offLedgerSignature, metadata⟩ := c
  cases hbuilt with
  | role htruth hany =>
  rename_i b
  obtain ⟨idValue, hid, hidRel⟩ := lookup_of_sameItems hsame (.str "constraint_id") rfl
  obtain rfl : idValue = .str "ROLE" := hreads.atom _ _ hidRel (by simp)
  obtain ⟨roleValue, hrole, hroleRel⟩ := lookup_of_sameItems hsame (.str "role") rfl
  obtain rfl : roleValue = role.asPy := hreads.atom _ _ hroleRel role.asPy_ne_ref
  obtain ⟨sig, hsig, hsigRel⟩ := lookup_of_sameItems hsame (.str "sig_count") rfl
  obtain ⟨need, hneed, hneedRel⟩ := lookup_of_sameItems hsame (.str "need_to_be_owner") rfl
  obtain ⟨data, hdata, hdataRel⟩ := lookup_of_sameItems hsame (.str "metadata") rfl
  -- The field is left out for `None`, and read as `None` where it is left out.
  have hoff : R ((items.lookup (.str "off_ledger_signature")).getD .none) offLedgerSignature := by
    by_cases hnone : offLedgerSignature = .none
    · subst hnone
      rw [lookup_none_of_sameItems hsame (.str "off_ledger_signature") rfl]
      exact hreads.none
    · have hlookup :
          (RoleObject.items ⟨role, sigCount, needToBeOwner, offLedgerSignature, metadata⟩).lookup
          (.str "off_ledger_signature") = some offLedgerSignature := by
        rw [RoleObject.items, if_neg hnone]
        rfl
      obtain ⟨off, hoff, hoffRel⟩ := lookup_of_sameItems hsame _ hlookup
      rw [hoff]
      exact hoffRel
  let items' := items.filter fun item => item.1 ≠ .str "constraint_id"
  have hrest : ∀ key : String, key ≠ "constraint_id" →
      items'.lookup (.str key) = items.lookup (.str key) :=
    fun key hkey => lookup_filter_ne (by simpa using hkey) items
  let h₁ : PyHeap := h ++ [.dict items']
  let h₂ : PyHeap := h₁ ++ [.dict []]
  have hd₁ : h₁[h.length]? = some (.dict items') := by simp [h₁]
  have hd₂ : h₂[h.length]? = some (.dict items') := kept_append h₁ _ _ _ hd₁
  have hkept : Kept h h₂ := (kept_append h _).append _
  refine ⟨.role ⟨role, sig, need, (items.lookup (.str "off_ledger_signature")).getD .none, data⟩,
    h₂, ?_, hkept, ?_⟩
  · apply gives_dispatch .role ha hid
    have hfrom : classFromDict fuel .role h.length = authConstraintFromDict h.length := by
      cases fuel <;> rfl
    rw [hfrom]
    refine (gives_getItem hd₁ ((hrest "role" (by decide)).trans hrole)).bind ?_
    refine (gives_getItem hd₁ ((hrest "sig_count" (by decide)).trans hsig)).bind ?_
    refine (gives_getOr hd₁).bind
      ((gives_getOr hd₁).bind ((gives_alloc _ _).bind ((gives_getOr hd₂).bind ?_)))
    rw [hrest "need_to_be_owner" (by decide), hneed, hrest "off_ledger_signature" (by decide),
      hrest "metadata" (by decide), hdata, newAuthConstraint, ConstraintRole.ofPy_asPy]
    have hpyTruth : (pyTruth ((items.lookup (.str "off_ledger_signature")).getD .none)).Gives
        h₂ b h₂ := by
      refine Gives.bind (runOn_get h₂) ?_
      rw [truth_mono hkept (hreads.truth _ _ b hoff htruth)]
      exact gives_pure _ _
    refine hpyTruth.bind ?_
    rw [if_neg (by simpa using hany)]
    exact gives_pure _ _
  · exact ⟨_, rfl, rfl, hsigRel, hneedRel, hoff, hdataRel⟩

theorem lookup_dictSet_self (key v : PyValue) (items : PyDict) :
    (dictSet key v items).lookup key = some v := by
  unfold dictSet
  split
  · rename_i hany
    induction items with
    | nil => simp at hany
    | cons item items ih =>
      obtain ⟨k, w⟩ := item
      by_cases hk : k = key
      · rw [List.map_cons, if_pos hk, List.lookup_cons_self]
      · have hrest : (items.any fun item => item.1 = key) = true := by simpa [hk] using hany
        rw [List.map_cons, if_neg hk, List.lookup_cons, beq_false_of_ne (Ne.symm hk)]
        exact ih hrest
  · rename_i hany
    have hnone : items.lookup key = none := by
      rw [List.lookup_eq_none_iff]
      intro item hitem
      have hne : ¬ item.1 = key :=
        fun heq => hany (List.any_eq_true.mpr ⟨item, hitem, by simpa using heq⟩)
      exact bne_iff_ne.mpr (Ne.symm hne)
    rw [List.lookup_append, hnone]
    simp

theorem dictSet_all {key v : PyValue} {items : PyDict} (hall : ∀ item ∈ items, item.1 = key) :
    ((dictSet key v items).all fun item => item.1 = key) = true := by
  rw [List.all_eq_true]
  intro item hitem
  unfold dictSet at hitem
  split at hitem
  · obtain ⟨old, hold, rfl⟩ := List.mem_map.mp hitem
    simp [hall old hold]
  · rcases List.mem_append.mp hitem with hold | hnew
    · simpa using hall item hold
    · simp [List.mem_singleton.mp hnew]

/-- The dictionary of a list of constraints makes the list of what its items make. -/
theorem gives_group (fromDict : ConstraintClass → ℕ → PyM ConstraintObject) (checked : Bool)
    (P : List ConstraintObject → Prop) (cls : ConstraintClass)
    (make : List ConstraintObject → ConstraintObject)
    {fromDict' : ConstraintClass → ℕ → PyM ConstraintObject} {constraintId : String} {v : PyValue}
    {vs : List PyValue} {nestedChecked : Bool}
    (hgroup : StandsGroup h constraintId v vs) (hcls : constraintId = cls.constraintId)
    (hfrom : ∀ d, fromDict cls d = do return make (← nestedFromDict fromDict' nestedChecked d))
    (hitems : ∀ h₁, Kept h h₁ → ∃ cs h₂,
      (vs.mapM (dispatch fromDict' nestedChecked)).Gives h₁ cs h₂ ∧ Kept h₁ h₂ ∧ P cs) :
    ∃ cs h', (dispatch fromDict checked v).Gives h (make cs) h' ∧ Kept h h' ∧ P cs := by
  obtain ⟨a, items, l, rfl, ha, hl, hsame⟩ := hgroup
  subst hcls
  obtain ⟨idValue, hid, rfl⟩ := lookup_of_sameItems hsame (.str "constraint_id") rfl
  obtain ⟨listValue, hauth, rfl⟩ := lookup_of_sameItems hsame (.str "auth_constraints") rfl
  let items' := items.filter fun item => item.1 ≠ .str "constraint_id"
  have hauth' : items'.lookup (.str "auth_constraints") = some (.ref l) :=
    (lookup_filter_ne (by decide) items).trans hauth
  have hall : ∀ item ∈ items', item.1 = .str "auth_constraints" := by
    intro item hitem
    obtain ⟨hmem, hne⟩ := List.mem_filter.mp hitem
    have hne : ¬ item.1 = .str "constraint_id" := by simpa using hne
    by_contra hother
    have hnone : items.lookup item.1 = none := by
      apply lookup_none_of_sameItems hsame
      rw [List.lookup_cons, beq_false_of_ne hne, List.lookup_cons, beq_false_of_ne hother]
      rfl
    have hself := List.lookup_eq_none_iff.mp hnone item hmem
    simp at hself
  let h₁ : PyHeap := h ++ [.dict items']
  have hkept₁ : Kept h h₁ := kept_append h _
  have hd₁ : h₁[h.length]? = some (.dict items') := by simp [h₁]
  have hiterate : (iterate (.ref l)).Gives h₁ vs h₁ :=
    (gives_deref _ (hkept₁ l _ hl)).bind (gives_pure _ _)
  obtain ⟨cs, h₂, hmap, hkept₂, hcs⟩ := hitems h₁ hkept₁
  have hlength : h.length < h₂.length := by
    have hle := hkept₂.length_le
    simp only [h₁, List.length_append, List.length_cons] at hle
    omega
  let h₃ : PyHeap := h₂ ++ [.constraints cs]
  have hkept₃ : Kept h₁ h₃ := hkept₂.append _
  have hd₃ : h₃[h.length]? = some (.dict items') := hkept₃ _ _ hd₁
  let items₄ := dictSet (.str "auth_constraints") (.ref h₂.length) items'
  let h₄ : PyHeap := h₃.set h.length (.dict items₄)
  have hd₄ : h₄[h.length]? = some (.dict items₄) := by
    apply List.getElem?_set_self
    simp only [h₃, List.length_append]
    omega
  have hlist₄ : h₄[h₂.length]? = some (.constraints cs) := by
    rw [List.getElem?_set_ne (by omega)]
    simp [h₃]
  refine ⟨cs, h₄, ?_, (hkept₁.trans hkept₃).set (Nat.le_refl _) _, hcs⟩
  apply gives_dispatch _ ha hid
  rw [hfrom]
  refine Gives.bind (a := cs) ?_ (gives_pure _ h₄)
  refine (gives_getItem hd₁ hauth').bind (hiterate.bind (hmap.bind ((gives_alloc _ _).bind
    ((gives_dictAt hd₃).bind ((gives_put _ _ _).bind ?_)))))
  refine (gives_dictAt hd₄).bind ?_
  rw [if_pos (dictSet_all hall), lookup_dictSet_self]
  exact (gives_deref _ hlist₄).bind (gives_pure _ _)

mutual

/-- The dictionary of a constraint makes one with related values, and nothing that was there
changes. By recursion on the constraint, with the loop over its children alongside. -/
theorem dispatch_stands (checked : Bool) {h : PyHeap} {v : PyValue} {fuel : ℕ}
    (hreads : Reads R h h₀) :
    (c : ConstraintObject) → c.Built h₀ → Stands R h v c → c.depth ≤ fuel →
      ∃ c' h', (dispatch (classFromDict fuel) checked v).Gives h c' h' ∧ Kept h h' ∧ Alike R c' c
  | .forbidden, _, hstands, _ => by
    obtain ⟨a, items, rfl, ha, hsame⟩ := hstands
    obtain ⟨idValue, hid, hidRel⟩ := lookup_of_sameItems hsame (.str "constraint_id") rfl
    obtain rfl : idValue = .str "FORBIDDEN" := hreads.atom _ _ hidRel (by simp)
    refine ⟨.forbidden, h ++ [.dict (items.filter fun item => item.1 ≠ .str "constraint_id")], ?_,
      kept_append h _, rfl⟩
    apply gives_dispatch .forbidden ha hid
    cases fuel <;> exact gives_pure _ _
  | .role c, hbuilt, hstands, _ => by
    obtain ⟨a, items, rfl, ha, hsame⟩ := hstands
    exact gives_role hreads hbuilt ha hsame fuel
  | .and cs, hbuilt, hstands, hdepth => by
    obtain ⟨vs, hgroup, hall⟩ := hstands
    cases hbuilt with
    | and hbuilt =>
    cases fuel with
    | zero => exact absurd hdepth (Nat.not_succ_le_zero _)
    | succ fuel =>
      have hdepth' := Nat.le_of_succ_le_succ hdepth
      obtain ⟨cs', h', hgives, hkept, hlike⟩ := gives_group (classFromDict (fuel + 1)) checked
        (fun cs' => AllAlike R cs' cs) .and .and hgroup rfl (fun _ => rfl)
        fun h₁ hkept =>
          mapM_dispatch_standAll _ (hreads.mono hkept) cs hbuilt (hall.mono hkept) hdepth'
      exact ⟨.and cs', h', hgives, hkept, cs', rfl, hlike⟩
  | .or cs, hbuilt, hstands, hdepth => by
    obtain ⟨vs, hgroup, hall⟩ := hstands
    cases hbuilt with
    | or hbuilt =>
    cases fuel with
    | zero => exact absurd hdepth (Nat.not_succ_le_zero _)
    | succ fuel =>
      have hdepth' := Nat.le_of_succ_le_succ hdepth
      obtain ⟨cs', h', hgives, hkept, hlike⟩ := gives_group (classFromDict (fuel + 1)) checked
        (fun cs' => AllAlike R cs' cs) .or .or hgroup rfl (fun _ => rfl)
        fun h₁ hkept =>
          mapM_dispatch_standAll _ (hreads.mono hkept) cs hbuilt (hall.mono hkept) hdepth'
      exact ⟨.or cs', h', hgives, hkept, cs', rfl, hlike⟩

theorem mapM_dispatch_standAll (checked : Bool) {h : PyHeap} {vs : List PyValue} {fuel : ℕ}
    (hreads : Reads R h h₀) :
    (cs : List ConstraintObject) → (∀ c ∈ cs, c.Built h₀) → StandAll R h vs cs →
    ConstraintObject.depths cs ≤ fuel →
      ∃ cs' h', (vs.mapM (dispatch (classFromDict fuel) checked)).Gives h cs' h' ∧ Kept h h' ∧
        AllAlike R cs' cs
  | [], _, hall, _ => by
    obtain rfl : vs = [] := hall
    exact ⟨[], h, gives_pure _ _, Kept.refl h, rfl⟩
  | c :: cs, hbuilt, hall, hdepth => by
    obtain ⟨v, vs', rfl, hstands, hrest⟩ := hall
    have hdepths : c.depth ≤ fuel ∧ ConstraintObject.depths cs ≤ fuel := by
      simpa [ConstraintObject.depths] using hdepth
    obtain ⟨c', h₁, hgives, hkept, hlike⟩ :=
      dispatch_stands checked hreads c (hbuilt c (by simp)) hstands hdepths.1
    obtain ⟨cs', h₂, hgives', hkept', hlike'⟩ :=
      mapM_dispatch_standAll checked (hreads.mono hkept) cs
      (fun d hd => hbuilt d (by simp [hd])) (hrest.mono hkept) hdepths.2
    refine ⟨c' :: cs', h₂, ?_, hkept.trans hkept', c', cs', rfl, hlike, hlike'⟩
    rw [List.mapM_cons]
    exact hgives.bind (hgives'.bind (gives_pure _ _))

end

end Creation

section RoundTrip

variable {h h' h₀ h₁ : PyHeap} {R : PyValue → PyValue → Prop}

theorem sameItems_refl (items : PyDict) : SameItems Eq items items := by
  intro key
  cases items.lookup key with
  | none => exact .none
  | some v => exact .some rfl

/-- The dictionary of a list of constraints, as `as_dict` makes it. -/
theorem gives_groupDict (constraintId : String) {vs : List PyValue} {make : PyM (List PyValue)}
    (hmake : make.Gives h vs h') (hkept : Kept h h') :
    ∃ v h₁, (do
        let a ← alloc (.list (← make))
        return PyValue.ref (← alloc (.dict [(.str "constraint_id", .str constraintId),
          (.str "auth_constraints", .ref a)])) : PyM PyValue).Gives h v h₁ ∧ Kept h h₁ ∧
            Kept h' h₁ ∧
      StandsGroup h₁ constraintId v vs := by
  let items : PyDict :=
    [(.str "constraint_id", .str constraintId), (.str "auth_constraints", .ref h'.length)]
  let h₁ : PyHeap := h' ++ [.list vs] ++ [.dict items]
  have hkept₁ : Kept h' h₁ := (kept_append h' _).append _
  refine ⟨.ref (h' ++ [PyObject.list vs]).length, h₁, ?_, hkept.trans hkept₁, hkept₁, ?_⟩
  · exact hmake.bind ((gives_alloc _ _).bind ((gives_alloc _ _).bind (gives_pure _ _)))
  · refine ⟨_, items, h'.length, rfl, by simp [h₁], ?_, sameItems_refl items⟩
    exact kept_append _ _ _ _ (by simp)

mutual

/-- `as_dict` makes a dictionary for the constraint and changes nothing. -/
theorem gives_asDict (c : ConstraintObject) (h : PyHeap) :
    ∃ v h', c.asDict.Gives h v h' ∧ Kept h h' ∧ Stands Eq h' v c := by
  match c with
  | .forbidden =>
    refine ⟨.ref h.length, h ++ [.dict [(.str "constraint_id", .str "FORBIDDEN")]], ?_,
      kept_append h _, _, _, rfl, ?_, sameItems_refl _⟩
    · rw [ConstraintObject.asDict]
      exact (gives_alloc _ _).bind (gives_pure _ _)
    · simp
  | .role c =>
    refine ⟨.ref h.length, h ++ [.dict c.items], ?_, kept_append h _, _, _, rfl, ?_,
      sameItems_refl _⟩
    · rw [ConstraintObject.asDict]
      exact (gives_alloc _ _).bind (gives_pure _ _)
    · simp
  | .and cs =>
    obtain ⟨vs, h₁, hgives, hkept, hall⟩ := gives_asDicts cs h
    obtain ⟨v, h₂, hgives', hkept', hkept₁, hgroup⟩ := gives_groupDict "AND" hgives hkept
    rw [ConstraintObject.asDict]
    exact ⟨v, h₂, hgives', hkept', vs, hgroup, hall.mono hkept₁⟩
  | .or cs =>
    obtain ⟨vs, h₁, hgives, hkept, hall⟩ := gives_asDicts cs h
    obtain ⟨v, h₂, hgives', hkept', hkept₁, hgroup⟩ := gives_groupDict "OR" hgives hkept
    rw [ConstraintObject.asDict]
    exact ⟨v, h₂, hgives', hkept', vs, hgroup, hall.mono hkept₁⟩

theorem gives_asDicts (cs : List ConstraintObject) (h : PyHeap) :
    ∃ vs h', (ConstraintObject.asDicts cs).Gives h vs h' ∧ Kept h h' ∧ StandAll Eq h' vs cs := by
  match cs with
  | [] =>
    refine ⟨[], h, ?_, Kept.refl h, rfl⟩
    rw [ConstraintObject.asDicts]
    exact gives_pure _ _
  | c :: cs =>
    obtain ⟨v, h₁, hgives, hkept, hstands⟩ := gives_asDict c h
    obtain ⟨vs, h₂, hgives', hkept', hall⟩ := gives_asDicts cs h₁
    refine ⟨v :: vs, h₂, ?_, hkept.trans hkept', v, vs, rfl, hstands.mono hkept', hall⟩
    rw [ConstraintObject.asDicts]
    exact hgives.bind (hgives'.bind (gives_pure _ _))

end

theorem SameItems.lookup_eq {items items' : PyDict} (heq : SameItems Eq items items')
    (key : PyValue) :
    items.lookup key = items'.lookup key := by
  have hrel := heq key
  generalize items.lookup key = x, items'.lookup key = y at hrel
  cases hrel with
  | none => rfl
  | some hxy => rw [hxy]

theorem SameItems.trans_eq {items items' items'' : PyDict} (hsame : SameItems R items items')
    (heq : SameItems Eq items' items'') : SameItems R items items'' := by
  intro key
  rw [← heq.lookup_eq]
  exact hsame key

theorem SameItems.cons {items items' : PyDict} {v w : PyValue} (key : PyValue) (hrel : R v w)
    (hsame : SameItems R items items') : SameItems R ((key, v) :: items) ((key, w) :: items') := by
  intro key'
  rw [List.lookup_cons, List.lookup_cons]
  split
  · exact .some hrel
  · exact hsame key'

theorem StandsGroup.of_equal {constraintId : String} {v w : PyValue} {ws : List PyValue}
    (hequal : Equal h v h₀ w) (hgroup : StandsGroup h₀ constraintId w ws) :
    ∃ vs, StandsGroup h constraintId v vs ∧ List.Forall₂ (fun v w => Equal h v h₀ w) vs ws := by
  obtain ⟨b, items', l, rfl, hb, hl, hsame⟩ := hgroup
  obtain ⟨a, items, rfl, ha, hitems⟩ := hequal.dict hb
  have hitems := hitems.trans_eq hsame
  obtain ⟨idValue, hid, hidEqual⟩ := lookup_of_sameItems hitems (.str "constraint_id") rfl
  obtain rfl : idValue = .str constraintId := hidEqual.eq_of_atom (by simp)
  obtain ⟨listValue, hauth, hlistEqual⟩ := lookup_of_sameItems hitems (.str "auth_constraints") rfl
  obtain ⟨l', vs, rfl, hl', hall⟩ := hlistEqual.list hl
  refine ⟨vs, ⟨a, items, l', rfl, ha, hl', ?_⟩, hall⟩
  intro key
  by_cases hkey : key = .str "constraint_id"
  · subst hkey
    rw [hid]
    exact .some rfl
  · by_cases hkey' : key = .str "auth_constraints"
    · subst hkey'
      rw [hauth]
      exact .some rfl
    · have hnone : ∀ l, List.lookup key
          [(.str "constraint_id", .str constraintId),
            (PyValue.str "auth_constraints", PyValue.ref l)] = none := by
        intro l
        rw [List.lookup_cons, beq_false_of_ne hkey, List.lookup_cons, beq_false_of_ne hkey']
        rfl
      rw [hnone, lookup_none_of_sameItems hitems _ (hnone l)]
      exact .none

mutual

/-- A value that equals the dictionary of a constraint is a dictionary for it. -/
theorem Stands.of_equal {v w : PyValue} (hequal : Equal h v h₀ w) :
    (c : ConstraintObject) → Stands Eq h₀ w c → Stands (fun v w => Equal h v h₀ w) h v c
  | .forbidden, hstands => by
    obtain ⟨b, items', rfl, hb, hsame⟩ := hstands
    obtain ⟨a, items, rfl, ha, hitems⟩ := hequal.dict hb
    exact ⟨a, items, rfl, ha, hitems.trans_eq hsame⟩
  | .role c, hstands => by
    obtain ⟨b, items', rfl, hb, hsame⟩ := hstands
    obtain ⟨a, items, rfl, ha, hitems⟩ := hequal.dict hb
    exact ⟨a, items, rfl, ha, hitems.trans_eq hsame⟩
  | .and cs, hstands => by
    obtain ⟨ws, hgroup, hall⟩ := hstands
    obtain ⟨vs, hgroup', hequals⟩ := hgroup.of_equal hequal
    exact ⟨vs, hgroup', StandAll.of_equal hequals cs hall⟩
  | .or cs, hstands => by
    obtain ⟨ws, hgroup, hall⟩ := hstands
    obtain ⟨vs, hgroup', hequals⟩ := hgroup.of_equal hequal
    exact ⟨vs, hgroup', StandAll.of_equal hequals cs hall⟩

theorem StandAll.of_equal {vs ws : List PyValue}
    (hequals : List.Forall₂ (fun v w => Equal h v h₀ w) vs ws) :
    (cs : List ConstraintObject) → StandAll Eq h₀ ws cs →
    StandAll (fun v w => Equal h v h₀ w) h vs cs
  | [], hall => by
    obtain rfl : ws = [] := hall
    cases hequals
    rfl
  | c :: cs, hall => by
    obtain ⟨w, ws', rfl, hstands, hrest⟩ := hall
    cases hequals with
    | cons hequal hequals =>
      exact ⟨_, _, rfl, Stands.of_equal hequal c hstands, StandAll.of_equal hequals cs hrest⟩

end

/-- `__eq__`: the dictionaries of both are equal. -/
def ConstraintObject.EqualObjects (h : PyHeap) (c c' : ConstraintObject) : Prop :=
  ∃ v h₁ w h₂, c.asDict.Gives h v h₁ ∧ c'.asDict.Gives h₁ w h₂ ∧ Equal h₂ v h₂ w

theorem sameTo_atom {v : PyValue} (hv : ∀ a, v ≠ .ref a) (n : ℕ) : SameTo n h v h' v := by
  cases n with
  | zero => trivial
  | succ n =>
    cases v with
    | ref a => exact absurd rfl (hv a)
    | _ => rfl

/-- A field that is left out for `None` is left out on both sides. -/
theorem sameItems_items {c c' : RoleObject} (hrole : c'.role = c.role)
    (hsig : Equal h c'.sigCount h' c.sigCount) (hneed : Equal h c'.needToBeOwner h' c.needToBeOwner)
    (hoff : Equal h c'.offLedgerSignature h' c.offLedgerSignature)
    (hmeta : Equal h c'.metadata h' c.metadata) :
    SameItems (fun v w => Equal h v h' w) c'.items c.items := by
  have hatom : ∀ v : PyValue, (∀ a, v ≠ .ref a) → Equal h v h' v := fun v hv n => sameTo_atom hv n
  have hnone : c'.offLedgerSignature = .none ↔ c.offLedgerSignature = .none := by
    constructor
    · intro hleft
      have hone := hoff 1
      rw [hleft] at hone
      exact hone.symm
    · intro hright
      exact (hoff.eq_of_atom (by simp [hright])).trans hright
  unfold RoleObject.items
  rw [hrole]
  refine .cons _ (hatom _ (by simp))
    (.cons _ (hatom _ c.role.asPy_ne_ref) (.cons _ hsig (.cons _ hneed (.cons _ hmeta ?_))))
  by_cases hleft : c'.offLedgerSignature = .none
  · rw [if_pos hleft, if_pos (hnone.mp hleft)]
    exact fun _ => .none
  · rw [if_neg hleft, if_neg fun hright => hleft (hnone.mpr hright)]
    exact .cons _ hoff fun _ => .none

theorem sameTo_dict {n a b : ℕ} {items items' middle middle' : PyDict}
    (ha : h[a]? = some (.dict items))
    (hb : h'[b]? = some (.dict items')) (hitems : SameItems Eq items middle)
    (hitems' : SameItems Eq items' middle')
    (hsame : SameItems (fun v w => SameTo n h v h' w) middle middle') :
    SameTo (n + 1) h (.ref a) h' (.ref b) := by
  unfold SameTo
  rw [ha, hb]
  intro key
  rw [hitems.lookup_eq, hitems'.lookup_eq]
  exact hsame key

theorem sameTo_group {constraintId : String} {v w : PyValue} {vs ws : List PyValue}
    (hgroup : StandsGroup h constraintId v vs) (hgroup' : StandsGroup h' constraintId w ws)
    (hall : ∀ n, List.Forall₂ (fun v w => SameTo n h v h' w) vs ws) (n : ℕ) :
    SameTo n h v h' w := by
  obtain ⟨a, items, l, rfl, ha, hl, hitems⟩ := hgroup
  obtain ⟨b, items', l', rfl, hb, hl', hitems'⟩ := hgroup'
  cases n with
  | zero => trivial
  | succ n =>
    refine sameTo_dict ha hb hitems hitems'
      (.cons _ (sameTo_atom (by simp) n) (.cons _ ?_ fun _ => .none))
    cases n with
    | zero => trivial
    | succ n =>
      unfold SameTo
      rw [hl, hl']
      exact hall n

mutual

/-- Dictionaries for constraints with equal values are equal. -/
theorem sameTo_of_alike {v w : PyValue} {c' : ConstraintObject} :
    (c : ConstraintObject) → Alike (fun v w => Equal h v h' w) c' c → Stands Eq h v c' →
    Stands Eq h' w c →
      ∀ n, SameTo n h v h' w
  | .forbidden, hlike, hstands, hstands', n => by
    obtain rfl : c' = .forbidden := hlike
    obtain ⟨a, items, rfl, ha, hitems⟩ := hstands
    obtain ⟨b, items', rfl, hb, hitems'⟩ := hstands'
    cases n with
    | zero => trivial
    | succ n =>
      exact sameTo_dict ha hb hitems hitems' (.cons _ (sameTo_atom (by simp) n) fun _ => .none)
  | .role c, hlike, hstands, hstands', n => by
    obtain ⟨d, rfl, hrole, hsig, hneed, hoff, hmeta⟩ := hlike
    obtain ⟨a, items, rfl, ha, hitems⟩ := hstands
    obtain ⟨b, items', rfl, hb, hitems'⟩ := hstands'
    cases n with
    | zero => trivial
    | succ n =>
      have hsame := sameItems_items hrole hsig hneed hoff hmeta
      exact sameTo_dict ha hb hitems hitems' (hsame.imp fun v w hequal => hequal n)
  | .and cs, hlike, hstands, hstands', n => by
    obtain ⟨ds, rfl, hlikes⟩ := hlike
    obtain ⟨vs, hgroup, hall⟩ := hstands
    obtain ⟨ws, hgroup', hall'⟩ := hstands'
    exact sameTo_group hgroup hgroup' (sameTo_of_allAlike cs hlikes hall hall') n
  | .or cs, hlike, hstands, hstands', n => by
    obtain ⟨ds, rfl, hlikes⟩ := hlike
    obtain ⟨vs, hgroup, hall⟩ := hstands
    obtain ⟨ws, hgroup', hall'⟩ := hstands'
    exact sameTo_group hgroup hgroup' (sameTo_of_allAlike cs hlikes hall hall') n

theorem sameTo_of_allAlike {vs ws : List PyValue} {cs' : List ConstraintObject} :
    (cs : List ConstraintObject) → AllAlike (fun v w => Equal h v h' w) cs' cs →
    StandAll Eq h vs cs' →
      StandAll Eq h' ws cs → ∀ n, List.Forall₂ (fun v w => SameTo n h v h' w) vs ws
  | [], hlike, hall, hall', n => by
    obtain rfl : cs' = [] := hlike
    obtain rfl : vs = [] := hall
    obtain rfl : ws = [] := hall'
    exact .nil
  | c :: cs, hlike, hall, hall', n => by
    obtain ⟨d, ds, rfl, hhead, htail⟩ := hlike
    obtain ⟨v, vs', rfl, hstands, hrest⟩ := hall
    obtain ⟨w, ws', rfl, hstands', hrest'⟩ := hall'
    exact .cons (sameTo_of_alike c hhead hstands hstands' n)
      (sameTo_of_allAlike cs htail hrest hrest' n)

end

mutual

theorem Alike.imp {S : PyValue → PyValue → Prop} (himp : ∀ v w, R v w → S v w)
    {c' : ConstraintObject} :
    (c : ConstraintObject) → Alike R c' c → Alike S c' c
  | .forbidden, hlike => hlike
  | .role c, hlike => by
    obtain ⟨d, hd, hrole, hsig, hneed, hoff, hmeta⟩ := hlike
    exact ⟨d, hd, hrole, himp _ _ hsig, himp _ _ hneed, himp _ _ hoff, himp _ _ hmeta⟩
  | .and cs, hlike => by
    obtain ⟨ds, hds, hall⟩ := hlike
    exact ⟨ds, hds, AllAlike.imp himp cs hall⟩
  | .or cs, hlike => by
    obtain ⟨ds, hds, hall⟩ := hlike
    exact ⟨ds, hds, AllAlike.imp himp cs hall⟩

theorem AllAlike.imp {S : PyValue → PyValue → Prop} (himp : ∀ v w, R v w → S v w)
    {ds : List ConstraintObject} :
    (cs : List ConstraintObject) → AllAlike R ds cs → AllAlike S ds cs
  | [], hall => hall
  | c :: cs, hall => by
    obtain ⟨d, ds', hds, hhead, htail⟩ := hall
    exact ⟨d, ds', hds, hhead.imp himp c, AllAlike.imp himp cs htail⟩

end

end RoundTrip

section Validation

variable {h h' : PyHeap} {d : ℕ}

theorem dictAt_of_gives {items : PyDict} (hgives : (dictAt d).Gives h items h') :
    h[d]? = some (.dict items) ∧ h' = h := by
  obtain ⟨o, h₁, hderef, hmatch⟩ := gives_bind_iff.mp hgives
  obtain ⟨ho, rfl⟩ := gives_deref_iff.mp hderef
  cases o with
  | dict items' =>
    obtain ⟨rfl, rfl⟩ := gives_pure_iff.mp hmatch
    exact ⟨ho, rfl⟩
  | list items' => exact absurd hmatch not_gives_throw
  | constraints cs => exact absurd hmatch not_gives_throw

theorem getItem_of_gives {key : String} {v : PyValue} (hgives : (getItem d key).Gives h v h') :
    ∃ items, h[d]? = some (.dict items) ∧ items.lookup (.str key) = some v ∧ h' = h := by
  obtain ⟨items, h₁, hdict, hmatch⟩ := gives_bind_iff.mp hgives
  obtain ⟨hd, rfl⟩ := dictAt_of_gives hdict
  rcases hkey : items.lookup (.str key) with _ | w
  · rw [hkey] at hmatch
    exact absurd hmatch not_gives_throw
  · rw [hkey] at hmatch
    obtain ⟨rfl, rfl⟩ := gives_pure_iff.mp hmatch
    exact ⟨items, hd, hkey, rfl⟩

theorem pyTruth_of_gives {v : PyValue} {b : Bool} (hgives : (pyTruth v).Gives h b h') :
    truth h v = some b ∧ h' = h := by
  obtain ⟨heap, h₁, hget, hmatch⟩ := gives_bind_iff.mp hgives
  obtain ⟨rfl, rfl⟩ : heap = h ∧ h₁ = h := by
    rw [Gives, runOn_get, Prod.mk.injEq, Except.ok.injEq] at hget
    exact ⟨hget.1.symm, hget.2.symm⟩
  rcases htruth : truth h₁ v with _ | c
  · rw [htruth] at hmatch
    exact absurd hmatch not_gives_throw
  · rw [htruth] at hmatch
    obtain ⟨rfl, rfl⟩ := gives_pure_iff.mp hmatch
    exact ⟨rfl, rfl⟩

theorem built_of_newAuthConstraint
    {role sigCount needToBeOwner offLedgerSignature metadata : PyValue} {c : ConstraintObject}
    (hgives :
      (newAuthConstraint role sigCount needToBeOwner offLedgerSignature metadata).Gives h c h') :
    c.Built h' := by
  unfold newAuthConstraint at hgives
  split at hgives
  · exact absurd hgives not_gives_throw
  · obtain ⟨b, h₁, htruth, hif⟩ := gives_bind_iff.mp hgives
    obtain ⟨htruth, rfl⟩ := pyTruth_of_gives htruth
    split at hif
    · exact absurd hif not_gives_throw
    · rename_i hnot
      obtain ⟨rfl, rfl⟩ := gives_pure_iff.mp hif
      refine .role htruth ?_
      rintro rfl
      simpa using hnot

theorem built_of_authConstraintFromDict {c : ConstraintObject}
    (hgives : (authConstraintFromDict d).Gives h c h') :
    c.Built h' := by
  obtain ⟨role, _, _, hgives⟩ := gives_bind_iff.mp hgives
  obtain ⟨sigCount, _, _, hgives⟩ := gives_bind_iff.mp hgives
  obtain ⟨needToBeOwner, _, _, hgives⟩ := gives_bind_iff.mp hgives
  obtain ⟨offLedgerSignature, _, _, hgives⟩ := gives_bind_iff.mp hgives
  obtain ⟨empty, _, _, hgives⟩ := gives_bind_iff.mp hgives
  obtain ⟨metadata, _, _, hgives⟩ := gives_bind_iff.mp hgives
  exact built_of_newAuthConstraint hgives

/-- What is made one after another is valid at the end. -/
theorem built_of_mapM {make : PyValue → PyM ConstraintObject}
    (hspares : ∀ h₀ v, Spares h₀ (make v) fun _ => True)
    (hmake : ∀ v h c h', (make v).Gives h c h' → c.Built h') {vs : List PyValue}
    {cs : List ConstraintObject}
    (hgives : (vs.mapM make).Gives h cs h') : ∀ c ∈ cs, c.Built h' := by
  induction vs generalizing h cs with
  | nil =>
    obtain ⟨rfl, -⟩ := gives_pure_iff.mp hgives
    simp
  | cons v vs ih =>
    rw [List.mapM_cons] at hgives
    obtain ⟨c, h₁, hhead, hgives⟩ := gives_bind_iff.mp hgives
    obtain ⟨cs', h₂, htail, hgives⟩ := gives_bind_iff.mp hgives
    obtain ⟨rfl, rfl⟩ := gives_pure_iff.mp hgives
    have hkept : Kept h₁ h' := htail.kept (spares_mapM (hspares h₁) vs)
    rw [List.forall_mem_cons]
    exact ⟨(hmake v h c h₁ hhead).mono fun v b => truth_mono hkept, ih htail⟩

theorem dictSet_ne_nil (key v : PyValue) (items : PyDict) : dictSet key v items ≠ [] := by
  intro hempty
  have hlookup := lookup_dictSet_self key v items
  rw [hempty] at hlookup
  cases hlookup

/-- A dictionary that gets one more item is as true as before if it had one. -/
theorem truth_dictSet {items : PyDict} {key v : PyValue} (hd : h[d]? = some (.dict items))
    (hne : items ≠ []) (w : PyValue) (b : Bool) (htruth : truth h w = some b) :
    truth (h.set d (.dict (dictSet key v items))) w = some b := by
  cases w with
  | ref x =>
    by_cases hx : x = d
    · subst hx
      obtain ⟨hlt, -⟩ := List.getElem?_eq_some_iff.mp hd
      have hempty := List.isEmpty_eq_false_iff.mpr hne
      have hempty' := List.isEmpty_eq_false_iff.mpr (dictSet_ne_nil key v items)
      rw [truth, hd, Option.map_some] at htruth
      rw [truth, List.getElem?_set_self hlt, Option.map_some]
      simp only [hempty] at htruth
      simp only [hempty', htruth]
    · rw [truth, List.getElem?_set_ne (Ne.symm hx)]
      exact htruth
  | _ => exact htruth

theorem constraintsArgument_of_gives {items : PyDict} {a : ℕ} {cs cs' : List ConstraintObject}
    (hd : h[d]? = some (.dict items))
    (hauth : items.lookup (.str "auth_constraints") = some (.ref a))
    (ha : h[a]? = some (.constraints cs)) (hgives : (constraintsArgument d).Gives h cs' h') :
    cs' = cs ∧ h' = h := by
  obtain ⟨items', h₁, hdict, hif⟩ := gives_bind_iff.mp hgives
  obtain ⟨hitems, rfl⟩ := dictAt_of_gives hdict
  obtain rfl : items = items' := by simpa using hd.symm.trans hitems
  split at hif
  · rw [hauth] at hif
    obtain ⟨o, h₂, hderef, hmatch⟩ := gives_bind_iff.mp hif
    obtain ⟨ho, rfl⟩ := gives_deref_iff.mp hderef
    obtain rfl : PyObject.constraints cs = o := Option.some.inj (ha.symm.trans ho)
    exact gives_pure_iff.mp hmatch
  · exact absurd hif not_gives_throw

/-- The list that is made is the one that is passed on, and the dictionary that is changed on the
way has items before and after. -/
theorem built_of_nestedFromDict {fromDict : ConstraintClass → ℕ → PyM ConstraintObject}
    {checked : Bool} (hspares : ∀ h₀ v, Spares h₀ (dispatch fromDict checked v) fun _ => True)
    (hfrom : ∀ v h c h', (dispatch fromDict checked v).Gives h c h' → c.Built h')
    {cs : List ConstraintObject}
    (hgives : (nestedFromDict fromDict checked d).Gives h cs h') : ∀ c ∈ cs, c.Built h' := by
  obtain ⟨v, h₁, hitem, hloop⟩ := gives_bind_iff.mp hgives
  obtain ⟨items₀, hd₀, hauth, rfl⟩ := getItem_of_gives hitem
  obtain ⟨inputs, h₂, hiterate, hloop⟩ := gives_bind_iff.mp hloop
  obtain ⟨cs', h₃, hmap, hlist⟩ := gives_bind_iff.mp hloop
  obtain ⟨a, h₄, halloc, hset⟩ := gives_bind_iff.mp hlist
  obtain ⟨items, h₅, hdict, hput⟩ := gives_bind_iff.mp hset
  obtain ⟨u, h₆, hput, hargument⟩ := gives_bind_iff.mp hput
  cases halloc
  cases hput
  obtain ⟨hd, rfl⟩ := dictAt_of_gives hdict
  have hkept : Kept h₁ h₃ :=
    (hiterate.kept (spares_iterate v)).trans (hmap.kept (spares_mapM (hspares h₂) inputs))
  have hd₃ : h₃[d]? = some (.dict items₀) := hkept _ _ hd₀
  have hkept₃ : Kept h₃ (h₃ ++ [PyObject.constraints cs']) := kept_append h₃ _
  obtain rfl : items = items₀ := by simpa using hd.symm.trans (hkept₃ _ _ hd₃)
  obtain ⟨hlt, -⟩ := List.getElem?_eq_some_iff.mp hd₃
  have hne : items ≠ [] := by
    rintro rfl
    cases hauth
  let items' := dictSet (.str "auth_constraints") (.ref h₃.length) items
  have hd' : ((h₃ ++ [PyObject.constraints cs']).set d (.dict items'))[d]? = some
      (.dict items') := by
    apply List.getElem?_set_self
    rw [List.length_append]
    omega
  have hlist' : ((h₃ ++ [PyObject.constraints cs']).set d (.dict items'))[h₃.length]? = some
      (.constraints cs') := by
    rw [List.getElem?_set_ne (by omega)]
    simp
  obtain ⟨rfl, rfl⟩ := constraintsArgument_of_gives hd' (lookup_dictSet_self _ _ _) hlist' hargument
  intro c hc
  refine (built_of_mapM hspares hfrom hmap c hc).mono ?_
  intro w b htruth
  exact truth_dictSet hd hne w b (truth_mono hkept₃ htruth)

/-- What `from_dict` returns has been checked. -/
theorem built_of_classFromDict {fuel : ℕ} {cls : ConstraintClass} {c : ConstraintObject}
    (hgives : (classFromDict fuel cls d).Gives h c h') : c.Built h' := by
  induction fuel generalizing cls d h c h' with
  | zero =>
    cases cls with
    | role => exact built_of_authConstraintFromDict hgives
    | forbidden =>
      obtain ⟨rfl, -⟩ := gives_pure_iff.mp hgives
      exact .forbidden
    | and => exact absurd hgives not_gives_throw
    | or => exact absurd hgives not_gives_throw
  | succ fuel ih =>
    have hnested : ∀ checked v h c h', (dispatch (classFromDict fuel) checked v).Gives h c h' →
        c.Built h' := by
      intro checked v h c h' hdispatch
      obtain ⟨d, h₁, _, hrest⟩ := gives_bind_iff.mp hdispatch
      obtain ⟨constraintId, h₂, _, hif⟩ := gives_bind_iff.mp hrest
      split at hif
      · exact absurd hif not_gives_throw
      · obtain ⟨cls, h₃, _, hfrom⟩ := gives_bind_iff.mp hif
        exact ih hfrom
    have hspares : ∀ checked h₀ v,
        Spares h₀ (dispatch (classFromDict fuel) checked v) fun _ => True :=
      fun checked h₀ v =>
        spares_dispatch (fun cls _ hd => spares_classFromDict fuel cls hd) checked v
    cases cls with
    | role => exact built_of_authConstraintFromDict hgives
    | forbidden =>
      obtain ⟨rfl, -⟩ := gives_pure_iff.mp hgives
      exact .forbidden
    | and =>
      obtain ⟨cs, h₁, hcs, hpure⟩ := gives_bind_iff.mp hgives
      obtain ⟨rfl, rfl⟩ := gives_pure_iff.mp hpure
      exact .and (built_of_nestedFromDict (hspares false) (hnested false) hcs)
    | or =>
      obtain ⟨cs, h₁, hcs, hpure⟩ := gives_bind_iff.mp hgives
      obtain ⟨rfl, rfl⟩ := gives_pure_iff.mp hpure
      exact .or (built_of_nestedFromDict (hspares true) (hnested true) hcs)

theorem built_of_dispatch {fuel : ℕ} {checked : Bool} {v : PyValue} {c : ConstraintObject}
    (hgives : (dispatch (classFromDict fuel) checked v).Gives h c h') : c.Built h' := by
  obtain ⟨d, h₁, _, hrest⟩ := gives_bind_iff.mp hgives
  obtain ⟨constraintId, h₂, _, hif⟩ := gives_bind_iff.mp hrest
  split at hif
  · exact absurd hif not_gives_throw
  · obtain ⟨cls, h₃, _, hfrom⟩ := gives_bind_iff.mp hif
    exact built_of_classFromDict hfrom

end Validation

/-- The serializer under `ConstraintsSerializer`, of plenum: the text of a value, and a value made
from a text. -/
structure ObjectSerializer where
  serialize : PyHeap → PyValue → Except PyError Bytes
  deserialize : Bytes → PyM PyValue

namespace ObjectSerializer

/-- `ConstraintsSerializer.serialize`. A constraint is always true. -/
def serializeConstraint (serializer : ObjectSerializer) (c : ConstraintObject) : PyM Bytes := do
  let v ← c.asDict
  match serializer.serialize (← get) v with
  | .ok bytes => return bytes
  | .error e => throw e

/-- `ConstraintsSerializer.deserialize`. -/
def deserializeConstraint (serializer : ObjectSerializer) (fuel : ℕ) (bytes : Bytes) :
    PyM ConstraintObject := do
  let v ← serializer.deserialize bytes
  createConstraintObject fuel v

/-- A value gets through the serializer: from its text an equal one is made of new objects. -/
def Keeps (serializer : ObjectSerializer) (h : PyHeap) (v : PyValue) : Prop :=
  ∃ bytes v' h', serializer.serialize h v = .ok bytes ∧
    (serializer.deserialize bytes).Gives h v' h' ∧ Kept h h' ∧
    Equal h' v' h v

end ObjectSerializer

section Main

variable {h h' : PyHeap} {c : ConstraintObject}

/-- A constraint is made again from its dictionary. -/
theorem create_asDict (hbuilt : c.Built h) : ∃ v h₁, c.asDict.Gives h v h₁ ∧ Kept h h₁ ∧
    ∀ fuel, c.depth ≤ fuel → ∃ h₂, (createConstraintObject fuel v).Gives h₁ c h₂ := by
  obtain ⟨v, h₁, hgives, hkept, hstands⟩ := gives_asDict c h
  refine ⟨v, h₁, hgives, hkept, fun fuel hdepth => ?_⟩
  obtain ⟨c', h₂, hcreate, -, hlike⟩ :=
    dispatch_stands true (reads_eq hkept) c hbuilt hstands hdepth
  rw [eq_of_alike c hlike] at hcreate
  exact ⟨h₂, hcreate⟩

/-- A constraint made from the text of another equals it. -/
theorem deserialize_serialize {serializer : ObjectSerializer} (hbuilt : c.Built h)
    (hkeeps : ∀ v h₁, c.asDict.Gives h v h₁ → serializer.Keeps h₁ v) {fuel : ℕ}
    (hdepth : c.depth ≤ fuel) :
    ∃ bytes h₁ c' h₂, (serializer.serializeConstraint c).Gives h bytes h₁ ∧
      (serializer.deserializeConstraint fuel bytes).Gives h₁ c' h₂ ∧
      ConstraintObject.EqualObjects h₂ c' c := by
  obtain ⟨v, h₁, hgives, hkept, hstands⟩ := gives_asDict c h
  obtain ⟨bytes, v', h₂, hserialize, hdeserialize, hkept', hequal⟩ := hkeeps v h₁ hgives
  have hstands' := hstands.of_equal hequal
  have hbuilt₁ : c.Built h₁ := hbuilt.mono fun v b => truth_mono hkept
  obtain ⟨c', h₃, hcreate, hkept₃, hlike⟩ :=
    dispatch_stands true reads_equal c hbuilt₁ hstands' hdepth
  refine ⟨bytes, h₁, c', h₃, ?_, hdeserialize.bind hcreate, ?_⟩
  · refine hgives.bind (Gives.bind (runOn_get h₁) ?_)
    rw [hserialize]
    exact gives_pure _ _
  · obtain ⟨w', h₄, hgives', hkept₄, hstands₄⟩ := gives_asDict c' h₃
    obtain ⟨w, h₅, hgives₅, hkept₅, hstands₅⟩ := gives_asDict c h₄
    refine ⟨w', h₄, w, h₅, hgives', hgives₅, ?_⟩
    have hlast : Kept h₂ h₅ := hkept₃.trans (hkept₄.trans hkept₅)
    exact sameTo_of_alike c (hlike.imp (fun v w hvw => hvw.mono hlast (hkept'.trans hlast)) c)
      (hstands₄.mono hkept₅) hstands₅

/-- Whatever a constraint is made of stays as it is. A constraint is made again from its dictionary
and, up to equality, from its text, and one that was made from some dictionary is made again from
its own. -/
theorem constraints_survive_serialization (serializer : ObjectSerializer) :
    (∀ fuel d (h : PyHeap), Kept h ((createConstraintObject fuel d).runOn h).2) ∧
    (∀ (c : ConstraintObject) (h : PyHeap), c.Built h →
      (∃ v h₁, c.asDict.Gives h v h₁ ∧
        ∀ fuel, c.depth ≤ fuel → ∃ h₂, (createConstraintObject fuel v).Gives h₁ c h₂) ∧
      ((∀ v h₁, c.asDict.Gives h v h₁ → serializer.Keeps h₁ v) → ∀ fuel, c.depth ≤ fuel →
        ∃ bytes h₁ c' h₂, (serializer.serializeConstraint c).Gives h bytes h₁ ∧
          (serializer.deserializeConstraint fuel bytes).Gives h₁ c' h₂ ∧
          ConstraintObject.EqualObjects h₂ c' c)) ∧
    ∀ fuel d (h : PyHeap) (c : ConstraintObject) (h₁ : PyHeap),
      (createConstraintObject fuel d).Gives h c h₁ →
      ∃ v h₂, c.asDict.Gives h₁ v h₂ ∧
        ∀ fuel', c.depth ≤ fuel' → ∃ h₃, (createConstraintObject fuel' v).Gives h₂ c h₃ := by
  refine ⟨fun fuel d h => (spares_createConstraintObject fuel d).kept, ?_, ?_⟩
  · intro c h hbuilt
    obtain ⟨v, h₁, hgives, -, hcreate⟩ := create_asDict hbuilt
    exact ⟨⟨v, h₁, hgives, hcreate⟩, fun hkeeps fuel hdepth =>
      deserialize_serialize hbuilt hkeeps hdepth⟩
  · intro fuel d h c h₁ hmade
    obtain ⟨v, h₂, hgives, -, hcreate⟩ := create_asDict (built_of_dispatch hmade)
    exact ⟨v, h₂, hgives, hcreate⟩

end Main

section Samples

variable {h h' : PyHeap}

theorem equal_dict {a b : ℕ} {items items' : PyDict} (ha : h[a]? = some (.dict items))
    (hb : h'[b]? = some (.dict items'))
    (hitems : SameItems (fun v w => Equal h v h' w) items items') :
    Equal h (.ref a) h' (.ref b)
  | 0 => trivial
  | n + 1 => sameTo_dict ha hb (sameItems_refl _) (sameItems_refl _)
      (hitems.imp fun _ _ hequal => hequal n)

theorem equal_list {a b : ℕ} {items items' : List PyValue} (ha : h[a]? = some (.list items))
    (hb : h'[b]? = some (.list items'))
    (hitems : List.Forall₂ (fun v w => Equal h v h' w) items items') :
    Equal h (.ref a) h' (.ref b)
  | 0 => trivial
  | n + 1 => by
    unfold SameTo
    rw [ha, hb]
    exact hitems.imp fun _ _ hequal => hequal n

/-- The document of a value, where at most `fuel` addresses are followed one after another. -/
def documentOf : ℕ → PyHeap → PyValue → Option Json
  | _, _, .none => some .null
  | _, _, .bool b => some (.bool b)
  | _, _, .number n => some (.number n)
  | _, _, .str s => some (.string s)
  | 0, _, .ref _ => none
  | fuel + 1, h, .ref a =>
    match h[a]? with
    | some (.dict items) => .object <$> items.mapM fun item =>
        match item.1 with
        | .str key => (key, ·) <$> documentOf fuel h item.2
        | _ => none
    | some (.list items) => .array <$> items.mapM (documentOf fuel h)
    | _ => none

mutual

/-- A value made of new objects. -/
def loadValue : Json → PyM PyValue
  | .null => return .none
  | .bool b => return .bool b
  | .number n => return .number n
  | .string s => return .str s
  | .array items => return .ref (← alloc (.list (← loadItems items)))
  | .object fields => return .ref (← alloc (.dict (← loadFields fields)))

def loadItems : List Json → PyM (List PyValue)
  | [] => return []
  | value :: items => do
    let v ← loadValue value
    let vs ← loadItems items
    return v :: vs

def loadFields : List (String × Json) → PyM PyDict
  | [] => return []
  | (key, value) :: fields => do
    let v ← loadValue value
    let items ← loadFields fields
    return (.str key, v) :: items

end

/-- From a document a value is made that equals the one the document is of. -/
def Loads (h : PyHeap) (v : PyValue) (value : Json) : Prop :=
  ∀ h₁, ∃ v' h₂, (loadValue value).Gives h₁ v' h₂ ∧ Kept h₁ h₂ ∧ Equal h₂ v' h v

theorem loads_atom {v : PyValue} {value : Json} (hload : loadValue value = pure v)
    (hv : ∀ a, v ≠ .ref a) :
    Loads h v value := by
  intro h₁
  rw [hload]
  exact ⟨v, h₁, gives_pure _ _, Kept.refl h₁, fun n => sameTo_atom hv n⟩

theorem gives_loadItems {vs : List PyValue} {values : List Json}
    (hloads : List.Forall₂ (Loads h) vs values) (h₁ : PyHeap) :
    ∃ vs' h₂, (loadItems values).Gives h₁ vs' h₂ ∧ Kept h₁ h₂ ∧
      List.Forall₂ (fun v w => Equal h₂ v h w) vs' vs := by
  induction hloads generalizing h₁ with
  | nil => exact ⟨[], h₁, by rw [loadItems]; exact gives_pure _ _, Kept.refl h₁, .nil⟩
  | cons hload _ ih =>
    obtain ⟨v', h₂, hgives, hkept, hequal⟩ := hload h₁
    obtain ⟨vs', h₃, hgives', hkept', hall⟩ := ih h₂
    refine ⟨v' :: vs', h₃, ?_, hkept.trans hkept', .cons (hequal.mono hkept' (Kept.refl h)) hall⟩
    rw [loadItems]
    exact hgives.bind (hgives'.bind (gives_pure _ _))

theorem gives_loadFields {items : PyDict} {fields : List (String × Json)}
    (hloads : List.Forall₂ (fun item field => item.1 = .str field.1 ∧ Loads h item.2 field.2)
      items fields)
    (h₁ : PyHeap) :
    ∃ items' h₂, (loadFields fields).Gives h₁ items' h₂ ∧ Kept h₁ h₂ ∧
      SameItems (fun v w => Equal h₂ v h w) items' items := by
  induction hloads generalizing h₁ with
  | nil => exact ⟨[], h₁, by rw [loadFields]; exact gives_pure _ _, Kept.refl h₁, fun _ => .none⟩
  | @cons item field _ _ hload _ ih =>
    obtain ⟨key, v⟩ := item
    obtain ⟨key', value⟩ := field
    obtain ⟨rfl, hload⟩ := hload
    obtain ⟨v', h₂, hgives, hkept, hequal⟩ := hload h₁
    obtain ⟨items', h₃, hgives', hkept', hall⟩ := ih h₂
    refine ⟨_, h₃, ?_, hkept.trans hkept', .cons _ (hequal.mono hkept' (Kept.refl h)) hall⟩
    rw [loadFields]
    exact hgives.bind (hgives'.bind (gives_pure _ _))

theorem loads_documentOf {fuel : ℕ} {v : PyValue} {value : Json}
    (hvalue : documentOf fuel h v = some value) :
    Loads h v value := by
  induction fuel generalizing v value with
  | zero =>
    cases v <;> cases hvalue <;> exact loads_atom (by rw [loadValue]) (by simp)
  | succ fuel ih =>
    cases v with
    | ref a =>
      rw [documentOf] at hvalue
      split at hvalue
      · rename_i items ha
        obtain ⟨fields, hfields, rfl⟩ := Option.map_eq_some_iff.mp hvalue
        have hloads : List.Forall₂
            (fun item field => item.1 = .str field.1 ∧ Loads h item.2 field.2) items fields := by
          refine (forall₂_of_mapM_eq_some hfields).imp ?_
          rintro ⟨key, v⟩ field hfield
          cases key with
          | str key =>
            obtain ⟨value, hvalue, rfl⟩ := Option.map_eq_some_iff.mp hfield
            exact ⟨rfl, ih hvalue⟩
          | _ => cases hfield
        intro h₁
        obtain ⟨items', h₂, hgives, hkept, hsame⟩ := gives_loadFields hloads h₁
        have hlast : (h₂ ++ [PyObject.dict items'])[h₂.length]? = some (.dict items') := by simp
        refine ⟨.ref h₂.length, h₂ ++ [.dict items'], ?_, hkept.append _, ?_⟩
        · rw [loadValue]
          exact hgives.bind ((gives_alloc _ _).bind (gives_pure _ _))
        · exact equal_dict hlast ha
            (hsame.imp fun _ _ hequal => hequal.mono (kept_append h₂ _) (Kept.refl h))
      · rename_i items ha
        obtain ⟨values, hvalues, rfl⟩ := Option.map_eq_some_iff.mp hvalue
        intro h₁
        obtain ⟨items', h₂, hgives, hkept, hsame⟩ :=
          gives_loadItems ((forall₂_of_mapM_eq_some hvalues).imp fun _ _ => ih) h₁
        have hlast : (h₂ ++ [PyObject.list items'])[h₂.length]? = some (.list items') := by simp
        refine ⟨.ref h₂.length, h₂ ++ [.list items'], ?_, hkept.append _, ?_⟩
        · rw [loadValue]
          exact hgives.bind ((gives_alloc _ _).bind (gives_pure _ _))
        · exact equal_list hlast ha
            (hsame.imp fun _ _ hequal => hequal.mono (kept_append h₂ _) (Kept.refl h))
      · cases hvalue
    | _ => cases hvalue; exact loads_atom (by rw [loadValue]) (by simp)

mutual

/-- MessagePack, for lengths and numbers that go into a byte with the kind of the value. -/
def toMsgPack : Json → Bytes
  | .null => [0xc0]
  | .bool b => [if b then 0xc3 else 0xc2]
  | .number (.posInt n) => [.ofNat n]
  | .number _ => []
  | .string s => .ofNat (0xa0 + (asBytes s).length) :: asBytes s
  | .array items => .ofNat (0x90 + items.length) :: itemsToMsgPack items
  | .object fields => .ofNat (0x80 + fields.length) :: fieldsToMsgPack fields

def itemsToMsgPack : List Json → Bytes
  | [] => []
  | value :: items => toMsgPack value ++ itemsToMsgPack items

def fieldsToMsgPack : List (String × Json) → Bytes
  | [] => []
  | (key, value) :: fields => toMsgPack (.string key) ++ toMsgPack value ++ fieldsToMsgPack fields

end

/-- As many as are asked for, read one behind the other. -/
def readCount {α : Type} (read : Bytes → Option (α × Bytes)) : ℕ → Bytes → Option (List α × Bytes)
  | 0, bytes => some ([], bytes)
  | n + 1, bytes => do
    let (a, bytes) ← read bytes
    let (as, bytes) ← readCount read n bytes
    return (a :: as, bytes)

def stringOfMsgPack (length : ℕ) (bytes : Bytes) : Option (Json × Bytes) :=
  (fromUtf8 (bytes.take length)).map fun s => (.string s, bytes.drop length)

/-- The value at the front. -/
def ofMsgPack : ℕ → Bytes → Option (Json × Bytes)
  | fuel + 1, b :: bytes =>
    if b < 0x80 then some (.number (.posInt b.toNat), bytes)
    else if b < 0x90 then
      (readCount (fun bytes => do
        let (.string key, bytes) ← ofMsgPack fuel bytes | none
        let (value, bytes) ← ofMsgPack fuel bytes
        return ((key, value), bytes)) (b.toNat - 0x80) bytes).map (Prod.map Json.object id)
    else if b < 0xa0 then (readCount (ofMsgPack fuel) (b.toNat - 0x90) bytes).map
      (Prod.map Json.array id)
    else if b < 0xc0 then stringOfMsgPack (b.toNat - 0xa0) bytes
    else if b = 0xc0 then some (.null, bytes)
    else if b = 0xc2 then some (.bool false, bytes)
    else if b = 0xc3 then some (.bool true, bytes)
    else none
  | _, _ => none

/-- A serializer of short values. -/
def shortSerializer : ObjectSerializer where
  serialize h v :=
    match documentOf h.length h v with
    | some value => .ok (toMsgPack value)
    | none => .error .typeError
  deserialize bytes :=
    match ofMsgPack bytes.length bytes with
    | some (value, []) => loadValue value
    | _ => throw .valueError

theorem shortSerializer_keeps {v : PyValue} {value : Json}
    (hvalue : documentOf h.length h v = some value)
    (hread : ofMsgPack (toMsgPack value).length (toMsgPack value) = some (value, [])) :
    shortSerializer.Keeps h v := by
  obtain ⟨v', h₂, hgives, hkept, hequal⟩ := loads_documentOf hvalue h
  refine ⟨toMsgPack value, v', h₂, ?_, ?_, hkept, hequal⟩
  · simp only [shortSerializer, hvalue]
  · simp only [shortSerializer, hread]
    exact hgives

/-- The metadata of two constraints. -/
def sampleHeap : PyHeap := [.dict [(.str "fees", .str "1")], .dict []]

/-- A trustee, and two stewards or anyone who owns it, on the ledger or not. -/
def sampleConstraint : ConstraintObject :=
  .and [.role ⟨.one (some .trustee), .number (.posInt 1), .bool false, .none, .ref 0⟩,
    .or [.role ⟨.one (some .steward), .number (.posInt 2), .bool false, .none, .ref 1⟩,
      .role ⟨.any, .number (.posInt 1), .bool true, .bool true, .ref 0⟩]]

theorem built_sampleConstraint : sampleConstraint.Built sampleHeap := by
  have hany : ∀ c : RoleObject, c.offLedgerSignature = .none ∨ c.offLedgerSignature = .bool true ∧
      c.role = .any →
      ConstraintObject.Built sampleHeap (.role c) := by
    rintro c (hnone | ⟨htrue, hrole⟩)
    · exact .role (b := false) (by rw [hnone]; rfl) (by simp)
    · exact .role (b := true) (by rw [htrue]; rfl) fun _ => hrole
  refine .and ?_
  simp only [List.mem_cons, List.not_mem_nil, or_false, forall_eq_or_imp, forall_eq]
  refine ⟨hany _ (.inl rfl), .or ?_⟩
  simp only [List.mem_cons, List.not_mem_nil, or_false, forall_eq_or_imp, forall_eq]
  exact ⟨hany _ (.inl rfl), hany _ (.inr ⟨rfl, rfl⟩)⟩

theorem constraints_survive_serialization_nested : ∃ bytes h₁ c' h₂,
    (shortSerializer.serializeConstraint sampleConstraint).Gives sampleHeap bytes h₁ ∧
      (shortSerializer.deserializeConstraint 2 bytes).Gives h₁ c' h₂ ∧
        ConstraintObject.EqualObjects h₂ c' sampleConstraint := by
  refine ((constraints_survive_serialization shortSerializer).2.1 _ _ built_sampleConstraint).2 ?_
    2 (by decide)
  intro v h₁ hgives
  have hdict : ∃ value, documentOf h₁.length h₁ v = some value ∧
      ofMsgPack (toMsgPack value).length (toMsgPack value) = some (value, []) := by
    obtain ⟨rfl, rfl⟩ := hgives
    exact ⟨_, rfl, by decide +kernel⟩
  obtain ⟨value, hvalue, hread⟩ := hdict
  exact shortSerializer_keeps hvalue hread

end Samples

end SimpleAsset.IndyNode
