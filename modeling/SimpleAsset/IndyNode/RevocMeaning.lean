import SimpleAsset.IndyNode.RevocReplay

/-! What an accepted entry does to the indices of its registry: it revokes what is issued and issues
what is not, but for the first entry (`revocation_strategy.py`). -/
namespace SimpleAsset.IndyNode
open SimpleAsset.Library

variable {ι : Type}

/-- `status` are the indices that are revoked (by default) or issued (on demand). -/
def Meaningful (type : IssuanceType) (status : Finset ι) (value : EntryValue ι) : Prop :=
  match type with
  | .issuanceOnDemand => (∀ i ∈ value.get .revoked, i ∈ status) ∧
      ∀ i ∈ value.get .issued, i ∉ status
  | .issuanceByDefault => (∀ i ∈ value.get .issued, i ∈ status) ∧
      ∀ i ∈ value.get .revoked, i ∉ status

theorem meaningful_iff (type : IssuanceType) (status : Finset ι) (value : EntryValue ι) :
    Meaningful type status value ↔
      (∀ i ∈ value.get type.kept.other, i ∈ status) ∧ ∀ i ∈ value.get type.kept, i ∉ status := by
  cases type <;> rfl

/-- In a registry without entries nothing can be taken out of the indices that are kept. -/
theorem meaningful_empty_iff (type : IssuanceType) (value : EntryValue ι) :
    Meaningful type ∅ value ↔ value.get type.kept.other = [] := by
  simp [meaningful_iff, List.eq_nil_iff_forall_not_mem]

theorem valuesOf_append (id : String) (pre rest : List (RevocRegEntryTxn ι)) :
    valuesOf id (pre ++ rest) = valuesOf id pre ++ valuesOf id rest := by
  simp [valuesOf]

/-- The first transaction of a registry stands behind transactions of others only. -/
theorem exists_first_txn {txns : List (RevocRegEntryTxn ι)} {id : String} {first : EntryValue ι}
    (h : (valuesOf id txns).head? = some first) :
    ∃ pre txn, pre ++ [txn] <+: txns ∧ txn.revocRegDefId = id ∧ valuesOf id pre = [] ∧
      txn.value = first := by
  induction txns with
  | nil => simp [valuesOf] at h
  | cons txn txns ih =>
    by_cases hid : txn.revocRegDefId = id
    · refine ⟨[], txn, by simp, hid, rfl, ?_⟩
      simpa [valuesOf, hid] using h
    · have hrest : (valuesOf id txns).head? = some first := by simpa [valuesOf, hid] using h
      obtain ⟨pre, txn', hpre, hid', hnone, hvalue⟩ := ih hrest
      refine ⟨txn :: pre, txn', List.cons_prefix_cons.mpr ⟨rfl, hpre⟩, hid', ?_, hvalue⟩
      rw [← hnone]
      simp [valuesOf, hid]

variable [DecidableEq ι]

theorem setDifference_eq_nil_iff (a b : List ι) : setDifference a b = [] ↔ ∀ i ∈ a, i ∈ b := by
  simp [setDifference]

theorem setIntersection_eq_nil_iff (a b : List ι) : setIntersection a b = [] ↔ ∀ i ∈ a, i ∉ b := by
  simp [setIntersection]

theorem Strategy.specificValidation_eq_ok_iff (strategy : Strategy) (current value : EntryValue ι) :
    strategy.specificValidation current value = .ok () ↔
      (∀ i ∈ value.get strategy.kept.other, i ∈ current.get strategy.kept) ∧
        ∀ i ∈ value.get strategy.kept, i ∉ current.get strategy.kept := by
  unfold Strategy.specificValidation
  dsimp only
  have hsymm : (∀ i ∈ value.get strategy.kept, i ∉ current.get strategy.kept) ↔
      ∀ i ∈ current.get strategy.kept, i ∉ value.get strategy.kept :=
    ⟨fun h i hcurrent hvalue => h i hvalue hcurrent, fun h i hvalue hcurrent => h i hcurrent hvalue⟩
  rw [hsymm, ← setDifference_eq_nil_iff, ← setIntersection_eq_nil_iff]
  split_ifs with hdifference hintersection <;> simp_all

/-- A valid entry has passed the checks of its strategy, if there is an entry before it. -/
theorem Strategy.specificValidation_of_validate {strategy : Strategy} {current value : EntryValue ι}
    (h : strategy.validate (some current) value = .ok ()) :
    strategy.specificValidation current value = .ok () := by
  unfold Strategy.validate at h
  dsimp only at h
  split_ifs at h
  exact h

section Runs

variable {authorize : RevocRegEntryTxn ι → AuthAction → Bool} {s s' s₀ : RevocState ι}
    {txn : RevocRegEntryTxn ι}
  {txns out : List (RevocRegEntryTxn ι)} {id : String} {type : IssuanceType}

theorem validate_of_revocStep (h : revocStep authorize s txn = .ok (s', out))
    (hdef : s.revocDef txn.revocRegDefId = some type) :
    (getRevocationStrategy type).validate ((s.entry txn.revocRegDefId).map (·.value)) txn.value =
      .ok () := by
  rw [revocStep, except_bind_eq_ok] at h
  obtain ⟨_, hvalid, _⟩ := h
  unfold additionalDynamicValidation at hvalid
  simp only [hdef] at hvalid
  split_ifs at hvalid
  all_goals exact hvalid

/-- One accepted entry: it is meaningful if it is not the first, and a first one if it only adds to
the indices that are kept. -/
theorem Replayed.meaningful_iff (h : Replayed type id txns s) (hid : txn.revocRegDefId = id)
    (hstep : revocStep authorize s txn = .ok (s', out)) :
    Meaningful type (type.status (valuesOf id txns)) txn.value ↔
      (valuesOf id txns = [] → txn.value.get type.kept.other = []) := by
  subst hid
  have hvalid := validate_of_revocStep hstep h.revocDef
  rcases hentry : s.entry txn.revocRegDefId with _ | current
  · have hempty : valuesOf txn.revocRegDefId txns = [] := by
      by_contra hne
      simpa [hentry] using h.entry_iff.mpr hne
    rw [h.status_of_none hentry, meaningful_empty_iff, forall_prop_of_true hempty]
  · have hne : valuesOf txn.revocRegDefId txns ≠ [] := h.entry_iff.mp (by simp [hentry])
    refine iff_of_true ?_ fun hempty => absurd hempty hne
    rw [hentry, Option.map_some] at hvalid
    have hspecific := Strategy.specificValidation_of_validate hvalid
    rw [Strategy.specificValidation_eq_ok_iff] at hspecific
    rw [IndyNode.meaningful_iff, ← h.indices current hentry]
    simp only [List.mem_toFinset]
    exact hspecific

/-- The accepted entries of a registry are all meaningful if the first one, which is checked against
nothing, does not revoke (on demand) or issue (by default). -/
theorem accepted_entries_meaningful_iff (hdef : s₀.revocDef id = some type)
    (hnew : s₀.entry id = none) (hrun : runSteps (revocStep authorize) s₀ txns = .ok (s, out)) :
    (∀ pre txn, pre ++ [txn] <+: txns → txn.revocRegDefId = id →
        Meaningful type (type.status (valuesOf id pre)) txn.value) ↔
      ∀ first ∈ (valuesOf id txns).head?, first.get type.kept.other = [] := by
  have hstep : ∀ pre txn, pre ++ [txn] <+: txns → txn.revocRegDefId = id →
      (Meaningful type (type.status (valuesOf id pre)) txn.value ↔
        (valuesOf id pre = [] → txn.value.get type.kept.other = [])) := by
    intro pre txn hpre hid
    obtain ⟨s₁, out₁, hrun₁⟩ := exists_runSteps_of_prefix hpre hrun
    obtain ⟨s₂, out₂, out₃, hpast, hlast, -⟩ := runSteps_concat_iff.mp hrun₁
    exact (replayed_of_run hdef hnew hpast).meaningful_iff hid hlast
  constructor
  · intro hall first hfirst
    obtain ⟨pre, txn, hpre, hid, hnone, rfl⟩ := exists_first_txn hfirst
    exact (hstep pre txn hpre hid).mp (hall pre txn hpre hid) hnone
  · intro hfirst pre txn hpre hid
    refine (hstep pre txn hpre hid).mpr fun hnone => ?_
    apply hfirst
    obtain ⟨rest, rfl⟩ := hpre
    rw [valuesOf_append, valuesOf_concat, if_pos hid, hnone]
    rfl

end Runs

/-- Registries without entries that issue on demand. -/
def onDemandRegistries : RevocState ℤ :=
  ⟨fun _ => some .issuanceOnDemand, fun _ => none, fun _ => none⟩

def onDemandTxn (value : EntryValue ℤ) : RevocRegEntryTxn ℤ :=
  ⟨"V4SGRU86Z58d6TV7PBUe6f", "V4SGRU86Z58d6TV7PBUe6f:4:cred:CL_ACCUM:tag", "CL_ACCUM",
    value, 20, 1000⟩

/-- Three credentials are issued, then one of them is revoked. -/
def issuingTxn : RevocRegEntryTxn ℤ := onDemandTxn ⟨none, "a1", some [1, 2, 3], none⟩

def revokingTxn : RevocRegEntryTxn ℤ := onDemandTxn ⟨some "a1", "a2", none, some [2]⟩

theorem accepted_entries_meaningful_two : Meaningful .issuanceOnDemand
    (IssuanceType.status .issuanceOnDemand (valuesOf issuingTxn.revocRegDefId [issuingTxn]))
      revokingTxn.value := by
  obtain ⟨s, out, hrun⟩ : ∃ s out, runSteps (revocStep fun _ _ => true) onDemandRegistries
      [issuingTxn, revokingTxn] = .ok (s, out) := ⟨_, _, rfl⟩
  have hnew : onDemandRegistries.entry issuingTxn.revocRegDefId = none := rfl
  have hall := (accepted_entries_meaningful_iff rfl hnew hrun).mpr (by decide)
  exact hall [issuingTxn] revokingTxn (List.prefix_refl _) rfl

/-- A first entry revokes a credential that was never issued. -/
theorem not_accepted_entries_meaningful :
    let txn := onDemandTxn ⟨none, "a1", none, some [3]⟩
    (∃ s out, runSteps (revocStep fun _ _ => true) onDemandRegistries [txn] = .ok (s, out)) ∧
      ¬ Meaningful .issuanceOnDemand
        (IssuanceType.status .issuanceOnDemand (valuesOf txn.revocRegDefId [])) txn.value := by
  refine ⟨⟨_, _, rfl⟩, ?_⟩
  rintro ⟨hrevoked, -⟩
  exact absurd (hrevoked 3 (by decide)) (by decide)

end SimpleAsset.IndyNode
