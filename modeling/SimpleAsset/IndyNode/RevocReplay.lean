import SimpleAsset.IndyNode.Revocation

/-! The stored indices of a registry and the deltas between its entries replay its history. -/
namespace SimpleAsset.IndyNode
open SimpleAsset.Library

variable {ι : Type}

/-- Values of the transactions of one registry. -/
def valuesOf (id : String) (txns : List (RevocRegEntryTxn ι)) : List (EntryValue ι) :=
  (txns.filter fun txn => txn.revocRegDefId = id).map (·.value)

theorem valuesOf_concat (id : String) (txns : List (RevocRegEntryTxn ι))
    (txn : RevocRegEntryTxn ι) :
    valuesOf id (txns ++ [txn]) =
      if txn.revocRegDefId = id then valuesOf id txns ++ [txn.value] else valuesOf id txns := by
  split <;> rename_i h <;> simp [valuesOf, h]

variable [DecidableEq ι]

/-- Indices of a registry with the given issuance type (the revoked or the issued ones) after
`issued` and `revoked` are applied to it. -/
def IssuanceType.patch (type : IssuanceType) (status : Finset ι)
    (delta : List ι × List ι) : Finset ι :=
  match type with
  | .issuanceByDefault => (status \ delta.1.toFinset) ∪ delta.2.toFinset
  | .issuanceOnDemand => (status \ delta.2.toFinset) ∪ delta.1.toFinset

/-- The history of a registry, folded from the empty set. -/
def IssuanceType.status (type : IssuanceType) (values : List (EntryValue ι)) : Finset ι :=
  values.foldl (fun status value => type.patch status (value.get .issued, value.get .revoked)) ∅

def IssuanceType.kept (type : IssuanceType) : ListName := (getRevocationStrategy type).kept

@[simp] theorem toFinset_setDifference (a b : List ι) :
    (setDifference a b).toFinset = a.toFinset \ b.toFinset := by
  ext i
  simp [setDifference]

@[simp] theorem toFinset_setUpdate (a b : List ι) :
    (setUpdate a b).toFinset = a.toFinset ∪ b.toFinset := by
  ext i
  simp [setUpdate]

/-- The patch in terms of the list that is kept. -/
theorem IssuanceType.patch_eq (type : IssuanceType) (status : Finset ι) (value : EntryValue ι) :
    type.patch status (value.get .issued, value.get .revoked) =
      (status \ (value.get type.kept.other).toFinset) ∪ (value.get type.kept).toFinset := by
  cases type <;> rfl

/-- A first entry is stored as it is. -/
theorem toFinset_writtenValue_none (type : IssuanceType) (value : EntryValue ι) :
    (((getRevocationStrategy type).writtenValue none value).get type.kept).toFinset =
      type.patch ∅ (value.get .issued, value.get .revoked) := by
  rw [type.patch_eq, Strategy.writtenValue, Finset.empty_sdiff]
  simp

/-- A later entry is patched into the indices of the one before. -/
theorem toFinset_writtenValue_some (type : IssuanceType) (current value : EntryValue ι) :
    (((getRevocationStrategy type).writtenValue (some current) value).get type.kept).toFinset =
      type.patch (current.get type.kept).toFinset (value.get .issued, value.get .revoked) := by
  rw [type.patch_eq, Strategy.writtenValue, IssuanceType.kept, EntryValue.get_set,
    toFinset_setUpdate, toFinset_setDifference]

/-- A delta leads from the indices of the old entry to those of the new one. -/
theorem patch_getDelta_some (type : IssuanceType) (new old : EntryValue ι) :
    type.patch (old.get type.kept).toFinset ((getRevocationStrategy type).getDelta new (some old)) =
      (new.get type.kept).toFinset := by
  ext i
  cases type
  · simp [IssuanceType.patch, Strategy.getDelta, getRevocationStrategy, revokedStrategy,
      IssuanceType.kept]
    tauto
  · simp [IssuanceType.patch, Strategy.getDelta, getRevocationStrategy, issuedStrategy,
      IssuanceType.kept]
    tauto

theorem patch_getDelta_none (type : IssuanceType) (new : EntryValue ι) :
    type.patch ∅ ((getRevocationStrategy type).getDelta new none) =
      (new.get type.kept).toFinset := by
  rw [Strategy.getDelta, type.patch_eq, Finset.empty_sdiff]
  simp

theorem IssuanceType.status_concat (type : IssuanceType) (values : List (EntryValue ι))
    (value : EntryValue ι) :
    type.status (values ++ [value]) = type.patch (type.status values)
      (value.get .issued, value.get .revoked) := by
  rw [IssuanceType.status, List.foldl_append]
  rfl

section Runs

variable {authorize : RevocRegEntryTxn ι → AuthAction → Bool} {s s' s₀ : RevocState ι}
    {txn : RevocRegEntryTxn ι}
  {txns out : List (RevocRegEntryTxn ι)} {id : String} {type : IssuanceType}

/-- What an accepted transaction writes, and where. -/
theorem revocStep_cases (h : revocStep authorize s txn = .ok (s', out)) :
    ∃ type, s.revocDef txn.revocRegDefId = some type ∧
      s' = setToState s txn
        ((getRevocationStrategy type).writtenValue
          ((s.entry txn.revocRegDefId).map (·.value)) txn.value) := by
  rw [revocStep, except_bind_eq_ok] at h
  obtain ⟨-, -, h⟩ := h
  rw [except_bind_eq_ok] at h
  obtain ⟨s₁, hupdate, h⟩ := h
  have hs : s₁ = s' := congrArg Prod.fst (Except.ok.inj h)
  unfold updateState at hupdate
  rcases hdef : s.revocDef txn.revocRegDefId with _ | type
  · simp [hdef] at hupdate
  · simp only [hdef, Except.ok.injEq] at hupdate
    exact ⟨type, rfl, hs ▸ hupdate.symm⟩

/-- What is known of a registry along a run: its definition is as before, it has an entry once it
has a transaction, and the entry lists the indices of the history. -/
structure Replayed (type : IssuanceType) (id : String) (txns : List (RevocRegEntryTxn ι))
    (s : RevocState ι) :
    Prop where
  revocDef : s.revocDef id = some type
  entry_iff : (s.entry id).isSome ↔ valuesOf id txns ≠ []
  indices : ∀ e, s.entry id = some e →
    (e.value.get type.kept).toFinset = type.status (valuesOf id txns)

theorem Replayed.status_of_none (h : Replayed type id txns s) (hnone : s.entry id = none) :
    type.status (valuesOf id txns) = ∅ := by
  have hempty : valuesOf id txns = [] := by
    by_contra hne
    simpa [hnone] using h.entry_iff.mpr hne
  rw [hempty]
  rfl

theorem Replayed.step (h : Replayed type id txns s)
    (hstep : revocStep authorize s txn = .ok (s', out)) :
    Replayed type id (txns ++ [txn]) s' := by
  obtain ⟨type', hdef, rfl⟩ := revocStep_cases hstep
  by_cases hid : txn.revocRegDefId = id
  · -- The registry's own transaction: a first entry, or one patched into the entry before.
    subst hid
    obtain rfl : type' = type := Option.some.inj (hdef.symm.trans h.revocDef)
    constructor
    · exact h.revocDef
    · simp [setToState, valuesOf_concat]
    · intro e he
      simp only [setToState, Function.update_self, Option.some.injEq] at he
      rw [← he, valuesOf_concat, if_pos rfl, IssuanceType.status_concat]
      rcases hentry : s.entry txn.revocRegDefId with _ | current
      · rw [Option.map_none, toFinset_writtenValue_none, h.status_of_none hentry]
      · rw [Option.map_some, toFinset_writtenValue_some, h.indices current hentry]
  · have hframe : (setToState s txn ((getRevocationStrategy type').writtenValue
        ((s.entry txn.revocRegDefId).map (·.value)) txn.value)).entry id = s.entry id :=
      Function.update_of_ne (Ne.symm hid) _ _
    constructor
    · exact h.revocDef
    · rw [hframe, valuesOf_concat, if_neg hid]
      exact h.entry_iff
    · rw [hframe, valuesOf_concat, if_neg hid]
      exact h.indices

theorem replayed_of_run (hdef : s₀.revocDef id = some type) (hnew : s₀.entry id = none)
    (hrun : runSteps (revocStep authorize) s₀ txns = .ok (s, out)) : Replayed type id txns s := by
  apply runSteps_invariant (C := fun _ _ => True)
    (P := fun pre _ s => Replayed type id pre s) _ _ _ hrun
  · exact ⟨hdef, by simp [hnew, valuesOf], by simp [hnew]⟩
  · intro pre out s e s' out' h _ hstep
    exact h.step hstep
  · intro _ _ _ _ _ _
    trivial

/-- After a run the stored indices are those of the history, and the delta from the entry stored
after the first `i` transactions leads from the history up to there to the whole history. -/
theorem delta_replays_history (hdef : s₀.revocDef id = some type) (hnew : s₀.entry id = none)
    (hrun : runSteps (revocStep authorize) s₀ txns = .ok (s, out)) (i : ℕ) :
    ((s.entry id).isSome ↔ valuesOf id txns ≠ []) ∧
      ∃ sᵢ outᵢ, runSteps (revocStep authorize) s₀ (txns.take i) = .ok (sᵢ, outᵢ) ∧
        ∀ e, s.entry id = some e →
          (e.value.get type.kept).toFinset = type.status (valuesOf id txns) ∧
            type.patch (type.status (valuesOf id (txns.take i)))
              ((getRevocationStrategy type).getDelta e.value ((sᵢ.entry id).map (·.value))) =
                type.status (valuesOf id txns) := by
  obtain ⟨sᵢ, outᵢ, hrunᵢ⟩ := exists_runSteps_of_prefix (List.take_prefix i txns) hrun
  have hk := replayed_of_run hdef hnew hrun
  have hi := replayed_of_run hdef hnew hrunᵢ
  refine ⟨hk.entry_iff, sᵢ, outᵢ, hrunᵢ, ?_⟩
  intro e he
  have hindices := hk.indices e he
  refine ⟨hindices, ?_⟩
  rcases hentry : sᵢ.entry id with _ | old
  · rw [Option.map_none, hi.status_of_none hentry, patch_getDelta_none, hindices]
  · rw [Option.map_some, ← hi.indices old hentry, patch_getDelta_some, hindices]

end Runs

def sampleRegistry : RevocState ℤ :=
  ⟨fun _ => some .issuanceByDefault, fun _ => none, fun _ => none⟩

/-- Two credentials are revoked at first, then one of them is issued again and a third revoked. -/
def sampleEntries : List (RevocRegEntryTxn ℤ) :=
  [⟨"V4SGRU86Z58d6TV7PBUe6f", "V4SGRU86Z58d6TV7PBUe6f:4:cred:CL_ACCUM:tag", "CL_ACCUM",
      ⟨none, "a1", some [7], some [1, 2]⟩, 20, 1000⟩,
    ⟨"V4SGRU86Z58d6TV7PBUe6f", "V4SGRU86Z58d6TV7PBUe6f:4:cred:CL_ACCUM:tag", "CL_ACCUM",
      ⟨some "a1", "a2", some [1], some [5]⟩, 21, 1001⟩]

theorem delta_replays_history_two : ∃ s out e,
    runSteps (revocStep fun _ _ => true) sampleRegistry sampleEntries = .ok (s, out) ∧
      s.entry "V4SGRU86Z58d6TV7PBUe6f:4:cred:CL_ACCUM:tag" = some e ∧
        (e.value.get .revoked).toFinset = ({2, 5} : Finset ℤ) := by
  obtain ⟨s, out, hrun⟩ : ∃ s out,
      runSteps (revocStep fun _ _ => true) sampleRegistry sampleEntries = .ok (s, out) :=
      ⟨_, _, rfl⟩
  have hdef : sampleRegistry.revocDef "V4SGRU86Z58d6TV7PBUe6f:4:cred:CL_ACCUM:tag" =
      some .issuanceByDefault := rfl
  obtain ⟨hsome, sᵢ, outᵢ, -, hdelta⟩ := delta_replays_history hdef rfl hrun 1
  obtain ⟨e, he⟩ := Option.isSome_iff_exists.mp (hsome.mpr (by decide))
  refine ⟨s, out, e, hrun, he, ?_⟩
  exact (hdelta e he).1.trans (by decide)

end SimpleAsset.IndyNode
