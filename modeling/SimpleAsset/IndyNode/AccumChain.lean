import Mathlib.Data.List.Chain
import SimpleAsset.IndyNode.RevocReplay

/-! Accepted entries of a registry form a chain of accumulators, whoever submits them. -/
namespace SimpleAsset.IndyNode
open SimpleAsset.Library

variable {ι : Type}

/-- Transactions of one registry. -/
def ofRegistry (id : String) (txns : List (RevocRegEntryTxn ι)) : List (RevocRegEntryTxn ι) :=
  txns.filter fun txn => txn.revocRegDefId = id

theorem ofRegistry_concat (id : String) (txns : List (RevocRegEntryTxn ι))
    (txn : RevocRegEntryTxn ι) :
    ofRegistry id (txns ++ [txn]) =
      if txn.revocRegDefId = id then ofRegistry id txns ++ [txn] else ofRegistry id txns := by
  split <;> rename_i h <;> simp [ofRegistry, h]

/-- An entry is built on the accumulator that another one leaves. -/
def BuiltOn (txn next : RevocRegEntryTxn ι) : Prop := next.value.prevAccum = some txn.value.accum

/-- In a chain, two entries built on one accumulator have between them an entry that leads back to
it, unless the first of them leaves it as it is. -/
theorem exists_return_of_isChain {pre mid post : List (RevocRegEntryTxn ι)}
    {a b : RevocRegEntryTxn ι} (h : (pre ++ a :: mid ++ b :: post).IsChain BuiltOn)
    (hsame : a.value.prevAccum = b.value.prevAccum)
    (hchanges : a.value.prevAccum ≠ some a.value.accum) :
    ∃ c ∈ mid, some c.value.accum = a.value.prevAccum := by
  have hlink := (List.isChain_append.mp h).2.2
  rcases List.eq_nil_or_concat' mid with rfl | ⟨init, c, rfl⟩
  · have hab : BuiltOn a b := hlink a (by simp) b (by simp)
    exact absurd (hsame.trans hab) hchanges
  · have hlast : (pre ++ a :: (init ++ [c])).getLast? = some c := by
      rw [← List.cons_append, ← List.append_assoc, List.getLast?_concat]
    have hcb : BuiltOn c b := hlink c hlast b (by simp)
    exact ⟨c, by simp, (hsame.trans hcb).symm⟩

variable [DecidableEq ι]

/-- A valid entry names the accumulator of the stored one, or none if nothing is stored. -/
theorem Strategy.prevAccum_of_validate {strategy : Strategy} {currentEntry : Option (EntryValue ι)}
    {value : EntryValue ι} (h : strategy.validate currentEntry value = .ok ()) :
    value.prevAccum = currentEntry.map (·.accum) := by
  unfold Strategy.validate at h
  by_cases hboth : setIntersection (value.get .issued) (value.get .revoked) = []
  · rcases currentEntry with _ | current
    · rcases hprev : value.prevAccum with _ | prevAccum
      · rfl
      · simp [hboth, hprev] at h
    · by_cases hprev : some current.accum = value.prevAccum
      · exact hprev.symm
      · simp [hboth, hprev] at h
  · simp [hboth] at h

/-- What is written keeps the accumulator of the transaction. -/
@[simp] theorem Strategy.writtenValue_accum (strategy : Strategy)
    (currentEntry : Option (EntryValue ι))
    (value : EntryValue ι) : (strategy.writtenValue currentEntry value).accum = value.accum := by
  obtain ⟨kept⟩ := strategy
  rcases currentEntry with _ | current
  · rfl
  · cases kept <;> rfl

section Runs

variable {authorize : RevocRegEntryTxn ι → AuthAction → Bool} {s s' s₀ : RevocState ι}
    {txn : RevocRegEntryTxn ι}
  {txns out : List (RevocRegEntryTxn ι)} {id : String}

theorem prevAccum_of_revocStep (h : revocStep authorize s txn = .ok (s', out)) :
    txn.value.prevAccum = (s.entry txn.revocRegDefId).map (·.value.accum) := by
  rw [revocStep, except_bind_eq_ok] at h
  obtain ⟨_, hvalid, _⟩ := h
  unfold additionalDynamicValidation at hvalid
  rcases hdef : s.revocDef txn.revocRegDefId with _ | type
  · simp [hdef] at hvalid
  · simp only [hdef] at hvalid
    split_ifs at hvalid
    all_goals
      have hprev := Strategy.prevAccum_of_validate hvalid
      rw [hprev, Option.map_map]
      rfl

/-- What is known of a registry along a run: its accepted entries form a chain, and both of its
records carry the accumulator of the last one. -/
structure Chained (id : String) (txns : List (RevocRegEntryTxn ι)) (s : RevocState ι) : Prop where
  chain : (ofRegistry id txns).IsChain BuiltOn
  entry : ∀ last, (ofRegistry id txns).getLast? = some last →
    (s.entry id).map (·.value.accum) = some last.value.accum
  accum : ∀ last, (ofRegistry id txns).getLast? = some last →
    (s.accum id).map (·.value) = some last.value.accum

theorem Chained.step (h : Chained id txns s) (hstep : revocStep authorize s txn = .ok (s', out)) :
    Chained id (txns ++ [txn]) s' := by
  have hprev := prevAccum_of_revocStep hstep
  obtain ⟨type, -, rfl⟩ := revocStep_cases hstep
  by_cases hid : txn.revocRegDefId = id
  · subst hid
    have hof : ofRegistry txn.revocRegDefId (txns ++ [txn]) = ofRegistry txn.revocRegDefId txns ++
        [txn] := by
      rw [ofRegistry_concat, if_pos rfl]
    constructor
    · rw [hof, List.isChain_append]
      refine ⟨h.chain, List.isChain_singleton txn, ?_⟩
      intro last hlast next hnext
      obtain rfl : txn = next := by simpa using hnext
      exact hprev.trans (h.entry last hlast)
    · intro last hlast
      obtain rfl : txn = last := by simpa [hof] using hlast
      simp [setToState]
    · intro last hlast
      obtain rfl : txn = last := by simpa [hof] using hlast
      simp [setToState]
  · -- Both records of the other registries stay as they are.
    have hof : ofRegistry id (txns ++ [txn]) = ofRegistry id txns := by
      rw [ofRegistry_concat, if_neg hid]
    have hne : id ≠ txn.revocRegDefId := Ne.symm hid
    constructor
    · rw [hof]
      exact h.chain
    · rw [hof]
      simpa [setToState, hne] using h.entry
    · rw [hof]
      simpa [setToState, hne] using h.accum

theorem chained_of_run (hrun : runSteps (revocStep authorize) s₀ txns = .ok (s, out)) :
    Chained id txns s := by
  apply runSteps_invariant (C := fun _ _ => True) (P := fun pre _ s => Chained id pre s) _ _ _ hrun
  · exact ⟨by simp [ofRegistry], by simp [ofRegistry], by simp [ofRegistry]⟩
  · intro pre out s e s' out' h _ hstep
    exact h.step hstep
  · intro _ _ _ _ _ _
    trivial

end Runs

/-- The accepted ones among any requests chain up on each registry; of two that are built on the
same accumulator and change it, the later one is accepted only after another brought that
accumulator back; and both records carry the accumulator of the last one. -/
theorem accepted_entries_chain (authorize : RevocRegEntryTxn ι → AuthAction → Bool)
    (s₀ : RevocState ι) (requests : List (RevocRegEntryTxn ι)) (id : String) :
    (ofRegistry id (submitSteps (revocStep authorize) s₀ requests).2).IsChain
        (fun txn next => next.value.prevAccum = some txn.value.accum) ∧
      (∀ pre a mid b post, ofRegistry id (submitSteps (revocStep authorize) s₀ requests).2 =
          pre ++ a :: mid ++ b :: post → a.value.prevAccum = b.value.prevAccum →
        a.value.prevAccum ≠ some a.value.accum →
        ∃ c ∈ mid, some c.value.accum = a.value.prevAccum) ∧
      ∀ last, (ofRegistry id (submitSteps (revocStep authorize) s₀ requests).2).getLast? =
        some last →
        ∃ e r, (submitSteps (revocStep authorize) s₀ requests).1.entry id = some e ∧
          (submitSteps (revocStep authorize) s₀ requests).1.accum id = some r ∧
            e.value.accum = last.value.accum ∧ r.value = last.value.accum := by
  obtain ⟨out, hrun⟩ : ∃ out,
      runSteps (revocStep authorize) s₀ (submitSteps (revocStep authorize) s₀ requests).2 =
      .ok ((submitSteps (revocStep authorize) s₀ requests).1, out) :=
      exists_runSteps_submitSteps s₀ requests
  have h : Chained id _ _ := chained_of_run hrun
  refine ⟨h.chain, ?_, ?_⟩
  · intro pre a mid b post heq hsame hchanges
    exact exists_return_of_isChain (heq ▸ h.chain) hsame hchanges
  · intro last hlast
    obtain ⟨e, he, heaccum⟩ := Option.map_eq_some_iff.mp (h.entry last hlast)
    obtain ⟨r, hr, hraccum⟩ := Option.map_eq_some_iff.mp (h.accum last hlast)
    exact ⟨e, r, he, hr, heaccum, hraccum⟩

/-- A credential is revoked and issued again, which brings the accumulator back, and is then revoked
a second time. -/
def sampleReturn : List (RevocRegEntryTxn ℤ) :=
  [⟨"V4SGRU86Z58d6TV7PBUe6f", "V4SGRU86Z58d6TV7PBUe6f:4:cred:CL_ACCUM:tag", "CL_ACCUM",
      ⟨none, "a1", none, some []⟩, 20, 1000⟩,
    ⟨"V4SGRU86Z58d6TV7PBUe6f", "V4SGRU86Z58d6TV7PBUe6f:4:cred:CL_ACCUM:tag", "CL_ACCUM",
      ⟨some "a1", "a2", none, some [1]⟩, 21, 1001⟩,
    ⟨"V4SGRU86Z58d6TV7PBUe6f", "V4SGRU86Z58d6TV7PBUe6f:4:cred:CL_ACCUM:tag", "CL_ACCUM",
      ⟨some "a2", "a1", some [1], none⟩, 22, 1002⟩,
    ⟨"V4SGRU86Z58d6TV7PBUe6f", "V4SGRU86Z58d6TV7PBUe6f:4:cred:CL_ACCUM:tag", "CL_ACCUM",
      ⟨some "a1", "a2", none, some [1]⟩, 23, 1003⟩]

/-- Two accepted entries may be built on the same accumulator although both change it. -/
theorem two_entries_on_one_accum :
    ¬ ∀ (authorize : RevocRegEntryTxn ℤ → AuthAction → Bool) (s₀ : RevocState ℤ)
    (requests : List (RevocRegEntryTxn ℤ)) (id : String) (pre mid post : List (RevocRegEntryTxn ℤ))
    (a b : RevocRegEntryTxn ℤ),
    ofRegistry id (submitSteps (revocStep authorize) s₀ requests).2 = pre ++ a :: mid ++ b :: post →
      a.value.prevAccum ≠ some a.value.accum → b.value.prevAccum ≠ some b.value.accum →
        a.value.prevAccum ≠ b.value.prevAccum := by
  intro h
  have hall : ofRegistry "V4SGRU86Z58d6TV7PBUe6f:4:cred:CL_ACCUM:tag"
      (submitSteps (revocStep fun _ _ => true) sampleRegistry sampleReturn).2 =
        sampleReturn.take 1 ++
        sampleReturn.get ⟨1, by decide⟩ :: [sampleReturn.get ⟨2, by decide⟩] ++
          sampleReturn.get ⟨3, by decide⟩ :: [] := by
    decide
  exact h _ _ _ _ _ _ _ _ _ hall (by decide) (by decide) (by decide)

end SimpleAsset.IndyNode
