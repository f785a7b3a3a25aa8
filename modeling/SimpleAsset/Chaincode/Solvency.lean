import SimpleAsset.Chaincode.Conservation

/-! Solvency over runs of transactions: no stored balance is negative. `createAccount` and
`remit` refuse negative amounts; `moneyIssuance` does not, and no sum is checked for overflow. -/
namespace SimpleAsset.Chaincode
open SimpleAsset.Library

/-- Every stored text is the rendering of a balance between 0 and `maxInt`. -/
def Solvent (σ : Ledger) : Prop :=
  ∀ k v, σ.lookup k = some v → ∃ b, 0 ≤ b ∧ b ≤ maxInt ∧ v = integerToString b

/-- The balance a `remit` or an issuance writes back lies between 0 and `maxInt`. -/
def WritesSolvent (shim : Shim) (σ : Ledger) (tx : Tx) : Prop :=
  OnSums shim σ (fun _ _ n br => br + n ≤ maxInt) (fun n b => 0 ≤ n + b ∧ n + b ≤ maxInt) tx

theorem integerToString_injective {a b : ℤ} (ha : InRange a) (hb : InRange b)
    (h : integerToString a = integerToString b) : a = b := by
  have := parseInt_integerToString ha
  rw [h, parseInt_integerToString hb] at this
  exact (Except.ok.inj this).symm

/-- A solvent row that holds the rendering of `b` holds a balance `b` that is not negative. -/
theorem Solvent.of_lookup {σ : Ledger} (h : Solvent σ) {k : String} {b : ℤ} (hb : InRange b)
    (hk : σ.lookup k = some (integerToString b)) : 0 ≤ b ∧ b ≤ maxInt := by
  obtain ⟨c, h0, h1, he⟩ := h k _ hk
  have hc : InRange c := ⟨by simp only [minInt]; omega, h1⟩
  rw [integerToString_injective hb hc he]
  exact ⟨h0, h1⟩

theorem Solvent.of_parseInt {σ : Ledger} (h : Solvent σ) {k : String} {b : ℤ}
    (hk : parseInt (σ.lookup k) = .ok b) : 0 ≤ b ∧ b ≤ maxInt := by
  cases hv : σ.lookup k with
  | none => simp [hv, parseInt] at hk
  | some v =>
    obtain ⟨c, h0, h1, rfl⟩ := h k v hv
    have hc : InRange c := ⟨by simp only [minInt]; omega, h1⟩
    rw [hv, parseInt_integerToString hc] at hk
    cases hk
    exact ⟨h0, h1⟩

theorem solvent_empty : Solvent ∅ := by
  intro k v h
  simp at h

/-- From a solvent state a transaction reaches a solvent one exactly when what it writes is
in range. -/
theorem solvent_commit_iff {shim : Shim} {σ : Ledger} (hσ : Solvent σ) (tx : Tx) :
    Solvent (commit shim σ tx) ↔ WritesSolvent shim σ tx := by
  rcases tx_cases shim σ tx with ⟨s, r, a, n, bs, br, rfl, h⟩ | ⟨a, n, b, rfl, h⟩ | hplain
  · obtain ⟨hbs0, hbs1⟩ := hσ.of_parseInt h.sender_ok
    obtain ⟨hbr0, hbr1⟩ := hσ.of_parseInt h.receiver_ok
    have hn := parseInt_inRange h.amount_ok
    have h0 := h.nonneg
    have hf := h.funded
    rw [WritesSolvent, onSums_remit h, commit_remit h]
    constructor
    · intro hs
      obtain ⟨hw, -⟩ := hs.of_lookup (inRange_wrapInt _) (AList.lookup_insert _)
      simp only [wrapInt, InRange, minInt, maxInt] at hw hn hbr1 ⊢
      omega
    · intro hle
      have hrecv : wrapInt (br + n) = br + n :=
        wrapInt_of_inRange ⟨by simp only [minInt]; omega, hle⟩
      have hsend : wrapInt (bs - n) = bs - n :=
        wrapInt_of_inRange ⟨by simp only [minInt]; omega, by omega⟩
      rw [hrecv, hsend]
      exact Table.forall_lookup_insert ⟨br + n, by omega, hle, rfl⟩
        (Table.forall_lookup_insert ⟨bs - n, by omega, by omega, rfl⟩ hσ)
  · obtain ⟨hb0, hb1⟩ := hσ.of_parseInt h.admin_ok
    have hn := parseInt_inRange h.amount_ok
    rw [WritesSolvent, onSums_issue h, commit_issue h]
    constructor
    · intro hs
      obtain ⟨hw, -⟩ := hs.of_lookup (inRange_wrapInt _) (AList.lookup_insert _)
      simp only [wrapInt, InRange, minInt, maxInt] at hw hn hb1 ⊢
      omega
    · rintro ⟨hlo, hhi⟩
      have hsum : wrapInt (n + b) = n + b := wrapInt_of_inRange ⟨by simp only [minInt]; omega, hhi⟩
      rw [hsum]
      exact Table.forall_lookup_insert ⟨n + b, hlo, hhi, rfl⟩ hσ
  refine iff_of_true ?_ (hplain _ _)
  have hc := commits_commit shim σ tx
  generalize flow shim σ tx = d at hc
  generalize commit shim σ tx = σ' at hc ⊢
  cases hc with
  | idle => exact hσ
  | init => exact Table.forall_lookup_insert ⟨0, by decide, by decide, by decide⟩ hσ
  | create h =>
    exact Table.forall_lookup_insert ⟨_, h.nonneg, (parseInt_inRange h.deposit_ok).2, rfl⟩ hσ
  | remit h => exact ((onSums_remit h).mp (hplain (fun _ _ _ _ => False) (fun _ _ => False))).elim
  | issue h => exact ((onSums_issue h).mp (hplain (fun _ _ _ _ => False) (fun _ _ => False))).elim
  | delete user => exact Table.forall_lookup_erase hσ

/-- Every state a run reaches is solvent exactly when every balance it writes is in range. -/
theorem solvent_iff_writesSolvent (shim : Shim) (txs : List Tx) :
    (∀ pre, pre <+: txs → Solvent (run shim ∅ pre)) ↔
      ∀ pre tx, pre ++ [tx] <+: txs → WritesSolvent shim (run shim ∅ pre) tx := by
  refine forall_prefix_iff (by simpa [run] using solvent_empty) ?_ txs
  intro pre tx hpre
  rw [run_append]
  exact solvent_commit_iff hpre tx

/-- Issuing a negative amount overdraws `admin`. -/
theorem not_solvent_negative_issuance :
    ¬ ∀ (shim : Shim) (txs : List Tx), Solvent (run shim ∅ txs) := by
  intro h
  have hs := h ⟨fun k => !k.isEmpty⟩ [.init, .invoke "money_issuance" ["-5"]]
  have hl : (run ⟨fun k => !k.isEmpty⟩ ∅ [.init, .invoke "money_issuance" ["-5"]]).lookup "admin" =
      some (integerToString (-5)) := by decide
  obtain ⟨hneg, -⟩ := hs.of_lookup (by decide) hl
  omega

end SimpleAsset.Chaincode
