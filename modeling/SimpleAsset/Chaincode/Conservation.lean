import SimpleAsset.Library.Runs
import SimpleAsset.Chaincode.Steps

/-! Conservation of money over runs of transactions. Every stored text stays the rendering of
an `int`; the total follows the money brought in and taken out exactly as long as no `remit`
pays an account from itself and no sum leaves the `int` range. -/
namespace SimpleAsset.Chaincode
open SimpleAsset.Library

/-- Every stored text is the rendering of an `int`. -/
def WellStored (σ : Ledger) : Prop :=
  ∀ k v, σ.lookup k = some v → ∃ b, InRange b ∧ v = integerToString b

/-- Sum of the integer balances of all stored accounts. -/
def totalBalance (σ : Ledger) : ℤ := Table.total balanceOf σ

/-- Sum of `f` over the transactions of a run, each taken at the state it starts from. -/
def sumAlong (shim : Shim) (f : Ledger → Tx → ℤ) (σ : Ledger) : List Tx → ℤ
  | [] => 0
  | tx :: txs => f σ tx + sumAlong shim f (commit shim σ tx) txs

/-- The total equals what was issued and deposited less what was deleted. -/
def Conserved (shim : Shim) (txs : List Tx) : Prop :=
  totalBalance (run shim ∅ txs) = sumAlong shim (issued shim) ∅ txs +
    sumAlong shim (deposited shim) ∅ txs - sumAlong shim (removed shim) ∅ txs

instance (shim : Shim) (txs : List Tx) : Decidable (Conserved shim txs) :=
  inferInstanceAs (Decidable (_ = _))

/-- The transaction moves money exactly: a `remit` that passes its guards has different parties
or a zero amount, and neither it nor an issuance leaves the `int` range. -/
def MovesExactly (shim : Shim) (σ : Ledger) (tx : Tx) : Prop :=
  OnSums shim σ (fun s r n br => (s ≠ r ∨ n = 0) ∧ br + n ≤ maxInt) (fun n b => InRange (n + b)) tx

theorem balanceOf_integerToString {b : ℤ} (h : InRange b) : balanceOf (integerToString b) = b :=
  balanceOf_eq (parseInt_integerToString h)

theorem integerToString_ne_empty {b : ℤ} (h : InRange b) : integerToString b ≠ "" := by
  intro he
  have hp := parseInt_integerToString h
  have hn := not_isNullOrEmpty_of_parseInt hp
  rw [he] at hn
  simp [isNullOrEmpty] at hn

theorem WellStored.lookup_eq_none {σ : Ledger} (hσ : WellStored σ) {k : String}
    (h : isNullOrEmpty (σ.lookup k)) : σ.lookup k = none := by
  cases hv : σ.lookup k with
  | none => rfl
  | some v =>
    obtain ⟨b, hb, rfl⟩ := hσ k v hv
    rw [hv] at h
    exact absurd (by simpa [isNullOrEmpty] using h) (integerToString_ne_empty hb)

/-- What a parsed balance says about the stored row. -/
theorem weight_of_parseInt {σ : Ledger} {k : String} {b : ℤ} (h : parseInt (σ.lookup k) = .ok b) :
    Table.weight balanceOf k σ = b := by
  cases hv : σ.lookup k with
  | none => simp [hv, parseInt] at h
  | some v =>
    rw [hv] at h
    rw [Table.weight_eq_of_lookup balanceOf hv, balanceOf_eq h]

theorem wellStored_empty : WellStored ∅ := by
  intro k v h
  simp at h

/-- One transaction keeps every stored text an `int`. -/
theorem WellStored.commits {shim : Shim} {σ σ' : Ledger} {tx : Tx} {d : ℤ} (hσ : WellStored σ)
    (h : Commits shim σ tx d σ') : WellStored σ' := by
  cases h with
  | idle => exact hσ
  | init => exact Table.forall_lookup_insert ⟨0, by decide, by decide⟩ hσ
  | create h => exact Table.forall_lookup_insert ⟨_, parseInt_inRange h.deposit_ok, rfl⟩ hσ
  | remit h =>
    exact Table.forall_lookup_insert ⟨_, inRange_wrapInt _, rfl⟩
      (Table.forall_lookup_insert ⟨_, inRange_wrapInt _, rfl⟩ hσ)
  | issue h => exact Table.forall_lookup_insert ⟨_, inRange_wrapInt _, rfl⟩ hσ
  | delete user => exact Table.forall_lookup_erase hσ

theorem run_append (shim : Shim) (σ : Ledger) (pre txs : List Tx) :
    run shim σ (pre ++ txs) = run shim (run shim σ pre) txs := by
  simp [run]

theorem wellStored_run (shim : Shim) (txs : List Tx) : WellStored (run shim ∅ txs) := by
  induction txs using List.reverseRecOn with
  | nil => exact wellStored_empty
  | append_singleton txs tx ih =>
    rw [run_append]
    exact ih.commits (commits_commit shim _ tx)

theorem total_insert_balance (σ : Ledger) (k : String) {b : ℤ} (hb : InRange b) :
    totalBalance (σ.insert k (integerToString b)) =
      totalBalance σ - Table.weight balanceOf k σ + b := by
  have h := Table.weight_add_total_insert balanceOf k (integerToString b) σ
  rw [balanceOf_integerToString hb] at h
  simp only [totalBalance]
  omega

/-- Two writes of a `remit`: what they do to the total, for equal and for different parties. -/
theorem total_remit {shim : Shim} {σ : Ledger} {s r a : String} {n bs br : ℤ}
    (h : Remits shim σ s r a n bs br) :
    totalBalance ((σ.insert s (integerToString (wrapInt (bs - n)))).insert r
      (integerToString (wrapInt (br + n)))) =
      if s = r then totalBalance σ - br + wrapInt (br + n)
      else totalBalance σ - n - br + wrapInt (br + n) := by
  have hs := weight_of_parseInt h.sender_ok
  have hr := weight_of_parseInt h.receiver_ok
  have hbs := parseInt_inRange h.sender_ok
  have hdiff : wrapInt (bs - n) = bs - n := by
    apply wrapInt_of_inRange
    have h0 := h.nonneg
    have h1 := h.funded
    simp only [InRange, minInt, maxInt] at hbs ⊢
    omega
  rw [total_insert_balance _ r (inRange_wrapInt _), total_insert_balance σ s (inRange_wrapInt _)]
  split_ifs with heq
  · subst heq
    rw [Table.weight_insert_self, balanceOf_integerToString (inRange_wrapInt _), hs]
    have hb : bs = br := hs.symm.trans hr
    rw [hb]
    omega
  · rw [Table.weight_insert_ne _ (Ne.symm heq), hs, hr, hdiff]
    omega

/-- A transaction changes the total by its flow exactly when it moves money exactly. -/
theorem total_commit_iff {shim : Shim} {σ : Ledger} (hσ : WellStored σ) (tx : Tx) :
    totalBalance (commit shim σ tx) = totalBalance σ + flow shim σ tx ↔ MovesExactly shim σ tx := by
  rcases tx_cases shim σ tx with ⟨s, r, a, n, bs, br, rfl, h⟩ | ⟨a, n, b, rfl, h⟩ | hplain
  · have hn := parseInt_inRange h.amount_ok
    have hb := parseInt_inRange h.receiver_ok
    have h0 := h.nonneg
    have hf : flow shim σ (.invoke "remit" [s, r, a]) = 0 := by
      simp [flow, issued, deposited, removed]
    rw [MovesExactly, onSums_remit h, commit_remit h, total_remit h, hf]
    simp only [InRange, minInt, maxInt] at hn hb ⊢
    by_cases heq : s = r
    · simp only [heq, if_true, wrapInt, ne_eq, not_true_eq_false, false_or]
      omega
    · simp only [heq, if_false, wrapInt, ne_eq, not_false_eq_true, true_or, true_and]
      omega
  · have hw := weight_of_parseInt h.admin_ok
    rw [MovesExactly, onSums_issue h, commit_issue h, flow_issue h,
      total_insert_balance σ _ (inRange_wrapInt _), hw]
    simp only [InRange, minInt, maxInt, wrapInt]
    omega
  -- a transaction without a sum writes exactly its flow
  refine iff_of_true ?_ (hplain _ _)
  have hc := commits_commit shim σ tx
  generalize flow shim σ tx = d at hc ⊢
  generalize commit shim σ tx = σ' at hc ⊢
  cases hc with
  | idle => omega
  | init ha =>
    have hl := hσ.lookup_eq_none ha
    have h0 : ("0" : String) = integerToString 0 := by decide
    rw [h0, total_insert_balance σ _ (by decide), Table.weight, hl]
    simp
  | create h =>
    have hl := hσ.lookup_eq_none h.fresh
    rw [total_insert_balance σ _ (parseInt_inRange h.deposit_ok), Table.weight, hl]
    simp
  | remit h => exact ((onSums_remit h).mp (hplain (fun _ _ _ _ => False) (fun _ _ => False))).elim
  | issue h => exact ((onSums_issue h).mp (hplain (fun _ _ _ _ => False) (fun _ _ => False))).elim
  | delete user =>
    have h := Table.weight_add_total_erase balanceOf user σ
    simp only [totalBalance]
    omega

theorem sumAlong_append (shim : Shim) (f : Ledger → Tx → ℤ) (σ : Ledger) (pre txs : List Tx) :
    sumAlong shim f σ (pre ++ txs) =
      sumAlong shim f σ pre + sumAlong shim f (run shim σ pre) txs := by
  induction pre generalizing σ with
  | nil => simp [sumAlong, run]
  | cons tx pre ih =>
    simp only [List.cons_append, sumAlong, ih, run, List.foldl_cons]
    omega

theorem conserved_append_iff (shim : Shim) (pre : List Tx) (tx : Tx) (h : Conserved shim pre) :
    Conserved shim (pre ++ [tx]) ↔ MovesExactly shim (run shim ∅ pre) tx := by
  rw [← total_commit_iff (wellStored_run shim pre) tx]
  simp only [Conserved, sumAlong_append, run_append, sumAlong, flow] at h ⊢
  have hrun : run shim (run shim ∅ pre) [tx] = commit shim (run shim ∅ pre) tx := rfl
  rw [hrun]
  omega

/-- Along every run from the empty world state the total is what was issued and deposited less
what was deleted, exactly as long as every transaction moves money exactly. -/
theorem conserved_iff_movesExactly (shim : Shim) (txs : List Tx) :
    (∀ pre, pre <+: txs → Conserved shim pre) ↔
      ∀ pre tx, pre ++ [tx] <+: txs → MovesExactly shim (run shim ∅ pre) tx :=
  forall_prefix_iff (by simp [Conserved, run, sumAlong, totalBalance])
    (conserved_append_iff shim) txs

/-- An account that pays itself gains the amount. -/
theorem not_conserved_self_remit :
    ¬ ∀ (shim : Shim) (txs : List Tx), Conserved shim txs := by
  intro h
  have hc := h ⟨fun k => !k.isEmpty⟩
    [.invoke "create_account" ["user1", "100"], .invoke "remit" ["user1", "user1", "30"]]
  revert hc
  decide

end SimpleAsset.Chaincode
