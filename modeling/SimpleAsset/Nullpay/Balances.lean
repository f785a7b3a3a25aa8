import SimpleAsset.Library.Joined
import SimpleAsset.Nullpay.PaymentMethod

/-! Sources and their balances: what a transaction adds and what its inputs take out. -/
namespace SimpleAsset.Nullpay
open SimpleAsset.Library SimpleAsset.Indy

section Sources

theorem underscore_notMem_repr (n : ℤ) : '_' ∉ n.repr.toList := by
  have hdigits : ∀ m : ℕ, '_' ∉ Nat.toDigits 10 m := by
    intro m hmem
    have hdigit := Nat.isDigit_of_mem_toDigits (by decide) (by decide) hmem
    exact absurd hdigit (by decide)
  cases n with
  | ofNat m =>
    rw [toList_repr_ofNat]
    exact hdigits m
  | negSucc m =>
    rw [toList_repr_negSucc, List.mem_cons, not_or]
    exact ⟨by decide, hdigits (m + 1)⟩

theorem i32ToString_inj {m n : BitVec 32}
    (h : (i32ToString m).toList = (i32ToString n).toList) : m = n :=
  BitVec.eq_of_toInt_eq (intText_inj h)

theorem toSource_parts {paymentAddress source : String} {seqNo : BitVec 32}
    (h : toSource paymentAddress seqNo = some source) :
    ∃ a b c, ':' ∉ a ∧ ':' ∉ b ∧
      source.toList = a ++ ':' :: (b ++ ':' :: ((i32ToString seqNo).toList ++ '_' :: c)) := by
  unfold toSource at h
  split at h
  · rename_i a b c hparts
    have hnone : ∀ part ∈ paymentAddress.toList.splitOn ':', ':' ∉ part :=
      fun _ => notMem_of_mem_splitOn
    rw [hparts] at hnone
    refine ⟨a, b, c, hnone a (by simp), hnone b (by simp), ?_⟩
    rw [← Option.some.inj h, String.toList_ofList]
  · cases h

/-- The name of a source tells the transaction that made it. -/
theorem toSource_seqNo_inj {r r' source : String} {seqNo seqNo' : BitVec 32}
    (h : toSource r seqNo = some source)
    (h' : toSource r' seqNo' = some source) : seqNo = seqNo' := by
  obtain ⟨a, b, c, ha, hb, heq⟩ := toSource_parts h
  obtain ⟨a', b', c', ha', hb', heq'⟩ := toSource_parts h'
  rw [heq, joined_inj_of_left ha ha', joined_inj_of_left hb hb'] at heq'
  have hlast :=
    (joined_inj_of_left (underscore_notMem_repr _) (underscore_notMem_repr _)).mp heq'.2.2
  exact i32ToString_inj hlast.1

end Sources

section Money

/-- The sum of the outputs, as an integer. -/
def spent (outputs : List Output) : ℕ := (outputs.map fun out => out.amount.toNat).sum

def Event.mintedAmount : Event → ℕ
  | .minted outputs => spent outputs
  | _ => 0

def Event.consumedSources : Event → List String
  | .settled inputs => inputs
  | _ => []

/-- The sum of the minted amounts. -/
def minted (log : List Event) : ℕ := (log.map Event.mintedAmount).sum

/-- The inputs of the successful requests, once for each request that they are inputs of. -/
def consumed (log : List Event) : List String := log.flatMap Event.consumedSources

/-- The sum of `BALANCES`, as an integer. -/
def balance (s : Ledger) : ℕ := Table.total UInt64.toNat s.balances

/-- No source is consumed twice, and there is no more money than what was minted. -/
structure NoMoneyCreated (log : List Event) (s : Ledger) : Prop where
  once : (consumed log).Nodup
  balance : balance s ≤ minted log

/-- The sequence number that is given out next was not given out before. -/
def FreshSeqNo (s : Ledger) : Prop := nextSeqNo s ∉ s.txns

/-- Every input still has a balance. -/
def Unspent (s : Ledger) (inputs : Inputs) : Prop := ∀ source ∈ inputs.1, source ∈ s.balances

/-- A payment gets a new number, and if it passes the check its sum does not wrap. -/
def Payable (build : Build) (s : Ledger) (inputs : Inputs) (outputs : Outputs) : Prop :=
  FreshSeqNo s ∧ ∀ totalBalance totalPayments,
    paymentTotals build s inputs.1 outputs.1 = .ok (totalBalance, totalPayments) →
    totalPayments ≤ totalBalance →
      spent outputs.1 < 2 ^ 64

/-- If a request with a fee passes the check, it gets a new number and its sum does not wrap. -/
def Chargeable (build : Build) (s : Ledger) (fee : UInt64) (inputs : Inputs)
    (outputs : Outputs) : Prop :=
  ∀ totalAmount total, feesTotals build s fee inputs.1 outputs.1 = .ok (totalAmount, total) →
    total ≤ totalAmount →
    FreshSeqNo s ∧ spent outputs.1 + fee.toNat < 2 ^ 64

/-- The condition on a pending request that goes on. -/
def Pending.Careful (build : Build) (s : Ledger) (p : Pending) : Step → Prop
  | .addressesListed _ ec addresses => ∀ known, ec = .success → addresses = some known →
      match p with
    | .paymentAddresses _ inputs outputs _ => checkInputs inputs.1 known →
        Payable build s inputs outputs
    | .feesAddresses _ _ inputs _ _ => checkInputs inputs.1 known → Unspent s inputs
    | _ => True
  | .txnBuilt _ ec _ => ec = .success → match p with
    | .mintTxn _ _ _ => FreshSeqNo s
    | .paymentTxn _ payment => payment.ecExistance = .success →
        payment.totalPayments ≤ payment.totalBalance →
        Unspent s payment.inputs
    | _ => True
  | _ => True

/-- The condition on a step: what was checked for a request still holds when the request is settled,
sums that let a request pass do not wrap, and no sequence number is given out twice. -/
def Careful (build : Build) (s : Ledger) (step : Step) : Prop :=
  match step with
  | .addRequestFees _ request inputs outputs _ => ∀ ins outs, inputs = .ok ins →
      outputs = .ok outs →
      Chargeable build s (request.fee.getD 0) ins outs
  | .addressesListed place _ _ => ∀ p, s.pending[place]? = some p → p.Careful build s step
  | .txnBuilt place _ _ => ∀ p, s.pending[place]? = some p → p.Careful build s step
  | _ => True

end Money

section Sums
variable {build : Build}

theorem addU64_le {a b n : ℕ} (h : addU64 build a b = .ok n) : n ≤ a + b := by
  unfold addU64 at h
  split_ifs at h
  · exact (Except.ok.inj h).ge
  · cases build with
    | debug => cases h
    | release =>
      have hn : a + b - 2 ^ 64 = n := Except.ok.inj h
      omega

theorem addU64_eq {a b n : ℕ} (h : addU64 build a b = .ok n)
    (hfits : build = .release → a + b < 2 ^ 64) :
    n = a + b := by
  unfold addU64 at h
  split_ifs at h with hlt
  · exact (Except.ok.inj h).symm
  · cases build with
    | debug => cases h
    | release => exact absurd (hfits rfl) hlt

theorem foldlM_addU64_le {α : Type} {f : α → ℕ} {l : List α} {acc n : ℕ}
    (h : l.foldlM (fun acc next => addU64 build acc (f next)) acc = .ok n) :
    n ≤ acc + (l.map f).sum := by
  induction l generalizing acc with
  | nil => exact (Except.ok.inj h).ge
  | cons x l ih =>
    rw [List.foldlM_cons, except_bind_eq_ok] at h
    obtain ⟨acc', hacc, h⟩ := h
    have hhead := addU64_le hacc
    have htail := ih h
    rw [List.map_cons, List.sum_cons]
    omega

theorem foldlM_addU64_eq {α : Type} {f : α → ℕ} {l : List α} {acc n : ℕ}
    (h : l.foldlM (fun acc next => addU64 build acc (f next)) acc = .ok n)
    (hfits : build = .release → acc + (l.map f).sum < 2 ^ 64) : n = acc + (l.map f).sum := by
  induction l generalizing acc with
  | nil => exact (Except.ok.inj h).symm
  | cons x l ih =>
    rw [List.foldlM_cons, except_bind_eq_ok] at h
    obtain ⟨acc', hacc, h⟩ := h
    rw [List.map_cons, List.sum_cons] at hfits ⊢
    have hhead : acc' = acc + f x := by
      apply addU64_eq hacc
      intro hrelease
      have hall := hfits hrelease
      omega
    have htail : n = acc' + (l.map f).sum := by
      apply ih h
      intro hrelease
      have hall := hfits hrelease
      omega
    omega

/-- What the inputs are worth. -/
def worth (balances : Table String UInt64) (inputs : List String) : ℕ :=
  (inputs.map fun source => Table.weight UInt64.toNat source balances).sum

theorem sum_filterMap_lookup (balances : Table String UInt64) (inputs : List String) :
    ((inputs.filterMap balances.lookup).map UInt64.toNat).sum = worth balances inputs := by
  unfold worth
  induction inputs with
  | nil => rfl
  | cons source inputs ih =>
    rw [List.map_cons, List.sum_cons, ← ih]
    cases hlookup : balances.lookup source with
    | none => simp [hlookup, Table.weight]
    | some amount => simp [hlookup, Table.weight]

theorem countTotalInputs_le {s : Ledger} {inputs : List String} {n : ℕ}
    (h : countTotalInputs s build inputs = .ok n) :
    n ≤ worth s.balances inputs := by
  have hle := foldlM_addU64_le (f := UInt64.toNat) h
  rw [sum_filterMap_lookup] at hle
  omega

theorem countTotalPayments_eq {outputs : List Output} {n : ℕ}
    (h : countTotalPayments build outputs = .ok n)
    (hfits : build = .release → spent outputs < 2 ^ 64) : n = spent outputs := by
  have heq := foldlM_addU64_eq (f := fun out : Output => out.amount.toNat) h
  rw [Nat.zero_add] at heq
  exact heq hfits

/-- A payment that passes the check is covered by its inputs. -/
theorem paymentTotals_covered {s : Ledger} {inputs : List String} {outputs : List Output}
    {totalBalance totalPayments : ℕ}
    (h : paymentTotals build s inputs outputs = .ok (totalBalance, totalPayments))
    (hfits : spent outputs < 2 ^ 64) (hle : totalPayments ≤ totalBalance) :
    spent outputs ≤ worth s.balances inputs := by
  obtain ⟨n, hn, h⟩ := except_bind_eq_ok.mp h
  obtain ⟨m, hm, h⟩ := except_bind_eq_ok.mp h
  obtain ⟨rfl, rfl⟩ := Prod.mk.inj (Except.ok.inj h)
  have hinputs := countTotalInputs_le hn
  have hpayments := countTotalPayments_eq hm fun _ => hfits
  omega

theorem feesTotals_covered {s : Ledger} {fee : UInt64} {inputs : List String}
    {outputs : List Output}
    {totalAmount total : ℕ} (h : feesTotals build s fee inputs outputs = .ok (totalAmount, total))
    (hfits : spent outputs + fee.toNat < 2 ^ 64) (hle : total ≤ totalAmount) :
    spent outputs ≤ worth s.balances inputs := by
  obtain ⟨n, hn, h⟩ := except_bind_eq_ok.mp h
  obtain ⟨m, hm, h⟩ := except_bind_eq_ok.mp h
  obtain ⟨k, hk, h⟩ := except_bind_eq_ok.mp h
  obtain ⟨rfl, rfl⟩ := Prod.mk.inj (Except.ok.inj h)
  have hinputs := countTotalInputs_le hn
  have hpayments : m = spent outputs := by
    apply countTotalPayments_eq hm
    intro hrelease
    omega
  have htotal : k = m + fee.toNat := by
    apply addU64_eq hk
    intro hrelease
    rw [hpayments]
    exact hfits
  omega

end Sums

section Moves

/-- The source comes from the transaction with this number. -/
def MadeBy (seqNo : BitVec 32) (source : String) : Prop :=
  ∃ recipient, toSource recipient seqNo = some source

/-- Only sources of one transaction were added, worth at most this amount. -/
structure Grown (seqNo : BitVec 32) (amount : ℕ) (s s' : Ledger) : Prop where
  others : ∀ source, ¬ MadeBy seqNo source → s'.balances.lookup source = s.balances.lookup source
  balance : balance s' ≤ balance s + amount
  txns : s'.txns = s.txns
  pending : s'.pending = s.pending

theorem Grown.refl {seqNo : BitVec 32} {s : Ledger} (amount : ℕ) : Grown seqNo amount s s :=
  ⟨fun _ _ => rfl, Nat.le_add_right _ _, rfl, rfl⟩

theorem Grown.trans {seqNo : BitVec 32} {m n : ℕ} {s₁ s₂ s₃ : Ledger} (h : Grown seqNo m s₁ s₂)
    (h' : Grown seqNo n s₂ s₃) : Grown seqNo (m + n) s₁ s₃ where
  others source hsource := (h'.others source hsource).trans (h.others source hsource)
  balance := by
    have hfirst := h.balance
    have hsecond := h'.balance
    omega
  txns := h'.txns.trans h.txns
  pending := h'.pending.trans h.pending

theorem Grown.mono {seqNo : BitVec 32} {m n : ℕ} {s s' : Ledger} (h : Grown seqNo m s s')
    (hle : m ≤ n) :
    Grown seqNo n s s' where
  others := h.others
  balance := h.balance.trans (Nat.add_le_add_left hle _)
  txns := h.txns
  pending := h.pending

theorem grown_addSource (s : Ledger) (recipient : String) (seqNo : BitVec 32) (amount : UInt64) :
    Grown seqNo amount.toNat s (addSource s recipient seqNo amount).1 := by
  unfold addSource
  cases hsource : toSource recipient seqNo with
  | none => exact Grown.refl _
  | some source =>
    refine ⟨?_, ?_, rfl, rfl⟩
    · intro other hother
      apply AList.lookup_insert_ne
      rintro rfl
      exact hother ⟨recipient, hsource⟩
    · have hsum := Table.weight_add_total_insert UInt64.toNat source amount s.balances
      change Table.total UInt64.toNat (s.balances.insert source amount) ≤
        Table.total UInt64.toNat s.balances + amount.toNat
      omega

theorem spent_cons (out : Output) (outputs : List Output) :
    spent (out :: outputs) = out.amount.toNat + spent outputs := by
  rw [spent, List.map_cons, List.sum_cons]
  rfl

theorem grown_mint (seqNo : BitVec 32) (outputs : List Output) (s : Ledger) :
    Grown seqNo (spent outputs) s
    (outputs.foldl (fun s out => (addSource s out.recipient seqNo out.amount).1) s) := by
  induction outputs generalizing s with
  | nil => exact Grown.refl _
  | cons out outputs ih =>
    rw [List.foldl_cons, spent_cons]
    exact (grown_addSource s out.recipient seqNo out.amount).trans (ih _)

/-- Also if it panics on the way. -/
theorem grown_processOutputs (seqNo : BitVec 32) (outputs : List Output) (s : Ledger) :
    Grown seqNo (spent outputs) s (processOutputs seqNo outputs s).1 := by
  induction outputs generalizing s with
  | nil => exact Grown.refl _
  | cons out outputs ih =>
    have hadd := grown_addSource s out.recipient seqNo out.amount
    rw [processOutputs, spent_cons]
    cases hsource : addSource s out.recipient seqNo out.amount with
    | mk s₁ source? =>
      rw [hsource] at hadd
      cases source? with
      | none => exact hadd.mono (Nat.le_add_right _ _)
      | some source =>
        dsimp only
        cases getReceiptInfo s₁ source with
        | none => exact hadd.mono (Nat.le_add_right _ _)
        | some info => exact hadd.trans (ih s₁)

/-- The inputs were taken out of the balances. -/
structure Taken (inputs : List String) (s s' : Ledger) : Prop where
  lookup : ∀ source, s'.balances.lookup source = if source ∈ inputs then none
    else s.balances.lookup source
  balance : balance s' + worth s.balances inputs = balance s
  txns : s'.txns = s.txns
  pending : s'.pending = s.pending

theorem taken_removeSource {s : Ledger} {source : String} (h : (fromSource source).isSome) :
    Taken [source] s (removeSource s source) := by
  obtain ⟨parts, hparts⟩ := Option.isSome_iff_exists.mp h
  rw [removeSource, hparts]
  refine ⟨?_, ?_, rfl, rfl⟩
  · intro other
    dsimp only
    simp only [List.mem_singleton]
    exact Table.lookup_erase_ite s.balances source other
  · have hsum := Table.weight_add_total_erase UInt64.toNat source s.balances
    change Table.total UInt64.toNat (s.balances.erase source) + worth s.balances [source] =
      Table.total UInt64.toNat s.balances
    have hworth : worth s.balances [source] = Table.weight UInt64.toNat source s.balances := by
      simp [worth]
    omega

theorem worth_congr {balances balances' : Table String UInt64} {inputs : List String}
    (h : ∀ source ∈ inputs, balances'.lookup source = balances.lookup source) :
    worth balances' inputs = worth balances inputs := by
  unfold worth
  apply congrArg List.sum
  apply List.map_congr_left
  intro source hmem
  rw [Table.weight, Table.weight, h source hmem]

theorem taken_processInputs {s : Ledger} {inputs : List String} (hnodup : inputs.Nodup)
    (hsources : ∀ source ∈ inputs, (fromSource source).isSome) :
    Taken inputs s (processInputs s inputs) := by
  induction inputs generalizing s with
  | nil => exact ⟨fun _ => rfl, rfl, rfl, rfl⟩
  | cons source inputs ih =>
    obtain ⟨hnot, hnodup⟩ := List.nodup_cons.mp hnodup
    have hfirst := taken_removeSource (s := s) (hsources source List.mem_cons_self)
    have hrest := ih (s := removeSource s source) hnodup fun other hmem =>
      hsources other (List.mem_cons_of_mem _ hmem)
    have hworth : worth (removeSource s source).balances inputs = worth s.balances inputs := by
      apply worth_congr
      intro other hmem
      rw [hfirst.lookup, if_neg]
      intro heq
      rw [List.mem_singleton.mp heq] at hmem
      exact hnot hmem
    refine ⟨?_, ?_, hrest.txns.trans hfirst.txns, hrest.pending.trans hfirst.pending⟩
    · intro other
      change (processInputs (removeSource s source) inputs).balances.lookup other = _
      rw [hrest.lookup, hfirst.lookup]
      simp only [List.mem_cons, List.not_mem_nil, or_false]
      by_cases heq : other = source
      · rw [if_pos heq, if_pos (Or.inl heq), ite_self]
      · by_cases hmem : other ∈ inputs
        · rw [if_pos hmem, if_pos (Or.inr hmem)]
        · rw [if_neg hmem, if_neg heq, if_neg (not_or.mpr ⟨heq, hmem⟩)]
    · have hsum := hrest.balance
      have hsum' := hfirst.balance
      have hcons : worth s.balances (source :: inputs) = worth s.balances [source] +
          worth s.balances inputs := by
        simp [worth]
      change balance (processInputs (removeSource s source) inputs) +
        worth s.balances (source :: inputs) = _
      omega

end Moves

end SimpleAsset.Nullpay
