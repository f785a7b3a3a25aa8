import SimpleAsset.Library.Runs
import SimpleAsset.Nullpay.Balances

/-! The payment ledger creates no money as long as no source is spent behind the back of a checked
request. -/
namespace SimpleAsset.Nullpay
open SimpleAsset.Library SimpleAsset.Indy

section Invariant

/-- The number under which a pending request will add its outputs. -/
def Pending.seqNo? : Pending → Option (BitVec 32)
  | .paymentThread _ payment => some payment.seqNo
  | .paymentTxn _ payment => some payment.seqNo
  | .feesAddresses _ _ _ _ seqNo => some seqNo
  | _ => none

/-- The inputs and outputs of a pending request that passed the check. -/
def Pending.Passed (p : Pending) (inputs : Inputs) (outputs : Outputs) : Prop :=
  match p with
  | .paymentThread _ payment =>
    (payment.ecExistance = .success ∧ payment.totalPayments ≤ payment.totalBalance) ∧
      inputs = payment.inputs ∧ outputs = payment.outputs
  | .paymentTxn _ payment =>
    (payment.ecExistance = .success ∧ payment.totalPayments ≤ payment.totalBalance) ∧
      inputs = payment.inputs ∧ outputs = payment.outputs
  | .feesAddresses _ _ ins outs _ => inputs = ins ∧ outputs = outs
  | _ => False

def pendingSeqNos (pending : List Pending) : List (BitVec 32) := pending.filterMap Pending.seqNo?

/-- The source comes from a transaction that has added its outputs. -/
def Done (s : Ledger) (source : String) : Prop :=
  ∃ seqNo, MadeBy seqNo source ∧ seqNo ∈ s.txns ∧ seqNo ∉ pendingSeqNos s.pending

/-- A source is made once, so the inputs of a request that passed are worth what they were when it
was checked. -/
structure LedgerInvariant (log : List Event) (s : Ledger) : Prop where
  balance : balance s ≤ minted log
  once : (consumed log).Nodup
  present : ∀ source ∈ s.balances, Done s source ∧ source ∉ consumed log
  gone : ∀ source ∈ consumed log, Done s source
  seqNos : (pendingSeqNos s.pending).Nodup
  known : ∀ seqNo ∈ pendingSeqNos s.pending, seqNo ∈ s.txns
  covered : ∀ p ∈ s.pending, ∀ inputs outputs, p.Passed inputs outputs →
    (∀ source ∈ inputs.1, Done s source) ∧
    (Unspent s inputs → spent outputs.1 ≤ worth s.balances inputs.1)

/-- No request is pending that was not pending before, up to the name of the step that it waits
for. -/
structure Fewer (pending pending' : List Pending) : Prop where
  nodup : (pendingSeqNos pending).Nodup → (pendingSeqNos pending').Nodup
  seqNos : ∀ seqNo ∈ pendingSeqNos pending', seqNo ∈ pendingSeqNos pending
  passed : ∀ p' ∈ pending', ∀ inputs outputs, p'.Passed inputs outputs →
    ∃ p ∈ pending, p.Passed inputs outputs

theorem Fewer.refl (pending : List Pending) : Fewer pending pending :=
  ⟨id, fun _ => id, fun p hp _ _ hpassed => ⟨p, hp, hpassed⟩⟩

theorem fewer_of_sublist {pending pending' : List Pending} (h : pending'.Sublist pending) :
    Fewer pending pending' where
  nodup hnodup := hnodup.sublist (h.filterMap _)
  seqNos _ hmem := (h.filterMap _).subset hmem
  passed p hp _ _ hpassed := ⟨p, h.subset hp, hpassed⟩

theorem fewer_eraseIdx (pending : List Pending) (place : ℕ) :
    Fewer pending (pending.eraseIdx place) :=
  fewer_of_sublist (List.eraseIdx_sublist pending place)

/-- A request that has no number waits. -/
theorem fewer_await {pending : List Pending} {p : Pending} (hseqNo : p.seqNo? = none)
    (hpassed : ∀ inputs outputs, ¬ p.Passed inputs outputs) : Fewer pending (pending ++ [p]) := by
  have hsame : pendingSeqNos (pending ++ [p]) = pendingSeqNos pending := by
    rw [pendingSeqNos, List.filterMap_append, List.filterMap_cons_none hseqNo, List.filterMap_nil,
      List.append_nil]
    rfl
  refine ⟨?_, ?_, ?_⟩
  · intro hnodup
    rwa [hsame]
  · intro seqNo hmem
    rwa [hsame] at hmem
  · intro p' hp' inputs outputs hp
    rcases List.mem_append.mp hp' with hmem | hlast
    · exact ⟨p', hmem, hp⟩
    · rw [List.mem_singleton.mp hlast] at hp
      exact absurd hp (hpassed inputs outputs)

theorem Done.mono {s s' : Ledger} {source : String} (h : Done s source)
    (htxns : ∀ seqNo ∈ s.txns, seqNo ∈ s'.txns)
    (hpending : ∀ seqNo ∈ pendingSeqNos s'.pending, seqNo ∈ s.txns →
      seqNo ∈ pendingSeqNos s.pending) : Done s' source := by
  obtain ⟨seqNo, hmade, htxn, hdone⟩ := h
  exact ⟨seqNo, hmade, htxns seqNo htxn, fun hmem => hdone (hpending seqNo hmem htxn)⟩

theorem Done.not_madeBy {s : Ledger} {source : String} {seqNo : BitVec 32} (h : Done s source)
    (hnew : seqNo ∈ s.txns → seqNo ∈ pendingSeqNos s.pending) : ¬ MadeBy seqNo source := by
  intro hmade
  obtain ⟨seqNo', hmade', htxn, hdone⟩ := h
  obtain ⟨r, hr⟩ := hmade
  obtain ⟨r', hr'⟩ := hmade'
  rw [← toSource_seqNo_inj hr hr'] at htxn hdone
  exact hdone (hnew htxn)

variable {log log' : List Event} {s s' : Ledger}

theorem minted_append (log log' : List Event) :
    minted (log ++ log') = minted log + minted log' := by
  rw [minted, List.map_append, List.sum_append]
  rfl

theorem consumed_append (log log' : List Event) :
    consumed (log ++ log') = consumed log ++ consumed log' := by
  rw [consumed, List.flatMap_append]
  rfl

/-- The balances stay, and no new request has passed a check. -/
theorem LedgerInvariant.keep (h : LedgerInvariant log s) (hbalances : s'.balances = s.balances)
    (htxns : s'.txns = s.txns)
    (hpending : Fewer s.pending s'.pending) (hlog : minted log' = 0 ∧ consumed log' = []) :
    LedgerInvariant (log ++ log') s' := by
  have hdone : ∀ source, Done s source → Done s' source := by
    intro source hsource
    apply hsource.mono
    · intro seqNo hmem
      rwa [htxns]
    · intro seqNo hmem _
      exact hpending.seqNos seqNo hmem
  have hminted : minted (log ++ log') = minted log := by rw [minted_append, hlog.1, Nat.add_zero]
  have hconsumed : consumed (log ++ log') = consumed log := by
    rw [consumed_append, hlog.2, List.append_nil]
  refine ⟨?_, ?_, ?_, ?_, hpending.nodup h.seqNos, ?_, ?_⟩
  · rw [hminted, Nullpay.balance, hbalances]
    exact h.balance
  · rw [hconsumed]
    exact h.once
  · intro source hmem
    rw [hbalances] at hmem
    rw [hconsumed]
    have hpresent := h.present source hmem
    exact ⟨hdone source hpresent.1, hpresent.2⟩
  · intro source hmem
    rw [hconsumed] at hmem
    exact hdone source (h.gone source hmem)
  · intro seqNo hmem
    rw [htxns]
    exact h.known seqNo (hpending.seqNos seqNo hmem)
  · intro p' hp' inputs outputs hpassed
    obtain ⟨p, hp, hpassed'⟩ := hpending.passed p' hp' inputs outputs hpassed
    obtain ⟨hinputs, hworth⟩ := h.covered p hp inputs outputs hpassed'
    refine ⟨fun source hmem => hdone source (hinputs source hmem), ?_⟩
    unfold Unspent
    rw [hbalances]
    exact hworth

/-- A checked request waits under a new number. -/
theorem LedgerInvariant.check (h : LedgerInvariant log s) {p : Pending} {seqNo : BitVec 32}
    (hp : p.seqNo? = some seqNo)
    (hfresh : seqNo ∉ s.txns) (hcovered : ∀ inputs outputs, p.Passed inputs outputs →
      Unspent s inputs ∧ spent outputs.1 ≤ worth s.balances inputs.1)
    (hbalances : s'.balances = s.balances) (htxns : ∀ k, k ∈ s'.txns ↔ k = seqNo ∨ k ∈ s.txns)
    (hpending : s'.pending = s.pending ++ [p]) : LedgerInvariant log s' := by
  have hseqNos : pendingSeqNos s'.pending = pendingSeqNos s.pending ++ [seqNo] := by
    rw [hpending, pendingSeqNos, List.filterMap_append, List.filterMap_cons_some hp,
      List.filterMap_nil]
    rfl
  have hdone : ∀ source, Done s source → Done s' source := by
    intro source hsource
    apply hsource.mono
    · intro k hk
      exact (htxns k).mpr (Or.inr hk)
    · intro k hk hknown
      rw [hseqNos] at hk
      rcases List.mem_append.mp hk with hmem | hlast
      · exact hmem
      · rw [List.mem_singleton.mp hlast] at hknown
        exact absurd hknown hfresh
  refine ⟨?_, h.once, ?_, fun source hmem => hdone source (h.gone source hmem), ?_, ?_, ?_⟩
  · rw [Nullpay.balance, hbalances]
    exact h.balance
  · intro source hmem
    rw [hbalances] at hmem
    have hpresent := h.present source hmem
    exact ⟨hdone source hpresent.1, hpresent.2⟩
  · rw [hseqNos, List.nodup_append]
    refine ⟨h.seqNos, List.nodup_singleton _, ?_⟩
    intro k hk k' hk' heq
    rw [List.mem_singleton.mp hk'] at heq
    rw [heq] at hk
    exact hfresh (h.known _ hk)
  · intro k hk
    rw [hseqNos] at hk
    rcases List.mem_append.mp hk with hmem | hlast
    · exact (htxns k).mpr (Or.inr (h.known k hmem))
    · exact (htxns k).mpr (Or.inl (List.mem_singleton.mp hlast))
  · intro q hq inputs outputs hpassed
    unfold Unspent
    rw [hbalances]
    rw [hpending] at hq
    rcases List.mem_append.mp hq with hmem | hlast
    · obtain ⟨hinputs, hworth⟩ := h.covered q hmem inputs outputs hpassed
      exact ⟨fun source hsource => hdone source (hinputs source hsource), hworth⟩
    · rw [List.mem_singleton.mp hlast] at hpassed
      obtain ⟨hunspent, hworth⟩ := hcovered inputs outputs hpassed
      exact ⟨fun source hsource => hdone source (h.present source (hunspent source hsource)).1,
        fun _ => hworth⟩

theorem mem_of_lookup_eq {t t' : Table String UInt64} {source : String}
    (h : t'.lookup source = t.lookup source) :
    source ∈ t' ↔ source ∈ t := by
  rw [← AList.lookup_isSome, ← AList.lookup_isSome, h]

/-- A transaction adds its outputs, after the sources in `removed` were taken out. -/
theorem LedgerInvariant.move (h : LedgerInvariant log s) (seqNo : BitVec 32) (removed : List String)
    (hnew : seqNo ∈ s.txns → seqNo ∈ pendingSeqNos s.pending)
    (hremoved : ∀ source ∈ removed, source ∈ s.balances)
    (hlookup : ∀ source, ¬ MadeBy seqNo source →
      s'.balances.lookup source = if source ∈ removed then none else s.balances.lookup source)
    (hbalance : Nullpay.balance s' ≤ Nullpay.balance s + minted log')
    (hconsumed : (consumed log').Nodup ∧ ∀ source ∈ consumed log', source ∈ removed)
    (htxns : ∀ k, k ∈ s'.txns ↔ k = seqNo ∨ k ∈ s.txns) (hpending : Fewer s.pending s'.pending)
    (hdropped : seqNo ∉ pendingSeqNos s'.pending) : LedgerInvariant (log ++ log') s' := by
  have hdone : ∀ source, Done s source → Done s' source := by
    intro source hsource
    apply hsource.mono
    · intro k hk
      exact (htxns k).mpr (Or.inr hk)
    · intro k hk _
      exact hpending.seqNos k hk
  have hlog : ∀ source, source ∈ consumed (log ++ log') ↔ source ∈ consumed log ∨
      source ∈ consumed log' := by
    intro source
    rw [consumed_append, List.mem_append]
  have hgone : ∀ source ∈ consumed (log ++ log'), Done s source := by
    intro source hmem
    rcases (hlog source).mp hmem with hold | hlast
    · exact h.gone source hold
    · exact (h.present source (hremoved source (hconsumed.2 source hlast))).1
  -- a source that stays has the amount that it had, and was not taken out
  have hstays : ∀ source, Done s source → source ∈ s'.balances →
      source ∈ s.balances ∧ source ∉ removed ∧
      s'.balances.lookup source = s.balances.lookup source := by
    intro source hsource hmem
    have heq := hlookup source (hsource.not_madeBy hnew)
    have hsome := AList.lookup_isSome.mpr hmem
    by_cases htaken : source ∈ removed
    · rw [heq, if_pos htaken] at hsome
      cases hsome
    · rw [if_neg htaken] at heq
      exact ⟨(mem_of_lookup_eq heq).mp hmem, htaken, heq⟩
  refine ⟨?_, ?_, ?_, fun source hmem => hdone source (hgone source hmem),
    hpending.nodup h.seqNos, ?_, ?_⟩
  · rw [minted_append]
    have hbefore := h.balance
    omega
  · rw [consumed_append, List.nodup_append]
    refine ⟨h.once, hconsumed.1, ?_⟩
    intro source hold source' hlast heq
    rw [← heq] at hlast
    exact (h.present source (hremoved source (hconsumed.2 source hlast))).2 hold
  · intro source hmem
    by_cases hmade : MadeBy seqNo source
    · refine ⟨⟨seqNo, hmade, (htxns seqNo).mpr (Or.inl rfl), hdropped⟩, ?_⟩
      intro hlast
      exact (hgone source hlast).not_madeBy hnew hmade
    · have heq := hlookup source hmade
      have hsome := AList.lookup_isSome.mpr hmem
      by_cases htaken : source ∈ removed
      · rw [heq, if_pos htaken] at hsome
        cases hsome
      · rw [if_neg htaken] at heq
        have hpresent := h.present source ((mem_of_lookup_eq heq).mp hmem)
        refine ⟨hdone source hpresent.1, ?_⟩
        intro hlast
        rcases (hlog source).mp hlast with hold | hlast
        · exact hpresent.2 hold
        · exact htaken (hconsumed.2 source hlast)
  · intro k hk
    exact (htxns k).mpr (Or.inr (h.known k (hpending.seqNos k hk)))
  · intro p' hp' inputs outputs hpassed
    obtain ⟨p, hp, hpassed'⟩ := hpending.passed p' hp' inputs outputs hpassed
    obtain ⟨hinputs, hworth⟩ := h.covered p hp inputs outputs hpassed'
    refine ⟨fun source hmem => hdone source (hinputs source hmem), ?_⟩
    intro hunspent
    have hsame : worth s'.balances inputs.1 = worth s.balances inputs.1 := by
      apply worth_congr
      intro source hmem
      exact (hstays source (hinputs source hmem) (hunspent source hmem)).2.2
    rw [hsame]
    apply hworth
    intro source hmem
    exact (hstays source (hinputs source hmem) (hunspent source hmem)).1

end Invariant

section Steps
variable {build : Build} {log log' : List Event} {s s' : Ledger} {cmdHandle : ℤ} {place : ℕ}

/-- Only the responses differ. -/
structure SameMoney (s s' : Ledger) : Prop where
  balances : s'.balances = s.balances
  txns : s'.txns = s.txns
  pending : s'.pending = s.pending

theorem sameMoney_addResponse (s : Ledger) (reqId : Except ErrorCode ℕ) (response : Response) :
    SameMoney s (addResponse s reqId response).1 := by
  cases reqId <;> exact ⟨rfl, rfl, rfl⟩

theorem LedgerInvariant.idle (h : LedgerInvariant log s)
    (hlog : minted log' = 0 ∧ consumed log' = []) :
    LedgerInvariant (log ++ log') s :=
  h.keep rfl rfl (Fewer.refl _) hlog

theorem LedgerInvariant.answer (h : LedgerInvariant log s) (hsame : SameMoney s s')
    (hlog : minted log' = 0 ∧ consumed log' = []) : LedgerInvariant (log ++ log') s' := by
  refine h.keep hsame.balances hsame.txns ?_ hlog
  rw [hsame.pending]
  exact Fewer.refl _

theorem LedgerInvariant.without (h : LedgerInvariant log s) (place : ℕ) :
    LedgerInvariant log (without s place) := by
  have hkept : LedgerInvariant (log ++ []) (Nullpay.without s place) :=
    h.keep rfl rfl (fewer_eraseIdx _ _) ⟨rfl, rfl⟩
  rwa [List.append_nil] at hkept

/-- A request waits that has not been checked. -/
theorem LedgerInvariant.await (h : LedgerInvariant log s) {p : Pending} (hseqNo : p.seqNo? = none)
    (hpassed : ∀ inputs outputs, ¬ p.Passed inputs outputs) :
    LedgerInvariant (log ++ []) (await s p) :=
  h.keep rfl rfl (fewer_await hseqNo hpassed) ⟨rfl, rfl⟩

theorem mem_addTxn (s : Ledger) (txn : Txn) (k : BitVec 32) :
    k ∈ (addTxn s txn).txns ↔ k = nextSeqNo s ∨ k ∈ s.txns :=
  AList.mem_insert _

theorem LedgerInvariant.mintTxnBuilt (h : LedgerInvariant log s) (outputs : Outputs)
    (extra : Option String) {ec : ErrorCode} (hfresh : ec = .success → FreshSeqNo s) :
    LedgerInvariant (log ++ (mintTxnBuilt s cmdHandle outputs extra ec).2)
      (mintTxnBuilt s cmdHandle outputs extra ec).1 := by
  unfold Nullpay.mintTxnBuilt
  by_cases hec : ec = .success
  · rw [if_pos hec]
    have hgrown := grown_mint (nextSeqNo s) outputs.1 (addTxn s ⟨[], outputs.1, extra⟩)
    have hminted : minted [.minted outputs.1, .answered cmdHandle ec] = spent outputs.1 := rfl
    apply h.move (nextSeqNo s) []
    · exact fun hmem => absurd hmem (hfresh hec)
    · exact fun _ hmem => absurd hmem List.not_mem_nil
    · intro source hsource
      rw [if_neg List.not_mem_nil]
      exact hgrown.others source hsource
    · rw [hminted]
      exact hgrown.balance
    · exact ⟨List.nodup_nil, fun _ hmem => absurd hmem List.not_mem_nil⟩
    · intro k
      rw [hgrown.txns]
      exact mem_addTxn s _ k
    · rw [hgrown.pending]
      exact Fewer.refl _
    · rw [hgrown.pending]
      exact fun hmem => hfresh hec (h.known _ hmem)
  · rw [if_neg hec]
    exact h.idle ⟨rfl, rfl⟩

theorem unspent_of_checkInputsExistance {inputs : Inputs}
    (h : checkInputsExistance s inputs.1 = .success) :
    Unspent s inputs := by
  unfold checkInputsExistance at h
  split_ifs at h with hall
  intro source hmem
  have hsome := List.all_eq_true.mp hall source hmem
  exact AList.lookup_isSome.mp hsome

theorem LedgerInvariant.paymentAddressesListed (h : LedgerInvariant log s) (inputs : Inputs)
    (outputs : Outputs) (extra : Option String) {ec : ErrorCode} {addresses : Option (List String)}
    (hpayable : ∀ known, ec = .success → addresses = some known → checkInputs inputs.1 known →
      Payable build s inputs outputs) :
    LedgerInvariant
      (log ++ (paymentAddressesListed build s cmdHandle inputs outputs extra ec addresses).2)
      (paymentAddressesListed build s cmdHandle inputs outputs extra ec addresses).1 := by
  unfold Nullpay.paymentAddressesListed
  by_cases hec : ec = .success
  · rw [if_neg (not_not.mpr hec)]
    cases addresses with
    | none => exact h.idle ⟨rfl, rfl⟩
    | some known =>
      dsimp only
      by_cases hcheck : checkInputs inputs.1 known
      · rw [dif_pos hcheck]
        obtain ⟨hfresh, hfits⟩ := hpayable known hec rfl hcheck
        cases htotals : paymentTotals build s inputs.1 outputs.1 with
        | error fault => exact h.idle ⟨rfl, rfl⟩
        | ok totals =>
          dsimp only
          rw [List.append_nil]
          refine h.check rfl hfresh ?_ rfl (mem_addTxn s _) rfl
          rintro ins outs ⟨⟨hexists, hle⟩, rfl, rfl⟩
          exact ⟨unspent_of_checkInputsExistance hexists,
            paymentTotals_covered htotals (hfits _ _ htotals hle) hle⟩
      · rw [dif_neg hcheck]
        exact h.idle ⟨rfl, rfl⟩
  · rw [if_pos hec]
    exact h.idle ⟨rfl, rfl⟩

theorem LedgerInvariant.addFees (h : LedgerInvariant log s) (request : FeesRequest)
    {inputs : Inputs} {outputs : Outputs}
    (extra : Option String) (hc : Chargeable build s (request.fee.getD 0) inputs outputs) :
    LedgerInvariant (log ++ (addFees build s cmdHandle request inputs outputs extra).2)
      (addFees build s cmdHandle request inputs outputs extra).1 := by
  unfold Nullpay.addFees
  by_cases hexists : checkInputsExistance s inputs.1 = .success
  · rw [if_neg (not_not.mpr hexists)]
    cases htotals : feesTotals build s (request.fee.getD 0) inputs.1 outputs.1 with
    | error fault => exact h.idle ⟨rfl, rfl⟩
    | ok totals =>
      dsimp only
      by_cases hle : totals.2 ≤ totals.1
      · obtain ⟨hfresh, hfits⟩ := hc _ _ htotals hle
        rw [if_pos hle]
        cases request.reqId with
        | error ec => exact h.idle ⟨rfl, rfl⟩
        | ok reqId =>
          dsimp only
          rw [List.append_nil]
          refine h.check rfl hfresh ?_ rfl (mem_addTxn s _) rfl
          rintro ins outs ⟨rfl, rfl⟩
          exact ⟨unspent_of_checkInputsExistance hexists, feesTotals_covered htotals hfits hle⟩
      · rw [if_neg hle]
        exact h.await rfl fun _ _ => id
  · rw [if_pos hexists]
    exact h.await rfl fun _ _ => id

theorem LedgerInvariant.addRequestFees (h : LedgerInvariant log s) (request : FeesRequest)
    {inputs : Except ErrorCode Inputs} {outputs : Except ErrorCode Outputs} (extra : Option String)
    (hc : ∀ ins outs, inputs = .ok ins → outputs = .ok outs →
      Chargeable build s (request.fee.getD 0) ins outs) :
    LedgerInvariant (log ++ (addRequestFees build s cmdHandle request inputs outputs extra).2)
      (addRequestFees build s cmdHandle request inputs outputs extra).1 := by
  unfold Nullpay.addRequestFees
  cases inputs with
  | error ec => exact h.idle ⟨rfl, rfl⟩
  | ok ins =>
    cases outputs with
    | error ec => exact h.idle ⟨rfl, rfl⟩
    | ok outs =>
      cases request.operation with
      | error ec => exact h.idle ⟨rfl, rfl⟩
      | ok operation => exact h.addFees request extra (hc ins outs rfl rfl)

theorem perm_eraseIdx {pending : List Pending} {p : Pending} (hp : pending[place]? = some p) :
    pending.Perm (p :: pending.eraseIdx place) := by
  obtain ⟨hplace, rfl⟩ := List.getElem?_eq_some_iff.mp hp
  exact (List.getElem_cons_eraseIdx_perm hplace).symm

theorem pendingSeqNos_eraseIdx {pending : List Pending} {p : Pending} {seqNo : BitVec 32}
    (hp : pending[place]? = some p) (hseqNo : p.seqNo? = some seqNo) :
    (pendingSeqNos pending).Perm (seqNo :: pendingSeqNos (pending.eraseIdx place)) := by
  have hperm := (perm_eraseIdx hp).filterMap Pending.seqNo?
  rwa [List.filterMap_cons_some hseqNo] at hperm

/-- The inputs and outputs of a request that passed the check are processed. The outputs may end in
a panic. -/
theorem LedgerInvariant.settle (h : LedgerInvariant log s) {p : Pending} {seqNo : BitVec 32}
    {inputs : Inputs}
    {outputs : Outputs} (hp : s.pending[place]? = some p) (hseqNo : p.seqNo? = some seqNo)
    (hpassed : p.Passed inputs outputs) (hunspent : Unspent s inputs)
    (hsources : ∀ source ∈ inputs.1, (fromSource source).isSome)
    (hsame : SameMoney
      (processOutputs seqNo outputs.1 (processInputs (Nullpay.without s place) inputs.1)).1 s')
    (hlog : minted log' = 0 ∧ (consumed log' = [] ∨ consumed log' = inputs.1)) :
    LedgerInvariant (log ++ log') s' := by
  have htaken := taken_processInputs (s := Nullpay.without s place) inputs.2 hsources
  have hgrown :=
    grown_processOutputs seqNo outputs.1 (processInputs (Nullpay.without s place) inputs.1)
  have hperm := pendingSeqNos_eraseIdx hp hseqNo
  have hmem : seqNo ∈ pendingSeqNos s.pending := hperm.mem_iff.mpr List.mem_cons_self
  have hpending : s'.pending = s.pending.eraseIdx place :=
    hsame.pending.trans (hgrown.pending.trans htaken.pending)
  have htxns : s'.txns = s.txns := hsame.txns.trans (hgrown.txns.trans htaken.txns)
  apply h.move seqNo inputs.1
  · exact fun _ => hmem
  · exact hunspent
  · intro source hsource
    rw [hsame.balances, hgrown.others source hsource]
    exact htaken.lookup source
  · obtain ⟨-, hcovered⟩ := h.covered p (List.mem_of_getElem? hp) inputs outputs hpassed
    have hle := hcovered hunspent
    have hsum := hgrown.balance
    have hsum' := htaken.balance
    have heq : Nullpay.balance s' =
        Nullpay.balance
        (processOutputs seqNo outputs.1 (processInputs (Nullpay.without s place) inputs.1)).1 := by
      rw [Nullpay.balance, hsame.balances, ← Nullpay.balance]
    change _ + worth s.balances inputs.1 = Nullpay.balance s at hsum'
    omega
  · rcases hlog.2 with hnone | hall
    · rw [hnone]
      exact ⟨List.nodup_nil, fun _ hnil => absurd hnil List.not_mem_nil⟩
    · rw [hall]
      exact ⟨inputs.2, fun _ => id⟩
  · intro k
    rw [htxns]
    constructor
    · exact Or.inr
    · rintro (rfl | hk)
      · exact h.known _ hmem
      · exact hk
  · rw [hpending]
    exact fewer_eraseIdx _ _
  · rw [hpending]
    exact (List.nodup_cons.mp (hperm.nodup h.seqNos)).1

theorem LedgerInvariant.paymentTxnBuilt (h : LedgerInvariant log s) {payment : Payment}
    (hp : s.pending[place]? = some (.paymentTxn cmdHandle payment)) {ec : ErrorCode}
    (reqId : Except ErrorCode ℕ) (hunspent : ec = .success → payment.ecExistance = .success →
      payment.totalPayments ≤ payment.totalBalance →
      Unspent s payment.inputs) :
    LedgerInvariant
      (log ++ (paymentTxnBuilt (Nullpay.without s place) cmdHandle payment ec reqId).2)
      (paymentTxnBuilt (Nullpay.without s place) cmdHandle payment ec reqId).1 := by
  unfold Nullpay.paymentTxnBuilt
  by_cases hec : ec = .success
  · rw [if_pos hec]
    by_cases hexists : payment.ecExistance = .success
    · rw [if_neg (not_not.mpr hexists)]
      by_cases hle : payment.totalPayments ≤ payment.totalBalance
      · rw [if_pos hle]
        have hpassed : (Pending.paymentTxn cmdHandle payment).Passed payment.inputs
            payment.outputs :=
          ⟨⟨hexists, hle⟩, rfl, rfl⟩
        have hleft := hunspent hec hexists hle
        cases hout : processOutputs payment.seqNo payment.outputs.1
          (processInputs (Nullpay.without s place) payment.inputs.1) with
        | mk s₁ infos =>
          cases infos with
          | none =>
            refine h.settle hp rfl hpassed hleft payment.sources ?_ ⟨rfl, Or.inl rfl⟩
            rw [hout]
            exact ⟨rfl, rfl, rfl⟩
          | some infos =>
            refine h.settle hp rfl hpassed hleft payment.sources ?_
              ⟨rfl, Or.inr (List.append_nil _)⟩
            rw [hout]
            exact sameMoney_addResponse _ _ _
      · rw [if_neg hle]
        exact (h.without place).answer (sameMoney_addResponse _ _ _) ⟨rfl, rfl⟩
    · rw [if_pos hexists]
      exact (h.without place).answer (sameMoney_addResponse _ _ _) ⟨rfl, rfl⟩
  · rw [if_neg hec]
    exact (h.without place).idle ⟨rfl, rfl⟩

theorem LedgerInvariant.feesAddressesListed (h : LedgerInvariant log s) {reqId : ℕ}
    {inputs : Inputs} {outputs : Outputs} {seqNo : BitVec 32}
    (hp : s.pending[place]? = some (.feesAddresses cmdHandle reqId inputs outputs seqNo))
    {ec : ErrorCode} {addresses : Option (List String)}
    (hunspent : ∀ known, ec = .success → addresses = some known → checkInputs inputs.1 known →
      Unspent s inputs) :
    LedgerInvariant
      (log ++ (feesAddressesListed (Nullpay.without s place) cmdHandle reqId inputs outputs seqNo ec
        addresses).2)
      (feesAddressesListed (Nullpay.without s place) cmdHandle reqId inputs outputs seqNo ec
        addresses).1 := by
  unfold Nullpay.feesAddressesListed
  by_cases hec : ec = .success
  · rw [if_neg (not_not.mpr hec)]
    cases addresses with
    | none => exact (h.without place).idle ⟨rfl, rfl⟩
    | some known =>
      dsimp only
      by_cases hcheck : checkInputs inputs.1 known
      · rw [if_pos hcheck]
        have hleft := hunspent known hec rfl hcheck
        have hsources := fromSource_of_checkInputs hcheck
        cases hout : processOutputs seqNo outputs.1
          (processInputs (Nullpay.without s place) inputs.1) with
        | mk s₁ infos =>
          cases infos with
          | none =>
            refine h.settle hp rfl ⟨rfl, rfl⟩ hleft hsources ?_ ⟨rfl, Or.inl rfl⟩
            rw [hout]
            exact ⟨rfl, rfl, rfl⟩
          | some infos =>
            refine h.settle hp rfl ⟨rfl, rfl⟩ hleft hsources ?_ ⟨rfl, Or.inr (List.append_nil _)⟩
            rw [hout]
            exact sameMoney_addResponse _ _ _
      · rw [if_neg hcheck]
        exact (h.without place).idle ⟨rfl, rfl⟩
  · rw [if_pos hec]
    exact (h.without place).idle ⟨rfl, rfl⟩

theorem LedgerInvariant.feesTxnBuilt (h : LedgerInvariant log s) (response : Response)
    (ec : ErrorCode) (reqId : Except ErrorCode ℕ) :
    LedgerInvariant (log ++ (feesTxnBuilt s cmdHandle response ec reqId).2)
      (feesTxnBuilt s cmdHandle response ec reqId).1 := by
  unfold Nullpay.feesTxnBuilt
  by_cases hec : ec = .success
  · rw [if_pos hec]
    exact h.answer (sameMoney_addResponse _ _ _) ⟨rfl, rfl⟩
  · rw [if_neg hec]
    exact h.idle ⟨rfl, rfl⟩

/-- The thread runs: the request waits for another callback. -/
theorem LedgerInvariant.threadRuns (h : LedgerInvariant log s) {payment : Payment}
    (hp : s.pending[place]? = some (.paymentThread cmdHandle payment)) :
    LedgerInvariant (log ++ [])
      (Nullpay.await (Nullpay.without s place) (.paymentTxn cmdHandle payment)) := by
  have hperm := pendingSeqNos_eraseIdx hp rfl
  have hseqNos : pendingSeqNos (s.pending.eraseIdx place ++ [.paymentTxn cmdHandle payment]) =
      pendingSeqNos (s.pending.eraseIdx place) ++ [payment.seqNo] := by
    rw [pendingSeqNos, List.filterMap_append]
    rfl
  have hsame := hperm.trans (List.perm_append_singleton payment.seqNo _).symm
  rw [← hseqNos] at hsame
  refine h.keep rfl rfl ⟨hsame.nodup, fun _ => hsame.mem_iff.mpr, ?_⟩ ⟨rfl, rfl⟩
  intro p' hp' inputs outputs hpassed
  rcases List.mem_append.mp hp' with hmem | hlast
  · exact ⟨p', List.mem_of_mem_eraseIdx hmem, hpassed⟩
  · rw [List.mem_singleton.mp hlast] at hpassed
    exact ⟨_, List.mem_of_getElem? hp, hpassed⟩

end Steps

section Runs
variable {build : Build} {log : List Event} {s : Ledger} {place : ℕ}

theorem LedgerInvariant.resume (h : LedgerInvariant log s) {step : Step}
    (hc : ∀ p, s.pending[place]? = some p → p.Careful build s step) :
    LedgerInvariant (log ++ (resume build s place step).2) (resume build s place step).1 := by
  unfold Nullpay.resume
  cases hp : s.pending[place]? with
  | none => exact h.idle ⟨rfl, rfl⟩
  | some p =>
    have hcareful := hc p hp
    cases step with
    | buildMintReq cmdHandle outputs extra => exact h.idle ⟨rfl, rfl⟩
    | buildPaymentReq cmdHandle inputs outputs extra => exact h.idle ⟨rfl, rfl⟩
    | addRequestFees cmdHandle request inputs outputs extra => exact h.idle ⟨rfl, rfl⟩
    | addressesListed place' ec addresses =>
      cases p with
      | paymentAddresses cmdHandle inputs outputs extra =>
        exact (h.without place).paymentAddressesListed inputs outputs extra hcareful
      | feesAddresses cmdHandle reqId inputs outputs seqNo =>
        exact h.feesAddressesListed hp hcareful
      | _ => exact h.idle ⟨rfl, rfl⟩
    | txnBuilt place' ec reqId =>
      cases p with
      | mintTxn cmdHandle outputs extra =>
        exact (h.without place).mintTxnBuilt outputs extra hcareful
      | paymentTxn cmdHandle payment => exact h.paymentTxnBuilt hp reqId hcareful
      | feesRefused cmdHandle response => exact (h.without place).feesTxnBuilt response ec reqId
      | _ => exact h.idle ⟨rfl, rfl⟩
    | threadRuns place' =>
      cases p with
      | paymentThread cmdHandle payment => exact h.threadRuns hp
      | _ => exact h.idle ⟨rfl, rfl⟩

theorem LedgerInvariant.perform (h : LedgerInvariant log s) {step : Step}
    (hc : Careful build s step) :
    LedgerInvariant (log ++ (perform build s step).2) (perform build s step).1 := by
  cases step with
  | buildMintReq cmdHandle outputs extra =>
    cases outputs with
    | error ec => exact h.idle ⟨rfl, rfl⟩
    | ok outputs => exact h.await rfl fun _ _ => id
  | buildPaymentReq cmdHandle inputs outputs extra =>
    cases inputs with
    | error ec => exact h.idle ⟨rfl, rfl⟩
    | ok inputs =>
      cases outputs with
      | error ec => exact h.idle ⟨rfl, rfl⟩
      | ok outputs => exact h.await rfl fun _ _ => id
  | addRequestFees cmdHandle request inputs outputs extra => exact h.addRequestFees request extra hc
  | addressesListed place ec addresses => exact h.resume hc
  | txnBuilt place ec reqId => exact h.resume hc
  | threadRuns place => exact h.resume fun _ _ => trivial

theorem ledgerInvariant_newLedger : LedgerInvariant [] newLedger where
  balance := Nat.zero_le _
  once := List.nodup_nil
  present source hmem := absurd hmem (AList.notMem_empty source)
  gone _ hmem := absurd hmem List.not_mem_nil
  seqNos := List.nodup_nil
  known _ hmem := absurd hmem List.not_mem_nil
  covered _ hp := absurd hp List.not_mem_nil

/-- All along a run whose steps are careful, no source is consumed twice, and there is no more money
than minted. -/
theorem no_money_created (build : Build) {steps : List Step}
    (hcareful : EveryStep (execute build) (Careful build) newLedger steps) :
    ∀ pre, pre <+: steps → ∃ s log, runSteps (execute build) newLedger pre = .ok (s, log) ∧
      NoMoneyCreated log s := by
  have hruns : ∀ pre, pre <+: steps →
      ∃ s log, runSteps (execute build) newLedger pre = .ok (s, log) ∧
      LedgerInvariant log s := by
    refine exists_run_invariant (fun s step => ⟨_, _, rfl⟩) ledgerInvariant_newLedger ?_ hcareful
    intro log s step s' out h hc hstep
    obtain ⟨rfl, rfl⟩ := Prod.mk.inj (Except.ok.inj hstep)
    exact h.perform hc
  intro pre hpre
  obtain ⟨s, log, hrun, hinv⟩ := hruns pre hpre
  exact ⟨s, log, hrun, hinv.once, hinv.balance⟩

end Runs

section Sample

/-- Ten are minted. -/
def mintTen : List Step :=
  [.buildMintReq 1 (.ok ⟨[⟨"pay:null:a", 10⟩], by decide⟩) none, .txnBuilt 0 .success (.ok 1)]

/-- A payment of the ten to a recipient. -/
def payTen (cmdHandle : ℤ) (recipient : String) : Step :=
  .buildPaymentReq cmdHandle (.ok ⟨["pay:null:2_a"], by decide⟩)
    (.ok ⟨[⟨recipient, 10⟩], List.nodup_singleton _⟩) none

/-- Both payments are checked before one of them is settled. -/
def spendTwice : List Step :=
  mintTen ++ [payTen 2 "pay:null:b", payTen 3 "pay:null:c",
    .addressesListed 0 .success (some ["pay:null:a"]),
    .addressesListed 0 .success (some ["pay:null:a"]), .threadRuns 0, .threadRuns 0,
    .txnBuilt 0 .success (.ok 2), .txnBuilt 0 .success (.ok 3)]

theorem source_spent_twice :
    ∃ s log, runSteps (execute .debug) newLedger spendTwice = .ok (s, log) ∧
    ¬ (consumed log).Nodup ∧ minted log < balance s := by
  have hseen : (runSteps (execute .debug) newLedger spendTwice).toOption.map
      (fun r => (consumed r.2, minted r.2, balance r.1)) = some
      (["pay:null:2_a", "pay:null:2_a"], 10, 20) := by
    decide
  obtain ⟨⟨s, log⟩, hsome, hvalues⟩ := Option.map_eq_some_iff.mp hseen
  obtain ⟨hconsumed, hmoney⟩ := Prod.mk.inj hvalues
  obtain ⟨hminted, hbalance⟩ := Prod.mk.inj hmoney
  refine ⟨s, log, ?_, ?_, ?_⟩
  · cases hrun : runSteps (execute .debug) newLedger spendTwice with
    | error fault =>
      rw [hrun] at hsome
      cases hsome
    | ok r =>
      rw [hrun] at hsome
      rw [← Option.some.inj hsome]
  · rw [hconsumed]
    decide
  · rw [hminted, hbalance]
    decide

theorem everyStep_perform {build : Build} {s : Ledger} {step : Step} {steps : List Step}
    (h : Careful build s step)
    (hrest : EveryStep (execute build) (Careful build) (perform build s step).1 steps) :
    EveryStep (execute build) (Careful build) s (step :: steps) := by
  apply EveryStep.cons h
  intro s' out hstep
  rwa [← (Prod.mk.inj (Except.ok.inj hstep)).1]

theorem careful_of_pending {build : Build} {s : Ledger} {step : Step} {p : Pending}
    (hp : s.pending[0]? = some p)
    (h : p.Careful build s step) : ∀ p', s.pending[0]? = some p' → p'.Careful build s step := by
  intro p' hp'
  rw [hp] at hp'
  rwa [← Option.some.inj hp']

/-- The ten are minted and spent once. -/
def spendOnce : List Step :=
  mintTen ++
    [payTen 2 "pay:null:b", .addressesListed 0 .success (some ["pay:null:a"]), .threadRuns 0,
    .txnBuilt 0 .success (.ok 2)]

theorem no_money_created_ten : ∃ s log,
    runSteps (execute .release) newLedger spendOnce = .ok (s, log) ∧ NoMoneyCreated log s := by
  refine no_money_created .release ?_ spendOnce List.prefix_rfl
  change EveryStep (execute .release) (Careful .release) newLedger [_, _, _, _, _, _]
  refine everyStep_perform trivial
    (everyStep_perform ?_ (everyStep_perform trivial (everyStep_perform ?_
    (everyStep_perform trivial (everyStep_perform ?_ everyStep_nil)))))
  · refine careful_of_pending rfl fun _ => ?_
    change FreshSeqNo _
    unfold FreshSeqNo
    decide
  · refine careful_of_pending rfl fun known _ _ _ => ⟨?_, fun _ _ _ _ => by decide⟩
    unfold FreshSeqNo
    decide
  · refine careful_of_pending rfl fun _ _ _ => ?_
    unfold Unspent
    decide

end Sample

end SimpleAsset.Nullpay
