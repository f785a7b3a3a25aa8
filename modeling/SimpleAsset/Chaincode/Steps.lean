import SimpleAsset.Library.Fallible
import SimpleAsset.Chaincode.Account

/-! What one transaction can do to the world state, said once for all later invariants. -/
namespace SimpleAsset.Chaincode
open SimpleAsset.Library

variable (shim : Shim) (σ : Ledger)

/-- The guards a `remit` has to pass: the amount and both balances parse, the amount is neither
negative nor above the sender's balance, and both keys can be written. -/
structure Remits (sender receiver amount : String) (n bs br : ℤ) : Prop where
  amount_ok : parseInt (some amount) = .ok n
  sender_ok : parseInt (σ.lookup sender) = .ok bs
  receiver_ok : parseInt (σ.lookup receiver) = .ok br
  nonneg : 0 ≤ n
  funded : n ≤ bs
  sender_key : shim.acceptsKey sender
  receiver_key : shim.acceptsKey receiver

structure Issues (amount : String) (n b : ℤ) : Prop where
  amount_ok : parseInt (some amount) = .ok n
  admin_ok : parseInt (σ.lookup "admin") = .ok b
  admin_key : shim.acceptsKey "admin"

structure Creates (user deposit : String) (n : ℤ) : Prop where
  deposit_ok : parseInt (some deposit) = .ok n
  nonneg : 0 ≤ n
  fresh : isNullOrEmpty (σ.lookup user)
  key : shim.acceptsKey user

/-- Integer value of a stored text. -/
def balanceOf (v : String) : ℤ := (parseInt (some v)).toOption.getD 0

/-- Amount a transaction issues, 0 unless it is a successful `money_issuance`. -/
def issued : Tx → ℤ
  | .invoke "money_issuance" [amount] =>
    if (Tx.outcome shim σ (.invoke "money_issuance" [amount])).1.success
      then balanceOf amount else 0
  | _ => 0

/-- Amount a transaction deposits, 0 unless it is a successful `create_account`. -/
def deposited : Tx → ℤ
  | .invoke "create_account" [user, deposit] =>
    if (Tx.outcome shim σ (.invoke "create_account" [user, deposit])).1.success
    then balanceOf deposit else 0
  | _ => 0

/-- Balance a transaction removes, 0 unless it is a successful `delete_account`. -/
def removed : Tx → ℤ
  | .invoke "delete_account" [user] =>
    if (Tx.outcome shim σ (.invoke "delete_account" [user])).1.success
    then Table.weight balanceOf user σ else 0
  | _ => 0

/-- World states a transaction can commit, with the money it brings in or takes out. -/
inductive Commits : Tx → ℤ → Ledger → Prop
  | idle (tx : Tx) : Commits tx 0 σ
  | init (h : isNullOrEmpty (σ.lookup "admin")) : Commits .init 0 (σ.insert "admin" "0")
  | create {user deposit : String} {n : ℤ} (h : Creates shim σ user deposit n) :
      Commits (.invoke "create_account" [user, deposit]) n (σ.insert user (integerToString n))
  | remit {s r a : String} {n bs br : ℤ} (h : Remits shim σ s r a n bs br) :
      Commits (.invoke "remit" [s, r, a]) 0
      ((σ.insert s (integerToString (wrapInt (bs - n)))).insert r
        (integerToString (wrapInt (br + n))))
  | issue {a : String} {n b : ℤ} (h : Issues shim σ a n b) :
      Commits (.invoke "money_issuance" [a]) n
      (σ.insert "admin" (integerToString (wrapInt (n + b))))
  | delete (user : String) :
      Commits (.invoke "delete_account" [user]) (-Table.weight balanceOf user σ) (σ.erase user)

variable {shim σ}

theorem balanceOf_eq {v : String} {n : ℤ} (h : parseInt (some v) = .ok n) : balanceOf v = n := by
  simp [balanceOf, h, Except.toOption]

theorem not_isNullOrEmpty_of_parseInt {v : Option String} {n : ℤ} (h : parseInt v = .ok n) :
    isNullOrEmpty v = false := by
  cases v with
  | none => simp [parseInt] at h
  | some s =>
    by_contra hc
    have hs : s = "" := by simpa [isNullOrEmpty] using hc
    subst hs
    simp [parseInt, readNat] at h

-- `invoke` dispatches on the name of the function.
theorem outcome_of_remit (ps : List String) :
    Tx.outcome shim σ (.invoke "remit" ps) = remit ⟨shim, σ, "remit", ps⟩ := rfl

theorem outcome_of_moneyIssuance (ps : List String) :
    Tx.outcome shim σ (.invoke "money_issuance" ps) = moneyIssuance
      ⟨shim, σ, "money_issuance", ps⟩ := rfl

theorem outcome_of_createAccount (ps : List String) :
    Tx.outcome shim σ (.invoke "create_account" ps) = createAccount
      ⟨shim, σ, "create_account", ps⟩ := rfl

theorem outcome_of_deleteAccount (ps : List String) :
    Tx.outcome shim σ (.invoke "delete_account" ps) = deleteAccount
      ⟨shim, σ, "delete_account", ps⟩ := rfl

theorem outcome_of_balanceCheck (ps : List String) :
    Tx.outcome shim σ (.invoke "balance_check" ps) = balanceCheck ⟨shim, σ, "balance_check", ps⟩ :=
  rfl

/-- A `remit` that passes its guards writes both balances. -/
theorem outcome_remit {s r a : String} {n bs br : ℤ} (h : Remits shim σ s r a n bs br) :
    Tx.outcome shim σ (.invoke "remit" [s, r, a]) =
      (newSuccessResponse ("[remit] " ++ s ++ " -> " ++ r ++ " successfully remitted~!\n"),
        [.put s (integerToString (wrapInt (bs - n))),
          .put r (integerToString (wrapInt (br + n)))]) := by
  have hs := not_isNullOrEmpty_of_parseInt h.sender_ok
  have hr := not_isNullOrEmpty_of_parseInt h.receiver_ok
  have hn : ¬ n < 0 := by have := h.nonneg; omega
  have hf : ¬ bs < n := by have := h.funded; omega
  simp [outcome_of_remit, remit, Stub.getStringState, Stub.putStringState, h.amount_ok,
    h.sender_ok, h.receiver_ok, hs, hr, hn, hf, h.sender_key, h.receiver_key]

/-- Conversely a `remit` succeeds only by passing its guards. -/
theorem remits_of_success {s r a : String}
    (h : (Tx.outcome shim σ (.invoke "remit" [s, r, a])).1.success) :
    ∃ n bs br, Remits shim σ s r a n bs br := by
  simp only [outcome_of_remit, remit, Stub.getStringState, Stub.putStringState] at h
  cases hn : parseInt (some a) with
  | error e => cases e <;> simp [hn, newErrorResponse] at h
  | ok n =>
    cases hs : parseInt (σ.lookup s) with
    | error e => cases e <;> simp [hn, hs, newErrorResponse] at h
    | ok bs =>
      cases hr : parseInt (σ.lookup r) with
      | error e => cases e <;> simp [hn, hs, hr, newErrorResponse] at h
      | ok br =>
        simp only [hn, hs, hr, not_isNullOrEmpty_of_parseInt hs,
          not_isNullOrEmpty_of_parseInt hr, except_ok_bind] at h
        by_cases hneg : n < 0
        · simp [hneg, newErrorResponse] at h
        by_cases hlow : bs < n
        · simp [hneg, hlow, newErrorResponse] at h
        by_cases hks : shim.acceptsKey s
        · by_cases hkr : shim.acceptsKey r
          · exact ⟨n, bs, br, hn, hs, hr, by omega, by omega, hks, hkr⟩
          · simp [hneg, hlow, hks, hkr, newErrorResponse] at h
        · simp [hneg, hlow, hks, newErrorResponse] at h

theorem outcome_moneyIssuance {a : String} {n b : ℤ} (h : Issues shim σ a n b) :
    Tx.outcome shim σ (.invoke "money_issuance" [a]) =
      (newSuccessResponse "", [.put "admin" (integerToString (wrapInt (n + b)))]) := by
  simp [outcome_of_moneyIssuance, moneyIssuance, Stub.getStringState, Stub.putStringState,
    h.amount_ok, h.admin_ok, h.admin_key]

theorem issues_of_success {a : String}
    (h : (Tx.outcome shim σ (.invoke "money_issuance" [a])).1.success) :
    ∃ n b, Issues shim σ a n b := by
  simp only [outcome_of_moneyIssuance, moneyIssuance, Stub.getStringState, Stub.putStringState] at h
  cases hn : parseInt (some a) with
  | error e => cases e <;> simp [hn, newErrorResponse] at h
  | ok n =>
    cases hb : parseInt (σ.lookup "admin") with
    | error e => cases e <;> simp [hn, hb, newErrorResponse] at h
    | ok b =>
      by_cases hk : shim.acceptsKey "admin"
      · exact ⟨n, b, hn, hb, hk⟩
      · simp [hn, hb, hk, newErrorResponse] at h

theorem outcome_createAccount {user deposit : String} {n : ℤ} (h : Creates shim σ user deposit n) :
    Tx.outcome shim σ (.invoke "create_account" [user, deposit]) =
      (newSuccessResponse ("[create account] " ++ user ++ " created ~!\n"),
        [.put user (integerToString n)]) := by
  have hn : ¬ n < 0 := by have := h.nonneg; omega
  simp [outcome_of_createAccount, createAccount, Stub.getStringState, Stub.putStringState,
    h.deposit_ok, hn, h.fresh, h.key]

theorem creates_of_success {user deposit : String}
    (h : (Tx.outcome shim σ (.invoke "create_account" [user, deposit])).1.success) :
    ∃ n, Creates shim σ user deposit n := by
  simp only [outcome_of_createAccount, createAccount, Stub.getStringState, Stub.putStringState] at h
  cases hn : parseInt (some deposit) with
  | error e => simp [hn, newErrorResponse] at h
  | ok n =>
    by_cases hneg : n < 0
    · simp [hn, hneg, newErrorResponse] at h
    by_cases hf : isNullOrEmpty (σ.lookup user)
    · by_cases hk : shim.acceptsKey user
      · exact ⟨n, hn, by omega, hf, hk⟩
      · simp [hn, hneg, hf, hk, newErrorResponse] at h
    · simp [hn, hneg, hf, newErrorResponse] at h

/-- Money a transaction brings in, less what it takes out. -/
def flow (shim : Shim) (σ : Ledger) (tx : Tx) : ℤ :=
  issued shim σ tx + deposited shim σ tx - removed shim σ tx

private theorem commits_idle {tx : Tx} (h : (tx.outcome shim σ).1.success = false) :
    Commits shim σ tx (flow shim σ tx) (commit shim σ tx) := by
  have hf : flow shim σ tx = 0 := by
    unfold flow issued deposited removed
    split <;> split <;> split <;> simp_all
  have hc : commit shim σ tx = σ := by simp [commit, h]
  rw [hf, hc]
  exact .idle tx

private theorem commits_create {user deposit : String}
    (h : (Tx.outcome shim σ (.invoke "create_account" [user, deposit])).1.success) :
    Commits shim σ (.invoke "create_account" [user, deposit])
      (flow shim σ (.invoke "create_account" [user, deposit]))
      (commit shim σ (.invoke "create_account" [user, deposit])) := by
  obtain ⟨n, hn⟩ := creates_of_success h
  have hf : flow shim σ (.invoke "create_account" [user, deposit]) = n := by
    change 0 + (if _ then balanceOf deposit else 0) - 0 = n
    simp [h, balanceOf_eq hn.deposit_ok]
  have hc : commit shim σ (.invoke "create_account" [user, deposit]) =
      σ.insert user (integerToString n) := by
    simp [commit, outcome_createAccount hn, newSuccessResponse, applyWrite]
  rw [hf, hc]
  exact .create hn

theorem commit_remit {s r a : String} {n bs br : ℤ} (h : Remits shim σ s r a n bs br) :
    commit shim σ (.invoke "remit" [s, r, a]) =
      (σ.insert s (integerToString (wrapInt (bs - n)))).insert r
        (integerToString (wrapInt (br + n))) := by
  simp [commit, outcome_remit h, newSuccessResponse, applyWrite]

private theorem commits_remit {s r a : String}
    (h : (Tx.outcome shim σ (.invoke "remit" [s, r, a])).1.success) :
    Commits shim σ (.invoke "remit" [s, r, a]) (flow shim σ (.invoke "remit" [s, r, a]))
      (commit shim σ (.invoke "remit" [s, r, a])) := by
  obtain ⟨n, bs, br, hr⟩ := remits_of_success h
  have hf : flow shim σ (.invoke "remit" [s, r, a]) = 0 := rfl
  rw [hf, commit_remit hr]
  exact .remit hr

theorem commit_issue {a : String} {n b : ℤ} (h : Issues shim σ a n b) :
    commit shim σ (.invoke "money_issuance" [a]) =
      σ.insert "admin" (integerToString (wrapInt (n + b))) := by
  simp [commit, outcome_moneyIssuance h, newSuccessResponse, applyWrite]

theorem flow_issue {a : String} {n b : ℤ} (h : Issues shim σ a n b) :
    flow shim σ (.invoke "money_issuance" [a]) = n := by
  change (if _ then balanceOf a else 0) + 0 - 0 = n
  simp [outcome_moneyIssuance h, newSuccessResponse, balanceOf_eq h.amount_ok]

private theorem commits_issue {a : String}
    (h : (Tx.outcome shim σ (.invoke "money_issuance" [a])).1.success) :
    Commits shim σ (.invoke "money_issuance" [a]) (flow shim σ (.invoke "money_issuance" [a]))
      (commit shim σ (.invoke "money_issuance" [a])) := by
  obtain ⟨n, b, hi⟩ := issues_of_success h
  rw [flow_issue hi, commit_issue hi]
  exact .issue hi

private theorem commits_balanceCheck (ps : List String) :
    Commits shim σ (.invoke "balance_check" ps) (flow shim σ (.invoke "balance_check" ps))
      (commit shim σ (.invoke "balance_check" ps)) := by
  have hw : (Tx.outcome shim σ (.invoke "balance_check" ps)).2 = [] := by
    simp only [outcome_of_balanceCheck, balanceCheck]
    split
    · split
      · rfl
      · split_ifs <;> rfl
    · rfl
  have hf : flow shim σ (.invoke "balance_check" ps) = 0 := rfl
  have hc : commit shim σ (.invoke "balance_check" ps) = σ := by simp [commit, hw]
  rw [hf, hc]
  exact .idle _

private theorem commits_delete (user : String) :
    Commits shim σ (.invoke "delete_account" [user]) (flow shim σ (.invoke "delete_account" [user]))
      (commit shim σ (.invoke "delete_account" [user])) := by
  have hf : flow shim σ (.invoke "delete_account" [user]) = -Table.weight balanceOf user σ := by
    change 0 + 0 - (if (Tx.outcome shim σ (.invoke "delete_account" [user])).1.success
      then Table.weight balanceOf user σ else 0) = _
    simp [outcome_of_deleteAccount, deleteAccount, newSuccessResponse]
  have hc : commit shim σ (.invoke "delete_account" [user]) = σ.erase user := by
    simp [commit, outcome_of_deleteAccount, deleteAccount, newSuccessResponse, applyWrite]
  rw [hf, hc]
  exact .delete user

private theorem create_arity {ps : List String}
    (h : (Tx.outcome shim σ (.invoke "create_account" ps)).1.success) :
    ∃ user deposit, ps = [user, deposit] := by
  match ps with
  | [user, deposit] => exact ⟨user, deposit, rfl⟩
  | [] | [_] | _ :: _ :: _ :: _ =>
    simp [outcome_of_createAccount, createAccount, newErrorResponse] at h

private theorem remit_arity {ps : List String}
    (h : (Tx.outcome shim σ (.invoke "remit" ps)).1.success) : ∃ s r a, ps = [s, r, a] := by
  match ps with
  | [s, r, a] => exact ⟨s, r, a, rfl⟩
  | [] | [_] | [_, _] | _ :: _ :: _ :: _ :: _ =>
    simp [outcome_of_remit, remit, newErrorResponse] at h

private theorem issue_arity {ps : List String}
    (h : (Tx.outcome shim σ (.invoke "money_issuance" ps)).1.success) : ∃ a, ps = [a] := by
  match ps with
  | [a] => exact ⟨a, rfl⟩
  | [] | _ :: _ :: _ => simp [outcome_of_moneyIssuance, moneyIssuance, newErrorResponse] at h

private theorem delete_arity {ps : List String}
    (h : (Tx.outcome shim σ (.invoke "delete_account" ps)).1.success) : ∃ user, ps = [user] := by
  match ps with
  | [user] => exact ⟨user, rfl⟩
  | [] | _ :: _ :: _ => simp [outcome_of_deleteAccount, deleteAccount, newErrorResponse] at h

/-- Every transaction does one of the six things `Commits` lists. -/
theorem commits_commit (shim : Shim) (σ : Ledger) (tx : Tx) :
    Commits shim σ tx (flow shim σ tx) (commit shim σ tx) := by
  by_cases hsucc : (tx.outcome shim σ).1.success = true
  swap
  · exact commits_idle (by simpa using hsucc)
  cases tx with
  | init =>
    have hf : flow shim σ .init = 0 := rfl
    rw [hf]
    by_cases ha : isNullOrEmpty (σ.lookup "admin")
    · by_cases hk : shim.acceptsKey "admin"
      · have hc : commit shim σ .init = σ.insert "admin" "0" := by
          simp [commit, Tx.outcome, init, Stub.getStringState, Stub.putStringState, ha, hk,
            newSuccessResponse, applyWrite]
        rw [hc]
        exact .init ha
      · simp [Tx.outcome, init, Stub.getStringState, Stub.putStringState, ha, hk,
          newErrorResponse] at hsucc
    · have hc : commit shim σ .init = σ := by
        simp [commit, Tx.outcome, init, Stub.getStringState, ha, newSuccessResponse]
      rw [hc]
      exact .idle _
  | invoke f ps =>
    -- any function name but the five known ones, and any wrong number of arguments, fails
    by_cases hcreate : f = "create_account"
    · subst hcreate
      obtain ⟨user, deposit, rfl⟩ := create_arity hsucc
      exact commits_create hsucc
    by_cases hremit : f = "remit"
    · subst hremit
      obtain ⟨s, r, a, rfl⟩ := remit_arity hsucc
      exact commits_remit hsucc
    by_cases hbalance : f = "balance_check"
    · subst hbalance
      exact commits_balanceCheck ps
    by_cases hissue : f = "money_issuance"
    · subst hissue
      obtain ⟨a, rfl⟩ := issue_arity hsucc
      exact commits_issue hsucc
    by_cases hdelete : f = "delete_account"
    · subst hdelete
      obtain ⟨user, rfl⟩ := delete_arity hsucc
      exact commits_delete user
    · simp [Tx.outcome, invoke, newErrorResponse] at hsucc

/-- A condition on the balances the two unguarded sums write: `R` on a `remit` that passes its
guards (parties, amount, receiver's balance), `I` on an issuance (amount, admin's balance). -/
def OnSums (shim : Shim) (σ : Ledger) (R : String → String → ℤ → ℤ → Prop) (I : ℤ → ℤ → Prop)
    (tx : Tx) : Prop :=
  (∀ s r a n bs br, tx = .invoke "remit" [s, r, a] → Remits shim σ s r a n bs br → R s r n br) ∧
  ∀ a n b, tx = .invoke "money_issuance" [a] → Issues shim σ a n b → I n b

variable {R : String → String → ℤ → ℤ → Prop} {I : ℤ → ℤ → Prop}

theorem onSums_remit {s r a : String} {n bs br : ℤ} (h : Remits shim σ s r a n bs br) :
    OnSums shim σ R I (.invoke "remit" [s, r, a]) ↔ R s r n br := by
  constructor
  · exact fun hm => hm.1 s r a n bs br rfl h
  · intro hm
    refine ⟨?_, by simp⟩
    rintro s' r' a' n' bs' br' heq h'
    simp only [Tx.invoke.injEq, List.cons.injEq, and_true, true_and] at heq
    obtain ⟨rfl, rfl, rfl⟩ := heq
    have hn : n = n' := by simpa [h.amount_ok] using h'.amount_ok
    have hb : br = br' := by simpa [h.receiver_ok] using h'.receiver_ok
    subst hn hb
    exact hm

theorem onSums_issue {a : String} {n b : ℤ} (h : Issues shim σ a n b) :
    OnSums shim σ R I (.invoke "money_issuance" [a]) ↔ I n b := by
  constructor
  · exact fun hm => hm.2 a n b rfl h
  · intro hm
    refine ⟨by simp, ?_⟩
    rintro a' n' b' heq h'
    simp only [Tx.invoke.injEq, List.cons.injEq, and_true, true_and] at heq
    subst heq
    have hn : n = n' := by simpa [h.amount_ok] using h'.amount_ok
    have hb : b = b' := by simpa [h.admin_ok] using h'.admin_ok
    subst hn hb
    exact hm

/-- The case split every invariant uses: a `remit` past its guards, an issuance past its guards,
or a transaction that computes no sum. -/
theorem tx_cases (shim : Shim) (σ : Ledger) (tx : Tx) :
    (∃ s r a n bs br, tx = .invoke "remit" [s, r, a] ∧ Remits shim σ s r a n bs br) ∨
    (∃ a n b, tx = .invoke "money_issuance" [a] ∧ Issues shim σ a n b) ∨
    ∀ R I, OnSums shim σ R I tx := by
  by_cases hr : ∃ s r a n bs br, tx = .invoke "remit" [s, r, a] ∧ Remits shim σ s r a n bs br
  · exact .inl hr
  by_cases hi : ∃ a n b, tx = .invoke "money_issuance" [a] ∧ Issues shim σ a n b
  · exact .inr (.inl hi)
  · refine .inr (.inr fun R I => ⟨?_, ?_⟩)
    · intro s r a n bs br ht h
      exact absurd ⟨s, r, a, n, bs, br, ht, h⟩ hr
    · intro a n b ht h
      exact absurd ⟨a, n, b, ht, h⟩ hi

end SimpleAsset.Chaincode
