import Mathlib.Data.Nat.Notation
import Mathlib.Tactic.Common

/-! Computations that send messages, where a send may fail: mostly without delivering, and after it
has delivered when the answer to it is lost. -/
namespace SimpleAsset.Library
variable {ε μ α β : Type}

/-- How a send ends. -/
inductive SendOutcome (ε : Type)
  | delivered
  /-- It fails and delivers nothing. -/
  | failed (e : ε)
  /-- It fails after it has delivered. -/
  | unanswered (e : ε)
  deriving DecidableEq, Repr

namespace SendOutcome

/-- The send fails only when it delivers nothing. -/
def Answered : SendOutcome ε → Prop
  | unanswered _ => False
  | _ => True

/-- The outcome of a send that is answered. -/
def ofExcept : Except ε Unit → SendOutcome ε
  | .ok _ => delivered
  | .error e => failed e

theorem answered_ofExcept (x : Except ε Unit) : (ofExcept x).Answered := by
  cases x <;> trivial

end SendOutcome

/-- A computation that is given how its sends will end, one after another. It returns its result,
what it delivered and the outcomes that are left. Sends beyond the given outcomes succeed. -/
structure Sending (ε μ α : Type) where
  exec : List (SendOutcome ε) → Except ε α × List μ × List (SendOutcome ε)
  rest_subset : ∀ outcomes, (exec outcomes).2.2 ⊆ outcomes

namespace Sending

def runOver (f : Sending ε μ α) (outcomes : List (SendOutcome ε)) : Except ε α × List μ :=
  ((f.exec outcomes).1, (f.exec outcomes).2.1)

/-- A run in which every send is answered. -/
def run (f : Sending ε μ α) (outcomes : List (Except ε Unit)) : Except ε α × List μ :=
  f.runOver (outcomes.map SendOutcome.ofExcept)

/-- First one computation, then the next unless the first one fails. -/
def andThen (f : Sending ε μ α) (g : α → Sending ε μ β) : Sending ε μ β where
  exec outcomes :=
    match f.exec outcomes with
    | (.error e, sent, rest) => (.error e, sent, rest)
    | (.ok a, sent, rest) =>
      let (r, sent', rest') := (g a).exec rest
      (r, sent ++ sent', rest')
  rest_subset outcomes := by
    have hfirst := f.rest_subset outcomes
    cases hf : f.exec outcomes with
    | mk result more =>
      rw [hf] at hfirst
      cases result with
      | error e => exact hfirst
      | ok a => exact List.Subset.trans ((g a).rest_subset more.2) hfirst

instance : Monad (Sending ε μ) where
  pure a := ⟨fun outcomes => (.ok a, [], outcomes), fun outcomes => List.Subset.refl outcomes⟩
  bind := andThen

/-- A send, which may fail. -/
def send (m : μ) : Sending ε μ Unit where
  exec
    | [] => (.ok (), [m], [])
    | .delivered :: rest => (.ok (), [m], rest)
    | .failed e :: rest => (.error e, [], rest)
    | .unanswered e :: rest => (.error e, [m], rest)
  rest_subset outcomes := by
    rcases outcomes with _ | ⟨_ | e | e, rest⟩
    · exact List.Subset.refl _
    all_goals exact List.subset_cons_self _ rest

/-- An effect that has happened. -/
def emit (m : μ) : Sending ε μ Unit :=
  ⟨fun outcomes => (.ok (), [m], outcomes), fun outcomes => List.Subset.refl outcomes⟩

/-- A call whose result is known. -/
def ofExcept (r : Except ε α) : Sending ε μ α :=
  ⟨fun outcomes => (r, [], outcomes), fun outcomes => List.Subset.refl outcomes⟩

/-- Goes on with the error instead of failing. -/
def attempt (f : Sending ε μ α) : Sending ε μ (Except ε α) where
  exec outcomes :=
    match f.exec outcomes with
    | (r, sent, rest) => (.ok r, sent, rest)
  rest_subset := f.rest_subset

/-- The state after a step, where one that fails leaves it as it is. -/
def keep (s : α) : Except ε α → α
  | .ok s' => s'
  | .error _ => s

variable {K : SendOutcome ε → Prop}

/-- The computation can end in this way when its sends end as `K` allows, and has then delivered
these messages. -/
def EndsIn (K : SendOutcome ε → Prop) (f : Sending ε μ α) (r : Except ε α) (sent : List μ) : Prop :=
  ∃ outcomes, (∀ o ∈ outcomes, K o) ∧ f.runOver outcomes = (r, sent)

/-- The computation can end in this way when all its sends are answered. -/
abbrev Ends (f : Sending ε μ α) (r : Except ε α) (sent : List μ) : Prop :=
  f.EndsIn SendOutcome.Answered r sent

theorem endsIn_runOver (f : Sending ε μ α) {outcomes : List (SendOutcome ε)}
    (h : ∀ o ∈ outcomes, K o) :
    f.EndsIn K (f.runOver outcomes).1 (f.runOver outcomes).2 := ⟨outcomes, h, rfl⟩

/-- However its sends end. -/
abbrev EndsAnyhow (f : Sending ε μ α) (r : Except ε α) (sent : List μ) : Prop :=
  f.EndsIn (fun _ => True) r sent

theorem runOver_ofExcept_bind (a : α) (f : α → Sending ε μ β) (outcomes : List (SendOutcome ε)) :
    (ofExcept (.ok a) >>= f).runOver outcomes = (f a).runOver outcomes := rfl

theorem ends_runOver (f : Sending ε μ α) (outcomes : List (SendOutcome ε)) :
    f.EndsAnyhow (f.runOver outcomes).1 (f.runOver outcomes).2 :=
  endsIn_runOver f fun _ _ => trivial

theorem ends_run (f : Sending ε μ α) (outcomes : List (Except ε Unit)) :
    f.Ends (f.run outcomes).1 (f.run outcomes).2 := by
  refine endsIn_runOver f ?_
  intro o ho
  obtain ⟨x, -, rfl⟩ := List.mem_map.mp ho
  exact SendOutcome.answered_ofExcept x

theorem ends_pure {a : α} {r : Except ε α} {sent : List μ}
    (h : (pure a : Sending ε μ α).EndsIn K r sent) :
    r = .ok a ∧ sent = [] := by
  obtain ⟨outcomes, -, hrun⟩ := h
  obtain ⟨hr, hsent⟩ := Prod.mk.inj hrun
  exact ⟨hr.symm, hsent.symm⟩

theorem ends_ofExcept {x r : Except ε α} {sent : List μ}
    (h : (ofExcept x : Sending ε μ α).EndsIn K r sent) :
    r = x ∧ sent = [] := by
  obtain ⟨outcomes, -, hrun⟩ := h
  obtain ⟨hr, hsent⟩ := Prod.mk.inj hrun
  exact ⟨hr.symm, hsent.symm⟩

/-- A send that fails has delivered its message only when it is not answered. -/
theorem endsIn_send {m : μ} {r : Except ε Unit} {sent : List μ}
    (h : (send m : Sending ε μ Unit).EndsIn K r sent) :
    (r = .ok () ∧ sent = [m]) ∨ ∃ e, r = .error e ∧
      (sent = [] ∨ (sent = [m] ∧ K (.unanswered e))) := by
  obtain ⟨outcomes, hK, hrun⟩ := h
  obtain ⟨hr, hsent⟩ := Prod.mk.inj hrun
  rcases outcomes with _ | ⟨_ | e | e, rest⟩
  · exact Or.inl ⟨hr.symm, hsent.symm⟩
  · exact Or.inl ⟨hr.symm, hsent.symm⟩
  · exact Or.inr ⟨e, hr.symm, Or.inl hsent.symm⟩
  · exact Or.inr ⟨e, hr.symm, Or.inr ⟨hsent.symm, hK _ List.mem_cons_self⟩⟩

/-- A send that is answered delivers its message exactly when it succeeds. -/
theorem ends_send {m : μ} {r : Except ε Unit} {sent : List μ}
    (h : (send m : Sending ε μ Unit).Ends r sent) :
    (r = .ok () ∧ sent = [m]) ∨ ∃ e, r = .error e ∧ sent = [] := by
  rcases endsIn_send h with hok | ⟨e, hr, hnone | ⟨-, hanswered⟩⟩
  · exact Or.inl hok
  · exact Or.inr ⟨e, hr, hnone⟩
  · exact hanswered.elim

theorem exec_bind_error {f : Sending ε μ α} {g : α → Sending ε μ β}
    {outcomes rest : List (SendOutcome ε)} {e : ε}
    {sent : List μ} (hf : f.exec outcomes = (.error e, sent, rest)) :
    (f >>= g).exec outcomes = (.error e, sent, rest) := by
  change (andThen f g).exec outcomes = _
  simp only [andThen, hf]

theorem exec_bind_ok {f : Sending ε μ α} {g : α → Sending ε μ β}
    {outcomes rest : List (SendOutcome ε)} {a : α}
    {sent : List μ} (hf : f.exec outcomes = (.ok a, sent, rest)) :
    (f >>= g).exec outcomes =
      (((g a).exec rest).1, sent ++ ((g a).exec rest).2.1, ((g a).exec rest).2.2) := by
  change (andThen f g).exec outcomes = _
  simp only [andThen, hf]

theorem ends_bind {f : Sending ε μ α} {g : α → Sending ε μ β} {r : Except ε β} {sent : List μ}
    (h : (f >>= g).EndsIn K r sent) :
    (∃ a sent₁ sent₂, f.EndsIn K (.ok a) sent₁ ∧ (g a).EndsIn K r sent₂ ∧ sent = sent₁ ++ sent₂) ∨
      ∃ e, f.EndsIn K (.error e) sent ∧ r = .error e := by
  obtain ⟨outcomes, hK, hrun⟩ := h
  obtain ⟨hr, hsent⟩ := Prod.mk.inj hrun
  have hrest := f.rest_subset outcomes
  cases hf : f.exec outcomes with
  | mk result more =>
    have hstart : f.runOver outcomes = (result, more.1) := by rw [runOver, hf]
    rw [hf] at hrest
    cases result with
    | error e =>
      right
      rw [exec_bind_error hf] at hr hsent
      refine ⟨e, ⟨outcomes, hK, ?_⟩, hr.symm⟩
      rw [hstart, hsent]
    | ok a =>
      left
      rw [exec_bind_ok hf] at hr hsent
      refine ⟨a, more.1, ((g a).exec more.2).2.1, ⟨outcomes, hK, hstart⟩,
        ⟨more.2, ?_, ?_⟩, hsent.symm⟩
      · exact fun o ho => hK o (hrest ho)
      · rw [runOver, hr]

/-- A result that does not depend on what was done before. -/
theorem ends_bind_pure {f : Sending ε μ β} {a : α} {r : Except ε α} {sent : List μ}
    (h : (f >>= fun _ => pure a : Sending ε μ α).EndsIn K r sent) :
    (∃ b, f.EndsIn K (.ok b) sent ∧ r = .ok a) ∨ ∃ e, f.EndsIn K (.error e) sent ∧
      r = .error e := by
  rcases ends_bind h with ⟨b, sent₁, sent₂, hfirst, hrest, hsent⟩ | hfailed
  · obtain ⟨hr, hnone⟩ := ends_pure hrest
    rw [hsent, hnone, List.append_nil]
    exact Or.inl ⟨b, hfirst, hr⟩
  · exact Or.inr hfailed

/-- Something is sent, and that is all. -/
theorem endsIn_send_pure {m : μ} {a : α} {r : Except ε α} {sent : List μ}
    (h : (send m >>= fun _ => pure a : Sending ε μ α).EndsIn K r sent) :
    (r = .ok a ∧ sent = [m]) ∨ ∃ e, r = .error e ∧
      (sent = [] ∨ (sent = [m] ∧ K (.unanswered e))) := by
  rcases ends_bind_pure h with ⟨_, hfirst, hr⟩ | ⟨e, hfirst, hr⟩
  · rcases endsIn_send hfirst with ⟨-, hsent⟩ | ⟨e, hfailed, -⟩
    · exact Or.inl ⟨hr, hsent⟩
    · exact nomatch hfailed
  · rcases endsIn_send hfirst with ⟨hok, -⟩ | ⟨e', hfailed, hsent⟩
    · exact nomatch hok
    · rw [← Except.error.inj hfailed] at hsent
      exact Or.inr ⟨e, hr, hsent⟩

theorem ends_attempt {f : Sending ε μ α} {r : Except ε (Except ε α)} {sent : List μ}
    (h : f.attempt.EndsIn K r sent) :
    ∃ x, f.EndsIn K x sent ∧ r = .ok x := by
  obtain ⟨outcomes, hK, hrun⟩ := h
  obtain ⟨hr, hsent⟩ := Prod.mk.inj hrun
  refine ⟨(f.exec outcomes).1, ⟨outcomes, hK, ?_⟩, hr.symm⟩
  rw [runOver, ← hsent]
  rfl

/-- What is attempted may fail without consequence. -/
theorem ends_attempt_pure {f : Sending ε μ α} {b : β} {r : Except ε β} {sent : List μ}
    (h : (f.attempt >>= fun _ => pure b : Sending ε μ β).EndsIn K r sent) :
    (∃ x, f.EndsIn K x sent) ∧ r = .ok b := by
  rcases ends_bind_pure h with ⟨_, hattempt, hr⟩ | ⟨e, hattempt, -⟩
  · obtain ⟨x, hends, -⟩ := ends_attempt hattempt
    exact ⟨⟨x, hends⟩, hr⟩
  · obtain ⟨_, -, hok⟩ := ends_attempt hattempt
    exact nomatch hok

/-- The computation sends this often, and if all of that succeeds it ends in this way. -/
def Succeeds (f : Sending ε μ α) (n : ℕ) (a : α) (sent : List μ) : Prop :=
  ∀ outcomes, (∀ outcome ∈ outcomes.take n, outcome = .delivered) →
    f.exec outcomes = (.ok a, sent, outcomes.drop n)

theorem Succeeds.run {f : Sending ε μ α} {n : ℕ} {a : α} {sent : List μ} (h : f.Succeeds n a sent)
    {outcomes : List (Except ε Unit)} (hok : ∀ outcome ∈ outcomes.take n, outcome = .ok ()) :
    f.run outcomes = (.ok a, sent) := by
  rw [Sending.run, runOver, h (outcomes.map SendOutcome.ofExcept)]
  intro outcome hmem
  rw [← List.map_take] at hmem
  obtain ⟨x, hx, rfl⟩ := List.mem_map.mp hmem
  rw [hok x hx]
  rfl

theorem succeeds_pure (a : α) : (pure a : Sending ε μ α).Succeeds 0 a [] := fun _ _ => rfl

theorem succeeds_send (m : μ) : (send m : Sending ε μ Unit).Succeeds 1 () [m] := by
  intro outcomes hok
  cases outcomes with
  | nil => rfl
  | cons outcome rest =>
    rw [hok outcome List.mem_cons_self]
    rfl

theorem Succeeds.bind {f : Sending ε μ α} {g : α → Sending ε μ β} {n m : ℕ} {a : α} {b : β}
    {sent sent' : List μ} (hf : f.Succeeds n a sent) (hg : (g a).Succeeds m b sent') :
    (f >>= g).Succeeds (n + m) b (sent ++ sent') := by
  intro outcomes hok
  rw [List.take_add] at hok
  have hfirst := hf outcomes fun outcome hmem => hok outcome (List.mem_append_left _ hmem)
  have hrest := hg (outcomes.drop n) fun outcome hmem => hok outcome (List.mem_append_right _ hmem)
  rw [exec_bind_ok hfirst, hrest, List.drop_drop]

theorem Succeeds.ofExcept_bind {g : α → Sending ε μ β} {n : ℕ} {a : α} {b : β} {sent : List μ}
    (h : (g a).Succeeds n b sent) : (ofExcept (.ok a) >>= g).Succeeds n b sent := by
  intro outcomes hok
  have hfirst : (ofExcept (.ok a) : Sending ε μ α).exec outcomes = (.ok a, [], outcomes) := rfl
  rw [exec_bind_ok hfirst, h outcomes hok, List.nil_append]

theorem Succeeds.emit_bind {m : μ} {g : Unit → Sending ε μ β} {n : ℕ} {b : β} {sent : List μ}
    (h : (g ()).Succeeds n b sent) : (emit m >>= g).Succeeds n b (m :: sent) := by
  intro outcomes hok
  have hfirst : (emit m : Sending ε μ Unit).exec outcomes = (.ok (), [m], outcomes) := rfl
  rw [exec_bind_ok hfirst, h outcomes hok, List.singleton_append]

theorem Succeeds.send_bind {m : μ} {g : Unit → Sending ε μ β} {n : ℕ} {b : β} {sent : List μ}
    (h : (g ()).Succeeds n b sent) : (send m >>= g).Succeeds (n + 1) b (m :: sent) := by
  rw [Nat.add_comm]
  exact (succeeds_send m).bind h

end Sending

end SimpleAsset.Library
