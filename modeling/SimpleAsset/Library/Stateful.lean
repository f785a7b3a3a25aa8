import Mathlib.Data.Nat.Notation
import Mathlib.Tactic.Common

/-! Computations that change a state and may fail, where a failure leaves the state as it is by
then: their results and their pre- and postconditions. -/
namespace SimpleAsset.Library
variable {σ ε α β : Type}

abbrev Stateful (σ ε : Type) := ExceptT ε (StateM σ)

namespace Stateful

def runOn (f : Stateful σ ε α) (s : σ) : Except ε α × σ := f.run.run s

/-- A step given by its function. -/
def step (f : σ → Except ε α × σ) : Stateful σ ε α := ExceptT.mk f

/-- A result that is read off the state. -/
def reads (f : σ → Except ε α) : Stateful σ ε α := step fun s => (f s, s)

/-- Goes on with the error instead of failing. -/
def attempt (f : Stateful σ ε α) : Stateful σ ε (Except ε α) :=
  step fun s => (.ok (f.runOn s).1, (f.runOn s).2)

/-- Changes the error. -/
def mapError (g : ε → ε) (f : Stateful σ ε α) : Stateful σ ε α :=
  step fun s => ((f.runOn s).1.mapError g, (f.runOn s).2)

section Runs
variable {f : Stateful σ ε α} {g : α → Stateful σ ε β} {s s' s'' : σ} {a : α} {b : β} {e : ε}

@[simp] theorem runOn_pure (a : α) (s : σ) : (pure a : Stateful σ ε α).runOn s = (.ok a, s) := rfl

@[simp] theorem runOn_throw (e : ε) (s : σ) :
    (throw e : Stateful σ ε α).runOn s = (.error e, s) := rfl

@[simp] theorem runOn_step (f : σ → Except ε α × σ) (s : σ) : (step f).runOn s = f s := rfl

@[simp] theorem runOn_reads (f : σ → Except ε α) (s : σ) : (reads f).runOn s = (f s, s) := rfl

@[simp] theorem runOn_attempt (f : Stateful σ ε α) (s : σ) :
    (attempt f).runOn s = (.ok (f.runOn s).1, (f.runOn s).2) := rfl

@[simp] theorem runOn_mapError (h : ε → ε) (f : Stateful σ ε α) (s : σ) :
    (mapError h f).runOn s = ((f.runOn s).1.mapError h, (f.runOn s).2) := rfl

theorem runOn_bind_ok (hf : f.runOn s = (.ok a, s')) : (f >>= g).runOn s = (g a).runOn s' := by
  unfold runOn at *
  simp only [ExceptT.run_bind, StateT.run_bind]
  rw [hf]
  rfl

theorem runOn_bind_error (hf : f.runOn s = (.error e, s')) :
    (f >>= g).runOn s = (.error e, s') := by
  unfold runOn at *
  simp only [ExceptT.run_bind, StateT.run_bind]
  rw [hf]
  rfl

theorem runOn_bind_eq_ok : (f >>= g).runOn s = (.ok b, s'') ↔
    ∃ a s', f.runOn s = (.ok a, s') ∧ (g a).runOn s' = (.ok b, s'') := by
  rcases hf : f.runOn s with ⟨e | a, s'⟩
  · rw [runOn_bind_error hf]
    simp
  · rw [runOn_bind_ok hf]
    simp

end Runs

/-- An invariant of the computation. -/
def Keeps (P : σ → Prop) (f : Stateful σ ε α) : Prop := ∀ s, P s → P (f.runOn s).2

section Rules
variable {P : σ → Prop} {f : Stateful σ ε α}

theorem keeps_pure (a : α) : Keeps P (pure a : Stateful σ ε α) := fun _ hs => hs

theorem keeps_throw (e : ε) : Keeps P (throw e : Stateful σ ε α) := fun _ hs => hs

theorem keeps_reads (r : σ → Except ε α) : Keeps P (reads r) := fun _ hs => hs

theorem Keeps.attempt (h : Keeps P f) : Keeps P (attempt f) := h

theorem Keeps.mapError (h : Keeps P f) (g : ε → ε) : Keeps P (mapError g f) := h

/-- The next computation may rely on what the first one returns. -/
theorem Keeps.bind_of {g : α → Stateful σ ε β} (hf : Keeps P f)
    (hg : ∀ s a s', P s → f.runOn s = (.ok a, s') → P ((g a).runOn s').2) : Keeps P (f >>= g) := by
  intro s hs
  rcases hrun : f.runOn s with ⟨e | a, s'⟩
  · rw [runOn_bind_error hrun]
    simpa only [hrun] using hf s hs
  · rw [runOn_bind_ok hrun]
    exact hg s a s' hs hrun

theorem Keeps.bind {g : α → Stateful σ ε β} (hf : Keeps P f) (hg : ∀ a, Keeps P (g a)) :
    Keeps P (f >>= g) := by
  refine hf.bind_of ?_
  intro s a s' hs hrun
  have hs' := hf s hs
  rw [hrun] at hs'
  exact hg a s' hs'

/-- An invariant that is only needed up to some step. -/
theorem Keeps.bind_weaken {Q : σ → Prop} {g : α → Stateful σ ε β} {s : σ} (hf : Keeps P f)
    (hPQ : ∀ s, P s → Q s)
    (hg : ∀ a s, P s → Q ((g a).runOn s).2) (hs : P s) : Q ((f >>= g).runOn s).2 := by
  have hs' := hf s hs
  rcases hrun : f.runOn s with ⟨e | a, s'⟩
  · rw [runOn_bind_error hrun]
    rw [hrun] at hs'
    exact hPQ s' hs'
  · rw [runOn_bind_ok hrun]
    rw [hrun] at hs'
    exact hg a s' hs'

end Rules

/-- From a state with `P` the computation ends in `Q`, or with an error in `E`. -/
def Ensures (P : σ → Prop) (f : Stateful σ ε α) (Q : α → σ → Prop) (E : σ → Prop) : Prop :=
  ∀ s, P s → (∃ a s', f.runOn s = (.ok a, s') ∧ Q a s') ∨ ∃ e s', f.runOn s = (.error e, s') ∧ E s'

section Triples
variable {P : σ → Prop} {Q Q' : α → σ → Prop} {R : β → σ → Prop} {E : σ → Prop} {f : Stateful σ ε α}
  {g : α → Stateful σ ε β}

theorem Ensures.bind (hf : Ensures P f Q E) (hg : ∀ a, Ensures (Q a) (g a) R E) :
    Ensures P (f >>= g) R E := by
  intro s hs
  rcases hf s hs with ⟨a, s₁, hrun, hQ⟩ | ⟨e, s₁, hrun, hE⟩
  · rw [runOn_bind_ok hrun]
    exact hg a s₁ hQ
  · rw [runOn_bind_error hrun]
    exact Or.inr ⟨e, s₁, rfl, hE⟩

theorem Ensures.post (hf : Ensures P f Q E) (h : ∀ a s, Q a s → Q' a s) : Ensures P f Q' E := by
  intro s hs
  rcases hf s hs with ⟨a, s₁, hrun, hQ⟩ | hE
  · exact Or.inl ⟨a, s₁, hrun, h a s₁ hQ⟩
  · exact Or.inr hE

theorem ensures_pure (a : α) (h : ∀ s, P s → Q a s) : Ensures P (pure a : Stateful σ ε α) Q E :=
  fun s hs => Or.inl ⟨a, s, rfl, h s hs⟩

/-- A result that is read off the state and is there. -/
theorem ensures_reads {r : σ → Except ε α} (h : ∀ s, P s → ∃ a, r s = .ok a ∧ Q a s) :
    Ensures P (reads r) Q E := by
  intro s hs
  obtain ⟨a, ha, hQ⟩ := h s hs
  exact Or.inl ⟨a, s, by rw [runOn_reads, ha], hQ⟩

theorem Ensures.attempt (hf : Ensures P f Q E) : Ensures P (attempt f)
    (fun r s => (∃ a, r = .ok a ∧ Q a s) ∨ ∃ e, r = .error e ∧ E s) (fun _ => False) := by
  intro s hs
  rcases hf s hs with ⟨a, s₁, hrun, hQ⟩ | ⟨e, s₁, hrun, hE⟩
  · exact Or.inl ⟨.ok a, s₁, by rw [runOn_attempt, hrun], Or.inl ⟨a, rfl, hQ⟩⟩
  · exact Or.inl ⟨.error e, s₁, by rw [runOn_attempt, hrun], Or.inr ⟨e, rfl, hE⟩⟩

end Triples

end Stateful

end SimpleAsset.Library
