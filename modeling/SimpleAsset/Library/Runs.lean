import Mathlib.Data.List.Infix
import Mathlib.Data.Nat.Notation
import SimpleAsset.Library.Fallible

/-! Properties of every state along a run, reduced to one step. -/
namespace SimpleAsset.Library
variable {σ ε : Type}

/-- If steps that meet `C` keep `P`, then `P` holds all along a run whose steps meet `C`. -/
theorem forall_prefix_of_steps {P : List ε → Prop} {C : List ε → ε → Prop} (h0 : P [])
    (hstep : ∀ pre e, P pre → C pre e → P (pre ++ [e])) {es : List ε}
    (hC : ∀ pre e, pre ++ [e] <+: es → C pre e) (pre : List ε) : pre <+: es → P pre := by
  induction pre using List.reverseRecOn with
  | nil => exact fun _ => h0
  | append_singleton pre e ih =>
    intro hpre
    have hP := ih ((List.prefix_append pre [e]).trans hpre)
    exact hstep pre e hP (hC pre e hpre)

/-- A condition on every step of a run: on the first, and on those that follow it. -/
theorem forall_steps_cons {step : σ → ε → σ} {C : σ → ε → Prop} {s : σ} {e : ε}
    {es : List ε} (h : C s e)
    (hrest : ∀ pre e', pre ++ [e'] <+: es → C (pre.foldl step (step s e)) e')
    (pre : List ε) (e' : ε) (hpre : pre ++ [e'] <+: e :: es) : C (pre.foldl step s) e' := by
  cases pre with
  | nil =>
    obtain ⟨rfl, -⟩ := List.cons_prefix_cons.mp hpre
    exact h
  | cons e₁ pre =>
    obtain ⟨rfl, hpre'⟩ := List.cons_prefix_cons.mp hpre
    exact hrest pre e' hpre'

theorem forall_steps_cons_iff {step : σ → ε → σ} {C : σ → ε → Prop} {s : σ} {e : ε} {es : List ε} :
    (∀ pre e', pre ++ [e'] <+: e :: es → C (pre.foldl step s) e') ↔
      C s e ∧ ∀ pre e', pre ++ [e'] <+: es → C (pre.foldl step (step s e)) e' := by
  constructor
  · intro h
    refine ⟨h [] e (List.cons_prefix_cons.mpr ⟨rfl, List.nil_prefix⟩), fun pre e' hpre => ?_⟩
    exact h (e :: pre) e' (List.cons_prefix_cons.mpr ⟨rfl, hpre⟩)
  · rintro ⟨h, hrest⟩
    exact forall_steps_cons h hrest

theorem forall_steps_nil {step : σ → ε → σ} {C : σ → ε → Prop} {s : σ} (pre : List ε) (e : ε)
    (hpre : pre ++ [e] <+: []) : C (pre.foldl step s) e := by
  simp at hpre

/-- If a step keeps `P` exactly when it meets `C`, then `P` holds all along a run exactly when
every step of the run meets `C`. -/
theorem forall_prefix_iff {P : List ε → Prop} {C : List ε → ε → Prop} (h0 : P [])
    (hstep : ∀ pre e, P pre → (P (pre ++ [e]) ↔ C pre e)) (es : List ε) :
    (∀ pre, pre <+: es → P pre) ↔ ∀ pre e, pre ++ [e] <+: es → C pre e := by
  constructor
  · intro h pre e hpre
    exact (hstep pre e (h pre ((List.prefix_append pre [e]).trans hpre))).mp (h _ hpre)
  · intro h
    exact forall_prefix_of_steps h0 (fun pre e hP => (hstep pre e hP).mpr) h

/-- What does not hold before a run and holds after it was brought about by a step. -/
theorem exists_step_of_foldl {step : σ → ε → σ} {P : σ → Prop} {s : σ} {es : List ε} (h0 : ¬ P s)
    (h : P (es.foldl step s)) :
    ∃ pre e, pre ++ [e] <+: es ∧ ¬ P (pre.foldl step s) ∧ P (step (pre.foldl step s) e) := by
  induction es using List.reverseRecOn with
  | nil => exact absurd h h0
  | append_singleton es e ih =>
    by_cases hlast : P (es.foldl step s)
    · obtain ⟨pre, e', hpre, hbefore, hafter⟩ := ih hlast
      exact ⟨pre, e', hpre.trans (List.prefix_append es [e]), hbefore, hafter⟩
    · rw [List.foldl_concat] at h
      exact ⟨es, e, List.prefix_refl _, hlast, h⟩

section Registers
variable {α : Type} (step : σ → ε → σ) (sets : σ → ε → Option α) (s₀ : σ)

/-- `a` is what a register was set to by an event of the run, and no event set it after that. -/
def LastSet (es : List ε) (a : α) : Prop :=
  ∃ pre e post, es = pre ++ e :: post ∧ sets (pre.foldl step s₀) e = some a ∧
    ∀ mid e', mid ++ [e'] <+: post → sets ((pre ++ e :: mid).foldl step s₀) e' = none

variable {step sets s₀} {es : List ε} {e : ε} {a : α}

/-- The last event set the register, or it left what those before it set. -/
theorem lastSet_concat_iff : LastSet step sets s₀ (es ++ [e]) a ↔
    sets (es.foldl step s₀) e = some a ∨
    (sets (es.foldl step s₀) e = none ∧ LastSet step sets s₀ es a) := by
  constructor
  · rintro ⟨pre, e₁, post, heq, hset, hlater⟩
    rcases List.eq_nil_or_concat' post with rfl | ⟨post, e₂, rfl⟩
    · obtain ⟨rfl, hlast⟩ := List.append_inj' heq rfl
      rw [List.singleton_injective hlast]
      exact Or.inl hset
    · rw [← List.cons_append, ← List.append_assoc] at heq
      obtain ⟨rfl, hlast⟩ := List.append_inj' heq rfl
      rw [List.singleton_injective hlast]
      refine Or.inr ⟨hlater post e₂ (List.prefix_refl _), pre, e₁, post, rfl, hset, ?_⟩
      intro mid e' hmid
      exact hlater mid e' (hmid.trans (List.prefix_append _ _))
  · rintro (hset | ⟨hnone, pre, e₁, post, rfl, hset, hlater⟩)
    · refine ⟨es, e, [], rfl, hset, ?_⟩
      intro mid e' hmid
      simp at hmid
    · refine ⟨pre, e₁, post ++ [e], by simp, hset, ?_⟩
      intro mid e' hmid
      rcases List.prefix_concat_iff.mp hmid with heq | hbefore
      · obtain ⟨rfl, hlast⟩ := List.append_inj' heq rfl
        rwa [List.singleton_injective hlast]
      · exact hlater mid e' hbefore

theorem lastSet_map_iff {β : Type} {f : α → β} {b : β} :
    LastSet step (fun s e => (sets s e).map f) s₀ es b ↔ ∃ a, f a = b ∧
      LastSet step sets s₀ es a := by
  simp only [LastSet, Option.map_eq_some_iff, Option.map_eq_none_iff]
  constructor
  · rintro ⟨pre, e, post, hes, ⟨a, hset, hf⟩, hlater⟩
    exact ⟨a, hf, pre, e, post, hes, hset, hlater⟩
  · rintro ⟨a, hf, pre, e, post, hes, hset, hlater⟩
    exact ⟨pre, e, post, hes, ⟨a, hset, hf⟩, hlater⟩

/-- Registers that are empty at the start and that only events set hold what they were set to last,
where `R` tells what a state holds in them. -/
theorem exists_registers_foldl {κ : Type} (R : σ → (κ → Option α) → Prop)
    (sets : κ → σ → ε → Option (Option α)) {C : ε → Prop} (h0 : R s₀ fun _ => none)
    (hstep : ∀ s r e, C e → R s r → R (step s e) fun k => (sets k s e).getD (r k))
    (hC : ∀ e ∈ es, C e) :
    ∃ r, R (es.foldl step s₀) r ∧ ∀ k a, r k = some a ↔ LastSet step (sets k) s₀ es (some a) := by
  induction es using List.reverseRecOn with
  | nil =>
    refine ⟨fun _ => none, h0, fun k a => iff_of_false (fun h => by cases h) ?_⟩
    rintro ⟨pre, e, post, heq, -⟩
    simp at heq
  | append_singleton es e ih =>
    obtain ⟨r, hr, hlast⟩ := ih fun e' he' => hC e' (List.mem_append_left _ he')
    have hnext := hstep (es.foldl step s₀) r e
      (hC e (List.mem_append_right _ (List.mem_singleton_self e))) hr
    refine ⟨_, by rw [List.foldl_concat]; exact hnext, fun k a => ?_⟩
    rw [lastSet_concat_iff]
    rcases sets k (es.foldl step s₀) e with _ | b
    · simpa using hlast k a
    · simp

end Registers

section Machine
variable {φ ο : Type} (step : σ → ε → Except φ (σ × List ο))

/-- State and output of a machine after these events, or what stopped it. -/
def runSteps (s : σ) : List ε → Except φ (σ × List ο)
  | [] => .ok (s, [])
  | e :: es => do
    let (s, out) ← step s e
    let (s, rest) ← runSteps s es
    return (s, out ++ rest)

/-- Every step of the run starts in a state that allows it. -/
def EveryStep (C : σ → ε → Prop) (s₀ : σ) (es : List ε) : Prop :=
  ∀ pre e s out, pre ++ [e] <+: es → runSteps step s₀ pre = .ok (s, out) → C s e

variable {step} {s₀ s : σ} {e : ε} {es : List ε} {out : List ο}

theorem runSteps_cons_iff : runSteps step s₀ (e :: es) = .ok (s, out) ↔ ∃ s₁ out₁ out₂,
    step s₀ e = .ok (s₁, out₁) ∧ runSteps step s₁ es = .ok (s, out₂) ∧ out = out₁ ++ out₂ := by
  rw [runSteps, except_bind_eq_ok]
  constructor
  · intro ⟨⟨s₁, out₁⟩, h₁, h⟩
    obtain ⟨⟨s₂, out₂⟩, h₂, h⟩ := except_bind_eq_ok.mp h
    simp only [except_pure, Except.ok.injEq, Prod.mk.injEq] at h
    obtain ⟨rfl, rfl⟩ := h
    exact ⟨s₁, out₁, out₂, h₁, h₂, rfl⟩
  · intro ⟨s₁, out₁, out₂, h₁, h₂, hout⟩
    exact ⟨(s₁, out₁), h₁, except_bind_eq_ok.mpr ⟨(s, out₂), h₂, by rw [hout]; rfl⟩⟩

theorem runSteps_concat_iff : runSteps step s₀ (es ++ [e]) = .ok (s, out) ↔ ∃ s₁ out₁ out₂,
    runSteps step s₀ es = .ok (s₁, out₁) ∧ step s₁ e = .ok (s, out₂) ∧ out = out₁ ++ out₂ := by
  induction es generalizing s₀ out with
  | nil =>
    rw [List.nil_append, runSteps_cons_iff]
    simp [runSteps]
  | cons e' es ih =>
    rw [List.cons_append, runSteps_cons_iff]
    simp only [ih, runSteps_cons_iff]
    constructor
    · intro ⟨s₁, out₁, out₂, h₁, ⟨s₂, out₃, out₄, h₂, h₃, hout₂⟩, hout⟩
      exact ⟨s₂, out₁ ++ out₃, out₄, ⟨s₁, out₁, out₃, h₁, h₂, rfl⟩, h₃, by simp [hout, hout₂]⟩
    · intro ⟨s₂, _, out₄, ⟨s₁, out₁, out₃, h₁, h₂, rfl⟩, h₃, hout⟩
      exact ⟨s₁, out₁, out₃ ++ out₄, h₁, ⟨s₂, out₃, out₄, h₂, h₃, rfl⟩, by simp [hout]⟩

theorem exists_runSteps_of_prefix {pre : List ε} {r : σ × List ο} (hpre : pre <+: es)
    (h : runSteps step s₀ es = .ok r) : ∃ s out, runSteps step s₀ pre = .ok (s, out) := by
  induction pre generalizing s₀ es r with
  | nil => exact ⟨s₀, [], rfl⟩
  | cons e pre ih =>
    obtain ⟨es, rfl⟩ := hpre
    obtain ⟨s₁, out₁, out₂, hfirst, hrest, -⟩ := runSteps_cons_iff.mp h
    obtain ⟨s, out, hrun⟩ := ih (List.prefix_append pre es) hrest
    exact ⟨s, out₁ ++ out, runSteps_cons_iff.mpr ⟨s₁, out₁, out, hfirst, hrun, rfl⟩⟩

/-- A run that stops at its last event is stopped by that step. -/
theorem step_error_of_runSteps {x : φ} (hpre : runSteps step s₀ es = .ok (s, out))
    (h : runSteps step s₀ (es ++ [e]) = .error x) : step s e = .error x := by
  induction es generalizing s₀ out with
  | nil =>
    rw [runSteps, Except.ok.injEq, Prod.mk.injEq] at hpre
    rw [← hpre.1]
    rcases hstep : step s₀ e with y | ⟨s', out'⟩
    · simpa [runSteps, hstep] using h
    · simp [runSteps, hstep] at h
  | cons e' es ih =>
    obtain ⟨s₁, out₁, out₂, hfirst, hrest, -⟩ := runSteps_cons_iff.mp hpre
    apply ih hrest
    rw [List.cons_append, runSteps, hfirst, except_ok_bind] at h
    rcases hrun : runSteps step s₁ (es ++ [e]) with y | ⟨s', out'⟩
    · simpa [hrun] using h
    · simp [hrun] at h

theorem EveryStep.of_append {C : σ → ε → Prop} {es' : List ε}
    (h : EveryStep step C s₀ (es ++ es')) :
    EveryStep step C s₀ es :=
  fun pre e s out hpre => h pre e s out (hpre.trans (List.prefix_append es es'))

theorem EveryStep.tail {C : σ → ε → Prop} (h : EveryStep step C s₀ (e :: es))
    (hstep : step s₀ e = .ok (s, out)) :
    EveryStep step C s es := by
  intro pre e' s' out' hpre hrun
  refine h (e :: pre) e' s' (out ++ out') (List.cons_prefix_cons.mpr ⟨rfl, hpre⟩) ?_
  exact runSteps_cons_iff.mpr ⟨s, out, out', hstep, hrun, rfl⟩

theorem everyStep_concat_iff {C : σ → ε → Prop} (hrun : runSteps step s₀ es = .ok (s, out)) :
    EveryStep step C s₀ (es ++ [e]) ↔ EveryStep step C s₀ es ∧ C s e := by
  constructor
  · intro h
    exact ⟨h.of_append, h es e s out (List.prefix_refl _) hrun⟩
  · intro ⟨h, he⟩ pre e' s' out' hpre hrun'
    rcases List.prefix_concat_iff.mp hpre with heq | hpre'
    · obtain ⟨rfl, hlast⟩ := List.append_inj' heq rfl
      rw [hrun, Except.ok.injEq, Prod.mk.injEq] at hrun'
      rw [← hrun'.1, List.singleton_injective hlast]
      exact he
    · exact h pre e' s' out' hpre' hrun'

theorem everyStep_nil {C : σ → ε → Prop} : EveryStep step C s₀ [] := by
  intro pre e s out hpre
  simp at hpre

theorem EveryStep.cons {C : σ → ε → Prop} (h : C s₀ e)
    (htail : ∀ s out, step s₀ e = .ok (s, out) → EveryStep step C s es) :
    EveryStep step C s₀ (e :: es) := by
  intro pre e' s out hpre hrun
  cases pre with
  | nil =>
    obtain ⟨rfl, -⟩ := List.cons_prefix_cons.mp hpre
    rw [runSteps, Except.ok.injEq, Prod.mk.injEq] at hrun
    rwa [← hrun.1]
  | cons e₁ pre =>
    obtain ⟨rfl, hpre'⟩ := List.cons_prefix_cons.mp hpre
    obtain ⟨s₁, out₁, out₂, hstep, hrun', -⟩ := runSteps_cons_iff.mp hrun
    exact htail s₁ out₁ hstep pre e' s out₂ hpre' hrun'

/-- What holds at the start and is kept by every allowed step holds after the run; it may speak of
the events so far and of the output so far. -/
theorem runSteps_invariant {C : σ → ε → Prop} {P : List ε → List ο → σ → Prop} (h0 : P [] [] s₀)
    (hstep : ∀ pre out s e s' out', P pre out s → C s e → step s e = .ok (s', out') →
      P (pre ++ [e]) (out ++ out') s')
    (hC : EveryStep step C s₀ es) (hrun : runSteps step s₀ es = .ok (s, out)) : P es out s := by
  induction es using List.reverseRecOn generalizing s out with
  | nil =>
    rw [runSteps, Except.ok.injEq, Prod.mk.injEq] at hrun
    obtain ⟨rfl, rfl⟩ := hrun
    exact h0
  | append_singleton pre e ih =>
    obtain ⟨s₁, out₁, out₂, hpre, he, rfl⟩ := runSteps_concat_iff.mp hrun
    exact hstep _ _ _ _ _ _ (ih hC.of_append hpre) (hC pre e s₁ out₁ (List.prefix_refl _) hpre) he

/-- If a step of a state with the invariant `J` that is not allowed leads out of `P`, while the
others keep `J`, then `P` holds all along a run exactly when every step of it is allowed. -/
theorem forall_runSteps_iff {C : σ → ε → Prop} {P J : σ → Prop} (h0 : J s₀) (hJ : ∀ s, J s → P s)
    (hkeep : ∀ s e s' out, J s → C s e → step s e = .ok (s', out) → J s')
    (hbreak : ∀ s e, J s → ¬ C s e → ∃ s' out, step s e = .ok (s', out) ∧ ¬ P s') (es : List ε) :
    (∀ pre s out, pre <+: es → runSteps step s₀ pre = .ok (s, out) → P s) ↔
    EveryStep step C s₀ es := by
  have hrun : ∀ pre s out, EveryStep step C s₀ pre → runSteps step s₀ pre = .ok (s, out) → J s := by
    intro pre s out hC hpre
    exact runSteps_invariant (P := fun _ _ s => J s) h0
      (fun _ _ s e s' out' hs hc => hkeep s e s' out' hs hc) hC hpre
  constructor
  · intro h
    induction es using List.reverseRecOn with
    | nil => exact everyStep_nil
    | append_singleton es e ih =>
      have hes := ih fun pre s out hpre => h pre s out (hpre.trans (List.prefix_append es [e]))
      intro pre e' s out hpre hpreRun
      rcases List.prefix_concat_iff.mp hpre with heq | hpre'
      · obtain ⟨rfl, hlast⟩ := List.append_inj' heq rfl
        by_contra hc
        obtain ⟨s', out', hstep, hout⟩ := hbreak s e' (hrun _ s out hes hpreRun) hc
        rw [hlast] at hpre
        refine hout (h _ s' (out ++ out') hpre ?_)
        rw [← hlast]
        exact runSteps_concat_iff.mpr ⟨s, out, out', hpreRun, hstep, rfl⟩
      · exact hes pre e' s out hpre' hpreRun
  · intro h pre s out hpre hpreRun
    obtain ⟨rest, rfl⟩ := hpre
    exact hJ s (hrun pre s out h.of_append hpreRun)

/-- The same with the output so far, where a step that is not allowed may also stop the machine. -/
theorem forall_exists_runSteps_iff {C : σ → ε → Prop} {P J : List ο → σ → Prop} (h0 : J [] s₀)
    (hJ : ∀ out s, J out s → P out s)
    (hkeep : ∀ out s e, J out s → C s e → ∃ s' out', step s e = .ok (s', out') ∧ J (out ++ out') s')
    (hbreak : ∀ out s e s' out', J out s → ¬ C s e → step s e = .ok (s', out') →
      ¬ P (out ++ out') s') (es : List ε) :
    (∀ pre, pre <+: es → ∃ s out, runSteps step s₀ pre = .ok (s, out) ∧ P out s) ↔
    EveryStep step C s₀ es := by
  have hrun : ∀ pre, EveryStep step C s₀ pre → ∃ s out, runSteps step s₀ pre = .ok (s, out) ∧
      J out s := by
    intro pre hC
    induction pre using List.reverseRecOn with
    | nil => exact ⟨s₀, [], rfl, h0⟩
    | append_singleton pre e ih =>
      obtain ⟨s, out, hpre, hs⟩ := ih hC.of_append
      obtain ⟨s', out', hstep, hs'⟩ := hkeep out s e hs (hC pre e s out (List.prefix_refl _) hpre)
      exact ⟨s', out ++ out', runSteps_concat_iff.mpr ⟨s, out, out', hpre, hstep, rfl⟩, hs'⟩
  constructor
  · intro h
    induction es using List.reverseRecOn with
    | nil => exact everyStep_nil
    | append_singleton es e ih =>
      have hes := ih fun pre hpre => h pre (hpre.trans (List.prefix_append es [e]))
      obtain ⟨s, out, hesRun, hs⟩ := hrun es hes
      rw [everyStep_concat_iff hesRun]
      refine ⟨hes, ?_⟩
      by_contra hc
      obtain ⟨s', out', hlast, hP⟩ := h _ (List.prefix_refl _)
      obtain ⟨s₁, out₁, out₂, hfirst, hstep, rfl⟩ := runSteps_concat_iff.mp hlast
      rw [hesRun, Except.ok.injEq, Prod.mk.injEq] at hfirst
      obtain ⟨rfl, rfl⟩ := hfirst
      exact hbreak out s e s' out₂ hs hc hstep hP
  · intro h pre hpre
    obtain ⟨rest, rfl⟩ := hpre
    obtain ⟨s, out, hpreRun, hs⟩ := hrun pre h.of_append
    exact ⟨s, out, hpreRun, hJ out s hs⟩

/-- A run is not stopped if no step is stopped in a state with the invariant. -/
theorem exists_runSteps {P : σ → Prop} (h0 : P s₀)
    (hstep : ∀ s e, P s → ∃ s' out, step s e = .ok (s', out) ∧ P s') (es : List ε) :
    ∃ r, runSteps step s₀ es = .ok r := by
  induction es generalizing s₀ with
  | nil => exact ⟨_, rfl⟩
  | cons e es ih =>
    obtain ⟨s₁, out₁, hfirst, h₁⟩ := hstep s₀ e h0
    obtain ⟨⟨s, out₂⟩, hrest⟩ := ih h₁
    exact ⟨_, runSteps_cons_iff.mpr ⟨s₁, out₁, out₂, hfirst, hrest, rfl⟩⟩

/-- A machine that takes every event runs through any of them, and what is kept by every allowed
step holds all along. -/
theorem exists_run_invariant {C : σ → ε → Prop} {P : List ο → σ → Prop}
    (htotal : ∀ s e, ∃ s' out, step s e = .ok (s', out)) (h0 : P [] s₀)
    (hstep : ∀ out s e s' out', P out s → C s e → step s e = .ok (s', out') → P (out ++ out') s')
    (hC : EveryStep step C s₀ es) :
    ∀ pre, pre <+: es → ∃ s out, runSteps step s₀ pre = .ok (s, out) ∧ P out s := by
  rintro pre ⟨rest, rfl⟩
  have hruns : ∃ r, runSteps step s₀ pre = .ok r := by
    refine exists_runSteps (P := fun _ => True) trivial ?_ pre
    intro s e _
    obtain ⟨s', out, he⟩ := htotal s e
    exact ⟨s', out, he, trivial⟩
  obtain ⟨⟨s, out⟩, hrun⟩ := hruns
  have hinv : P out s :=
    runSteps_invariant (P := fun _ out s => P out s) h0 (fun _ => hstep) hC.of_append hrun
  exact ⟨s, out, hrun, hinv⟩

/-- A machine that refuses events and stays as it is: its state after these events, and those it
accepted. -/
def submitSteps (step : σ → ε → Except φ (σ × List ο)) (s : σ) : List ε → σ × List ε
  | [] => (s, [])
  | e :: es =>
    match step s e with
    | .ok (s', _) =>
      let (t, accepted) := submitSteps step s' es
      (t, e :: accepted)
    | .error _ => submitSteps step s es

/-- The accepted events alone make up a run to the same state. -/
theorem exists_runSteps_submitSteps (s₀ : σ) (es : List ε) :
    ∃ out, runSteps step s₀ (submitSteps step s₀ es).2 = .ok ((submitSteps step s₀ es).1, out) := by
  induction es generalizing s₀ with
  | nil => exact ⟨[], rfl⟩
  | cons e es ih =>
    unfold submitSteps
    rcases hstep : step s₀ e with x | ⟨s₁, out₁⟩
    · exact ih s₀
    · obtain ⟨out, hrest⟩ := ih s₁
      exact ⟨out₁ ++ out, runSteps_cons_iff.mpr ⟨s₁, out₁, out, hstep, hrest, rfl⟩⟩

end Machine

end SimpleAsset.Library
