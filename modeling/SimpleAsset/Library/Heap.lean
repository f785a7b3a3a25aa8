import Mathlib.Data.Nat.Notation
import Mathlib.Tactic.Common

/-! Computations over a heap of objects, which are made one after another and may be changed in
place. -/
namespace SimpleAsset.Library
variable {ε ο α β : Type}

/-- Objects by their addresses. -/
abbrev Heap (ο : Type) := List ο

/-- A computation that fails leaves the heap as it is by then. -/
abbrev HeapM (ε ο : Type) := ExceptT ε (StateM (Heap ο))

namespace HeapM

def runOn (f : HeapM ε ο α) (h : Heap ο) : Except ε α × Heap ο := f.run.run h

/-- A new object. -/
def alloc (o : ο) : HeapM ε ο ℕ := do
  let h ← get
  set (h ++ [o])
  return h.length

/-- The object at an address. -/
def deref (dangling : ε) (a : ℕ) : HeapM ε ο ο := do
  let h ← get
  match h[a]? with
  | none => throw dangling
  | some o => return o

/-- Another content for an object. -/
def put (a : ℕ) (o : ο) : HeapM ε ο Unit := modify (List.set · a o)

@[simp] theorem runOn_pure (a : α) (h : Heap ο) : (pure a : HeapM ε ο α).runOn h = (.ok a, h) := rfl

@[simp] theorem runOn_throw (e : ε) (h : Heap ο) :
    (throw e : HeapM ε ο α).runOn h = (.error e, h) := rfl

@[simp] theorem runOn_alloc (o : ο) (h : Heap ο) :
    (alloc o : HeapM ε ο ℕ).runOn h = (.ok h.length, h ++ [o]) := rfl

@[simp] theorem runOn_put (a : ℕ) (o : ο) (h : Heap ο) :
    (put a o : HeapM ε ο Unit).runOn h = (.ok (), h.set a o) := rfl

theorem runOn_get (h : Heap ο) : (get : HeapM ε ο (Heap ο)).runOn h = (.ok h, h) := rfl

theorem runOn_bind_ok {f : HeapM ε ο α} {h h' : Heap ο} {a : α} (hf : f.runOn h = (.ok a, h'))
    (g : α → HeapM ε ο β) :
    (f >>= g).runOn h = (g a).runOn h' := by
  unfold runOn at *
  simp only [ExceptT.run_bind, StateT.run_bind]
  rw [hf]
  rfl

theorem runOn_bind_error {f : HeapM ε ο α} {h h' : Heap ο} {e : ε} (hf : f.runOn h = (.error e, h'))
    (g : α → HeapM ε ο β) : (f >>= g).runOn h = (.error e, h') := by
  unfold runOn at *
  simp only [ExceptT.run_bind, StateT.run_bind]
  rw [hf]
  rfl

theorem runOn_deref {h : Heap ο} {a : ℕ} {o : ο} (dangling : ε) (ha : h[a]? = some o) :
    (deref dangling a).runOn h = (.ok o, h) := by
  rw [deref, runOn_bind_ok (runOn_get h)]
  simp [ha]

/-- The computation returns `a` and leaves `h'`. -/
def Gives (f : HeapM ε ο α) (h : Heap ο) (a : α) (h' : Heap ο) : Prop := f.runOn h = (.ok a, h')

theorem gives_pure (a : α) (h : Heap ο) : (pure a : HeapM ε ο α).Gives h a h := rfl

theorem gives_alloc (o : ο) (h : Heap ο) :
    (alloc o : HeapM ε ο ℕ).Gives h h.length (h ++ [o]) := rfl

theorem gives_put (a : ℕ) (o : ο) (h : Heap ο) :
    (put a o : HeapM ε ο Unit).Gives h () (h.set a o) := rfl

theorem gives_deref {h : Heap ο} {a : ℕ} {o : ο} (dangling : ε) (ha : h[a]? = some o) :
    (deref dangling a).Gives h o h := runOn_deref dangling ha

theorem Gives.bind {f : HeapM ε ο α} {g : α → HeapM ε ο β} {h h' h'' : Heap ο} {a : α} {b : β}
    (hf : f.Gives h a h') (hg : (g a).Gives h' b h'') : (f >>= g).Gives h b h'' :=
  (runOn_bind_ok hf g).trans hg

theorem gives_bind_iff {f : HeapM ε ο α} {g : α → HeapM ε ο β} {h h'' : Heap ο} {b : β} :
    (f >>= g).Gives h b h'' ↔ ∃ a h', f.Gives h a h' ∧ (g a).Gives h' b h'' := by
  constructor
  · intro hbind
    rcases hf : f.runOn h with ⟨e | a, h'⟩
    · rw [Gives, runOn_bind_error hf] at hbind
      cases hbind
    · rw [Gives, runOn_bind_ok hf] at hbind
      exact ⟨a, h', hf, hbind⟩
  · rintro ⟨a, h', hf, hg⟩
    exact hf.bind hg

theorem gives_pure_iff {a b : α} {h h' : Heap ο} :
    (pure a : HeapM ε ο α).Gives h b h' ↔ b = a ∧ h' = h := by
  rw [Gives, runOn_pure, Prod.mk.injEq, Except.ok.injEq]
  constructor
  · rintro ⟨rfl, rfl⟩
    exact ⟨rfl, rfl⟩
  · rintro ⟨rfl, rfl⟩
    exact ⟨rfl, rfl⟩

theorem not_gives_throw {e : ε} {a : α} {h h' : Heap ο} :
    ¬ (throw e : HeapM ε ο α).Gives h a h' := by
  intro hgives
  rw [Gives, runOn_throw] at hgives
  cases hgives

theorem gives_deref_iff {dangling : ε} {a : ℕ} {o : ο} {h h' : Heap ο} :
    (deref dangling a).Gives h o h' ↔ h[a]? = some o ∧ h' = h := by
  rcases ha : h[a]? with _ | p
  · rw [deref, gives_bind_iff]
    constructor
    · rintro ⟨heap, h₁, hget, hmatch⟩
      obtain ⟨rfl, rfl⟩ : heap = h ∧ h₁ = h := by
        rw [Gives, runOn_get, Prod.mk.injEq, Except.ok.injEq] at hget
        exact ⟨hget.1.symm, hget.2.symm⟩
      rw [ha] at hmatch
      exact absurd hmatch not_gives_throw
    · rintro ⟨hnone, -⟩
      cases hnone
  · rw [Gives, runOn_deref dangling ha, Prod.mk.injEq, Except.ok.injEq, Option.some.injEq]
    constructor
    · rintro ⟨rfl, rfl⟩
      exact ⟨rfl, rfl⟩
    · rintro ⟨rfl, rfl⟩
      exact ⟨rfl, rfl⟩

end HeapM

/-- Every object of the first heap is still there with its content. -/
def Kept (h h' : Heap ο) : Prop := ∀ (a : ℕ) (o : ο), h[a]? = some o → h'[a]? = some o

section Kept
variable {h h' h'' : Heap ο}

theorem Kept.refl (h : Heap ο) : Kept h h := fun _ _ ha => ha

theorem Kept.trans (h₁ : Kept h h') (h₂ : Kept h' h'') : Kept h h'' :=
  fun a o ha => h₂ a o (h₁ a o ha)

theorem kept_append (h rest : Heap ο) : Kept h (h ++ rest) := by
  intro a o ha
  obtain ⟨hlt, -⟩ := List.getElem?_eq_some_iff.mp ha
  rw [List.getElem?_append_left hlt, ha]

theorem Kept.append (hkept : Kept h h') (rest : Heap ο) : Kept h (h' ++ rest) :=
  hkept.trans (kept_append h' rest)

theorem Kept.length_le (hkept : Kept h h') : h.length ≤ h'.length := by
  by_contra hnot
  have hlt : h'.length < h.length := by omega
  have hmem := hkept h'.length h[h'.length] (List.getElem?_eq_getElem hlt)
  rw [List.getElem?_eq_none (Nat.le_refl _)] at hmem
  cases hmem

/-- Objects made later may change. -/
theorem Kept.set (hkept : Kept h h') {a : ℕ} (ha : h.length ≤ a) (o : ο) : Kept h (h'.set a o) := by
  intro b p hb
  obtain ⟨hlt, -⟩ := List.getElem?_eq_some_iff.mp hb
  rw [List.getElem?_set_ne (by omega)]
  exact hkept b p hb

end Kept

namespace HeapM

/-- Whatever the computation does, the objects of `h₀` keep their contents; what it returns
satisfies `Q`. -/
def Spares (h₀ : Heap ο) (f : HeapM ε ο α) (Q : α → Prop) : Prop :=
  ∀ h, Kept h₀ h → Kept h₀ (f.runOn h).2 ∧ ∀ a, (f.runOn h).1 = .ok a → Q a

section Spares
variable {h₀ : Heap ο} {f : HeapM ε ο α} {g : α → HeapM ε ο β} {P Q : α → Prop}

theorem spares_pure {a : α} (h : Q a) : Spares h₀ (pure a : HeapM ε ο α) Q := by
  intro heap hkept
  refine ⟨hkept, ?_⟩
  rintro b hb
  cases hb
  exact h

theorem spares_throw (e : ε) : Spares h₀ (throw e : HeapM ε ο α) Q := by
  intro heap hkept
  refine ⟨hkept, ?_⟩
  rintro b hb
  cases hb

/-- A new object has an address beyond the old ones. -/
theorem spares_alloc (o : ο) : Spares h₀ (alloc o : HeapM ε ο ℕ) (h₀.length ≤ ·) := by
  intro heap hkept
  refine ⟨hkept.append [o], ?_⟩
  rintro b hb
  cases hb
  exact hkept.length_le

theorem spares_put {a : ℕ} (ha : h₀.length ≤ a) (o : ο) :
    Spares h₀ (put a o : HeapM ε ο Unit) fun _ => True :=
  fun _ hkept => ⟨hkept.set ha o, fun _ _ => trivial⟩

theorem spares_get : Spares h₀ (get : HeapM ε ο (Heap ο)) fun _ => True :=
  fun _ hkept => ⟨hkept, fun _ _ => trivial⟩

theorem Spares.bind {R : β → Prop} (hf : Spares h₀ f P) (hg : ∀ a, P a → Spares h₀ (g a) R) :
    Spares h₀ (f >>= g) R := by
  intro heap hkept
  obtain ⟨hmid, hpost⟩ := hf heap hkept
  rcases hrun : f.runOn heap with ⟨e | a, h'⟩
  · rw [runOn_bind_error hrun]
    rw [hrun] at hmid
    refine ⟨hmid, ?_⟩
    rintro b hb
    cases hb
  · rw [runOn_bind_ok hrun]
    rw [hrun] at hmid hpost
    exact hg a (hpost a rfl) h' hmid

theorem spares_deref (dangling : ε) (a : ℕ) : Spares h₀ (deref dangling a) fun _ => True := by
  refine spares_get.bind ?_
  intro heap _
  cases heap[a]? with
  | none => exact spares_throw dangling
  | some o => exact spares_pure trivial

theorem spares_mapM {f : α → HeapM ε ο β} (h : ∀ a, Spares h₀ (f a) fun _ => True) (as : List α) :
    Spares h₀ (as.mapM f) fun _ => True := by
  induction as with
  | nil => exact spares_pure trivial
  | cons a as ih =>
    rw [List.mapM_cons]
    exact (h a).bind fun b _ => ih.bind fun bs _ => spares_pure trivial

theorem spares_foldlM {f : β → α → HeapM ε ο β} (h : ∀ b a, Spares h₀ (f b a) fun _ => True) (b : β)
    (as : List α) :
    Spares h₀ (as.foldlM f b) fun _ => True := by
  induction as generalizing b with
  | nil => exact spares_pure trivial
  | cons a as ih =>
    rw [List.foldlM_cons]
    exact (h b a).bind fun b' _ => ih b'

theorem Spares.kept (h : Spares h₀ f Q) : Kept h₀ (f.runOn h₀).2 := (h h₀ (Kept.refl h₀)).1

theorem Gives.kept {h h' : Heap ο} {a : α} (hgives : f.Gives h a h') (hspares : Spares h f Q) :
    Kept h h' := by
  have hkept := hspares.kept
  rwa [hgives] at hkept

end Spares

end HeapM

end SimpleAsset.Library
