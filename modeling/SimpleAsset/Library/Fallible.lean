import Mathlib.Data.List.Forall2
import Mathlib.Data.Nat.Notation

/-! Sequencing of fallible computations: the simp set and the inversion rule for `Except`. -/
namespace SimpleAsset.Library
variable {ε α β : Type}

@[simp] theorem except_ok_bind (a : α) (f : α → Except ε β) : (Except.ok a >>= f) = f a := rfl

@[simp] theorem except_error_bind (e : ε) (f : α → Except ε β) :
    ((Except.error e : Except ε α) >>= f) = .error e := rfl

@[simp] theorem except_throw (e : ε) : (throw e : Except ε α) = .error e := rfl

@[simp] theorem except_pure (a : α) : (pure a : Except ε α) = .ok a := rfl

theorem except_bind_eq_ok {x : Except ε α} {f : α → Except ε β} {b : β} :
    x >>= f = .ok b ↔ ∃ a, x = .ok a ∧ f a = .ok b := by
  cases x with
  | error e => simp
  | ok a => simp

theorem except_bind_eq_error {x : Except ε α} {f : α → Except ε β} {e : ε} :
    x >>= f = .error e ↔ x = .error e ∨ ∃ a, x = .ok a ∧ f a = .error e := by
  cases x with
  | error e' => simp
  | ok a => simp

theorem exists_ok_of_isOk {x : Except ε α} (h : x.isOk = true) : ∃ a, x = .ok a := by
  cases x with
  | ok a => exact ⟨a, rfl⟩
  | error e => cases h

/-- A loop that only checks ends well when every round does. -/
theorem forM_eq_ok_iff {l : List α} {f : α → Except ε Unit} {u : Unit} :
    forM l f = .ok u ↔ ∀ x ∈ l, f x = .ok () := by
  induction l with
  | nil => simp [pure, Except.pure]
  | cons x l ih =>
    rw [List.forM_cons, except_bind_eq_ok]
    constructor
    · rintro ⟨⟨⟩, hx, hl⟩ y hy
      rcases List.mem_cons.mp hy with rfl | hy
      · exact hx
      · exact ih.mp hl y hy
    · intro h
      exact ⟨⟨⟩, h x (by simp), ih.mpr fun y hy => h y (by simp [hy])⟩

/-- A loop that only checks ends with the first error. -/
theorem forM_eq_error_iff {l : List α} {f : α → Except ε Unit} {e : ε} : forM l f = .error e ↔
    ∃ before x after, l = before ++ x :: after ∧ (∀ y ∈ before, f y = .ok ()) ∧ f x = .error e := by
  induction l with
  | nil => simp [pure, Except.pure]
  | cons x l ih =>
    rw [List.forM_cons, except_bind_eq_error]
    constructor
    · rintro (hx | ⟨⟨⟩, hx, hl⟩)
      · exact ⟨[], x, l, rfl, by simp, hx⟩
      · obtain ⟨before, y, after, rfl, hbefore, hy⟩ := ih.mp hl
        exact ⟨x :: before, y, after, rfl, by simpa [hx] using hbefore, hy⟩
    · rintro ⟨before, y, after, hl, hbefore, hy⟩
      cases before with
      | nil =>
        obtain ⟨rfl, rfl⟩ := List.cons_eq_cons.mp hl
        exact .inl hy
      | cons z before =>
        obtain ⟨rfl, rfl⟩ := List.cons_eq_cons.mp hl
        exact .inr ⟨⟨⟩, hbefore x (by simp),
          ih.mpr ⟨before, y, after, rfl, fun y hy => hbefore y (by simp [hy]), hy⟩⟩

theorem mapM_eq_ok_map {l : List α} {f : α → Except ε β} {g : α → β}
    (h : ∀ x ∈ l, f x = .ok (g x)) :
    l.mapM f = .ok (l.map g) := by
  induction l with
  | nil => rfl
  | cons x l ih =>
    have hx := h x (by simp)
    have hl := ih fun y hy => h y (by simp [hy])
    simp [hx, hl]

/-- A fold whose every step succeeds succeeds. -/
theorem exists_foldlM {σ : Type} {f : σ → α → Except ε σ} {l : List α}
    (h : ∀ s, ∀ x ∈ l, ∃ s', f s x = .ok s') (s : σ) : ∃ s', l.foldlM f s = .ok s' := by
  induction l generalizing s with
  | nil => exact ⟨s, rfl⟩
  | cons x l ih =>
    obtain ⟨s₁, h₁⟩ := h s x (by simp)
    obtain ⟨s', hs'⟩ := ih (fun s y hy => h s y (by simp [hy])) s₁
    exact ⟨s', by rw [List.foldlM_cons, h₁]; exact hs'⟩

/-- A fold whose steps fail at the bad elements, whatever the state, and always in the same way. -/
theorem foldlM_eq_error_iff {σ : Type} {f : σ → α → Except ε σ} {bad : α → Prop} {e e' : ε}
    (hbad : ∀ s x, bad x → f s x = .error e) (hgood : ∀ s x, ¬ bad x → ∃ s', f s x = .ok s')
    (l : List α) (s : σ) :
    l.foldlM f s = .error e' ↔ e' = e ∧ ∃ x ∈ l, bad x := by
  induction l generalizing s with
  | nil => simp
  | cons x l ih =>
    rw [List.foldlM_cons]
    by_cases hx : bad x
    · simp [hbad s x hx, hx, eq_comm]
    · obtain ⟨s', hs'⟩ := hgood s x hx
      rw [hs', except_ok_bind, ih s']
      simp [hx]

/-- A traversal that succeeds has succeeded at every place. -/
theorem getElem?_of_mapM {l : List α} {f : α → Except ε β} {l' : List β} (h : l.mapM f = .ok l')
    {i : ℕ} {x : α} (hx : l[i]? = some x) : ∃ y, f x = .ok y ∧ l'[i]? = some y := by
  induction l generalizing l' i with
  | nil => simp at hx
  | cons a l ih =>
    rw [List.mapM_cons, except_bind_eq_ok] at h
    obtain ⟨y, hy, h⟩ := h
    obtain ⟨ys, hys, h⟩ := except_bind_eq_ok.mp h
    obtain rfl : y :: ys = l' := Except.ok.inj h
    cases i with
    | zero =>
      obtain rfl : a = x := by simpa using hx
      exact ⟨y, hy, rfl⟩
    | succ i => exact ih hys hx

/-- A traversal in `Option` succeeds when every element does. -/
theorem mapM_eq_some_iff {γ δ : Type} {g : γ → Option δ} {l : List γ} {l' : List δ} :
    l.mapM g = some l' ↔ l.map g = l'.map some := by
  induction l generalizing l' with
  | nil => cases l' <;> simp
  | cons x l ih =>
    rw [List.mapM_cons]
    rcases hx : g x with _ | y
    · cases l' <;> simp [hx]
    · rcases hl : l.mapM g with _ | ys
      · cases l' with
        | nil => simp
        | cons z zs =>
          have hne : ¬ l.map g = zs.map some := by
            rw [← ih, hl]
            simp
          simp [hx, hne]
      · cases l' with
        | nil => simp
        | cons z zs =>
          have hmap : l.map g = ys.map some := ih.mp hl
          simp [hx, hmap, List.map_inj_right]

theorem forall₂_of_mapM_eq_some {γ δ : Type} {g : γ → Option δ} {l : List γ} {l' : List δ}
    (h : l.mapM g = some l') : List.Forall₂ (fun x y => g x = some y) l l' := by
  rw [← List.forall₂_map_left_iff (f := g) (R := fun x y => x = some y),
    ← List.forall₂_map_right_iff (f := some) (R := fun x y => x = y), mapM_eq_some_iff.mp h]
  exact List.forall₂_refl _

theorem exists_mapM_eq_some {γ δ : Type} {g : γ → Option δ} {l : List γ}
    (h : ∀ x ∈ l, ∃ y, g x = some y) :
    ∃ l', l.mapM g = some l' := by
  induction l with
  | nil => exact ⟨[], rfl⟩
  | cons x l ih =>
    obtain ⟨y, hy⟩ := h x (by simp)
    obtain ⟨ys, hys⟩ := ih fun x' hx' => h x' (by simp [hx'])
    exact ⟨y :: ys, by simp [hy, hys]⟩

/-- A traversal fails as its first failing element does. -/
theorem mapM_eq_error {l before after : List α} {f : α → Except ε β} {x : α} {e : ε}
    (hl : l = before ++ x :: after)
    (hbefore : ∀ y ∈ before, ∃ z, f y = .ok z) (hx : f x = .error e) : l.mapM f = .error e := by
  subst hl
  induction before with
  | nil => rw [List.nil_append, List.mapM_cons, hx, except_error_bind]
  | cons y before ih =>
    obtain ⟨z, hz⟩ := hbefore y (by simp)
    have hrest := ih fun y' hy' => hbefore y' (by simp [hy'])
    rw [List.cons_append, List.mapM_cons, hz, except_ok_bind, hrest, except_error_bind]

/-- A traversal succeeds at every element, or there is a first one at which it fails. -/
theorem mapM_cases (l : List α) (f : α → Except ε β) :
    (∀ x ∈ l, ∃ y, f x = .ok y) ∨
      ∃ before x after e, l = before ++ x :: after ∧ (∀ y ∈ before, ∃ z, f y = .ok z) ∧
        f x = .error e := by
  induction l with
  | nil => exact .inl (by simp)
  | cons x l ih =>
    rcases hx : f x with e | y
    · exact .inr ⟨[], x, l, e, rfl, by simp, hx⟩
    · rcases ih with hall | ⟨before, x', after, e, rfl, hbefore, hx'⟩
      · left
        intro x' hx'
        rcases List.mem_cons.mp hx' with rfl | hmem
        · exact ⟨y, hx⟩
        · exact hall x' hmem
      · refine .inr ⟨x :: before, x', after, e, rfl, ?_, hx'⟩
        intro y' hy'
        rcases List.mem_cons.mp hy' with rfl | hmem
        · exact ⟨y, hx⟩
        · exact hbefore y' hmem

theorem exists_mapM_eq_ok {l : List α} {f : α → Except ε β} (h : ∀ x ∈ l, ∃ y, f x = .ok y) :
    ∃ l', l.mapM f = .ok l' := by
  induction l with
  | nil => exact ⟨[], rfl⟩
  | cons x l ih =>
    obtain ⟨y, hy⟩ := h x (by simp)
    obtain ⟨ys, hys⟩ := ih fun x' hx' => h x' (by simp [hx'])
    exact ⟨y :: ys, by simp [hy, hys]⟩

theorem forall₂_of_mapM {l : List α} {f : α → Except ε β} {l' : List β} (h : l.mapM f = .ok l') :
    List.Forall₂ (fun x y => f x = .ok y) l l' := by
  induction l generalizing l' with
  | nil =>
    obtain rfl : [] = l' := Except.ok.inj h
    exact .nil
  | cons x l ih =>
    rw [List.mapM_cons, except_bind_eq_ok] at h
    obtain ⟨z, hz, h⟩ := h
    obtain ⟨zs, hzs, h⟩ := except_bind_eq_ok.mp h
    obtain rfl : z :: zs = l' := Except.ok.inj h
    exact .cons hz (ih hzs)

theorem mapM_of_forall₂ {l : List α} {f : α → Except ε β} {l' : List β}
    (h : List.Forall₂ (fun x y => f x = .ok y) l l') : l.mapM f = .ok l' := by
  induction h with
  | nil => rfl
  | cons hx _ ih => rw [List.mapM_cons, hx, except_ok_bind, ih]; rfl

/-- What a loop over a list gives comes from its elements. -/
theorem exists_mem_of_mem_mapM {l : List α} {f : α → Except ε β} {l' : List β}
    (h : l.mapM f = .ok l') {y : β} (hy : y ∈ l') : ∃ x ∈ l, f x = .ok y := by
  have hforall := forall₂_of_mapM h
  induction hforall with
  | nil => cases hy
  | cons hx hrest ih =>
    rcases List.mem_cons.mp hy with rfl | hy
    · exact ⟨_, List.mem_cons_self, hx⟩
    · obtain ⟨x, hx, hf⟩ := ih (mapM_of_forall₂ hrest) hy
      exact ⟨x, List.mem_cons_of_mem _ hx, hf⟩

/-- Every element gives something. -/
theorem exists_mem_mapM_of_mem {l : List α} {f : α → Except ε β} {l' : List β}
    (h : l.mapM f = .ok l') {x : α} (hx : x ∈ l) : ∃ y ∈ l', f x = .ok y := by
  have hforall := forall₂_of_mapM h
  induction hforall with
  | nil => cases hx
  | cons hy hrest ih =>
    rcases List.mem_cons.mp hx with rfl | hx
    · exact ⟨_, List.mem_cons_self, hy⟩
    · obtain ⟨y, hy, hf⟩ := ih (mapM_of_forall₂ hrest) hx
      exact ⟨y, List.mem_cons_of_mem _ hy, hf⟩

end SimpleAsset.Library
