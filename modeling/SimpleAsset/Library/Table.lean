import Mathlib.Data.List.AList
import Mathlib.Algebra.BigOperators.Group.List.Basic
import Mathlib.Algebra.Order.Group.Int
import Mathlib.Tactic.Abel
import SimpleAsset.Library.Fallible

/-! Finite tables with one value for each key, and sums of a weight over their rows. -/
namespace SimpleAsset.Library

abbrev Table (κ β : Type) := AList (fun _ : κ => β)

namespace Table
variable {κ β M : Type}

/-- Sum of the weights of all rows. -/
def total [AddCommMonoid M] (w : β → M) (t : Table κ β) : M :=
  (t.entries.map fun e => w e.2).sum

@[simp] theorem total_empty [AddCommMonoid M] (w : β → M) : total w (∅ : Table κ β) = 0 := rfl

/-- Changes the values and leaves keys and order. -/
def mapValues {γ : Type} (g : κ → β → γ) (t : Table κ β) : Table κ γ where
  entries := t.entries.map fun e => ⟨e.1, g e.1 e.2⟩
  nodupKeys := by
    have h := t.nodupKeys
    rwa [List.NodupKeys, List.keys, List.map_map]

@[simp] theorem entries_mapValues {γ : Type} (g : κ → β → γ) (t : Table κ β) :
    (t.mapValues g).entries = t.entries.map fun e => ⟨e.1, g e.1 e.2⟩ := rfl

@[simp] theorem keys_mapValues {γ : Type} (g : κ → β → γ) (t : Table κ β) :
    (t.mapValues g).keys = t.keys := by
  rw [AList.keys, AList.keys, entries_mapValues, List.keys, List.keys, List.map_map]
  rfl

variable [DecidableEq κ]

/-- Weight of one row; a missing row weighs nothing. -/
def weight [AddCommMonoid M] (w : β → M) (k : κ) (t : Table κ β) : M :=
  ((t.lookup k).map w).getD 0

@[simp] theorem weight_empty [AddCommMonoid M] (w : β → M) (k : κ) :
    weight w k (∅ : Table κ β) = 0 := rfl

theorem weight_eq_of_lookup [AddCommMonoid M] (w : β → M) {k : κ} {t : Table κ β} {v : β}
    (h : t.lookup k = some v) : weight w k t = w v := by
  simp [weight, h]

private theorem sum_kerase [AddCommMonoid M] (w : β → M) (k : κ) (l : List ((_ : κ) × β)) :
    ((List.dlookup k l).map w).getD 0 + ((List.kerase k l).map fun e => w e.2).sum =
      (l.map fun e => w e.2).sum := by
  induction l with
  | nil => simp
  | cons e l ih =>
    obtain ⟨k', v⟩ := e
    by_cases h : k = k'
    · subst h
      simp
    · rw [List.dlookup_cons_ne _ _ h, List.kerase_cons_ne (by simpa using h)]
      simp only [List.map_cons, List.sum_cons]
      rw [← ih, add_left_comm]

/-- Removing a row takes exactly its weight off the total. -/
theorem weight_add_total_erase [AddCommMonoid M] (w : β → M) (k : κ) (t : Table κ β) :
    weight w k t + total w (t.erase k) = total w t :=
  sum_kerase w k t.entries

theorem total_insert [AddCommMonoid M] (w : β → M) (k : κ) (v : β) (t : Table κ β) :
    total w (t.insert k v) = w v + total w (t.erase k) := by
  rw [total, AList.entries_insert, List.map_cons, List.sum_cons]
  rfl

/-- Writing a row adds the new weight and takes off the one it replaces. -/
theorem weight_add_total_insert [AddCommMonoid M] (w : β → M) (k : κ) (v : β) (t : Table κ β) :
    weight w k t + total w (t.insert k v) = w v + total w t := by
  rw [total_insert, ← weight_add_total_erase w k t, add_left_comm]

theorem weight_insert_self [AddCommMonoid M] (w : β → M) (k : κ) (v : β) (t : Table κ β) :
    weight w k (t.insert k v) = w v :=
  weight_eq_of_lookup w (AList.lookup_insert t)

theorem weight_insert_ne [AddCommMonoid M] (w : β → M) {k k' : κ} (h : k ≠ k') (v : β)
    (t : Table κ β) : weight w k (t.insert k' v) = weight w k t := by
  simp [weight, AList.lookup_insert_ne h]

/-- Induction rule for a property of all rows: what a write has to establish. -/
theorem forall_lookup_insert {P : κ → β → Prop} {k : κ} {v : β} {t : Table κ β}
    (hv : P k v) (ht : ∀ k' v', t.lookup k' = some v' → P k' v') :
    ∀ k' v', (t.insert k v).lookup k' = some v' → P k' v' := by
  intro k' v' h
  by_cases hk : k' = k
  · subst hk
    rw [AList.lookup_insert] at h
    cases h
    exact hv
  · rw [AList.lookup_insert_ne hk] at h
    exact ht k' v' h

theorem forall_lookup_erase {P : κ → β → Prop} {k : κ} {t : Table κ β}
    (ht : ∀ k' v', t.lookup k' = some v' → P k' v') :
    ∀ k' v', (t.erase k).lookup k' = some v' → P k' v' := by
  intro k' v' h
  by_cases hk : k' = k
  · subst hk
    simp at h
  · rw [AList.lookup_erase_ne hk] at h
    exact ht k' v' h

/-- Writes a row for each row of `t`, with the value that `f` finds for it. -/
def insertAllM {ε γ : Type} (f : β → Except ε γ) (t : Table κ β) (acc : Table κ γ) :
    Except ε (Table κ γ) :=
  t.entries.foldlM (fun acc e => do
    let v ← f e.2
    pure (acc.insert e.1 v)) acc

private theorem lookup_foldlM {ε γ : Type} {f : β → Except ε γ} {l : List ((_ : κ) × β)}
    {acc t' : Table κ γ} (hl : l.NodupKeys) (h : l.foldlM (fun acc e => do
      let v ← f e.2
      pure (acc.insert e.1 v)) acc = .ok t') :
    (∀ e ∈ l, ∃ v, f e.2 = .ok v ∧ t'.lookup e.1 = some v) ∧
      ∀ k, k ∉ l.keys → t'.lookup k = acc.lookup k := by
  induction l generalizing acc with
  | nil =>
    obtain rfl : acc = t' := Except.ok.inj h
    exact ⟨by simp, fun _ _ => rfl⟩
  | cons e l ih =>
    obtain ⟨hnew, hl⟩ := List.nodupKeys_cons.mp hl
    rw [List.foldlM_cons, except_bind_eq_ok] at h
    obtain ⟨acc', hacc, h⟩ := h
    obtain ⟨v, hv, hins⟩ := except_bind_eq_ok.mp hacc
    obtain rfl : acc.insert e.1 v = acc' := Except.ok.inj hins
    obtain ⟨hmem, hother⟩ := ih hl h
    refine ⟨?_, ?_⟩
    · intro e' he'
      rcases List.mem_cons.mp he' with rfl | he'
      · exact ⟨v, hv, by rw [hother _ hnew, AList.lookup_insert]⟩
      · exact hmem e' he'
    · intro k hk
      rw [List.keys_cons, List.mem_cons, not_or] at hk
      rw [hother k hk.2, AList.lookup_insert_ne hk.1]

theorem lookup_insertAllM {ε γ : Type} {f : β → Except ε γ} {t : Table κ β} {acc t' : Table κ γ}
    (h : insertAllM f t acc = .ok t') {k : κ} {b : β} (hk : t.lookup k = some b) :
    ∃ v, f b = .ok v ∧ t'.lookup k = some v :=
  (lookup_foldlM t.nodupKeys h).1 ⟨k, b⟩ (AList.mem_lookup_iff.mp hk)

theorem lookup_insertAllM_of_none {ε γ : Type} {f : β → Except ε γ} {t : Table κ β}
    {acc t' : Table κ γ} (h : insertAllM f t acc = .ok t') {k : κ} (hk : t.lookup k = none) :
    t'.lookup k = acc.lookup k :=
  (lookup_foldlM t.nodupKeys h).2 k fun hmem => AList.lookup_eq_none.mp hk hmem

theorem exists_insertAllM {ε γ : Type} {f : β → Except ε γ} {t : Table κ β}
    (h : ∀ k b, t.lookup k = some b → ∃ v, f b = .ok v) (acc : Table κ γ) :
    ∃ t', insertAllM f t acc = .ok t' := by
  refine exists_foldlM ?_ acc
  intro acc e he
  obtain ⟨v, hv⟩ := h e.1 e.2 (AList.mem_lookup_iff.mpr he)
  exact ⟨acc.insert e.1 v, by rw [hv]; rfl⟩

theorem lookup_union (s t : Table κ β) (k : κ) :
    (s ∪ t).lookup k = (s.lookup k).or (t.lookup k) := by
  by_cases h : k ∈ s
  · obtain ⟨v, hv⟩ := Option.isSome_iff_exists.mp (AList.lookup_isSome.mpr h)
    rw [AList.lookup_union_left h, hv, Option.some_or]
  · rw [AList.lookup_union_right h, AList.lookup_eq_none.mpr h, Option.none_or]

/-- A row looked up by its key is a row of the table. -/
theorem mem_entries_iff {t : Table κ β} {k : κ} {v : β} :
    ⟨k, v⟩ ∈ t.entries ↔ t.lookup k = some v :=
  AList.mem_lookup_iff.symm

theorem lookup_insert_ite (t : Table κ β) (k k' : κ) (v : β) :
    (t.insert k v).lookup k' = if k' = k then some v else t.lookup k' := by
  split_ifs with hk
  · rw [hk, AList.lookup_insert]
  · rw [AList.lookup_insert_ne hk]

theorem lookup_erase_ite (t : Table κ β) (k k' : κ) :
    (t.erase k).lookup k' = if k' = k then none else t.lookup k' := by
  split_ifs with hk
  · rw [hk, AList.lookup_erase]
  · rw [AList.lookup_erase_ne hk]

/-- The rows with a property. -/
def filter (p : κ → β → Bool) (t : Table κ β) : Table κ β where
  entries := t.entries.filter fun e => p e.1 e.2
  nodupKeys := t.nodupKeys.sublist List.filter_sublist

theorem lookup_filter (p : κ → β → Bool) (t : Table κ β) (k : κ) :
    (t.filter p).lookup k = (t.lookup k).filter (p k) := by
  ext v
  rw [← mem_entries_iff, Option.filter_eq_some_iff, ← mem_entries_iff]
  exact List.mem_filter

theorem lookup_singleton_iff {k k' : κ} {v v' : β} :
    (AList.singleton k v : Table κ β).lookup k' = some v' ↔ k' = k ∧ v = v' := by
  rw [← mem_entries_iff, AList.singleton_entries, List.mem_singleton, Sigma.mk.injEq, heq_eq_eq]
  exact and_congr_right' eq_comm

theorem mem_keys_iff {t : Table κ β} {k : κ} : k ∈ t.keys ↔ ∃ v, t.lookup k = some v := by
  rw [← AList.mem_keys, ← AList.lookup_isSome, Option.isSome_iff_exists]

@[simp] theorem lookup_mapValues {γ : Type} (g : κ → β → γ) (t : Table κ β) (k : κ) :
    (t.mapValues g).lookup k = (t.lookup k).map (g k) :=
  List.dlookup_map₂ k

/-- Writes the pairs one after another. -/
def insertAll (writes : List (κ × β)) (t : Table κ β) : Table κ β :=
  writes.foldl (fun t w => t.insert w.1 w.2) t

theorem lookup_insertAll_of_notMem {writes : List (κ × β)} {k : κ} (h : ∀ w ∈ writes, w.1 ≠ k)
    (t : Table κ β) :
    (insertAll writes t).lookup k = t.lookup k := by
  induction writes generalizing t with
  | nil => rfl
  | cons w writes ih =>
    rw [insertAll, List.foldl_cons, ← insertAll, ih (fun w' hw' => h w' (by simp [hw'])),
      AList.lookup_insert_ne (h w (by simp)).symm]

/-- If every write under a key is of one value, that value is found. -/
theorem lookup_insertAll {writes : List (κ × β)} {k : κ} {v : β} (hmem : (k, v) ∈ writes)
    (h : ∀ v', (k, v') ∈ writes → v' = v) (t : Table κ β) :
    (insertAll writes t).lookup k = some v := by
  induction writes generalizing t with
  | nil => cases hmem
  | cons w writes ih =>
    rw [insertAll, List.foldl_cons, ← insertAll]
    by_cases hlater : (k, v) ∈ writes
    · exact ih hlater (fun v' hv' => h v' (by simp [hv'])) _
    · obtain rfl : (k, v) = w := (List.mem_cons.mp hmem).resolve_right hlater
      rw [lookup_insertAll_of_notMem, AList.lookup_insert]
      rintro ⟨k', v'⟩ hw' rfl
      obtain rfl := h v' (List.mem_cons_of_mem _ hw')
      exact hlater hw'

/-- A row more stands for an entry more of a list of keys exactly when its key is new. -/
theorem keys_insert_perm_iff {t : Table κ β} {l : List κ} (h : t.keys.Perm l) (k : κ) (v : β) :
    (t.insert k v).keys.Perm (l ++ [k]) ↔ k ∉ t.keys := by
  rw [AList.keys_insert]
  constructor
  · intro hperm hk
    have hlength := hperm.length_eq
    have herase := List.length_erase_of_mem hk
    have hpos := List.length_pos_of_mem hk
    rw [List.length_cons, List.length_append, List.length_singleton, ← h.length_eq] at hlength
    omega
  · intro hk
    rw [List.erase_of_not_mem hk]
    exact (h.cons k).trans (List.perm_append_singleton k l).symm

theorem keys_erase_perm {t : Table κ β} {k : κ} {l : List κ} (h : t.keys.Perm (k :: l)) :
    (t.erase k).keys.Perm l := by
  rw [AList.keys_erase]
  have herase := h.erase k
  rwa [List.erase_cons_head] at herase

/-- The rows are among `R`, and every key of `R` has a row. -/
structure Records (t : Table κ β) (R : κ → β → Prop) : Prop where
  sound : ∀ k v, t.lookup k = some v → R k v
  complete : ∀ k v, R k v → ∃ v', t.lookup k = some v'

theorem Records.congr {t : Table κ β} {R R' : κ → β → Prop} (h : Records t R)
    (hR : ∀ k v, R k v ↔ R' k v) :
    Records t R' :=
  ⟨fun k v hk => (hR k v).mp (h.sound k v hk), fun k v hk => h.complete k v ((hR k v).mpr hk)⟩

/-- If `R` has one value for each key, the rows are exactly `R`. -/
theorem Records.lookup_iff {t : Table κ β} {R : κ → β → Prop} (h : Records t R)
    (hR : ∀ k v v', R k v → R k v' → v = v') {k : κ} {v : β} : t.lookup k = some v ↔ R k v := by
  refine ⟨h.sound k v, ?_⟩
  intro hv
  obtain ⟨v', hv'⟩ := h.complete k v hv
  rw [hv', hR k v v' hv (h.sound k v' hv')]

theorem Records.insert {t : Table κ β} {R : κ → β → Prop} (h : Records t R) (k : κ) (v : β) :
    Records (t.insert k v) fun k' v' => R k' v' ∨ (k' = k ∧ v' = v) := by
  refine ⟨?_, ?_⟩
  · intro k' v' hk'
    by_cases hk : k' = k
    · subst hk
      rw [AList.lookup_insert] at hk'
      exact Or.inr ⟨rfl, (Option.some.inj hk').symm⟩
    · rw [AList.lookup_insert_ne hk] at hk'
      exact Or.inl (h.sound k' v' hk')
  · rintro k' v' hk'
    by_cases hk : k' = k
    · subst hk
      exact ⟨v, AList.lookup_insert t⟩
    · rw [AList.lookup_insert_ne hk]
      exact h.complete k' v' (hk'.resolve_right fun h => hk h.1)

end Table
end SimpleAsset.Library
