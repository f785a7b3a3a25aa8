import SimpleAsset.Library.HashTree

/-! The way from the root of a hash tree down to an entry, and what a fold along such a way
binds. -/
namespace SimpleAsset.Library
variable {α : Type*} {f : α → α → α}

/-- Steps from the root of a tree with `n` entries to entry `i`, `true` into the left part. An
index past the end goes to the last entry. -/
def descent (n i : ℕ) : List Bool :=
  if 1 < n then
    if i < splitPoint n then true :: descent (splitPoint n) i
    else false :: descent (n - splitPoint n) (i - splitPoint n)
  else []
termination_by n
decreasing_by
  · exact splitPoint_lt (by omega)
  · have := splitPoint_pos n
    omega

theorem descent_left {n i : ℕ} (hn : 1 < n) (hi : i < splitPoint n) :
    descent n i = true :: descent (splitPoint n) i := by
  rw [descent, if_pos hn, if_pos hi]

theorem descent_right {n i : ℕ} (hn : 1 < n) :
    descent n (splitPoint n + i) = false :: descent (n - splitPoint n) i := by
  rw [descent, if_pos hn, if_neg (by omega), Nat.add_sub_cancel_left]

/-- In one tree two entries have different ways. -/
theorem descent_inj {n i j : ℕ} (hi : i < n) (hj : j < n)
    (h : descent n i = descent n j) : i = j := by
  induction n using Nat.strongRecOn generalizing i j with
  | ind n ih =>
    rcases Nat.lt_or_ge 1 n with hn | hn
    · have hk := splitPoint_lt (n := n) hn
      have hk0 := splitPoint_pos n
      rw [descent, descent.eq_1 n j, if_pos hn, if_pos hn] at h
      split_ifs at h with hik hjk hjk
      · exact ih _ hk hik hjk (List.cons.inj h).2
      · simp at h
      · simp at h
      · have := ih _ (by omega) (show i - splitPoint n < n - splitPoint n by omega) (by omega)
          (List.cons.inj h).2
        omega
    · omega

/-- Fold of a hash with the hashes beside its way up; the flag says that the other hash is the
right one. -/
def ascend (f : α → α → α) (h : α) (path : List (α × Bool)) : α :=
  path.foldl (fun h p => if p.2 then f h p.1 else f p.1 h) h

theorem ascend_append_singleton (f : α → α → α) (h : α) (path : List (α × Bool)) (x : α)
    (right : Bool) :
    ascend f h (path ++ [(x, right)]) = if right then f (ascend f h path) x
      else f x (ascend f h path) := by
  simp only [ascend, List.foldl_append, List.foldl_cons, List.foldl_nil]

/-- A fold that reaches the root of a tree starts at an entry and follows the way to it, provided
no entry looks like an inner node. -/
theorem descent_of_ascend (hf : Function.Injective2 f) {d : List α} {x r : α}
    {path : List (α × Bool)}
    (hx : ∀ a b, x ≠ f a b) (hd : ∀ y ∈ d, ∀ a b, y ≠ f a b) (hr : root f d = some r)
    (h : ascend f x path = r) :
    ∃ i, d[i]? = some x ∧ (path.map Prod.snd).reverse = descent d.length i := by
  induction path using List.reverseRecOn generalizing d r with
  | nil =>
    rcases Nat.lt_or_ge 1 d.length with hlen | hlen
    · -- a root above two entries is an inner node
      obtain ⟨a, b, -, -, hsplit⟩ := exists_root_split f hlen
      rw [hsplit, Option.some.injEq] at hr
      exact absurd (h.trans hr.symm) (hx a b)
    · match d with
      | [] => simp [root_nil] at hr
      | [y] =>
        rw [root_singleton, Option.some.injEq] at hr
        refine ⟨0, ?_, ?_⟩
        · rw [hr, ← h]; rfl
        · rw [descent]; simp
  | append_singleton path p ih =>
    obtain ⟨s, right⟩ := p
    rw [ascend_append_singleton] at h
    rcases Nat.lt_or_ge 1 d.length with hlen | hlen
    · have hk := splitPoint_lt (n := d.length) hlen
      obtain ⟨a, b, ha, hb, hsplit⟩ := exists_root_split f hlen
      rw [hsplit, Option.some.injEq] at hr
      rw [List.map_append, List.reverse_append, List.map_singleton, List.reverse_singleton,
        List.singleton_append]
      cases right with
      | true =>
        obtain ⟨hin, -⟩ := hf (h.trans hr.symm)
        obtain ⟨i, hi, hpath⟩ := ih (fun y hy => hd y (List.mem_of_mem_take hy)) ha hin
        have hik : i < splitPoint d.length := by
          have := (List.getElem?_eq_some_iff.mp hi).1
          rw [List.length_take] at this
          omega
        refine ⟨i, by rwa [List.getElem?_take_of_lt hik] at hi, ?_⟩
        rw [hpath, List.length_take, Nat.min_eq_left hk.le, descent_left hlen hik]
      | false =>
        obtain ⟨-, hin⟩ := hf (h.trans hr.symm)
        obtain ⟨i, hi, hpath⟩ := ih (fun y hy => hd y (List.mem_of_mem_drop hy)) hb hin
        refine ⟨splitPoint d.length + i, by rwa [List.getElem?_drop] at hi, ?_⟩
        rw [hpath, List.length_drop, descent_right hlen]
    · match d with
      | [] => simp [root_nil] at hr
      | [y] =>
        rw [root_singleton, Option.some.injEq] at hr
        subst hr
        cases right with
        | true => exact absurd h.symm (hd y (by simp) _ _)
        | false => exact absurd h.symm (hd y (by simp) _ _)

/-- The audit path of an entry has one hash for each step of the way to it and leads to the root. -/
theorem ascend_auditPath {d : List α} {i : ℕ} {x r : α} (hx : d[i]? = some x)
    (hr : root f d = some r) :
    (auditPath f i d).length = (descent d.length i).length ∧
      ascend f x ((auditPath f i d).zip (descent d.length i).reverse) = r := by
  induction hn : d.length using Nat.strongRecOn generalizing d i x r with
  | ind n ih =>
    subst hn
    have hi := (List.getElem?_eq_some_iff.mp hx).1
    rcases Nat.lt_or_ge 1 d.length with hlen | hlen
    · have hk := splitPoint_lt (n := d.length) hlen
      have hk0 := splitPoint_pos d.length
      obtain ⟨a, b, ha, hb, hsplit⟩ := exists_root_split f hlen
      rw [hsplit, Option.some.injEq] at hr
      rcases Nat.lt_or_ge i (splitPoint d.length) with hik | hik
      · have htake : (d.take (splitPoint d.length)).length = splitPoint d.length := by
          rw [List.length_take]; omega
        obtain ⟨hl, hup⟩ := ih _ hk (by rwa [List.getElem?_take_of_lt hik]) ha htake
        rw [auditPath_left f hlen hik hb, descent_left hlen hik]
        refine ⟨by simp [hl], ?_⟩
        rw [List.reverse_cons, List.zip_append (by simpa using hl), List.zip_cons_cons,
          List.zip_nil_left, ascend_append_singleton, hup, if_pos rfl, hr]
      · have hdrop : (d.drop (splitPoint d.length)).length = d.length - splitPoint d.length :=
          List.length_drop
        obtain ⟨j, rfl⟩ := Nat.exists_eq_add_of_le hik
        obtain ⟨hl, hup⟩ := ih _ (by omega) (by rwa [List.getElem?_drop]) hb hdrop
        rw [auditPath_right f hlen hi ha, descent_right hlen]
        refine ⟨by simp [hl], ?_⟩
        rw [List.reverse_cons, List.zip_append (by simpa using hl), List.zip_cons_cons,
          List.zip_nil_left, ascend_append_singleton, hup, if_neg (by simp), hr]
    · obtain ⟨y, rfl⟩ := List.length_eq_one_iff.mp (show d.length = 1 by omega)
      rw [root_singleton, Option.some.injEq] at hr
      obtain rfl : i = 0 := by simpa using hi
      rw [auditPath_singleton, descent, if_neg (by simp)]
      exact ⟨rfl, by rw [← hr]; exact (Option.some.inj hx).symm⟩

end SimpleAsset.Library
