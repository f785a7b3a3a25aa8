import Mathlib.Data.List.TakeWhile
import SimpleAsset.Library.Ascending

/-! Dictionaries in the order of their keys: the last entry, and the last one up to a key. -/
namespace SimpleAsset.Library

structure SortedDict (κ β : Type) [LinearOrder κ] where
  entries : List (κ × β)
  ascending : Ascending Prod.fst entries

namespace SortedDict
variable {κ β : Type} [LinearOrder κ] {k t : κ} {v : β} {d : SortedDict κ β} {l : List (κ × β)}

def empty : SortedDict κ β := ⟨[], List.Pairwise.nil⟩

theorem ascending_set (h : Ascending Prod.fst l) (k : κ) (v : β) :
    Ascending Prod.fst
      (l.takeWhile (fun e => e.1 < k) ++ (k, v) :: l.dropWhile fun e => e.1 ≤ k) := by
  induction l with
  | nil => exact List.pairwise_singleton _ _
  | cons e l ih =>
    obtain ⟨he, hl⟩ := List.pairwise_cons.mp h
    rcases lt_trichotomy e.1 k with hlt | heq | hgt
    · rw [List.takeWhile_cons_of_pos (by simpa using hlt),
        List.dropWhile_cons_of_pos (by simpa using hlt.le)]
      refine List.pairwise_cons.mpr ⟨?_, ih hl⟩
      intro e' he'
      rcases List.mem_append.mp he' with hbefore | hafter
      · exact he e' ((List.takeWhile_sublist _).subset hbefore)
      · rcases List.mem_cons.mp hafter with rfl | hafter
        · exact hlt
        · exact he e' ((List.dropWhile_sublist _).subset hafter)
    · have hfirst : l.dropWhile (fun e => e.1 ≤ k) = l := by
        rw [List.dropWhile_eq_self_iff]
        intro hlength
        have hlater := he _ (List.getElem_mem hlength)
        simpa [← heq] using hlater
      rw [List.takeWhile_cons_of_neg (by simp [heq]), List.dropWhile_cons_of_pos (by simp [heq]),
        hfirst, List.nil_append]
      refine List.pairwise_cons.mpr ⟨?_, hl⟩
      intro e' he'
      rw [← heq]
      exact he e' he'
    · rw [List.takeWhile_cons_of_neg (by simpa using hgt.le),
        List.dropWhile_cons_of_neg (by simpa using hgt)]
      refine List.pairwise_cons.mpr ⟨?_, h⟩
      intro e' he'
      rcases List.mem_cons.mp he' with rfl | he'
      · exact hgt
      · exact hgt.trans (he e' he')

/-- `d[k] = v`. -/
def set (d : SortedDict κ β) (k : κ) (v : β) : SortedDict κ β :=
  ⟨d.entries.takeWhile (fun e => e.1 < k) ++
    (k, v) :: d.entries.dropWhile fun e => e.1 ≤ k, ascending_set d.ascending k v⟩

/-- The value of the greatest key. -/
def last (d : SortedDict κ β) : Option β := d.entries.getLast?.map Prod.snd

/-- The value of the greatest key up to this one. -/
def upTo (d : SortedDict κ β) (t : κ) : Option β :=
  (d.entries.takeWhile fun e => e.1 ≤ t).getLast?.map Prod.snd

theorem mem_set {e : κ × β} (h : e ∈ (d.set k v).entries) : e = (k, v) ∨ e ∈ d.entries := by
  rcases List.mem_append.mp h with hbefore | hafter
  · exact Or.inr ((List.takeWhile_sublist _).subset hbefore)
  · rcases List.mem_cons.mp hafter with hnew | hafter
    · exact Or.inl hnew
    · exact Or.inr ((List.dropWhile_sublist _).subset hafter)

theorem upTo_of_forall_le (h : ∀ e ∈ d.entries, e.1 ≤ t) : d.upTo t = d.last := by
  have hall : d.entries.takeWhile (fun e => e.1 ≤ t) = d.entries := by
    rw [List.takeWhile_eq_self_iff]
    intro e he
    simpa using h e he
  rw [upTo, hall, last]

private theorem takeWhile_le_before (h : t < k) (l rest : List (κ × β)) :
    (l.takeWhile (fun e => e.1 < k) ++ (k, v) :: rest).takeWhile (fun e => e.1 ≤ t) = l.takeWhile
      fun e => e.1 ≤ t := by
  induction l with
  | nil => simp [h]
  | cons e l ih =>
    by_cases hle : e.1 ≤ t
    · rw [List.takeWhile_cons_of_pos (by simpa using hle.trans_lt h), List.cons_append,
        List.takeWhile_cons_of_pos (by simpa using hle),
        List.takeWhile_cons_of_pos (by simpa using hle), ih]
    · rw [List.takeWhile_cons_of_neg (a := e) (l := l) (p := fun e => decide (e.1 ≤ t))
        (by simpa using hle)]
      by_cases hlt : e.1 < k
      · rw [List.takeWhile_cons_of_pos (by simpa using hlt), List.cons_append,
          List.takeWhile_cons_of_neg (by simpa using hle)]
      · rw [List.takeWhile_cons_of_neg (by simpa using hlt), List.nil_append,
          List.takeWhile_cons_of_neg (by simpa using h)]

/-- What is set later does not change what was there before. -/
theorem upTo_set_of_lt (h : t < k) (d : SortedDict κ β) (v : β) :
    (d.set k v).upTo t = d.upTo t := by
  rw [upTo, set, takeWhile_le_before h, upTo]

theorem last_set (h : ∀ e ∈ d.entries, e.1 ≤ k) (v : β) : (d.set k v).last = some v := by
  have hnone : d.entries.dropWhile (fun e => e.1 ≤ k) = [] := by
    rw [List.dropWhile_eq_nil_iff]
    intro e he
    simpa using h e he
  change ((d.entries.takeWhile (fun e => e.1 < k) ++
    (k, v) :: d.entries.dropWhile fun e => e.1 ≤ k).getLast?).map Prod.snd = some v
  rw [hnone, List.getLast?_concat, Option.map_some]

end SortedDict

end SimpleAsset.Library
