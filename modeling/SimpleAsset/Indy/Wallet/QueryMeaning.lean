import SimpleAsset.Indy.Wallet.QueryAgreement
import SimpleAsset.Indy.Wql.Parser

/-! What a query means, and what optimisation keeps of it. -/
namespace SimpleAsset.Indy.Wallet
open SimpleAsset.Library
open Anoncreds (Query)

section Meaning

/-- A reading of the comparisons of tags, in which `$in` over one value is equality. -/
structure TagReading where
  compares : CompareOp → String → String → Tags → Prop
  isIn : String → List String → Tags → Prop
  isIn_singleton : ∀ name value tags, isIn name [value] tags ↔ compares .eq name value tags

namespace TagReading
variable (R : TagReading) (tags : Tags)

mutual

def Holds : Query → Prop
  | .eq name value => R.compares .eq name value tags
  | .neq name value => R.compares .neq name value tags
  | .gt name value => R.compares .gt name value tags
  | .gte name value => R.compares .gte name value tags
  | .lt name value => R.compares .lt name value tags
  | .lte name value => R.compares .lte name value tags
  | .like name value => R.compares .like name value tags
  | .isIn name values => R.isIn name values tags
  | .and operators => HoldsAll operators
  | .or operators => HoldsAny operators
  | .not operator => ¬ Holds operator

def HoldsAll : List Query → Prop
  | [] => True
  | operator :: operators => Holds operator ∧ HoldsAll operators

def HoldsAny : List Query → Prop
  | [] => False
  | operator :: operators => Holds operator ∨ HoldsAny operators

end

theorem holdsAll_iff (operators : List Query) :
    R.HoldsAll tags operators ↔ ∀ q ∈ operators, R.Holds tags q := by
  induction operators with
  | nil => simp [HoldsAll]
  | cons operator operators ih => rw [HoldsAll, ih, List.forall_mem_cons]

theorem holdsAny_iff (operators : List Query) :
    R.HoldsAny tags operators ↔ ∃ q ∈ operators, R.Holds tags q := by
  induction operators with
  | nil => simp [HoldsAny]
  | cons operator operators ih => rw [HoldsAny, ih, List.exists_mem_cons_iff]

theorem holds_query (op : CompareOp) (name value : String) :
    R.Holds tags (op.query name value) ↔ R.compares op name value tags := by
  cases op <;> simp only [CompareOp.query, Holds]

theorem holds_and (operators : List Query) :
    R.Holds tags (.and operators) ↔ ∀ q ∈ operators, R.Holds tags q := by
  rw [Holds, holdsAll_iff]

theorem holds_or (operators : List Query) :
    R.Holds tags (.or operators) ↔ ∃ q ∈ operators, R.Holds tags q := by
  rw [Holds, holdsAny_iff]

end TagReading

/-- The reading of the wallet, with the `LIKE` of its database. -/
def storedReading (like : String → String → Bool) : TagReading where
  compares op name value tags := tagCompares like tags op name value = true
  isIn name values tags := ((tags.lookup name).any fun stored => decide (stored ∈ values)) = true
  isIn_singleton name value tags := by simp [tagCompares, CompareOp.compares]

theorem storedReading_holds_iff (like : String → String → Bool) (tags : Tags) (q : Query) :
    (storedReading like).Holds tags q ↔ meets like tags q = true := by
  induction q using query_induction with
  | compare op name value =>
    rw [TagReading.holds_query, meets_query]
    rfl
  | isIn name values =>
    rw [TagReading.Holds, meets]
    rfl
  | and operators ih =>
    rw [TagReading.holds_and, meets]
    induction operators with
    | nil => simp [meetsAll]
    | cons operator operators ihs =>
      obtain ⟨hoperator, hoperators⟩ := List.forall_mem_cons.mp ih
      rw [List.forall_mem_cons, meetsAll, Bool.and_eq_true, hoperator, ihs hoperators]
  | or operators ih =>
    rw [TagReading.holds_or, meets]
    induction operators with
    | nil => simp [meetsAny]
    | cons operator operators ihs =>
      obtain ⟨hoperator, hoperators⟩ := List.forall_mem_cons.mp ih
      rw [List.exists_mem_cons_iff, meetsAny, Bool.or_eq_true, hoperator, ihs hoperators]
  | not operator ih => rw [TagReading.Holds, ih, meets, Bool.not_eq_true, Bool.not_eq_true']

end Meaning

section Nothing

mutual

/-- A connective of nothing but such connectives. -/
def saysNothing : Query → Bool
  | .and operators | .or operators => allSayNothing operators
  | _ => false

def allSayNothing : List Query → Bool
  | [] => true
  | operator :: operators => saysNothing operator && allSayNothing operators

end

mutual

/-- The query without the operands of its disjunctions that say nothing, where another operand says
something; what is negated stays as it is. -/
def struck : Query → Query
  | .and operators => .and (struckAll false operators)
  | .or operators => if allSayNothing operators then .or operators
      else .or (struckAll true operators)
  | query => query

def struckAll (strike : Bool) : List Query → List Query
  | [] => []
  | operator :: operators =>
    if strike && saysNothing operator then struckAll strike operators
    else struck operator :: struckAll strike operators

end

theorem allSayNothing_iff (operators : List Query) :
    allSayNothing operators = true ↔ ∀ q ∈ operators, saysNothing q = true := by
  induction operators with
  | nil => simp [allSayNothing]
  | cons operator operators ih => rw [allSayNothing, Bool.and_eq_true, ih, List.forall_mem_cons]

theorem mem_struckAll {strike : Bool} {q : Query} (operators : List Query) :
    q ∈ struckAll strike operators ↔
      ∃ operator ∈ operators, ¬ (strike = true ∧ saysNothing operator = true) ∧
        struck operator = q := by
  induction operators with
  | nil => simp [struckAll]
  | cons operator operators ih =>
    rw [struckAll, List.exists_mem_cons_iff, ← Bool.and_eq_true]
    split
    · rename_i hstrike
      simp [ih, hstrike]
    · rename_i hstrike
      rw [List.mem_cons, ih, eq_comm]
      simp [hstrike]

end Nothing

section Optimise

/-- The cases of one operand and of none are cases of any number of them. -/
theorem optimise_and (operators : List Query) :
    optimise (.and operators) = collapse .and (optimiseAll operators) := by
  match operators with
  | [] => simp [optimise, optimiseAll, collapse]
  | [operator] =>
    rw [optimise, optimiseAll, optimiseAll, List.append_nil]
    cases optimise operator <;> rfl
  | operator :: operator' :: operators =>
    rw [optimise]
    · simp
    · simp

theorem optimise_or (operators : List Query) :
    optimise (.or operators) = collapse .or (optimiseAll operators) := by
  match operators with
  | [] => simp [optimise, optimiseAll, collapse]
  | [operator] =>
    rw [optimise, optimiseAll, optimiseAll, List.append_nil]
    cases optimise operator <;> rfl
  | operator :: operator' :: operators =>
    rw [optimise]
    · simp
    · simp

theorem optimise_query (op : CompareOp) (name value : String) :
    optimise (op.query name value) = some (op.query name value) := by
  cases op <;> simp [CompareOp.query, optimise]

theorem mem_optimiseAll {q : Query} (operators : List Query) :
    q ∈ optimiseAll operators ↔ ∃ operator ∈ operators, optimise operator = some q := by
  induction operators with
  | nil => simp [optimiseAll]
  | cons operator operators ih =>
    rw [optimiseAll, List.mem_append, Option.mem_toList, ih, List.exists_mem_cons_iff]

theorem collapse_eq_none_iff {join : List Query → Query} (operators : List Query) :
    collapse join operators = none ↔ operators = [] := by
  unfold collapse
  split <;> simp_all

theorem optimiseAll_eq_nil_iff (operators : List Query) :
    optimiseAll operators = [] ↔ ∀ q ∈ operators, optimise q = none := by
  rw [List.eq_nil_iff_forall_not_mem]
  simp only [mem_optimiseAll, Option.eq_none_iff_forall_ne_some]
  constructor
  · intro h q hq q' hq'
    exact h q' ⟨q, hq, hq'⟩
  · rintro h q' ⟨q, hq, hq'⟩
    exact h q hq q' hq'

/-- `$in` over one value becomes equality, and is kept over other lists. -/
theorem exists_optimise_isIn (name : String) (values : List String) :
    ∃ q, optimise (.isIn name values) = some q ∧
      ∀ (R : TagReading) (tags : Tags), R.Holds tags q ↔ R.Holds tags (.isIn name values) := by
  match values with
  | [] => exact ⟨.isIn name [], by simp [optimise], fun _ _ => Iff.rfl⟩
  | [value] =>
    refine ⟨.eq name value, by simp [optimise], fun R tags => ?_⟩
    rw [TagReading.Holds, TagReading.Holds, R.isIn_singleton]
  | value :: value' :: values =>
    exact ⟨.isIn name (value :: value' :: values), by simp [optimise], fun _ _ => Iff.rfl⟩

/-- Of two negations nothing is kept. -/
theorem exists_optimise_not (operator : Query) :
    ∃ q, optimise (.not operator) = some q ∧
      ∀ (R : TagReading) (tags : Tags), R.Holds tags q ↔ R.Holds tags (.not operator) := by
  cases operator with
  | not nested =>
    refine ⟨nested, by simp [optimise], fun R tags => ?_⟩
    rw [TagReading.Holds, TagReading.Holds, not_not]
  | _ => exact ⟨_, by simp only [optimise], fun _ _ => Iff.rfl⟩

/-- Nothing is left of the queries that say nothing, and of no others. -/
theorem optimise_eq_none_iff (q : Query) : optimise q = none ↔ saysNothing q = true := by
  induction q using query_induction with
  | compare op name value =>
    rw [optimise_query]
    cases op <;> simp [CompareOp.query, saysNothing]
  | isIn name values =>
    obtain ⟨q, hq, -⟩ := exists_optimise_isIn name values
    simp [hq, saysNothing]
  | and operators ih =>
    rw [optimise_and, collapse_eq_none_iff, optimiseAll_eq_nil_iff, saysNothing, allSayNothing_iff]
    exact forall₂_congr ih
  | or operators ih =>
    rw [optimise_or, collapse_eq_none_iff, optimiseAll_eq_nil_iff, saysNothing, allSayNothing_iff]
    exact forall₂_congr ih
  | not operator ih =>
    obtain ⟨q, hq, -⟩ := exists_optimise_not operator
    simp [hq, saysNothing]

variable (R : TagReading) (tags : Tags)

/-- What is searched for after optimisation holds; nothing is met by everything. -/
def TagReading.HoldsOptimised (q : Query) : Prop := ∀ q', optimise q = some q' → R.Holds tags q'

variable {R tags}

theorem holds_collapse_and (operators : List Query) :
    (∀ q, collapse .and operators = some q → R.Holds tags q) ↔ ∀ q ∈ operators, R.Holds tags q := by
  match operators with
  | [] => simp [collapse]
  | [operator] => simp [collapse]
  | operator :: operator' :: operators =>
    rw [collapse]
    · simp only [Option.some.injEq, forall_eq']
      exact R.holds_and tags _
    · simp
    · simp

theorem holds_collapse_or (operators : List Query) :
    (∀ q, collapse .or operators = some q → R.Holds tags q) ↔ operators = [] ∨
    ∃ q ∈ operators, R.Holds tags q := by
  match operators with
  | [] => simp [collapse]
  | [operator] => simp [collapse]
  | operator :: operator' :: operators =>
    rw [collapse]
    · simp only [Option.some.injEq, forall_eq', reduceCtorEq, false_or]
      exact R.holds_or tags _
    · simp
    · simp

/-- What says nothing holds, in a query the parser makes. -/
theorem holds_of_saysNothing {q : Query} (hparsed : Wql.isParsed q = true)
    (h : saysNothing q = true) :
    R.Holds tags q := by
  induction q using query_induction with
  | compare op name value => cases op <;> simp [CompareOp.query, saysNothing] at h
  | isIn name values => simp [saysNothing] at h
  | and operators ih =>
    rw [saysNothing, allSayNothing_iff] at h
    rw [Wql.isParsed, Wql.allParsed_iff] at hparsed
    exact (R.holds_and tags _).mpr fun q hq => ih q hq (hparsed q hq) (h q hq)
  | or operators ih =>
    rw [saysNothing, allSayNothing_iff] at h
    rw [Wql.isParsed, Bool.and_eq_true, Wql.allParsed_iff] at hparsed
    obtain ⟨q, hq⟩ := List.exists_mem_of_ne_nil operators (by simpa using hparsed.1)
    exact (R.holds_or tags _).mpr ⟨q, hq, ih q hq (hparsed.2 q hq) (h q hq)⟩
  | not operator ih => simp [saysNothing] at h

/-- Striking operands only makes a query say more. -/
theorem holds_of_holds_struck {q : Query} (h : R.Holds tags (struck q)) : R.Holds tags q := by
  induction q using query_induction with
  | compare op name value => cases op <;> exact h
  | isIn name values => exact h
  | and operators ih =>
    rw [struck, R.holds_and] at h
    rw [R.holds_and]
    intro q hq
    exact ih q hq (h _ ((mem_struckAll _).mpr ⟨q, hq, by simp, rfl⟩))
  | or operators ih =>
    rw [struck] at h
    split at h
    · exact h
    · rw [R.holds_or] at h ⊢
      obtain ⟨q', hq', hholds⟩ := h
      obtain ⟨q, hq, -, rfl⟩ := (mem_struckAll _).mp hq'
      exact ⟨q, hq, ih q hq hholds⟩
  | not operator ih => exact h

/-- All that optimisation leaves of the operands holds when the operands of the struck query do. -/
theorem forall_optimiseAll_iff {operators : List Query}
    (ih : ∀ q ∈ operators, R.HoldsOptimised tags q ↔ R.Holds tags (struck q)) :
    (∀ q ∈ optimiseAll operators, R.Holds tags q) ↔
      ∀ q ∈ struckAll false operators, R.Holds tags q := by
  constructor
  · intro h q' hq'
    obtain ⟨q, hq, -, rfl⟩ := (mem_struckAll _).mp hq'
    exact (ih q hq).mp fun q' hq' => h q' ((mem_optimiseAll _).mpr ⟨q, hq, hq'⟩)
  · intro h q' hq'
    obtain ⟨q, hq, hoptimise⟩ := (mem_optimiseAll _).mp hq'
    have hstruck := h (struck q) ((mem_struckAll _).mpr ⟨q, hq, by simp, rfl⟩)
    exact (ih q hq).mpr hstruck q' hoptimise

/-- Of a disjunction, the operands that say something are left. -/
theorem exists_optimiseAll_iff {operators : List Query}
    (ih : ∀ q ∈ operators, R.HoldsOptimised tags q ↔ R.Holds tags (struck q)) :
    (∃ q ∈ optimiseAll operators, R.Holds tags q) ↔
      ∃ q ∈ struckAll true operators, R.Holds tags q := by
  constructor
  · rintro ⟨q', hq', hholds⟩
    obtain ⟨q, hq, hoptimise⟩ := (mem_optimiseAll _).mp hq'
    have hspeaks : ¬ saysNothing q = true := by
      rw [← optimise_eq_none_iff, hoptimise]
      simp
    refine ⟨struck q, (mem_struckAll _).mpr ⟨q, hq, by simp [hspeaks], rfl⟩, (ih q hq).mp ?_⟩
    intro q'' hq''
    rw [hoptimise, Option.some.injEq] at hq''
    rwa [← hq'']
  · rintro ⟨q', hq', hholds⟩
    obtain ⟨q, hq, hspeaks, rfl⟩ := (mem_struckAll _).mp hq'
    have hspeaks : ¬ saysNothing q = true := by simpa using hspeaks
    cases hoptimise : optimise q with
    | none => exact absurd ((optimise_eq_none_iff q).mp hoptimise) hspeaks
    | some q' =>
      have hq' := (ih q hq).mpr hholds q' hoptimise
      exact ⟨q', (mem_optimiseAll _).mpr ⟨q, hq, hoptimise⟩, hq'⟩

/-- Apart from what it strikes, optimisation keeps the meaning. -/
theorem holdsOptimised_iff {q : Query} (hparsed : Wql.isParsed q = true) :
    R.HoldsOptimised tags q ↔ R.Holds tags (struck q) := by
  unfold TagReading.HoldsOptimised
  induction q using query_induction with
  | compare op name value =>
    rw [optimise_query]
    simp only [Option.some.injEq, forall_eq']
    cases op <;> exact Iff.rfl
  | isIn name values =>
    obtain ⟨q, hq, hholds⟩ := exists_optimise_isIn name values
    simp only [hq, Option.some.injEq, forall_eq', hholds]
    exact Iff.rfl
  | not operator ih =>
    obtain ⟨q, hq, hholds⟩ := exists_optimise_not operator
    simp only [hq, Option.some.injEq, forall_eq', hholds]
    exact Iff.rfl
  | and operators ih =>
    rw [Wql.isParsed, Wql.allParsed_iff] at hparsed
    rw [optimise_and, holds_collapse_and, struck, R.holds_and]
    exact forall_optimiseAll_iff fun q hq => ih q hq (hparsed q hq)
  | or operators ih =>
    have hnothing := allSayNothing_iff operators
    rw [optimise_or, holds_collapse_or, optimiseAll_eq_nil_iff, struck]
    split
    · -- All operands say nothing: nothing is left, and each of them holds.
      rename_i hall
      have hnone : ∀ q ∈ operators, optimise q = none :=
        fun q hq => (optimise_eq_none_iff q).mpr (hnothing.mp hall q hq)
      simp only [eq_true hnone, true_or, true_iff]
      exact holds_of_saysNothing hparsed (by rw [saysNothing, hall])
    · rename_i hall
      rw [Wql.isParsed, Bool.and_eq_true, Wql.allParsed_iff] at hparsed
      have hsome : ¬ ∀ q ∈ operators, optimise q = none := by
        intro hnone
        exact hall (hnothing.mpr fun q hq => (optimise_eq_none_iff q).mp (hnone q hq))
      rw [or_iff_right hsome, R.holds_or]
      exact exists_optimiseAll_iff fun q hq => ih q hq (hparsed.2 q hq)

/-- The query that is searched for holds of the tags that meet the struck query. -/
theorem meets_optimised_iff {like : String → String → Bool} {q : Query}
    (hparsed : Wql.isParsed q = true) (tags : Tags) :
    meets like tags (optimised q) = true ↔ meets like tags (struck q) = true := by
  rw [← storedReading_holds_iff like tags (struck q), ← holdsOptimised_iff hparsed, optimised,
    TagReading.HoldsOptimised, ← storedReading_holds_iff]
  cases optimise q with
  | none => simp [(storedReading like).holds_and]
  | some q' => simp

/-- Striking operands only makes a query say more. -/
theorem meets_of_meets_struck {like : String → String → Bool} {q : Query} {tags : Tags}
    (h : meets like tags (struck q) = true) : meets like tags q = true := by
  rw [← storedReading_holds_iff] at h ⊢
  exact holds_of_holds_struck h

section Folds
variable {β : Type} {F : Query → β} {op : β → β → β} {e : β}

theorem elim_collapse {join : List Query → Query} (hright : ∀ b, op b e = b)
    (hjoin : ∀ qs, F (join qs) = qs.foldr (fun q b => op (F q) b) e) (operators : List Query) :
    (collapse join operators).elim e F = operators.foldr (fun q b => op (F q) b) e := by
  match operators with
  | [] => rfl
  | [operator] => exact (hright (F operator)).symm
  | operator :: operator' :: operators => exact hjoin _

/-- What a query collects from its comparisons, in order, is also collected from what optimisation
leaves of it. -/
theorem elim_optimise (hleft : ∀ b, op e b = b) (hright : ∀ b, op b e = b)
    (hand : ∀ qs, F (.and qs) = qs.foldr (fun q b => op (F q) b) e)
    (hor : ∀ qs, F (.or qs) = qs.foldr (fun q b => op (F q) b) e) (hnot : ∀ q, F (.not q) = F q)
    (hisIn : ∀ name value, F (.isIn name [value]) = F (.eq name value)) (q : Query) :
    (optimise q).elim e F = F q := by
  have hall : ∀ operators : List Query, (∀ q ∈ operators, (optimise q).elim e F = F q) →
      (optimiseAll operators).foldr (fun q b => op (F q) b) e =
        operators.foldr (fun q b => op (F q) b) e := by
    intro operators ih
    induction operators with
    | nil => rw [optimiseAll]
    | cons operator operators ihs =>
      obtain ⟨hoperator, hoperators⟩ := List.forall_mem_cons.mp ih
      rw [optimiseAll, List.foldr_append, List.foldr_cons, ihs hoperators, ← hoperator]
      cases optimise operator with
      | none => exact (hleft _).symm
      | some q' => rfl
  induction q using query_induction with
  | compare op' name value =>
    rw [optimise_query]
    rfl
  | isIn name values =>
    match values with
    | [] => simp [optimise]
    | [value] => simp [optimise, hisIn]
    | value :: value' :: values => simp [optimise]
  | and operators ih => rw [optimise_and, elim_collapse hright hand, hall operators ih, hand]
  | or operators ih => rw [optimise_or, elim_collapse hright hor, hall operators ih, hor]
  | not operator ih =>
    cases operator with
    | not nested => simp [optimise, hnot]
    | _ => simp [optimise]

variable (op e) in
/-- What the query that is searched for collects. -/
theorem fold_optimised (hleft : ∀ b, op e b = b) (hright : ∀ b, op b e = b)
    (hand : ∀ qs, F (.and qs) = qs.foldr (fun q b => op (F q) b) e)
    (hor : ∀ qs, F (.or qs) = qs.foldr (fun q b => op (F q) b) e) (hnot : ∀ q, F (.not q) = F q)
    (hisIn : ∀ name value, F (.isIn name [value]) = F (.eq name value)) (q : Query) :
    F (optimised q) = F q := by
  rw [← elim_optimise hleft hright hand hor hnot hisIn q, optimised]
  cases optimise q with
  | none => exact hand []
  | some q' => rfl

end Folds

theorem allNameTags_eq (operators : List Query) :
    allNameTags operators = operators.foldr (fun q b => namesTags q && b) true := by
  induction operators with
  | nil => rw [allNameTags, List.foldr_nil]
  | cons operator operators ih => rw [allNameTags, ih, List.foldr_cons]

theorem firstRefusal_eq (operators : List Query) :
    firstRefusal operators = operators.foldr (fun q b => (refusal q).or b) none := by
  induction operators with
  | nil => rw [firstRefusal, List.foldr_nil]
  | cons operator operators ih => rw [firstRefusal, ih, List.foldr_cons]

theorem namesTags_optimised (q : Query) : namesTags (optimised q) = namesTags q := by
  refine fold_optimised and true Bool.true_and Bool.and_true ?_ ?_ ?_ ?_ q
  · exact fun qs => by rw [namesTags, allNameTags_eq]
  · exact fun qs => by rw [namesTags, allNameTags_eq]
  · exact fun q => by rw [namesTags]
  · exact fun name value => by rw [namesTags, namesTags]

theorem refusal_optimised (q : Query) : refusal (optimised q) = refusal q := by
  refine fold_optimised Option.or none (fun _ => Option.none_or)
    (fun _ => Option.or_none) ?_ ?_ ?_ ?_ q
  · exact fun qs => by rw [refusal, firstRefusal_eq]
  · exact fun qs => by rw [refusal, firstRefusal_eq]
  · exact fun q => by rw [refusal]
  · exact fun name value => by rw [refusal, refusal]

/-- The optimised query holds of the same tags if the query still holds when the operands that say
nothing are struck out of its disjunctions. -/
theorem optimise_preserves_meaning_iff {value : Json} {q : Query}
    (hq : Wql.deserialize value = .ok q) (R : TagReading) (tags : Tags) :
    (R.Holds tags q ↔ optimise q = none ∨ ∃ q', optimise q = some q' ∧ R.Holds tags q') ↔
      (R.Holds tags q → R.Holds tags (struck q)) := by
  have hparsed := Wql.isParsed_of_deserialize hq
  have hoptimised : (optimise q = none ∨ ∃ q', optimise q = some q' ∧ R.Holds tags q') ↔
      R.Holds tags (struck q) := by
    rw [← holdsOptimised_iff hparsed, TagReading.HoldsOptimised]
    cases optimise q <;> simp
  rw [hoptimised]
  exact ⟨Iff.mp, fun h => ⟨h, holds_of_holds_struck⟩⟩

/-- `LIKE` with patterns that are taken literally. -/
def literalReading : TagReading := storedReading fun stored pattern => decide (stored = pattern)

/-- A record with the tag that the second operand wants. -/
def tagB : Tags := Finmap.singleton "b" "2"

theorem optimise_preserves_meaning_in :
    literalReading.Holds tagB (.or [.and [.eq "a" "1"], .isIn "b" ["2"]]) ∧
      (literalReading.Holds tagB (.or [.and [.eq "a" "1"], .isIn "b" ["2"]]) ↔
        optimise (.or [.and [.eq "a" "1"], .isIn "b" ["2"]]) = none ∨
          ∃ q', optimise (.or [.and [.eq "a" "1"], .isIn "b" ["2"]]) = some q' ∧
            literalReading.Holds tagB q') := by
  have hparsed : Wql.deserialize
      (.object [("$or", .array [.object [("$and", .array [.object [("a", .string "1")]])],
      .object [("b", .object [("$in", .array [.string "2"])])]])]) =
        .ok (.or [.and [.eq "a" "1"], .isIn "b" ["2"]]) := by
    rfl
  have hholds : literalReading.Holds tagB (.or [.and [.eq "a" "1"], .isIn "b" ["2"]]) := by
    rw [literalReading, storedReading_holds_iff]
    rfl
  exact ⟨hholds, (optimise_preserves_meaning_iff hparsed _ tagB).mpr fun h => h⟩

/-- The empty object is met by every record, but next to another operand of a disjunction it is
dropped. -/
theorem not_optimise_preserves_meaning :
    Wql.deserialize (.object [("$or", .array [.object [], .object [("a", .string "1")]])]) =
        .ok (.or [.and [], .eq "a" "1"]) ∧
      ¬ (literalReading.Holds ∅ (.or [.and [], .eq "a" "1"]) ↔
        optimise (.or [.and [], .eq "a" "1"]) = none ∨
          ∃ q', optimise (.or [.and [], .eq "a" "1"]) = some q' ∧ literalReading.Holds ∅ q') := by
  refine ⟨rfl, ?_⟩
  have hoptimise : optimise (.or [.and [], .eq "a" "1"]) = some (.eq "a" "1") := by
    rfl
  rw [hoptimise]
  simp [literalReading, storedReading_holds_iff, meets, meetsAny, meetsAll, tagCompares]

end Optimise

end SimpleAsset.Indy.Wallet
