import SimpleAsset.Indy.Anoncreds.Restriction

/-! What a restriction says, given what each of its comparisons says. -/
namespace SimpleAsset.Indy.Anoncreds
open SimpleAsset.Library

section Lists
variable {α : Type} {p p' : α → Bool} {l : List α}

theorem any_congr_of_mem (h : ∀ a ∈ l, p a = p' a) : l.any p = l.any p' := by
  induction l with
  | nil => rfl
  | cons a l ih =>
    rw [List.any_cons, List.any_cons, h a List.mem_cons_self, ih fun b hb =>
      h b (List.mem_cons_of_mem _ hb)]

theorem all_congr_of_mem (h : ∀ a ∈ l, p a = p' a) : l.all p = l.all p' := by
  induction l with
  | nil => rfl
  | cons a l ih =>
    rw [List.all_cons, List.all_cons, h a List.mem_cons_self, ih fun b hb =>
      h b (List.mem_cons_of_mem _ hb)]

end Lists

section Meaning

/-- The operators that restrictions may not use. -/
def Query.isOrdering : Query → Bool
  | .gt .. | .gte .. | .lt .. | .lte .. | .like .. => true
  | _ => false

/-- Induction on queries with one case for all operators that restrictions may not use. -/
theorem Query.induction {P : Query → Prop} (eq : ∀ tagName tagValue, P (.eq tagName tagValue))
    (neq : ∀ tagName tagValue, P (.neq tagName tagValue))
    (isIn : ∀ tagName tagValues, P (.isIn tagName tagValues))
    (and : ∀ operators, (∀ q ∈ operators, P q) → P (.and operators))
    (or : ∀ operators, (∀ q ∈ operators, P q) → P (.or operators))
    (not : ∀ operator, P operator → P (.not operator))
    (ordering : ∀ q : Query, q.isOrdering = true → P q) (q : Query) : P q := by
  refine @Query.rec P (fun qs => ∀ q ∈ qs, P q) and or not eq neq (fun _ _ => ordering _ rfl)
    (fun _ _ => ordering _ rfl)
    (fun _ _ => ordering _ rfl) (fun _ _ => ordering _ rfl) (fun _ _ => ordering _ rfl) isIn ?_ ?_ q
  · intro q hq
    cases hq
  · intro q qs hq hqs
    exact List.forall_mem_cons.mpr ⟨hq, hqs⟩

mutual

def Query.meaning (compare : String → String → Bool) : Query → Bool
  | .eq tagName tagValue => compare tagName tagValue
  | .neq tagName tagValue => !compare tagName tagValue
  | .isIn tagName tagValues => tagValues.any (compare tagName)
  | .and operators => meaningAll compare operators
  | .or operators => meaningAny compare operators
  | .not operator => !operator.meaning compare
  | .gt .. | .gte .. | .lt .. | .lte .. | .like .. => false

def meaningAll (compare : String → String → Bool) : List Query → Bool
  | [] => true
  | operator :: operators => operator.meaning compare && meaningAll compare operators

def meaningAny (compare : String → String → Bool) : List Query → Bool
  | [] => false
  | operator :: operators => operator.meaning compare || meaningAny compare operators

end

mutual

/-- The tags and values that a query compares. -/
def Query.comparisons : Query → List (String × String)
  | .eq tagName tagValue | .neq tagName tagValue => [(tagName, tagValue)]
  | .isIn tagName tagValues => tagValues.map (tagName, ·)
  | .and operators | .or operators => allComparisons operators
  | .not operator => operator.comparisons
  | .gt .. | .gte .. | .lt .. | .lte .. | .like .. => []

def allComparisons : List Query → List (String × String)
  | [] => []
  | operator :: operators => operator.comparisons ++ allComparisons operators

end

variable {compare compare' : String → String → Bool}

theorem meaningAll_eq (operators : List Query) :
    meaningAll compare operators = operators.all (·.meaning compare) := by
  induction operators with
  | nil => rfl
  | cons q qs ih => rw [meaningAll, List.all_cons, ih]

theorem meaningAny_eq (operators : List Query) :
    meaningAny compare operators = operators.any (·.meaning compare) := by
  induction operators with
  | nil => rfl
  | cons q qs ih => rw [meaningAny, List.any_cons, ih]

theorem mem_allComparisons {c : String × String} {operators : List Query} :
    c ∈ allComparisons operators ↔ ∃ q ∈ operators, c ∈ q.comparisons := by
  induction operators with
  | nil => simp [allComparisons]
  | cons q qs ih => rw [allComparisons, List.mem_append, ih, List.exists_mem_cons_iff]

end Meaning

section Evaluation
variable (lc : Lowercase) (values : ValueMap) (filter : Filter)

/-- The comparison that the verifier makes. -/
def filterCompare (tagName tagValue : String) : Bool :=
  (processFilter lc values filter tagName tagValue).isOk

theorem isOk_extendErr {α : Type} (msg : String) (r : IndyResult α) :
    (extendErr msg r).isOk = r.isOk := by
  cases r <;> rfl

theorem anyOperator_eq (operators : List Query) :
    anyOperator lc values filter operators = operators.any fun q =>
      (doProcessOperator lc values filter q).isOk := by
  induction operators with
  | nil => rfl
  | cons q qs ih => rw [anyOperator, List.any_cons, ih]

theorem isOk_doProcessOperators (operators : List Query) :
    (doProcessOperators lc values filter operators).isOk =
      operators.all fun q => (doProcessOperator lc values filter q).isOk := by
  induction operators with
  | nil => rfl
  | cons q qs ih =>
    rw [doProcessOperators, List.all_cons, ← ih]
    cases doProcessOperator lc values filter q <;> rfl

/-- The verifier accepts what the restriction says. -/
theorem isOk_doProcessOperator (q : Query) :
    (doProcessOperator lc values filter q).isOk = q.meaning (filterCompare lc values filter) := by
  induction q using Query.induction with
  | eq tagName tagValue => rw [doProcessOperator, isOk_extendErr, Query.meaning, filterCompare]
  | neq tagName tagValue =>
    rw [doProcessOperator, Query.meaning, filterCompare]
    cases (processFilter lc values filter tagName tagValue).isOk <;> rfl
  | isIn tagName tagValues =>
    rw [doProcessOperator, Query.meaning]
    unfold filterCompare
    cases tagValues.any fun val => (processFilter lc values filter tagName val).isOk <;> rfl
  | and operators ih =>
    rw [doProcessOperator, isOk_extendErr, Query.meaning, meaningAll_eq, isOk_doProcessOperators]
    exact all_congr_of_mem ih
  | or operators ih =>
    rw [doProcessOperator, Query.meaning, meaningAny_eq, anyOperator_eq, any_congr_of_mem ih]
    cases operators.any fun q => q.meaning (filterCompare lc values filter) <;> rfl
  | not operator ih =>
    rw [doProcessOperator, Query.meaning, ih]
    cases operator.meaning (filterCompare lc values filter) <;> rfl
  | ordering q hq => cases q <;> first | rfl | cases hq

end Evaluation

end SimpleAsset.Indy.Anoncreds
