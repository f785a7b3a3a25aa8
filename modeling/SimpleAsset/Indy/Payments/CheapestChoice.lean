import SimpleAsset.Library.Selections
import SimpleAsset.Indy.Payments.MinPrice

/-! The ways to be authorized by a constraint, and the one that `get_request_info_with_min_price`
finds. -/
namespace SimpleAsset.Indy.Payments
open SimpleAsset.Library

section Choices
variable (requesterInfo : RequesterInfo) (fees : Fees)

/-- The requester meets a ROLE leaf. -/
def RoleConstraint.isMet (constraint : RoleConstraint) : Bool :=
  constraint.sigCount = 0 ||
    ((constraint.role.all fun cRole => requesterInfo.role.any fun rRole => cRole = rRole ||
      cRole = "*") && decide (constraint.sigCount ≤ requesterInfo.sigCount) &&
      (constraint.offLedgerSignature || !requesterInfo.isOffLedgerSignature) &&
      (!constraint.needToBeOwner || requesterInfo.isOwner))

/-- The one price that all of the leaves have. -/
def commonPrice : List RoleConstraint → Option ℕ
  | [] => none
  | leaf :: leaves => if leaves.all fun other =>
      other.price fees = leaf.price fees then some (leaf.price fees) else none

mutual

/-- The choices, each by the ROLE leaves that it selects: one child at every OR, leaves that the
requester meets, none that is forbidden, and one price under every AND. -/
def choices : Constraint → List (List RoleConstraint)
  | .roleConstraint constraint => if constraint.isMet requesterInfo then [[constraint]] else []
  | .andConstraint authConstraints =>
    ((choicesEach authConstraints).sections.map List.flatten).filter fun leaves =>
      (commonPrice fees leaves).isSome
  | .orConstraint authConstraints => (choicesEach authConstraints).flatten
  | .forbiddenConstraint => []

def choicesEach : List Constraint → List (List (List RoleConstraint))
  | [] => []
  | constraint :: constraints => choices constraint :: choicesEach constraints

end

mutual

/-- The constraint and the parts of it that are looked at: every child of an OR, and the children of
an AND up to the first one that cannot be met. -/
def evaluated : Constraint → List Constraint
  | .roleConstraint constraint => [.roleConstraint constraint]
  | .andConstraint authConstraints =>
    .andConstraint authConstraints :: evaluatedWhileMet authConstraints
  | .orConstraint authConstraints => .orConstraint authConstraints :: evaluatedEach authConstraints
  | .forbiddenConstraint => [.forbiddenConstraint]

def evaluatedEach : List Constraint → List Constraint
  | [] => []
  | constraint :: constraints => evaluated constraint ++ evaluatedEach constraints

def evaluatedWhileMet : List Constraint → List Constraint
  | [] => []
  | constraint :: constraints =>
    evaluated constraint ++
      if (choices requesterInfo fees constraint).isEmpty then [] else evaluatedWhileMet constraints

end

/-- The cheapest choice is found, if there is one. -/
structure FindsCheapest (D : DebugFormat) (constraint : Constraint) : Prop where
  found : (∃ info, getRequestInfoWithMinPrice D requesterInfo fees constraint = .ok info) ↔
    choices requesterInfo fees constraint ≠ []
  chosen : ∀ info, getRequestInfoWithMinPrice D requesterInfo fees constraint = .ok info →
    ∃ leaves ∈ choices requesterInfo fees constraint, commonPrice fees leaves = some info.price ∧
      info.requirements = leaves.map RoleConstraint.requirement
  least : ∀ info, getRequestInfoWithMinPrice D requesterInfo fees constraint = .ok info →
    ∀ leaves ∈ choices requesterInfo fees constraint, ∀ price,
      commonPrice fees leaves = some price → info.price ≤ price

/-- Under an AND that is looked at and can be met, nothing is left to choose. -/
def NothingToChooseUnderAnd (constraint : Constraint) : Prop :=
  ∀ authConstraints, .andConstraint authConstraints ∈ evaluated requesterInfo fees constraint →
    choices requesterInfo fees (.andConstraint authConstraints) ≠ [] →
      ∀ child ∈ authConstraints, (choices requesterInfo fees child).length = 1

end Choices

section Trees
variable {requesterInfo : RequesterInfo} {fees : Fees} {D : DebugFormat}

theorem Constraint.induction {P : Constraint → Prop}
    (role : ∀ constraint, P (.roleConstraint constraint))
    (and : ∀ children, (∀ child ∈ children, P child) → P (.andConstraint children))
    (or : ∀ children, (∀ child ∈ children, P child) → P (.orConstraint children))
    (forbidden : P .forbiddenConstraint) (constraint : Constraint) : P constraint := by
  refine @Constraint.rec P (fun children => ∀ child ∈ children, P child) or and role forbidden ?_
    ?_ constraint
  · intro child hchild
    cases hchild
  · intro child children hchild hchildren
    exact List.forall_mem_cons.mpr ⟨hchild, hchildren⟩

theorem choicesEach_eq (constraints : List Constraint) :
    choicesEach requesterInfo fees constraints = constraints.map (choices requesterInfo fees) := by
  induction constraints with
  | nil => rfl
  | cons c cs ih => rw [choicesEach, List.map_cons, ih]

theorem evaluatedEach_eq (constraints : List Constraint) :
    evaluatedEach requesterInfo fees constraints = constraints.flatMap
      (evaluated requesterInfo fees) := by
  induction constraints with
  | nil => rfl
  | cons c cs ih => rw [evaluatedEach, List.flatMap_cons, ih]

variable (requesterInfo fees) in
/-- The children of an AND up to the first one that cannot be met. -/
def looked (children : List Constraint) : List Constraint :=
  match children with
  | [] => []
  | child :: children =>
    child :: if (choices requesterInfo fees child).isEmpty then [] else looked children

theorem evaluatedWhileMet_eq (constraints : List Constraint) :
    evaluatedWhileMet requesterInfo fees constraints =
    (looked requesterInfo fees constraints).flatMap (evaluated requesterInfo fees) := by
  induction constraints with
  | nil => rfl
  | cons c cs ih =>
    rw [evaluatedWhileMet, looked, List.flatMap_cons]
    split
    · rfl
    · rw [ih]

theorem self_mem_evaluated (constraint : Constraint) :
    constraint ∈ evaluated requesterInfo fees constraint := by
  cases constraint <;> simp [evaluated]

theorem mem_of_mem_looked {child : Constraint} {children : List Constraint}
    (h : child ∈ looked requesterInfo fees children) : child ∈ children := by
  induction children with
  | nil => exact h
  | cons first children ih =>
    rcases List.mem_cons.mp h with rfl | h
    · exact List.mem_cons_self
    · split at h
      · cases h
      · exact List.mem_cons_of_mem _ (ih h)

theorem mem_looked {child : Constraint} {children : List Constraint} (hchild : child ∈ children)
    (hall : ∀ c ∈ children, choices requesterInfo fees c ≠ []) :
    child ∈ looked requesterInfo fees children := by
  induction children with
  | nil => exact hchild
  | cons first children ih =>
    rw [looked, if_neg fun hempty => hall first List.mem_cons_self (List.isEmpty_iff.mp hempty)]
    rcases List.mem_cons.mp hchild with rfl | hchild
    · exact List.mem_cons_self
    · exact List.mem_cons_of_mem _ (ih hchild fun c hc => hall c (List.mem_cons_of_mem _ hc))

theorem mem_choices_and {children : List Constraint} {leaves : List RoleConstraint} :
    leaves ∈ choices requesterInfo fees (.andConstraint children) ↔
      ∃ selection ∈ (children.map (choices requesterInfo fees)).sections,
        selection.flatten = leaves ∧
        (commonPrice fees leaves).isSome = true := by
  rw [choices, choicesEach_eq, List.mem_filter, List.mem_map]
  tauto

end Trees

section Prices
variable {requesterInfo : RequesterInfo} {fees : Fees} {leaves : List RoleConstraint} {price : ℕ}

theorem commonPrice_eq_some_iff : commonPrice fees leaves = some price ↔
    leaves ≠ [] ∧ ∀ leaf ∈ leaves, leaf.price fees = price := by
  cases leaves with
  | nil => simp [commonPrice]
  | cons leaf leaves =>
    rw [commonPrice]
    split
    · rename_i hall
      rw [List.all_eq_true] at hall
      simp only [Option.some.injEq, ne_eq, reduceCtorEq, not_false_eq_true, true_and,
        List.forall_mem_cons]
      constructor
      · rintro rfl
        exact ⟨rfl, fun other hother => by simpa using hall other hother⟩
      · exact fun h => h.1
    · rename_i hall
      simp only [reduceCtorEq, false_iff, not_and, List.forall_mem_cons]
      rintro - hfirst
      subst hfirst
      exact fun hrest =>
        hall (List.all_eq_true.mpr fun other hother => by simpa using hrest other hother)

/-- Every choice has a price. -/
theorem exists_commonPrice (constraint : Constraint)
    (hleaves : leaves ∈ choices requesterInfo fees constraint) :
    ∃ price, commonPrice fees leaves = some price := by
  induction constraint using Constraint.induction generalizing leaves with
  | role constraint =>
    rw [choices] at hleaves
    split at hleaves
    · obtain rfl := List.mem_singleton.mp hleaves
      exact ⟨constraint.price fees, rfl⟩
    · cases hleaves
  | and children ih =>
    obtain ⟨-, -, -, hprice⟩ := mem_choices_and.mp hleaves
    exact Option.isSome_iff_exists.mp hprice
  | or children ih =>
    rw [choices, choicesEach_eq] at hleaves
    obtain ⟨l, hl, hmem⟩ := List.mem_flatten.mp hleaves
    obtain ⟨child, hchild, rfl⟩ := List.mem_map.mp hl
    exact ih child hchild hmem
  | forbidden => cases hleaves

theorem ne_nil_of_mem_choices {constraint : Constraint}
    (hleaves : leaves ∈ choices requesterInfo fees constraint) :
    leaves ≠ [] := by
  obtain ⟨price, hprice⟩ := exists_commonPrice constraint hleaves
  exact (commonPrice_eq_some_iff.mp hprice).1

end Prices

section Answers
variable {requesterInfo : RequesterInfo} {fees : Fees} {D : DebugFormat}

variable (fees) in
/-- Price and requirements of a choice. -/
def infoOf (leaves : List RoleConstraint) : RequestInfo :=
  ⟨(commonPrice fees leaves).getD 0, leaves.map RoleConstraint.requirement⟩

/-- A result with these requests, or an error when there is none. -/
def Answers (result : IndyResult (List RequestInfo)) (requests : List RequestInfo) : Prop :=
  (requests = [] ∧ ∃ e, result = .error e) ∨ (requests ≠ [] ∧ result = .ok requests)

variable (requesterInfo fees D) in
/-- What the code says of a constraint are its choices. -/
def AnswersChoices (constraint : Constraint) : Prop :=
  Answers (handleConstraint D requesterInfo fees constraint)
    ((choices requesterInfo fees constraint).map (infoOf fees))

theorem checkRole_eq_ok_iff {constraint : RoleConstraint} :
    checkRole D requesterInfo constraint = .ok () ↔
    (constraint.role.all fun cRole => requesterInfo.role.any fun rRole => cRole = rRole ||
      cRole = "*") = true := by
  unfold checkRole
  cases constraint.role with
  | none => simp
  | some cRole =>
    cases requesterInfo.role with
    | none => simp [notAllowed]
    | some rRole =>
      dsimp only
      split
      · rename_i h
        simp [notAllowed, h.1, h.2]
      · rename_i h
        by_cases heq : cRole = rRole
        · simp [heq]
        · have hany : cRole = "*" := by
            by_contra hne
            exact h ⟨heq, hne⟩
          simp [hany]

theorem meets_iff {constraint : RoleConstraint} :
    checkRequesterMeetToRoleConstraint D requesterInfo constraint = .ok () ↔
    constraint.isMet requesterInfo = true := by
  unfold checkRequesterMeetToRoleConstraint RoleConstraint.isMet
  split
  · rename_i hzero
    simp [hzero]
  · rename_i hzero
    rw [except_bind_eq_ok]
    simp only [Bool.or_eq_true, decide_eq_true_eq, hzero, false_or, Bool.and_eq_true]
    constructor
    · rintro ⟨⟨⟩, hrole, hrest⟩
      split at hrest
      · cases hrest
      · rename_i hsig
        split at hrest
        · cases hrest
        · rename_i hoff
          split at hrest
          · cases hrest
          · rename_i howner
            refine ⟨⟨⟨checkRole_eq_ok_iff.mp hrole, by omega⟩, ?_⟩, ?_⟩
            · cases h : constraint.offLedgerSignature <;> simp_all
            · cases h : constraint.needToBeOwner <;> simp_all
    · rintro ⟨⟨⟨hrole, hsig⟩, hoff⟩, howner⟩
      have hoff' : ¬ ((!constraint.offLedgerSignature) = true ∧
          requesterInfo.isOffLedgerSignature = true) := by
        rcases hoff with h | h <;> simp_all
      have howner' : ¬ (constraint.needToBeOwner = true ∧ (!requesterInfo.isOwner) = true) := by
        rcases howner with h | h <;> simp_all
      refine ⟨(), checkRole_eq_ok_iff.mpr hrole, ?_⟩
      rw [if_neg (by omega), if_neg hoff', if_neg howner']

theorem answersChoices_role (constraint : RoleConstraint) :
    AnswersChoices requesterInfo fees D (.roleConstraint constraint) := by
  unfold AnswersChoices
  rw [handleConstraint, handleRoleConstraint, choices]
  split
  · rename_i hmet
    rw [meets_iff.mpr hmet]
    exact .inr ⟨List.cons_ne_nil _ _, rfl⟩
  · rename_i hnot
    cases hcheck : checkRequesterMeetToRoleConstraint D requesterInfo constraint with
    | error e => exact .inl ⟨rfl, e, rfl⟩
    | ok u => exact absurd (meets_iff.mp hcheck) hnot

variable {children : List Constraint}

theorem collectMet_eq (h : ∀ child ∈ children, AnswersChoices requesterInfo fees D child) :
    collectMet D requesterInfo fees children =
      (children.flatMap (choices requesterInfo fees)).map (infoOf fees) := by
  induction children with
  | nil => rfl
  | cons child children ih =>
    rw [collectMet, List.flatMap_cons, List.map_append, ih fun c hc => h c (by simp [hc])]
    rcases h child (by simp) with ⟨hnone, e, herror⟩ | ⟨-, hok⟩
    · rw [herror, hnone]
      rfl
    · rw [hok]
      rfl

theorem answersChoices_or (h : ∀ child ∈ children, AnswersChoices requesterInfo fees D child) :
    AnswersChoices requesterInfo fees D (.orConstraint children) := by
  unfold AnswersChoices
  rw [handleConstraint, choices, choicesEach_eq, ← List.flatMap_def, collectMet_eq h]
  split
  · rename_i hempty
    exact .inl ⟨List.isEmpty_iff.mp hempty, _, rfl⟩
  · rename_i hsome
    exact .inr ⟨fun hnil => hsome (List.isEmpty_iff.mpr hnil), rfl⟩

/-- A child without a choice refuses the whole AND, whatever comes after it. -/
theorem collectAll_error
    (h : ∀ child ∈ looked requesterInfo fees children, AnswersChoices requesterInfo fees D child)
    {child : Constraint} (hchild : child ∈ children)
    (hnone : choices requesterInfo fees child = []) :
    ∃ e, collectAll D requesterInfo fees children = .error e := by
  induction children with
  | nil => cases hchild
  | cons first children ih =>
    rw [collectAll]
    rcases h first List.mem_cons_self with ⟨-, e, herror⟩ | ⟨hsome, hok⟩
    · exact ⟨e, by rw [herror]; rfl⟩
    · have hmet : choices requesterInfo fees first ≠ [] := by
        intro hnil
        rw [hnil] at hsome
        exact hsome rfl
      have hrest : child ∈ children := by
        rcases List.mem_cons.mp hchild with rfl | hmem
        · exact absurd hnone hmet
        · exact hmem
      rw [looked, if_neg fun hempty => hmet (List.isEmpty_iff.mp hempty)] at h
      obtain ⟨e, herror⟩ := ih (fun c hc => h c (List.mem_cons_of_mem _ hc)) hrest
      exact ⟨e, by rw [hok, herror]; rfl⟩

theorem collectAll_ok (h : ∀ child ∈ children, AnswersChoices requesterInfo fees D child)
    (hall : ∀ child ∈ children, choices requesterInfo fees child ≠ []) :
    collectAll D requesterInfo fees children =
      .ok (children.map fun child => (choices requesterInfo fees child).map (infoOf fees)) := by
  induction children with
  | nil => rfl
  | cons first children ih =>
    rw [collectAll, ih (fun c hc => h c (by simp [hc])) fun c hc => hall c (by simp [hc])]
    rcases h first (by simp) with ⟨hnone, -⟩ | ⟨-, hok⟩
    · exact absurd (List.map_eq_nil_iff.mp hnone) (hall first (by simp))
    · rw [hok]
      rfl

theorem price_infoOf {leaves : List RoleConstraint} {price : ℕ}
    (h : commonPrice fees leaves = some price) :
    (infoOf fees leaves).price = price := by
  rw [infoOf, h]
  rfl

/-- Groups of leaves with a price each have one price when all leaves do. -/
theorem all_price_eq_iff {each : List (List RoleConstraint)} (hne : each.flatten ≠ [])
    (h : ∀ leaves ∈ each, ∃ price, commonPrice fees leaves = some price) (price : ℕ) :
    (∀ x ∈ each.map (infoOf fees), x.price = price) ↔
    commonPrice fees each.flatten = some price := by
  rw [commonPrice_eq_some_iff]
  constructor
  · intro hall
    refine ⟨hne, fun leaf hleaf => ?_⟩
    obtain ⟨leaves, hleaves, hmem⟩ := List.mem_flatten.mp hleaf
    obtain ⟨other, hother⟩ := h leaves hleaves
    rw [(commonPrice_eq_some_iff.mp hother).2 leaf hmem, ← price_infoOf hother]
    exact hall _ (List.mem_map_of_mem hleaves)
  · rintro ⟨-, hall⟩ x hx
    obtain ⟨leaves, hleaves, rfl⟩ := List.mem_map.mp hx
    obtain ⟨other, hother⟩ := h leaves hleaves
    obtain ⟨hleavesNe, hprices⟩ := commonPrice_eq_some_iff.mp hother
    obtain ⟨leaf, hleaf⟩ := List.exists_mem_of_ne_nil leaves hleavesNe
    rw [price_infoOf hother, ← hprices leaf hleaf]
    exact hall leaf (List.mem_flatten.mpr ⟨leaves, hleaves, hleaf⟩)

/-- What the children answered is taken together, all their choices at once. -/
theorem mergeAll_answers {each : List (List RoleConstraint)}
    (h : ∀ leaves ∈ each, ∃ price, commonPrice fees leaves = some price) :
    Answers (mergeAll D (each.map (infoOf fees)))
      (if (commonPrice fees each.flatten).isSome then [infoOf fees each.flatten] else []) := by
  cases each with
  | nil => exact .inl ⟨rfl, _, rfl⟩
  | cons leaves each =>
    obtain ⟨price, hprice⟩ := h leaves (by simp)
    obtain ⟨hleaves, hprices⟩ := commonPrice_eq_some_iff.mp hprice
    have hsame := all_price_eq_iff (by simp [hleaves]) h price
    rw [List.map_cons, mergeAll, price_infoOf hprice, ← List.map_cons]
    split
    · rename_i hdifferent
      have hnone : commonPrice fees (leaves :: each).flatten = none := by
        by_contra hsome
        obtain ⟨other, hother⟩ := Option.ne_none_iff_exists'.mp hsome
        obtain ⟨leaf, hleaf⟩ := List.exists_mem_of_ne_nil leaves hleaves
        have heq : other = price := by
          rw [← (commonPrice_eq_some_iff.mp hother).2 leaf (by simp [hleaf])]
          exact hprices leaf hleaf
        obtain ⟨x, hx, hne⟩ := List.any_eq_true.mp hdifferent
        exact absurd (hsame.mpr (heq ▸ hother) x hx) (by simpa using hne)
      exact .inl ⟨by rw [hnone]; rfl, _, rfl⟩
    · rename_i hequal
      have hall : ∀ x ∈ (leaves :: each).map (infoOf fees), x.price = price := by
        intro x hx
        by_contra hne
        exact hequal (List.any_eq_true.mpr ⟨x, hx, by simpa using hne⟩)
      have hcommon := hsame.mp hall
      rw [hcommon, Option.isSome_some, if_pos rfl]
      refine .inr ⟨List.cons_ne_nil _ _, ?_⟩
      rw [infoOf, hcommon, Option.getD_some, List.map_map, List.map_flatten]
      rfl

/-- What the code says of an AND: all choices of all children at once, when they have one price. -/
theorem handle_and_answers (h : ∀ child ∈ children, AnswersChoices requesterInfo fees D child)
    (hall : ∀ child ∈ children, choices requesterInfo fees child ≠ []) :
    Answers (handleConstraint D requesterInfo fees (.andConstraint children))
      (if (commonPrice fees (children.flatMap (choices requesterInfo fees)).flatten).isSome then
        [infoOf fees (children.flatMap (choices requesterInfo fees)).flatten] else []) := by
  have hflatten :
      (children.map fun child => (choices requesterInfo fees child).map (infoOf fees)).flatten =
      (children.flatMap (choices requesterInfo fees)).map (infoOf fees) := by
    rw [List.map_flatMap, List.flatMap_def]
  rw [handleConstraint, collectAll_ok h hall]
  dsimp only
  rw [hflatten]
  apply mergeAll_answers
  intro leaves hleaves
  obtain ⟨child, -, hmem⟩ := List.mem_flatMap.mp hleaves
  exact exists_commonPrice child hmem

end Answers

section Exactness
variable {requesterInfo : RequesterInfo} {fees : Fees} {D : DebugFormat}
    {children : List Constraint}

theorem choices_and_ne_nil (h : choices requesterInfo fees (.andConstraint children) ≠ []) :
    ∀ child ∈ children, choices requesterInfo fees child ≠ [] := by
  obtain ⟨leaves, hleaves⟩ := List.exists_mem_of_ne_nil _ h
  obtain ⟨selection, hselection, -⟩ := mem_choices_and.mp hleaves
  exact fun child hchild => ne_nil_of_selection hselection (List.mem_map_of_mem hchild)

/-- One choice of each child has the price that all of their choices have. -/
theorem choices_and_of_commonPrice
    (hall : ∀ child ∈ children, choices requesterInfo fees child ≠ [])
    (hprice :
      (commonPrice fees (children.flatMap (choices requesterInfo fees)).flatten).isSome = true) :
    choices requesterInfo fees (.andConstraint children) ≠ [] := by
  obtain ⟨price, hprice⟩ := Option.isSome_iff_exists.mp hprice
  obtain ⟨hne, hleaves⟩ := commonPrice_eq_some_iff.mp hprice
  obtain ⟨selection, hselection⟩ : ∃ s,
      s ∈ (children.map (choices requesterInfo fees)).sections := by
    apply exists_selection
    intro l hl
    obtain ⟨child, hchild, rfl⟩ := List.mem_map.mp hl
    exact hall child hchild
  have hchosen : ∀ leaves ∈ selection, leaves ∈ children.flatMap (choices requesterInfo fees) := by
    intro leaves hmem
    rw [List.flatMap_def]
    exact mem_of_mem_selection hselection hmem
  have hnonempty : selection.flatten ≠ [] := by
    cases selection with
    | nil =>
      have hlength := List.mem_sections_length hselection
      obtain rfl : children = [] := by simpa using hlength.symm
      exact absurd rfl hne
    | cons leaves selection =>
      obtain ⟨child, -, hmem⟩ := List.mem_flatMap.mp (hchosen leaves (by simp))
      simp [ne_nil_of_mem_choices hmem]
  have hcommon : commonPrice fees selection.flatten = some price := by
    refine commonPrice_eq_some_iff.mpr ⟨hnonempty, fun leaf hleaf => hleaves leaf ?_⟩
    obtain ⟨leaves, hmem, hin⟩ := List.mem_flatten.mp hleaf
    exact List.mem_flatten.mpr ⟨leaves, hchosen leaves hmem, hin⟩
  exact List.ne_nil_of_mem (mem_choices_and.mpr ⟨selection, hselection, rfl, by rw [hcommon]; rfl⟩)

theorem choices_and_of_singles
    (hone : ∀ child ∈ children, (choices requesterInfo fees child).length = 1) :
    choices requesterInfo fees (.andConstraint children) =
      if (commonPrice fees (children.flatMap (choices requesterInfo fees)).flatten).isSome then
        [(children.flatMap (choices requesterInfo fees)).flatten] else [] := by
  have hsingles : children.map (choices requesterInfo fees) =
      (children.flatMap (choices requesterInfo fees)).map fun leaves => [leaves] := by
    induction children with
    | nil => rfl
    | cons child children ih =>
      obtain ⟨leaves, hleaves⟩ := List.length_eq_one_iff.mp (hone child (by simp))
      rw [List.map_cons, List.flatMap_cons, List.map_append, ← ih fun c hc =>
        hone c (by simp [hc]), hleaves]
      rfl
  rw [choices, choicesEach_eq, hsingles, sections_map_singleton, List.map_cons, List.map_nil,
    List.filter_cons, List.filter_nil]

theorem answersChoices_and
    (h : ∀ child ∈ looked requesterInfo fees children, AnswersChoices requesterInfo fees D child)
    (hone : choices requesterInfo fees (.andConstraint children) ≠ [] →
      ∀ child ∈ children, (choices requesterInfo fees child).length = 1) :
    AnswersChoices requesterInfo fees D (.andConstraint children) := by
  by_cases hall : ∀ child ∈ children, choices requesterInfo fees child ≠ []
  · have hanswers := handle_and_answers (fun child hchild => h child (mem_looked hchild hall)) hall
    unfold AnswersChoices
    by_cases hsome :
      (commonPrice fees (children.flatMap (choices requesterInfo fees)).flatten).isSome = true
    · rw [choices_and_of_singles (hone (choices_and_of_commonPrice hall hsome)), if_pos hsome]
      rwa [if_pos hsome] at hanswers
    · have hnone : choices requesterInfo fees (.andConstraint children) = [] := by
        by_contra hne
        rw [choices_and_of_singles (hone hne), if_neg hsome] at hne
        exact hne rfl
      rw [if_neg hsome] at hanswers
      rwa [hnone]
  · simp only [not_forall, not_not] at hall
    obtain ⟨child, hchild, hnone⟩ := hall
    have hnil : choices requesterInfo fees (.andConstraint children) = [] := by
      by_contra hne
      exact choices_and_ne_nil hne child hchild hnone
    obtain ⟨e, herror⟩ := collectAll_error h hchild hnone
    refine .inl ⟨by rw [hnil]; rfl, ?_⟩
    rw [handleConstraint, herror]
    exact ⟨_, rfl⟩

theorem minPrice_eq_ok_iff {constraint : Constraint} {info : RequestInfo} :
    getRequestInfoWithMinPrice D requesterInfo fees constraint = .ok info ↔
      ∃ infos, handleConstraint D requesterInfo fees constraint = .ok infos ∧
        infos.minOn? (·.price) = some info := by
  unfold getRequestInfoWithMinPrice
  rw [except_bind_eq_ok]
  refine exists_congr fun infos => and_congr_right fun _ => ?_
  cases infos.minOn? (·.price) with
  | none => simp
  | some least => simp

/-- From what is said of the constraint to what is found. -/
theorem AnswersChoices.findsCheapest {constraint : Constraint}
    (h : AnswersChoices requesterInfo fees D constraint) :
    FindsCheapest requesterInfo fees D constraint := by
  rcases h with ⟨hnone, e, herror⟩ | ⟨hsome, hok⟩
  · have hrefused : ∀ info,
        getRequestInfoWithMinPrice D requesterInfo fees constraint ≠ .ok info := by
      intro info hinfo
      obtain ⟨infos, hinfos, -⟩ := minPrice_eq_ok_iff.mp hinfo
      cases herror.symm.trans hinfos
    refine ⟨iff_of_false ?_ ?_, fun info hinfo => absurd hinfo (hrefused info),
      fun info hinfo => absurd hinfo (hrefused info)⟩
    · exact fun ⟨info, hinfo⟩ => hrefused info hinfo
    · exact not_not.mpr (List.map_eq_nil_iff.mp hnone)
  · have hleast : ∀ info, getRequestInfoWithMinPrice D requesterInfo fees constraint = .ok info →
        ((choices requesterInfo fees constraint).map (infoOf fees)).minOn?
        (·.price) = some info := by
      intro info hinfo
      obtain ⟨infos, hinfos, hmin⟩ := minPrice_eq_ok_iff.mp hinfo
      rwa [Except.ok.inj (hok.symm.trans hinfos)]
    refine ⟨iff_of_true ?_ ?_, fun info hinfo =>
      ?_, fun info hinfo leaves hleaves price hprice => ?_⟩
    · have hfound : (((choices requesterInfo fees constraint).map (infoOf fees)).minOn?
          (·.price)).isSome = true :=
        List.isSome_minOn?_iff.mpr hsome
      obtain ⟨info, hinfo⟩ := Option.isSome_iff_exists.mp hfound
      exact ⟨info, minPrice_eq_ok_iff.mpr ⟨_, hok, hinfo⟩⟩
    · exact fun hnil => hsome (by rw [hnil]; rfl)
    · obtain ⟨leaves, hleaves, rfl⟩ := List.mem_map.mp (List.minOn?_mem (hleast info hinfo))
      obtain ⟨price, hprice⟩ := exists_commonPrice constraint hleaves
      exact ⟨leaves, hleaves, by rw [hprice, price_infoOf hprice], rfl⟩
    · have hmem : infoOf fees leaves ∈ (choices requesterInfo fees constraint).map (infoOf fees) :=
        List.mem_map_of_mem hleaves
      have hle := List.apply_get_minOn?_le_of_mem (f := RequestInfo.price) hmem
      simp only [hleast info hinfo, Option.get_some] at hle
      rwa [price_infoOf hprice] at hle

/-- An AND that can be met and leaves a choice: the code merges the alternatives. -/
theorem length_eq_one_of_findsCheapest
    (h : ∀ child ∈ children, AnswersChoices requesterInfo fees D child)
    (hfinds : FindsCheapest requesterInfo fees D (.andConstraint children))
    (hne : choices requesterInfo fees (.andConstraint children) ≠ []) {child : Constraint}
    (hchild : child ∈ children) :
    (choices requesterInfo fees child).length = 1 := by
  obtain ⟨info, hinfo⟩ := hfinds.found.mpr hne
  obtain ⟨infos, hinfos, hmin⟩ := minPrice_eq_ok_iff.mp hinfo
  have hmerged : info = infoOf fees (children.flatMap (choices requesterInfo fees)).flatten := by
    rcases handle_and_answers h (choices_and_ne_nil hne) with ⟨-, e, herror⟩ | ⟨hsome, hok⟩
    · cases herror.symm.trans hinfos
    · have heq := Except.ok.inj (hok.symm.trans hinfos)
      rw [← heq] at hmin
      have hmem := List.minOn?_mem hmin
      split at hmem
      · exact List.mem_singleton.mp hmem
      · cases hmem
  obtain ⟨leaves, hleaves, -, hrequirements⟩ := hfinds.chosen info hinfo
  obtain ⟨selection, hselection, rfl, -⟩ := mem_choices_and.mp hleaves
  have hlength : (children.map (choices requesterInfo fees)).flatten.flatten.length =
      selection.flatten.length := by
    have hmap := congrArg List.length hrequirements
    rwa [hmerged, infoOf, List.length_map, List.length_map, List.flatMap_def] at hmap
  by_contra hmore
  have hlt := length_lt_of_selection ?_ hselection (List.mem_map_of_mem hchild) hmore
  · omega
  · intro l hl x hx
    obtain ⟨c, -, rfl⟩ := List.mem_map.mp hl
    exact ne_nil_of_mem_choices hx

theorem mem_evaluated_and {s : Constraint} :
    s ∈ evaluated requesterInfo fees (.andConstraint children) ↔
    s = .andConstraint children ∨ ∃ child ∈ looked requesterInfo fees children,
      s ∈ evaluated requesterInfo fees child := by
  rw [evaluated, List.mem_cons, evaluatedWhileMet_eq, List.mem_flatMap]

theorem mem_evaluated_or {s : Constraint} :
    s ∈ evaluated requesterInfo fees (.orConstraint children) ↔
    s = .orConstraint children ∨ ∃ child ∈ children, s ∈ evaluated requesterInfo fees child := by
  rw [evaluated, List.mem_cons, evaluatedEach_eq, List.mem_flatMap]

theorem answersChoices_of_nothingToChoose (constraint : Constraint)
    (h : NothingToChooseUnderAnd requesterInfo fees constraint) :
    AnswersChoices requesterInfo fees D constraint := by
  induction constraint using Constraint.induction with
  | role constraint => exact answersChoices_role constraint
  | and children ih =>
    refine answersChoices_and (fun child hchild => ?_) (h children (self_mem_evaluated _))
    refine ih child (mem_of_mem_looked hchild) fun cs hcs => ?_
    exact h cs (mem_evaluated_and.mpr (Or.inr ⟨child, hchild, hcs⟩))
  | or children ih =>
    refine answersChoices_or fun child hchild => ih child hchild fun cs hcs => ?_
    exact h cs (mem_evaluated_or.mpr (Or.inr ⟨child, hchild, hcs⟩))
  | forbidden => exact .inl ⟨rfl, _, rfl⟩

theorem nothingToChoose_of_findsCheapest (constraint : Constraint)
    (h : ∀ s ∈ evaluated requesterInfo fees constraint, FindsCheapest requesterInfo fees D s) :
    NothingToChooseUnderAnd requesterInfo fees constraint := by
  induction constraint using Constraint.induction with
  | role constraint => simp [NothingToChooseUnderAnd, evaluated]
  | and children ih =>
    have hchildren : ∀ child ∈ looked requesterInfo fees children,
        NothingToChooseUnderAnd requesterInfo fees child :=
      fun child hchild => ih child (mem_of_mem_looked hchild) fun s hs =>
        h s (mem_evaluated_and.mpr (Or.inr ⟨child, hchild, hs⟩))
    intro cs hcs
    rcases mem_evaluated_and.mp hcs with heq | ⟨child, hchild, hmem⟩
    · obtain rfl := Constraint.andConstraint.inj heq
      intro hne child hchild
      refine length_eq_one_of_findsCheapest (fun c hc => ?_) (h _ (self_mem_evaluated _)) hne hchild
      -- All children of an AND that can be met are looked at.
      exact answersChoices_of_nothingToChoose c
        (hchildren c (mem_looked hc (choices_and_ne_nil hne)))
    · exact hchildren child hchild cs hmem
  | or children ih =>
    intro cs hcs
    rcases mem_evaluated_or.mp hcs with heq | ⟨child, hchild, hmem⟩
    · cases heq
    · exact ih child hchild
        (fun s hs => h s (mem_evaluated_or.mpr (Or.inr ⟨child, hchild, hs⟩))) cs hmem
  | forbidden => simp [NothingToChooseUnderAnd, evaluated]

theorem evaluated_trans {t s : Constraint} (constraint : Constraint)
    (ht : t ∈ evaluated requesterInfo fees s) (hs : s ∈ evaluated requesterInfo fees constraint) :
    t ∈ evaluated requesterInfo fees constraint := by
  induction constraint using Constraint.induction with
  | role constraint =>
    obtain rfl := List.mem_singleton.mp hs
    exact ht
  | and children ih =>
    rcases mem_evaluated_and.mp hs with rfl | ⟨child, hchild, hmem⟩
    · exact ht
    · exact mem_evaluated_and.mpr (Or.inr ⟨child, hchild, ih child (mem_of_mem_looked hchild) hmem⟩)
  | or children ih =>
    rcases mem_evaluated_or.mp hs with rfl | ⟨child, hchild, hmem⟩
    · exact ht
    · exact mem_evaluated_or.mpr (Or.inr ⟨child, hchild, ih child hchild hmem⟩)
  | forbidden =>
    obtain rfl := List.mem_singleton.mp hs
    exact ht

/-- When the cheapest way is found: when under every AND that is looked at and can be met nothing is
left to choose. This is also needed, if it is to be found for every part of the constraint that is
looked at. -/
theorem cheapest_found_iff (D : DebugFormat) (requesterInfo : RequesterInfo) (fees : Fees)
    (constraint : Constraint) :
    ((∀ s ∈ evaluated requesterInfo fees constraint, FindsCheapest requesterInfo fees D s) ↔
      NothingToChooseUnderAnd requesterInfo fees constraint) ∧
    (NothingToChooseUnderAnd requesterInfo fees constraint →
      FindsCheapest requesterInfo fees D constraint) := by
  have hself : ∀ s, NothingToChooseUnderAnd requesterInfo fees s →
      FindsCheapest requesterInfo fees D s :=
    fun s h => (answersChoices_of_nothingToChoose s h).findsCheapest
  refine ⟨⟨nothingToChoose_of_findsCheapest constraint, fun h s hs =>
    hself s fun children hchildren => ?_⟩, hself constraint⟩
  exact h children (evaluated_trans constraint hchildren hs)

section Alternatives

def sampleLeaf (role fee : String) (needToBeOwner : Bool) : RoleConstraint :=
  ⟨1, some role, some (.object [("fees", .string fee)]), needToBeOwner, false⟩

/-- A trustee or an owner, and an owner: only the second alternative has the price of the other
leaf. -/
def trusteeOrOwnerAndOwner : Constraint :=
  .andConstraint [.orConstraint
    [.roleConstraint (sampleLeaf "0" "1" false), .roleConstraint (sampleLeaf "*" "2" true)],
    .roleConstraint (sampleLeaf "*" "2" true)]

def twoPrices : Fees := ((∅ : Fees).insert "1" 20).insert "2" 10

/-- An owning trustee is refused, with two owner leaves to be authorized by. -/
theorem authorized_trustee_refused :
    ¬ FindsCheapest ⟨some "0", 1, true, false⟩ twoPrices ⟨id, fun _ => "", fun _ => "", fun _ => ""⟩
      trusteeOrOwnerAndOwner := by
  intro h
  have hchoices : choices ⟨some "0", 1, true, false⟩ twoPrices trusteeOrOwnerAndOwner ≠ [] :=
    List.ne_nil_of_length_pos (by decide)
  obtain ⟨info, hinfo⟩ := h.found.mpr hchoices
  have hrefused : (getRequestInfoWithMinPrice ⟨id, fun _ => "", fun _ => "", fun _ => ""⟩
      ⟨some "0", 1, true, false⟩ twoPrices trusteeOrOwnerAndOwner).toOption = none := by decide
  rw [hinfo] at hrefused
  cases hrefused

end Alternatives

end Exactness

end SimpleAsset.Indy.Payments
