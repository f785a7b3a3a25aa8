import Mathlib.Data.List.Chain
import SimpleAsset.Indy.Wallet.SqlText

/-! The conditions of SQL that a search is written in, and the clauses whose text is one of them. -/
namespace SimpleAsset.Indy.Wallet
open SimpleAsset.Library

section Grammar

/-- Boolean conditions on the tags of an item. -/
inductive SqlCondition
  | test (table : TagTable) (op : CompareOp)
  /-- `IN` over a placeholder and some more. -/
  | isIn (table : TagTable) (more : ℕ)
  | group (condition : SqlCondition)
  /-- Two conditions or more with `AND` or `OR` between them. -/
  | joined (conjunction : Bool) (first second : SqlCondition) (rest : List SqlCondition)
  | not (condition : SqlCondition)

namespace SqlCondition

mutual

def text : SqlCondition → List Char
  | test table op => tagHead table ++ testTail op
  | isIn table more => tagHead table ++ inTail (placeholders (more + 1))
  | group condition => '(' :: text condition ++ [')']
  | joined conjunction first second rest =>
    '(' :: text first ++
      (joint conjunction ++ text second ++ followText (joint conjunction) rest) ++ [')']
  | not condition => "NOT (".toList ++ text condition ++ [')']

def followText (separator : List Char) : List SqlCondition → List Char
  | [] => []
  | condition :: conditions => separator ++ text condition ++ followText separator conditions

end

theorem text_test (table : TagTable) (op : CompareOp) :
    (test table op).text = tagHead table ++ testTail op := rfl

theorem text_isIn (table : TagTable) (more : ℕ) :
    (isIn table more).text = tagHead table ++ inTail (placeholders (more + 1)) := rfl

theorem text_group_eq (condition : SqlCondition) :
    (group condition).text = '(' :: condition.text ++ [')'] := rfl

theorem text_joined_eq (conjunction : Bool) (first second : SqlCondition)
    (rest : List SqlCondition) :
    (joined conjunction first second rest).text =
      '(' :: first.text ++
      (joint conjunction ++ second.text ++ followText (joint conjunction) rest) ++ [')'] := rfl

theorem text_not (condition : SqlCondition) :
    (not condition).text = "NOT (".toList ++ condition.text ++ [')'] := rfl

/-- Conditions with a separator between them. -/
def innerText (separator : List Char) : List SqlCondition → List Char
  | [] => []
  | condition :: conditions => text condition ++ followText separator conditions

end SqlCondition

/-- A statement with a condition, or without one. -/
def statementWith (base : String) : Option SqlCondition → String
  | none => base
  | some condition => base ++ " AND " ++ String.ofList condition.text

def IsStatement (base text : String) : Prop :=
  ∃ condition : Option SqlCondition, text = statementWith base condition

theorem append_and_ne (base : String) (l : List Char) :
    base ++ " AND " ++ String.ofList l ≠ base := by
  intro heq
  have hlength := congrArg (fun s : String => s.toList.length) heq
  simp only [String.toList_append, List.length_append] at hlength
  have hand : " AND ".toList.length = 5 := rfl
  omega

theorem append_and_inj {base : String} {l l' : List Char} :
    base ++ " AND " ++ String.ofList l = base ++ " AND " ++ String.ofList l' ↔ l = l' := by
  rw [← String.toList_inj]
  simp only [String.toList_append, String.toList_ofList, List.append_cancel_left_eq]

end Grammar

section Tidy

/-- No empty parentheses, and no comma or space without something next to it. -/
def Adjacent (a b : Char) : Prop :=
  (a, b) ∉ [('(', ')'), (',', ')'), ('(', ' '), (' ', ')'), (' ', ' ')]

instance (a b : Char) : Decidable (Adjacent a b) :=
  inferInstanceAs
    (Decidable ((a, b) ∉ [('(', ')'), (',', ')'), ('(', ' '), (' ', ')'), (' ', ' ')]))

/-- Texts that can stand in parentheses and between the words of a condition. -/
structure Framed (text : List Char) : Prop where
  chain : text.IsChain Adjacent
  first : text.head? = some '(' ∨ text.head? = some 'N'
  last : text.getLast? = some ')'

theorem isChain_append {l l' : List Char} {a b : Char} (h : l.IsChain Adjacent)
    (h' : l'.IsChain Adjacent)
    (hlast : l.getLast? = some a) (hfirst : l'.head? = some b) (hadjacent : Adjacent a b) :
    (l ++ l').IsChain Adjacent := by
  refine List.isChain_append.mpr ⟨h, h', ?_⟩
  intro x hx y hy
  rw [hlast, Option.mem_some_iff] at hx
  rw [hfirst, Option.mem_some_iff] at hy
  rwa [← hx, ← hy]

theorem Framed.ne_nil {text : List Char} (h : Framed text) : text ≠ [] := by
  rintro rfl
  have hlast := h.last
  simp at hlast

/-- What stands before a framed text stays tidy. -/
theorem Framed.chain_append {l text : List Char} {a : Char} (h : Framed text)
    (hl : l.IsChain Adjacent)
    (hlast : l.getLast? = some a) (ha : a = '(' ∨ a = ' ') : (l ++ text).IsChain Adjacent := by
  rcases h.first with hfirst | hfirst
  · refine isChain_append hl h.chain hlast hfirst ?_
    rcases ha with rfl | rfl <;> decide
  · refine isChain_append hl h.chain hlast hfirst ?_
    rcases ha with rfl | rfl <;> decide

theorem tagHead_chain (table : TagTable) : (tagHead table).IsChain Adjacent := by
  cases table <;> decide +kernel

theorem tagHead_head (table : TagTable) : (tagHead table).head? = some '(' := by
  cases table <;> decide

theorem tagHead_last (table : TagTable) : (tagHead table).getLast? = some ' ' := by
  cases table <;> decide

theorem testTail_chain (op : CompareOp) : (testTail op).IsChain Adjacent := by
  cases op <;> decide

theorem testTail_last (op : CompareOp) : (testTail op).getLast? = some ')' := by
  cases op <;> decide

theorem testTail_head (op : CompareOp) : ∃ c, (testTail op).head? = some c ∧ Adjacent ' ' c := by
  cases op
  all_goals exact ⟨_, rfl, by decide⟩

theorem Framed.append_last {l : List Char} {text : List Char} (h : Framed text) :
    (l ++ text).getLast? = some ')' := by
  rw [List.getLast?_append_of_ne_nil _ h.ne_nil, h.last]

theorem joint_chain (conjunction : Bool) : (joint conjunction).IsChain Adjacent := by
  cases conjunction <;> decide

theorem joint_head (conjunction : Bool) : (joint conjunction).head? = some ' ' := by
  cases conjunction <;> rfl

theorem joint_last (conjunction : Bool) : (joint conjunction).getLast? = some ' ' := by
  cases conjunction <;> rfl

theorem framed_test (table : TagTable) (op : CompareOp) :
    Framed (tagHead table ++ testTail op) where
  chain := by
    obtain ⟨c, hhead, hadjacent⟩ := testTail_head op
    exact isChain_append (tagHead_chain table) (testTail_chain op)
      (tagHead_last table) hhead hadjacent
  first := by
    rw [List.head?_append, tagHead_head]
    exact Or.inl rfl
  last := by
    rw [List.getLast?_append, testTail_last]
    rfl

theorem placeholders_chain (n : ℕ) : (placeholders (n + 1)).IsChain Adjacent ∧
    (placeholders (n + 1)).head? = some '?' ∧ (placeholders (n + 1)).getLast? = some '?' := by
  induction n with
  | zero => decide
  | succ n ih =>
    obtain ⟨hchain, hhead, hlast⟩ := ih
    rw [placeholders]
    refine ⟨@isChain_append ['?', ','] _ ',' '?' (by decide) hchain rfl hhead (by decide), rfl, ?_⟩
    rw [List.getLast?_cons, List.getLast?_cons, hlast]
    rfl

theorem framed_isIn (table : TagTable) (more : ℕ) :
    Framed (tagHead table ++ inTail (placeholders (more + 1))) := by
  obtain ⟨hchain, hhead, hlast⟩ := placeholders_chain more
  have hopen : ("IN (".toList ++ placeholders (more + 1)).IsChain Adjacent :=
    isChain_append (by decide) hchain rfl hhead (by decide)
  have hopenLast : ("IN (".toList ++ placeholders (more + 1)).getLast? = some '?' := by
    rw [List.getLast?_append, hlast]
    rfl
  have htail : (inTail (placeholders (more + 1))).IsChain Adjacent :=
    isChain_append hopen (by decide) hopenLast rfl (by decide)
  constructor
  · refine isChain_append (tagHead_chain table) htail (tagHead_last table) (b := 'I') ?_ (by decide)
    rfl
  · rw [List.head?_append, tagHead_head]
    exact Or.inl rfl
  · rw [inTail_eq, List.getLast?_append, List.getLast?_append]
    rfl

theorem Framed.closed {text : List Char} (h : Framed text) {front : List Char}
    (hfront : front.IsChain Adjacent)
    (hlast : front.getLast? = some '(') (hfirst : front.head? = some '(' ∨ front.head? = some 'N') :
    Framed (front ++ text ++ [')']) where
  chain := by
    refine isChain_append (h.chain_append hfront hlast (Or.inl rfl))
      (List.isChain_singleton _) h.append_last rfl ?_
    decide
  first := by
    have hne : front ≠ [] := by
      rintro rfl
      simp at hlast
    rwa [List.append_assoc, List.head?_append_of_ne_nil _ hne]
  last := by simp

theorem Framed.group {text : List Char} (h : Framed text) : Framed ('(' :: text ++ [')']) :=
  @Framed.closed text h ['('] (by decide) rfl (Or.inl rfl)

theorem Framed.not {text : List Char} (h : Framed text) :
    Framed ("NOT (".toList ++ text ++ [')']) :=
  h.closed (by decide) rfl (Or.inr rfl)

theorem Framed.joint {text text' : List Char} (h : Framed text) (h' : Framed text')
    (conjunction : Bool) :
    Framed (text ++ (Wallet.joint conjunction ++ text')) where
  chain := by
    have hjoint := h'.chain_append (joint_chain conjunction) (joint_last conjunction) (Or.inr rfl)
    refine isChain_append h.chain hjoint h.last (b := ' ') ?_ (by decide)
    rw [List.head?_append, joint_head]
    rfl
  first := by
    rw [List.head?_append_of_ne_nil _ h.ne_nil]
    exact h.first
  last := by rw [← List.append_assoc, h'.append_last]

mutual

theorem SqlCondition.framed : (condition : SqlCondition) → Framed condition.text
  | .test table op => by
    rw [text_test]
    exact framed_test table op
  | .isIn table more => by
    rw [text_isIn]
    exact framed_isIn table more
  | .group condition => by
    rw [text_group_eq]
    exact (framed condition).group
  | .joined conjunction first second rest => by
    have hinner :=
      (framed_followText conjunction rest ((framed first).joint (framed second) conjunction)).group
    simpa only [text_joined_eq, List.cons_append, List.append_assoc] using hinner
  | .not condition => by
    rw [text_not]
    exact (framed condition).not

theorem SqlCondition.framed_followText (conjunction : Bool) :
    (conditions : List SqlCondition) → ∀ {front : List Char},
    Framed front → Framed (front ++ followText (joint conjunction) conditions)
  | [], front, h => by
    rwa [followText, List.append_nil]
  | condition :: conditions, front, h => by
    rw [followText, ← List.append_assoc]
    exact framed_followText conjunction conditions (h.joint (framed condition) conjunction)

end

end Tidy

section Conditions

def Condition.inTable (table : TagTable) : Condition → Option SqlCondition
  | .test op _ => some (.test table op)
  | .isIn [] _ => none
  | .isIn (_ :: more) trailingComma =>
    if trailingComma then none else some (.isIn table more.length)

def joinConditions (conjunction : Bool) : List SqlCondition → Option SqlCondition
  | [] => none
  | [condition] => some (.group condition)
  | first :: second :: rest => some (.joined conjunction first second rest)

mutual

/-- The condition that a clause is written as, if nothing is missing in it and no comma is left
over. -/
def Clause.condition : Clause → Option SqlCondition
  | .empty => none
  | .tag name condition => condition.inTable name.table
  | .joined conjunction clauses => do
    let conditions ← Clause.conditions clauses
    joinConditions conjunction conditions
  | .not clause => do
    let condition ← Clause.condition clause
    pure (.not condition)

def Clause.conditions : List Clause → Option (List SqlCondition)
  | [] => some []
  | clause :: clauses => do
    let condition ← Clause.condition clause
    let conditions ← Clause.conditions clauses
    pure (condition :: conditions)

end

theorem text_inTable {table : TagTable} {condition : Condition} {c : SqlCondition}
    (h : condition.inTable table = some c) : c.text = tagHead table ++ condition.text := by
  rcases condition with ⟨op, value⟩ | ⟨_ | ⟨value, more⟩, trailingComma⟩
  · obtain rfl := Option.some.inj h
    rw [SqlCondition.text_test, Condition.text]
  · cases h
  · rw [Condition.inTable] at h
    split_ifs at h with hcomma
    obtain rfl := Option.some.inj h
    rw [SqlCondition.text_isIn, Condition.text, if_neg hcomma, List.append_nil, List.length_cons]

theorem text_joinConditions {conjunction : Bool} {c : SqlCondition} {conditions : List SqlCondition}
    (h : joinConditions conjunction conditions = some c) :
    c.text = '(' :: SqlCondition.innerText (joint conjunction) conditions ++ [')'] := by
  rcases conditions with _ | ⟨condition, _ | ⟨second, rest⟩⟩
  · cases h
  · obtain rfl := Option.some.inj h
    simp only [SqlCondition.text_group_eq, SqlCondition.innerText, SqlCondition.followText,
      List.append_nil]
  · obtain rfl := Option.some.inj h
    simp only [SqlCondition.text_joined_eq, SqlCondition.innerText, SqlCondition.followText,
      List.cons_append, List.append_assoc]

theorem innerText_cons (separator : List Char) (condition : SqlCondition)
    (conditions : List SqlCondition) :
    SqlCondition.innerText separator (condition :: conditions) =
      condition.text ++
        ((if conditions = [] then [] else separator) ++
          SqlCondition.innerText separator conditions) := by
  cases conditions with
  | nil => simp [SqlCondition.innerText, SqlCondition.followText]
  | cons second rest => simp [SqlCondition.innerText, SqlCondition.followText]

mutual

/-- A clause is written as its condition. -/
theorem text_of_condition : (clause : Clause) → ∀ {c : SqlCondition}, clause.condition = some c →
    c.text = clause.text
  | .empty, c, h => by
    rw [Clause.condition] at h
    cases h
  | .tag name condition, c, h => by
    rw [Clause.condition] at h
    rw [Clause.text_tag, text_inTable h]
  | .joined conjunction clauses, c, h => by
    rw [Clause.condition, Option.bind_eq_bind, Option.bind_eq_some_iff] at h
    obtain ⟨conditions, hconditions, hjoin⟩ := h
    rw [Clause.text_joined, text_joinConditions hjoin, (text_of_conditions _ clauses hconditions).2]
  | .not clause, c, h => by
    rw [Clause.condition, Option.bind_eq_bind, Option.bind_eq_some_iff] at h
    obtain ⟨condition, hcondition, hnot⟩ := h
    obtain rfl := Option.some.inj hnot
    rw [SqlCondition.text_not, Clause.text_not, text_of_condition clause hcondition]

theorem text_of_conditions (separator : List Char) :
    (clauses : List Clause) → ∀ {conditions : List SqlCondition},
    Clause.conditions clauses = some conditions →
      (clauses = [] ↔ conditions = []) ∧
        SqlCondition.innerText separator conditions = Clause.joinedText separator clauses
  | [], conditions, h => by
    simp only [Clause.conditions, Option.some.injEq] at h
    rw [← h, SqlCondition.innerText, Clause.joinedText]
    simp
  | clause :: clauses, conditions, h => by
    rw [Clause.conditions, Option.bind_eq_bind, Option.bind_eq_some_iff] at h
    obtain ⟨condition, hcondition, h⟩ := h
    obtain ⟨conditions', hconditions, h⟩ := Option.bind_eq_some_iff.mp h
    obtain rfl := Option.some.inj h
    obtain ⟨hempty, htext⟩ := text_of_conditions separator clauses hconditions
    refine ⟨by simp, ?_⟩
    rw [innerText_cons, Clause.joinedText, htext, text_of_condition clause hcondition,
      List.append_assoc]
    simp only [hempty]

end

/-- A clause with a gap is empty, or its text has a pair that no condition has. -/
def Gap (text : List Char) : Prop := text = [] ∨ ¬ text.IsChain Adjacent

theorem chain_middle (l r : List Char) {text middle : List Char} (hchain : text.IsChain Adjacent)
    (h : text = l ++ middle ++ r) : middle.IsChain Adjacent := by
  rw [h] at hchain
  exact hchain.left_of_append.right_of_append

theorem not_chain_of_pair {text : List Char} {a b : Char} (hab : ¬ Adjacent a b) (l r : List Char)
    (h : text = l ++ a :: b :: r) : ¬ text.IsChain Adjacent := by
  intro hchain
  have hpair : text = l ++ [a, b] ++ r := by simp [h]
  exact hab (List.isChain_pair.mp (chain_middle l r hchain hpair))

theorem gap_inTable {table : TagTable} {condition : Condition}
    (h : condition.inTable table = none) :
    ¬ (tagHead table ++ condition.text).IsChain Adjacent := by
  have hcomma : ∀ values,
      ¬ (tagHead table ++ (Condition.isIn values true).text).IsChain Adjacent := by
    intro values
    apply not_chain_of_pair (a := ',') (b := ')') (by decide)
      (tagHead table ++ "IN (".toList ++ placeholders values.length) [')', ')']
    simp [Condition.text, inTail_eq]
  rcases condition with ⟨op, value⟩ | ⟨values, _ | _⟩
  · cases h
  · cases values with
    | nil =>
      apply not_chain_of_pair (a := '(') (b := ')') (by decide)
        (tagHead table ++ ['I', 'N', ' ']) [')', ')']
      simp [Condition.text, inTail_eq, placeholders]
    | cons value more => cases h
  · exact hcomma values

mutual

theorem gap_of_condition : (clause : Clause) → clause.condition = none → Gap clause.text
  | .empty, _ => by
    rw [Clause.text_empty]
    exact Or.inl rfl
  | .tag name condition, h => by
    rw [Clause.condition] at h
    rw [Clause.text_tag]
    exact Or.inr (gap_inTable h)
  | .joined conjunction clauses, h => by
    right
    rw [Clause.text_joined]
    cases hconditions : Clause.conditions clauses with
    | none => exact gap_of_conditions conjunction clauses hconditions '(' (Or.inl rfl)
    | some conditions =>
      rw [Clause.condition, hconditions] at h
      have hnil : conditions = [] := by
        rcases conditions with _ | ⟨c, _ | ⟨c', rest⟩⟩
        · rfl
        · cases h
        · cases h
      have hclauses := (text_of_conditions [] clauses hconditions).1.mpr hnil
      rw [hclauses, Clause.joinedText]
      decide
  | .not clause, h => by
    right
    rw [Clause.text_not]
    have hnone : clause.condition = none := by
      cases hcondition : clause.condition with
      | none => rfl
      | some condition =>
        rw [Clause.condition, hcondition] at h
        cases h
    rcases gap_of_condition clause hnone with hempty | hgap
    · rw [hempty]
      decide
    · exact fun hchain => hgap (chain_middle "NOT (".toList [')'] hchain rfl)

/-- Where a clause is missing, a parenthesis or a space stands next to another. -/
theorem gap_of_conditions (conjunction : Bool) :
    (clauses : List Clause) → Clause.conditions clauses = none →
    ∀ before : Char, before = '(' ∨ before = ' ' →
      ¬ (before :: Clause.joinedText (joint conjunction) clauses ++ [')']).IsChain Adjacent
  | [], h, _, _ => by
    rw [Clause.conditions] at h
    cases h
  | clause :: clauses, h, before, hbefore => by
    rw [Clause.joinedText]
    cases hcondition : clause.condition with
    | none =>
      rcases gap_of_condition clause hcondition with hempty | hgap
      · rw [hempty, List.nil_append]
        by_cases hclauses : clauses = []
        · rw [if_pos hclauses, hclauses, Clause.joinedText]
          rcases hbefore with rfl | rfl <;> decide
        · rw [if_neg hclauses]
          obtain ⟨rest, hrest⟩ : ∃ rest, joint conjunction = ' ' :: rest := by
            cases conjunction <;> exact ⟨_, rfl⟩
          have hpair : ¬ Adjacent before ' ' := by
            rcases hbefore with rfl | rfl <;> decide
          exact not_chain_of_pair hpair []
            (rest ++ Clause.joinedText (joint conjunction) clauses ++ [')']) (by simp [hrest])
      · refine fun hchain =>
          hgap (chain_middle [before] ((if clauses = [] then [] else joint conjunction) ++
          Clause.joinedText (joint conjunction) clauses ++ [')']) hchain (by simp))
    | some condition =>
      have hnone : Clause.conditions clauses = none := by
        cases hconditions : Clause.conditions clauses with
        | none => rfl
        | some conditions =>
          rw [Clause.conditions, hcondition, hconditions] at h
          cases h
      have hclauses : clauses ≠ [] := by
        rintro rfl
        rw [Clause.conditions] at hnone
        cases hnone
      -- The separator ends with a space.
      obtain ⟨front, hfront⟩ : ∃ front, joint conjunction = front ++ [' '] := by
        cases conjunction <;> exact ⟨_, (List.dropLast_append_getLast (by decide)).symm⟩
      have hrest := gap_of_conditions conjunction clauses hnone ' ' (Or.inr rfl)
      refine fun hchain => hrest (chain_middle (before :: clause.text ++ front) [] hchain ?_)
      rw [if_neg hclauses]
      nth_rewrite 1 [hfront]
      simp

end

/-- The text of a clause is a condition exactly when the clause has one. -/
theorem exists_text_eq_iff (clause : Clause) :
    (∃ c : SqlCondition, c.text = clause.text) ↔ clause.condition.isSome = true := by
  constructor
  · rintro ⟨c, hc⟩
    cases hcondition : clause.condition with
    | some condition => rfl
    | none =>
      have hframed := c.framed
      rw [hc] at hframed
      rcases gap_of_condition clause hcondition with hempty | hgap
      · exact absurd hempty hframed.ne_nil
      · exact absurd hframed.chain hgap
  · intro hsome
    obtain ⟨c, hc⟩ := Option.isSome_iff_exists.mp hsome
    exact ⟨c, text_of_condition clause hc⟩

end Conditions

end SimpleAsset.Indy.Wallet
