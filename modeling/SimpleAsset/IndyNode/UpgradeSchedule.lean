import Mathlib.Data.Finset.Dedup
import SimpleAsset.Library.Spacing
import SimpleAsset.Library.Table

/-! Whether the times of a pool upgrade are accepted (`Upgrader.isScheduleValid`). -/
namespace SimpleAsset.IndyNode
open SimpleAsset.Library

/-- A moment with a time zone, in microseconds, and its text. -/
structure DateTime where
  instant : ℤ
  str : String
  deriving DecidableEq, Repr

/-- `dateutil.parser.parse` raises `ValueError`, or something else is raised for the string. -/
inductive DateFault
  | valueError
  | other
  deriving DecidableEq, Repr

/-- `config.MinSepBetweenNodeUpgrades` in seconds, and what the check takes from `datetime` and
`dateutil`. Spans are compared in whole microseconds; `strSeconds` is the text of
`total_seconds()`. -/
structure ScheduleEnv where
  minSepBetweenNodeUpgrades : ℕ
  utcnow : ℤ
  parse : String → Except DateFault DateTime
  strSeconds : ℤ → String

/-- Why the loop over the times ends early: the schedule is refused, or an exception gets out. -/
inductive TimesFault
  | refused (reason : String)
  | raised
  deriving DecidableEq, Repr

variable (env : ScheduleEnv)

/-- The times of a schedule, in its order. -/
def parsedTimes (force : Bool) : List String → Except TimesFault (List DateTime)
  | [] => .ok []
  | dateStr :: rest =>
    match env.parse dateStr with
    | .error .valueError => .error (.refused (dateStr ++ " cannot be parsed to a time"))
    | .error .other => .error .raised
    | .ok time =>
      if time.instant ≤ env.utcnow ∧
        force = false then .error (.refused (time.str ++ " is less than current time"))
      else do
        let times ← parsedTimes force rest
        return time :: times

/-- The loop over the sorted times. -/
def checkSpans : List DateTime → Bool × String
  | [] => (true, "")
  | [_] => (true, "")
  | time :: next :: rest =>
    let diff := next.instant - time.instant
    if diff < env.minSepBetweenNodeUpgrades * 10 ^ 6 then
      (false, "time span between upgrades is " ++ env.strSeconds diff ++
        " seconds which is less than specified in the config")
    else checkSpans (next :: rest)

/-- The nodes with services. -/
def nonDemotedNodes (nodeSrvs : Table String (List String)) : Finset String :=
  ((nodeSrvs.entries.filter fun row => row.2 ≠ []).map Sigma.fst).toFinset

/-- `none` is an exception. -/
def isScheduleValid (schedule : Table String String) (nodeSrvs : Table String (List String))
    (force : Bool) :
    Option (Bool × String) :=
  if force = false ∧ schedule.keys.toFinset ≠ nonDemotedNodes nodeSrvs then
    some (false, "Schedule should contain id of all nodes")
  else
    match parsedTimes env force (schedule.entries.map Sigma.snd) with
    | .error (.refused reason) => some (false, reason)
    | .error .raised => none
    | .ok times =>
      if force then some (true, "")
      else some (checkSpans env (times.mergeSort fun a b => a.instant ≤ b.instant))

section Accepted

variable {env}

theorem mem_nonDemotedNodes {nodeSrvs : Table String (List String)} {node : String} :
    node ∈ nonDemotedNodes nodeSrvs ↔ ∃ services, nodeSrvs.lookup node = some services ∧
      services ≠ [] := by
  simp only [nonDemotedNodes, List.mem_toFinset, List.mem_map, List.mem_filter, decide_eq_true_eq]
  constructor
  · rintro ⟨⟨node, services⟩, ⟨hmem, hne⟩, rfl⟩
    exact ⟨services, AList.mem_lookup_iff.mpr hmem, hne⟩
  · rintro ⟨services, hlookup, hne⟩
    exact ⟨⟨node, services⟩, ⟨AList.mem_lookup_iff.mp hlookup, hne⟩, rfl⟩

/-- The moment a string stands for, if any. -/
def timeOf (env : ScheduleEnv) (dateStr : String) : DateTime :=
  match env.parse dateStr with
  | .ok time => time
  | .error _ => ⟨0, ""⟩

theorem timeOf_eq {dateStr : String} {time : DateTime} (h : env.parse dateStr = .ok time) :
    timeOf env dateStr = time := by
  rw [timeOf, h]

theorem parsedTimes_eq_ok_iff (dateStrs : List String) (times : List DateTime) :
    parsedTimes env false dateStrs = .ok times ↔
      (∀ dateStr ∈ dateStrs, ∃ time, env.parse dateStr = .ok time ∧ env.utcnow < time.instant) ∧
        dateStrs.map (timeOf env) = times := by
  induction dateStrs generalizing times with
  | nil => simp [parsedTimes]
  | cons dateStr rest ih =>
    rw [parsedTimes, List.forall_mem_cons, List.map_cons]
    rcases hparse : env.parse dateStr with fault | time
    · cases fault <;> simp
    · rw [timeOf_eq hparse]
      by_cases hpast : time.instant ≤ env.utcnow
      · simp [hpast, not_lt.mpr hpast]
      · simp only [hpast, false_and, if_false, except_bind_eq_ok, Except.ok.injEq, exists_eq_left',
          not_le.mp hpast, true_and, ih]
        constructor
        · rintro ⟨times', ⟨hall, rfl⟩, hreturn⟩
          cases hreturn
          exact ⟨hall, rfl⟩
        · rintro ⟨hall, rfl⟩
          exact ⟨_, ⟨hall, rfl⟩, rfl⟩

theorem checkSpans_eq_iff (times : List DateTime) :
    checkSpans env times = (true, "") ↔
      times.IsChain (After DateTime.instant (env.minSepBetweenNodeUpgrades * 10 ^ 6)) := by
  induction times with
  | nil => simp [checkSpans]
  | cons time rest ih =>
    cases rest with
    | nil => simp [checkSpans]
    | cons next rest =>
      rw [checkSpans, List.isChain_cons_cons, ← ih, After]
      split
      · rename_i hshort
        exact iff_of_false (by simp) fun h => absurd hshort (not_lt.mpr h.1)
      · rename_i hlong
        rw [and_iff_right (not_lt.mp hlong)]

/-- A schedule is accepted if it has the nodes with services, all of its times are times to come,
and any two nodes are upgraded far enough apart. -/
theorem isScheduleValid_iff (env : ScheduleEnv) (schedule : Table String String)
    (nodeSrvs : Table String (List String)) :
    isScheduleValid env schedule nodeSrvs false = some (true, "") ↔
      (∀ node, node ∈ schedule ↔ ∃ services, nodeSrvs.lookup node = some services ∧ services ≠ []) ∧
      (∀ node dateStr, schedule.lookup node = some dateStr →
        ∃ time, env.parse dateStr = .ok time ∧ env.utcnow < time.instant) ∧
      ∀ node node' dateStr dateStr' time time', node ≠ node' → schedule.lookup node = some dateStr →
        schedule.lookup node' = some dateStr' → env.parse dateStr = .ok time →
        env.parse dateStr' = .ok time' →
          (env.minSepBetweenNodeUpgrades * 10 ^ 6 : ℤ) ≤ |time.instant - time'.instant| := by
  have hkeys : schedule.keys.toFinset = nonDemotedNodes nodeSrvs ↔
      ∀ node, node ∈ schedule ↔ ∃ services, nodeSrvs.lookup node = some services ∧
        services ≠ [] := by
    rw [Finset.ext_iff]
    simp only [List.mem_toFinset, mem_nonDemotedNodes, AList.mem_keys]
  have hspans : checkSpans env
      (((schedule.entries.map Sigma.snd).map (timeOf env)).mergeSort fun a b =>
        a.instant ≤ b.instant) = (true, "") ↔
        ∀ row ∈ schedule.entries, ∀ row' ∈ schedule.entries, row.1 ≠ row'.1 →
          (env.minSepBetweenNodeUpgrades * 10 ^ 6 : ℤ) ≤
            |(timeOf env row.2).instant - (timeOf env row'.2).instant| := by
    rw [checkSpans_eq_iff, isChain_mergeSort_iff (by omega), List.map_map]
    apply pairwise_map_iff _ schedule.nodupKeys
    intro a b hab
    rwa [abs_sub_comm]
  have hmem : ∀ node dateStr, schedule.lookup node = some dateStr ↔
      ⟨node, dateStr⟩ ∈ schedule.entries :=
    fun node dateStr => AList.mem_lookup_iff
  rw [← hkeys, isScheduleValid]
  by_cases hsame : schedule.keys.toFinset = nonDemotedNodes nodeSrvs
  · rw [if_neg (by simp [hsame]), and_iff_right hsame]
    constructor
    · intro hvalid
      rcases htimes : parsedTimes env false (schedule.entries.map Sigma.snd) with fault | times
      · rw [htimes] at hvalid
        cases fault <;> simp at hvalid
      · rw [htimes] at hvalid
        obtain ⟨hparse, rfl⟩ := (parsedTimes_eq_ok_iff _ _).mp htimes
        have hrows := hspans.mp (by simpa using hvalid)
        refine ⟨fun node dateStr hlookup => ?_, ?_⟩
        · exact hparse dateStr
            (List.mem_map_of_mem (f := Sigma.snd) ((hmem node dateStr).mp hlookup))
        · intro node node' dateStr dateStr' time time' hne hlookup hlookup' htime htime'
          have hgap :=
            hrows _ ((hmem node dateStr).mp hlookup) _ ((hmem node' dateStr').mp hlookup') hne
          rwa [timeOf_eq htime, timeOf_eq htime'] at hgap
    · rintro ⟨hparse, hgaps⟩
      have hall : ∀ dateStr ∈ schedule.entries.map Sigma.snd,
          ∃ time, env.parse dateStr = .ok time ∧ env.utcnow < time.instant := by
        intro dateStr hdate
        obtain ⟨⟨node, _⟩, hrow, rfl⟩ := List.mem_map.mp hdate
        exact hparse node _ ((hmem node _).mpr hrow)
      rw [(parsedTimes_eq_ok_iff _ _).mpr ⟨hall, rfl⟩]
      have hrows : checkSpans env _ = _ := hspans.mpr ?_
      · simpa using hrows
      · rintro ⟨node, dateStr⟩ hrow ⟨node', dateStr'⟩ hrow' hne
        obtain ⟨time, htime, -⟩ := hparse node dateStr ((hmem _ _).mpr hrow)
        obtain ⟨time', htime', -⟩ := hparse node' dateStr' ((hmem _ _).mpr hrow')
        rw [timeOf_eq htime, timeOf_eq htime']
        exact hgaps node node' dateStr dateStr' time time' hne ((hmem _ _).mpr hrow)
          ((hmem _ _).mpr hrow') htime htime'
  · simp [hsame]

end Accepted

end SimpleAsset.IndyNode
