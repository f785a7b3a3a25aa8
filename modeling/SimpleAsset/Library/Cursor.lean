import Mathlib.Data.List.TakeWhile
import SimpleAsset.Library.Fallible

/-! A cursor over a list: reading an element fails, passes it over, or gives something. -/
namespace SimpleAsset.Library
variable {α β ε : Type} (read : α → Except ε (Option β))

def isRead (x : α) : Bool := (read x).isOk

/-- All that there is to be given. -/
def given (l : List α) : List β := l.filterMap fun x => ((read x).toOption).join

/-- What is given before the first failure. -/
def givenBefore (l : List α) : List β := given read (l.takeWhile (isRead read))

/-- What is left to be read after the first failure. -/
def afterFailure (l : List α) : List α := (l.dropWhile (isRead read)).tail

variable {read} {x : α} {l : List α}

@[simp] theorem given_nil : given read [] = [] := rfl

theorem given_cons_error {e : ε} (h : read x = .error e) : given read (x :: l) = given read l := by
  simp [given, h, Except.toOption]

theorem given_cons_skip (h : read x = .ok none) : given read (x :: l) = given read l := by
  simp [given, h, Except.toOption]

theorem given_cons_some {b : β} (h : read x = .ok (some b)) :
    given read (x :: l) = b :: given read l := by
  simp [given, h, Except.toOption]

theorem isRead_error {e : ε} (h : read x = .error e) : isRead read x = false := by
  simp [isRead, h, Except.isOk, Except.toBool]

theorem isRead_ok {o : Option β} (h : read x = .ok o) : isRead read x = true := by
  simp [isRead, h, Except.isOk, Except.toBool]

theorem givenBefore_cons_error {e : ε} (h : read x = .error e) :
    givenBefore read (x :: l) = [] := by
  simp [givenBefore, isRead_error h]

theorem givenBefore_cons_skip (h : read x = .ok none) :
    givenBefore read (x :: l) = givenBefore read l := by
  unfold givenBefore
  rw [List.takeWhile_cons_of_pos (isRead_ok h), given_cons_skip h]

theorem givenBefore_cons_some {b : β} (h : read x = .ok (some b)) :
    givenBefore read (x :: l) = b :: givenBefore read l := by
  unfold givenBefore
  rw [List.takeWhile_cons_of_pos (isRead_ok h), given_cons_some h]

theorem afterFailure_cons_error {e : ε} (h : read x = .error e) :
    afterFailure read (x :: l) = l := by
  simp [afterFailure, isRead_error h]

theorem afterFailure_cons_ok {o : Option β} (h : read x = .ok o) :
    afterFailure read (x :: l) = afterFailure read l := by
  simp [afterFailure, isRead_ok h]

/-- A failure gives nothing. -/
theorem given_eq_append (l : List α) : given read l = givenBefore read l ++
    given read (afterFailure read l) := by
  induction l with
  | nil => rfl
  | cons x l ih =>
    rcases hx : read x with e | _ | b
    · rw [given_cons_error hx, givenBefore_cons_error hx, afterFailure_cons_error hx,
        List.nil_append]
    · rw [given_cons_skip hx, givenBefore_cons_skip hx, afterFailure_cons_ok hx, ih]
    · rw [given_cons_some hx, givenBefore_cons_some hx, afterFailure_cons_ok hx, ih,
        List.cons_append]

theorem givenBefore_eq_given (h : l.all (isRead read) = true) :
    givenBefore read l = given read l := by
  unfold givenBefore
  rw [List.takeWhile_eq_self_iff.mpr fun x hx => List.all_eq_true.mp h x hx]

end SimpleAsset.Library
