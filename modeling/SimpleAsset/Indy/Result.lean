import Mathlib.Data.Nat.Notation
import Mathlib.Order.Lattice

/-! Outcomes of the Rust code: a value, an `IndyError`, a panic, or a loop that has not ended
yet. -/
namespace SimpleAsset.Indy

abbrev Bytes := List UInt8

/-- Overflow of unsigned arithmetic panics in a debug build and wraps in a release build. -/
inductive Build
  | debug
  | release
  deriving DecidableEq, Repr

inductive IndyErrorKind
  | invalidState
  | invalidStructure
  | ioError
  | poolNotCreated
  | poolTimeout
  | poolTerminated
  | proofRejected
  | walletAccessFailed
  | walletAlreadyExists
  | walletAlreadyOpened
  | walletNotFound
  | invalidWalletHandle
  | invalidUserRevocId
  | revocationRegistryFull
  | transactionNotAllowed
  | unknownCrypto
  | walletEncryptionError
  | walletItemAlreadyExists
  | walletItemNotFound
  | walletQueryError
  deriving DecidableEq, Repr

structure IndyError where
  kind : IndyErrorKind
  message : String
  deriving DecidableEq, Repr

/-- `Display` of the kinds. -/
def IndyErrorKind.display : IndyErrorKind → String
  | invalidState => "Invalid library state"
  | invalidStructure => "Invalid structure"
  | ioError => "IO error"
  | poolNotCreated => "Pool not created"
  | poolTimeout => "Pool timeout"
  | poolTerminated => "Pool work terminated"
  | proofRejected => "Proof rejected"
  | walletAccessFailed => "Wallet security error"
  | walletAlreadyExists => "Wallet with this name already exists"
  | walletAlreadyOpened => "Wallet already opened"
  | walletNotFound => "Wallet not found"
  | invalidWalletHandle => "Invalid wallet handle was passed"
  | invalidUserRevocId => "Invalid revocation id"
  | revocationRegistryFull => "Revocation registry is full"
  | transactionNotAllowed => "The transaction is not allowed to a requester"
  | unknownCrypto => "Unknown crypto"
  | walletEncryptionError => "Wallet encryption error"
  | walletItemAlreadyExists => "Wallet item already exists"
  | walletItemNotFound => "Wallet item not found"
  | walletQueryError => "Wallet query error"

/-- `Display` of an error with the kind on top of its causes. -/
def IndyError.display (e : IndyError) : String :=
  "Error: " ++ e.kind.display ++ "\n  Caused by: " ++ e.message ++ "\n"

inductive Panic
  | overflow
  | unwrapNone
  | assertionFailed
  | outOfBounds
  | divisionByZero
  | capacityOverflow
  deriving DecidableEq, Repr

inductive Fault
  | err (e : IndyError)
  | panic (p : Panic)
  | outOfFuel
  deriving DecidableEq, Repr

abbrev Outcome := Except Fault

/-- `err_msg`. -/
def errMsg {α : Type} (kind : IndyErrorKind) (message : String) : Outcome α :=
  .error (.err ⟨kind, message⟩)

abbrev IndyResult := Except IndyError

/-- `IndyError::extend`: the kind stays and `message` is put on top of the causes. -/
def extendErr {α : Type} (message : String) : IndyResult α → IndyResult α
  | .error e => .error { e with message := message ++ "\n  Caused by: " ++ e.message }
  | .ok a => .ok a

/-- The `?` of a function that can also panic. -/
def ofIndyResult {α : Type} : IndyResult α → Outcome α
  | .error e => .error (.err e)
  | .ok a => .ok a

/-- The recursion `run` comes to an end with `r`, given fuel enough. -/
def Returns {α : Type} (run : ℕ → α) (r : α) : Prop := ∃ n, ∀ fuel, n ≤ fuel → run fuel = r

theorem Returns.unique {α : Type} {run : ℕ → α} {r r' : α} (h : Returns run r)
    (h' : Returns run r') :
    r = r' := by
  obtain ⟨n, hn⟩ := h
  obtain ⟨n', hn'⟩ := h'
  rw [← hn _ (Nat.le_max_left n n'), hn' _ (Nat.le_max_right n n')]

theorem Returns.map {α β : Type} {run : ℕ → α} {r : α} (h : Returns run r) (g : α → β) :
    Returns (fun fuel => g (run fuel)) (g r) := by
  obtain ⟨n, hn⟩ := h
  exact ⟨n, fun fuel hfuel => congrArg g (hn fuel hfuel)⟩

/-- One more unit of fuel for one more call. -/
theorem Returns.succ {α : Type} {run g : ℕ → α} {r : α} (hstep : ∀ fuel, run (fuel + 1) = g fuel)
    (h : Returns g r) : Returns run r := by
  obtain ⟨n, hn⟩ := h
  refine ⟨n + 1, ?_⟩
  intro fuel hfuel
  obtain ⟨k, rfl⟩ : ∃ k, fuel = k + 1 := ⟨fuel - 1, by omega⟩
  rw [hstep, hn k (by omega)]

theorem Returns.pure {α : Type} (r : α) : Returns (fun _ => r) r := ⟨0, fun _ _ => rfl⟩

/-- A loop over a list comes to an end when its rounds do. -/
theorem Returns.mapM {α β ε : Type} {f : ℕ → α → Except ε β} {r : α → Except ε β} {l : List α}
    (h : ∀ x ∈ l, Returns (fun fuel => f fuel x) (r x)) :
    Returns (fun fuel => l.mapM (f fuel)) (l.mapM r) := by
  induction l with
  | nil => exact .pure _
  | cons x l ih =>
    obtain ⟨n, hn⟩ := h x List.mem_cons_self
    obtain ⟨m, hm⟩ := ih fun y hy => h y (List.mem_cons_of_mem x hy)
    refine ⟨max n m, ?_⟩
    intro fuel hfuel
    have hx : f fuel x = r x := hn fuel ((Nat.le_max_left n m).trans hfuel)
    have hl : l.mapM (f fuel) = l.mapM r := hm fuel ((Nat.le_max_right n m).trans hfuel)
    show (x :: l).mapM (f fuel) = (x :: l).mapM r
    rw [List.mapM_cons, List.mapM_cons, hx, hl]

end SimpleAsset.Indy
