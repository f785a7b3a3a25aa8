import SimpleAsset.Library.Table
import SimpleAsset.Indy.Primitive

/-! The ledger that libnullpay keeps in memory, and its requests, which end in callbacks. -/
namespace SimpleAsset.Nullpay
open SimpleAsset.Library SimpleAsset.Indy

inductive ErrorCode
  | success
  | commonInvalidState
  | commonInvalidStructure
  | paymentSourceDoesNotExistError
  | other (code : ℤ)
  deriving DecidableEq, Repr

structure Output where
  recipient : String
  amount : UInt64
  deriving DecidableEq, Repr

/-- libindy refuses repeated inputs before it calls the plugin. -/
abbrev Inputs := {inputs : List String // inputs.Nodup}

/-- libindy refuses repeated recipients before it calls the plugin. -/
abbrev Outputs := {outputs : List Output // (outputs.map Output.recipient).Nodup}

section Source

/-- `str::parse` at `i32`. -/
def parseI32 (s : String) : Option (BitVec 32) :=
  match s.toList with
  | '-' :: ds => ((readNat asciiDigit ds).filter (· ≤ 2 ^ 31)).map fun n => BitVec.ofInt 32 (-n)
  | '+' :: ds => ((readNat asciiDigit ds).filter (· < 2 ^ 31)).map (BitVec.ofNat 32)
  | ds => ((readNat asciiDigit ds).filter (· < 2 ^ 31)).map (BitVec.ofNat 32)

/-- `to_string` at `i32`. -/
def i32ToString (n : BitVec 32) : String := n.toInt.repr

def toSource (paymentAddress : String) (seqNo : BitVec 32) : Option String :=
  match paymentAddress.toList.splitOn ':' with
  | [a, b, c] =>
    some (String.ofList (a ++ ':' :: (b ++ ':' :: ((i32ToString seqNo).toList ++ '_' :: c))))
  | _ => none

def fromSource (source : String) : Option (BitVec 32 × String) :=
  match source.toList.splitOn ':' with
  | [a, b, last] => match last.splitOn '_' with
    | [seqNo, c] => (parseI32 (String.ofList seqNo)).map fun seqNo =>
        (seqNo, String.ofList (a ++ ':' :: (b ++ ':' :: c)))
    | _ => none
  | _ => none

end Source

structure Txn where
  inputs : List String
  outputs : List Output
  extra : Option String

structure ReceiptInfo where
  receipt : String
  recipient : String
  amount : UInt64
  extra : Option String

inductive Response
  | insufficientFunds
  | noSource
  | receipts (infos : List ReceiptInfo)

/-- What the callback of `build_payment_req` hands on to the thread that it spawns. -/
structure Payment where
  inputs : Inputs
  outputs : Outputs
  totalBalance : ℕ
  totalPayments : ℕ
  ecExistance : ErrorCode
  seqNo : BitVec 32
  /-- `_check_inputs` was passed. -/
  sources : ∀ source ∈ inputs.1, (fromSource source).isSome

/-- What is left to do for a request. -/
inductive Pending
  /-- The callback of `build_get_txn_request` in `build_mint_req`. -/
  | mintTxn (cmdHandle : ℤ) (outputs : Outputs) (extra : Option String)
  /-- The callback of `list_payment_addresses` in `build_payment_req`. -/
  | paymentAddresses (cmdHandle : ℤ) (inputs : Inputs) (outputs : Outputs) (extra : Option String)
  /-- The thread of `build_payment_req`, which has not run yet. -/
  | paymentThread (cmdHandle : ℤ) (payment : Payment)
  /-- The callback of `build_get_txn_request` in `build_payment_req`. -/
  | paymentTxn (cmdHandle : ℤ) (payment : Payment)
  /-- The callback of `build_get_txn_request` in `add_request_fees`. -/
  | feesRefused (cmdHandle : ℤ) (response : Response)
  /-- The callback of `list_payment_addresses` in `add_request_fees`. -/
  | feesAddresses (cmdHandle : ℤ) (reqId : ℕ) (inputs : Inputs) (outputs : Outputs)
      (seqNo : BitVec 32)

structure Ledger where
  /-- `SOURCES`: the sources of a payment address. -/
  sources : Table String (List String)
  /-- `BALANCES`: the amount of a source. -/
  balances : Table String UInt64
  idsCounter : ℕ
  txns : Table (BitVec 32) Txn
  responses : Table ℕ Response
  pending : List Pending

/-- The ledger of a library that was just loaded. -/
def newLedger : Ledger := ⟨∅, ∅, 1, ∅, ∅, []⟩

/-- What can be seen of a step. -/
inductive Event
  /-- A handler returns an error and starts nothing. -/
  | refused (cmdHandle : ℤ) (ec : ErrorCode)
  /-- The callback of the caller. -/
  | answered (cmdHandle : ℤ) (ec : ErrorCode)
  | panicked (cmdHandle : ℤ)
  | minted (outputs : List Output)
  /-- The inputs and the outputs of a request were processed. One that panics on its outputs is not
  settled, though its inputs are spent. -/
  | settled (inputs : List String)

section Services
variable (s : Ledger)

def addSource (paymentAddress : String) (seqNo : BitVec 32) (balance : UInt64) :
    Ledger × Option String :=
  match toSource paymentAddress seqNo with
  | none => (s, none)
  | some source =>
    let sources := match s.sources.lookup paymentAddress with
      | some v => v ++ [source]
      | none => [source]
    ({ s with
      balances := s.balances.insert source balance
      sources := (s.sources.erase paymentAddress).insert paymentAddress sources }, some source)

def removeSource (source : String) : Ledger :=
  match fromSource source with
  | none => s
  | some (_, paymentAddress) =>
    let left := ((s.sources.lookup paymentAddress).getD []).filter (· ≠ source)
    let sources := s.sources.erase paymentAddress
    { s with
      balances := s.balances.erase source
      sources := if left.isEmpty then sources else sources.insert paymentAddress left }

/-- The number that `_next_seq_no` gives out. -/
def nextSeqNo : BitVec 32 := BitVec.ofNat 32 (s.idsCounter + 1)

def addTxn (txn : Txn) : Ledger :=
  { s with idsCounter := (s.idsCounter + 1) % 2 ^ 64, txns := s.txns.insert (nextSeqNo s) txn }

def getReceiptInfo (source : String) : Option ReceiptInfo := do
  let (seqNo, recipient) ← fromSource source
  let txn ← s.txns.lookup seqNo
  let out ← txn.outputs.find? fun out => out.recipient = recipient
  pure ⟨source, recipient, out.amount, txn.extra⟩

/-- `_add_response`, with the `reqId` of the request. -/
def addResponse (reqId : Except ErrorCode ℕ) (response : Response) : Ledger × ErrorCode :=
  match reqId with
  | .error ec => (s, ec)
  | .ok reqId => ({ s with responses := s.responses.insert reqId response }, .success)

def processInputs (inputs : List String) : Ledger := inputs.foldl removeSource s

/-- `_process_outputs`, without receipts if it panics. What it did before stays. -/
def processOutputs (seqNo : BitVec 32) : List Output → Ledger → Ledger × Option (List ReceiptInfo)
  | [], s => (s, some [])
  | out :: outputs, s =>
    match addSource s out.recipient seqNo out.amount with
    | (s, none) => (s, none)
    | (s, some source) => match getReceiptInfo s source with
      | none => (s, none)
      | some info =>
        let (s, infos) := processOutputs seqNo outputs s
        (s, infos.map (info :: ·))

def checkInputs (inputs paymentAddresses : List String) : Bool :=
  inputs.all fun source => match fromSource source with
    | some (_, paymentAddress) => paymentAddresses.contains paymentAddress
    | none => false

theorem fromSource_of_checkInputs {inputs paymentAddresses : List String}
    (h : checkInputs inputs paymentAddresses) :
    ∀ source ∈ inputs, (fromSource source).isSome := by
  intro source hmem
  have hsource := List.all_eq_true.mp h source hmem
  cases hfrom : fromSource source with
  | some parts => rfl
  | none => simp [hfrom] at hsource

def checkInputsExistance (inputs : List String) : ErrorCode :=
  if inputs.all fun input => (s.balances.lookup input).isSome then .success
    else .paymentSourceDoesNotExistError

def countTotalInputs (build : Build) (inputs : List String) : Outcome ℕ :=
  (inputs.filterMap s.balances.lookup).foldlM (fun acc next => addU64 build acc next.toNat) 0

def countTotalPayments (build : Build) (outputs : List Output) : Outcome ℕ :=
  outputs.foldlM (fun acc next => addU64 build acc next.amount.toNat) 0

end Services

section Requests
variable (build : Build) (s : Ledger)

/-- A request waits for libindy. -/
def await (p : Pending) : Ledger := { s with pending := s.pending ++ [p] }

/-- `build_mint_req`. -/
def buildMintReq (cmdHandle : ℤ) (outputs : Except ErrorCode Outputs) (extra : Option String) :
    Ledger × List Event :=
  match outputs with
  | .error ec => (s, [.refused cmdHandle ec])
  | .ok outputs => (await s (.mintTxn cmdHandle outputs extra), [])

def mintTxnBuilt (cmdHandle : ℤ) (outputs : Outputs) (extra : Option String) (ec : ErrorCode) :
    Ledger × List Event :=
  if ec = .success then
    let seqNo := nextSeqNo s
    let s := addTxn s ⟨[], outputs.1, extra⟩
    (outputs.1.foldl (fun s out => (addSource s out.recipient seqNo out.amount).1) s,
      [.minted outputs.1, .answered cmdHandle ec])
  else (s, [.answered cmdHandle ec])

/-- `build_payment_req`. -/
def buildPaymentReq (cmdHandle : ℤ) (inputs : Except ErrorCode Inputs)
    (outputs : Except ErrorCode Outputs) (extra : Option String) : Ledger × List Event :=
  match inputs, outputs with
  | .error ec, _ => (s, [.refused cmdHandle ec])
  | .ok _, .error ec => (s, [.refused cmdHandle ec])
  | .ok inputs, .ok outputs => (await s (.paymentAddresses cmdHandle inputs outputs extra), [])

/-- The sums that a payment compares. -/
def paymentTotals (inputs : List String) (outputs : List Output) : Outcome (ℕ × ℕ) := do
  let totalBalance ← countTotalInputs s build inputs
  let totalPayments ← countTotalPayments build outputs
  pure (totalBalance, totalPayments)

/-- `addresses` is nothing if the answer of libindy cannot be read. -/
def paymentAddressesListed (cmdHandle : ℤ) (inputs : Inputs) (outputs : Outputs)
    (extra : Option String)
    (ec : ErrorCode) (addresses : Option (List String)) : Ledger × List Event :=
  if ec ≠ .success then (s, [.answered cmdHandle ec])
  else match addresses with
  | none => (s, [.panicked cmdHandle])
  | some addresses =>
    if h : checkInputs inputs.1 addresses then
      match paymentTotals build s inputs.1 outputs.1 with
      | .error _ => (s, [.panicked cmdHandle])
      | .ok (totalBalance, totalPayments) =>
        let ecExistance := checkInputsExistance s inputs.1
        let seqNo := nextSeqNo s
        let s := addTxn s ⟨inputs.1, outputs.1, extra⟩
        (await s (.paymentThread cmdHandle
          ⟨inputs, outputs, totalBalance, totalPayments, ecExistance, seqNo,
            fromSource_of_checkInputs h⟩), [])
    else (s, [.answered cmdHandle .commonInvalidState])

def paymentTxnBuilt (cmdHandle : ℤ) (p : Payment) (ec : ErrorCode) (reqId : Except ErrorCode ℕ) :
    Ledger × List Event :=
  if ec = .success then
    if p.ecExistance ≠ .success then ((addResponse s reqId .noSource).1, [.answered cmdHandle ec])
    else if p.totalPayments ≤ p.totalBalance then
      match processOutputs p.seqNo p.outputs.1 (processInputs s p.inputs.1) with
      | (s, none) => (s, [.panicked cmdHandle])
      | (s, some infos) =>
        ((addResponse s reqId (.receipts infos)).1, [.settled p.inputs.1, .answered cmdHandle ec])
    else ((addResponse s reqId .insufficientFunds).1, [.answered cmdHandle ec])
  else (s, [.answered cmdHandle ec])

/-- What `add_request_fees` reads from the request. -/
structure FeesRequest where
  /-- `parse_operation_from_request`. -/
  operation : Except ErrorCode String
  /-- `get_fee` for this operation. -/
  fee : Option UInt64
  /-- `parse_req_id_from_request`. -/
  reqId : Except ErrorCode ℕ

/-- The sums that a request with fees compares. -/
def feesTotals (fee : UInt64) (inputs : List String) (outputs : List Output) : Outcome (ℕ × ℕ) := do
  let totalAmount ← countTotalInputs s build inputs
  let totalPayments ← countTotalPayments build outputs
  let total ← addU64 build totalPayments fee.toNat
  pure (totalAmount, total)

/-- `add_request_fees` on arguments that can be read. -/
def addFees (cmdHandle : ℤ) (request : FeesRequest) (inputs : Inputs) (outputs : Outputs)
    (extra : Option String) :
    Ledger × List Event :=
  if checkInputsExistance s inputs.1 ≠ .success
    then (await s (.feesRefused cmdHandle .noSource), [])
  else match feesTotals build s (request.fee.getD 0) inputs.1 outputs.1 with
  | .error _ => (s, [.panicked cmdHandle])
  | .ok (totalAmount, total) =>
    if total ≤ totalAmount then
      match request.reqId with
      | .error ec => (s, [.refused cmdHandle ec])
      | .ok reqId =>
        let seqNo := nextSeqNo s
        let s := addTxn s ⟨inputs.1, outputs.1, extra⟩
        (await s (.feesAddresses cmdHandle reqId inputs outputs seqNo), [])
    else (await s (.feesRefused cmdHandle .insufficientFunds), [])

/-- `add_request_fees`. -/
def addRequestFees (cmdHandle : ℤ) (request : FeesRequest) (inputs : Except ErrorCode Inputs)
    (outputs : Except ErrorCode Outputs) (extra : Option String) : Ledger × List Event :=
  match inputs, outputs, request.operation with
  | .error ec, _, _ => (s, [.refused cmdHandle ec])
  | .ok _, .error ec, _ => (s, [.refused cmdHandle ec])
  | .ok _, .ok _, .error ec => (s, [.refused cmdHandle ec])
  | .ok inputs, .ok outputs, .ok _ => addFees build s cmdHandle request inputs outputs extra

def feesTxnBuilt (cmdHandle : ℤ) (response : Response) (ec : ErrorCode)
    (reqId : Except ErrorCode ℕ) :
    Ledger × List Event :=
  if ec = .success then
    let (s, ec) := addResponse s reqId response
    (s, [.answered cmdHandle ec])
  else (s, [.answered cmdHandle ec])

def feesAddressesListed (cmdHandle : ℤ) (reqId : ℕ) (inputs : Inputs) (outputs : Outputs)
    (seqNo : BitVec 32) (ec : ErrorCode) (addresses : Option (List String)) : Ledger × List Event :=
  if ec ≠ .success then (s, [.answered cmdHandle ec])
  else match addresses with
  | none => (s, [.panicked cmdHandle])
  | some addresses =>
    if checkInputs inputs.1 addresses then
      match processOutputs seqNo outputs.1 (processInputs s inputs.1) with
      | (s, none) => (s, [.panicked cmdHandle])
      | (s, some infos) =>
        let (s, ec) := addResponse s (.ok reqId) (.receipts infos)
        (s, [.settled inputs.1, .answered cmdHandle ec])
    else (s, [.answered cmdHandle .commonInvalidState])

end Requests

/-- The steps. `place` says which of the pending requests goes on. -/
inductive Step
  | buildMintReq (cmdHandle : ℤ) (outputs : Except ErrorCode Outputs) (extra : Option String)
  | buildPaymentReq (cmdHandle : ℤ) (inputs : Except ErrorCode Inputs)
      (outputs : Except ErrorCode Outputs) (extra : Option String)
  | addRequestFees (cmdHandle : ℤ) (request : FeesRequest) (inputs : Except ErrorCode Inputs)
      (outputs : Except ErrorCode Outputs) (extra : Option String)
  /-- libindy calls back with the addresses of a wallet. -/
  | addressesListed (place : ℕ) (ec : ErrorCode) (addresses : Option (List String))
  /-- libindy calls back with a request, of which `reqId` is what `parse_req_id_from_request`
  gives. -/
  | txnBuilt (place : ℕ) (ec : ErrorCode) (reqId : Except ErrorCode ℕ)
  | threadRuns (place : ℕ)

section Run
variable (build : Build) (s : Ledger)

/-- The ledger without the pending request at this place. -/
def without (place : ℕ) : Ledger := { s with pending := s.pending.eraseIdx place }

/-- The pending request goes on, if this is what it waits for. -/
def goOn (place : ℕ) (p : Pending) : Step → Ledger × List Event
  | .addressesListed _ ec addresses => match p with
    | .paymentAddresses cmdHandle inputs outputs extra =>
      paymentAddressesListed build (without s place) cmdHandle inputs outputs extra ec addresses
    | .feesAddresses cmdHandle reqId inputs outputs seqNo =>
      feesAddressesListed (without s place) cmdHandle reqId inputs outputs seqNo ec addresses
    | _ => (s, [])
  | .txnBuilt _ ec reqId => match p with
    | .mintTxn cmdHandle outputs extra => mintTxnBuilt (without s place) cmdHandle outputs extra ec
    | .paymentTxn cmdHandle payment => paymentTxnBuilt (without s place) cmdHandle payment ec reqId
    | .feesRefused cmdHandle response => feesTxnBuilt (without s place) cmdHandle response ec reqId
    | _ => (s, [])
  | .threadRuns _ => match p with
    | .paymentThread cmdHandle payment =>
      (await (without s place) (.paymentTxn cmdHandle payment), [])
    | _ => (s, [])
  | _ => (s, [])

def resume (place : ℕ) (step : Step) : Ledger × List Event :=
  match s.pending[place]? with
  | some p => goOn build s place p step
  | none => (s, [])

def perform : Step → Ledger × List Event
  | .buildMintReq cmdHandle outputs extra => buildMintReq s cmdHandle outputs extra
  | .buildPaymentReq cmdHandle inputs outputs extra =>
    buildPaymentReq s cmdHandle inputs outputs extra
  | .addRequestFees cmdHandle request inputs outputs extra =>
    addRequestFees build s cmdHandle request inputs outputs extra
  | .addressesListed place ec addresses =>
    resume build s place (.addressesListed place ec addresses)
  | .txnBuilt place ec reqId => resume build s place (.txnBuilt place ec reqId)
  | .threadRuns place => resume build s place (.threadRuns place)

def execute (step : Step) : Outcome (Ledger × List Event) := .ok (perform build s step)

end Run

end SimpleAsset.Nullpay
