import SimpleAsset.Indy.Wallet.ImportService

/-! `WalletCommandExecutor` (commands/wallet.rs): opening and importing wallets in two halves,
around the derivation of keys on other threads. -/
namespace SimpleAsset.Indy.Wallet
open SimpleAsset.Library

abbrev CallbackHandle := BitVec 32

/-- What is done with a derived key. -/
inductive KeyCallback
  | openKey (handle : WalletHandle) (rekeyData : Option KeyDerivationData)
  | openRekey (handle : WalletHandle) (key : Key)
  | importKey (config : Config) (credentials : Credentials) (keyData : KeyDerivationData)
      (handle : WalletHandle)
    (cbId : CallbackHandle)
  | importMasterKey (config : Config) (credentials : Credentials) (importKeyResult : IndyResult Key)
    (handle : WalletHandle) (cbId : CallbackHandle)

/-- The commands that the executor sends to itself. -/
inductive Task
  | deriveKey (keyData : KeyDerivationData) (cb : KeyCallback)
  | openContinue (handle : WalletHandle) (keyResult : IndyResult (Key × Option Key))
  | importContinue (config : Config) (credentials : Credentials)
      (keyResult : IndyResult (Key × Key))
    (handle : WalletHandle) (cbId : CallbackHandle)

inductive Reply
  | opened (result : IndyResult WalletHandle)
  | imported (result : IndyResult Unit)
  | closed (result : IndyResult Unit)

structure Executor (P : Platform) where
  wallets : ImportService P
  openCallbacks : Finset WalletHandle
  pendingCallbacks : Finset CallbackHandle
  /-- Commands on their way, in no particular order. -/
  inFlight : List Task

/-- What comes from outside when a command runs: the key that was derived, and what is drawn. -/
structure Draws where
  derived : IndyResult Key
  nonce : Bytes
  random : ImportRandom

inductive Event
  | openWallet (config : Config) (credentials : Credentials) (salt : Bytes)
  | importWallet (config : Config) (credentials : Credentials) (file : Option Bytes)
      (exportKey : String) (salt : Bytes)
  /-- One of the commands in flight is run. -/
  | run (i : ℕ) (draws : Draws)
  | close (handle : WalletHandle)
  /-- Another part of the library takes an id from the counter. -/
  | getNextId

section Steps
variable {P : Platform} (s : Executor P)

def Executor.withService (service : WalletService P.environment) : Executor P :=
  { s with wallets := { s.wallets with service := service } }

def Executor.send (task : Task) : Executor P := { s with inFlight := s.inFlight ++ [task] }

def openCommand (config : Config) (credentials : Credentials) (salt : Bytes) :
    Executor P × List Reply :=
  match openWalletPrepare s.wallets.service config credentials salt with
  | (service, .error e) => (s.withService service, [.opened (.error e)])
  | (service, .ok (handle, keyData, rekeyData)) =>
    let s := s.withService service
    let s := { s with openCallbacks := insert handle s.openCallbacks }
    (s.send (.deriveKey keyData (.openKey handle rekeyData)), [])

def importCommand (config : Config) (credentials : Credentials) (file : Option Bytes)
    (exportKey : String) (salt : Bytes) : Executor P × List Reply :=
  match importWalletPrepare s.wallets credentials file exportKey salt with
  | (wallets, .error e) => ({ s with wallets := wallets }, [.imported (.error e)])
  | (wallets, .ok (handle, keyData, importKeyData)) =>
    let cbId : CallbackHandle := BitVec.ofNat 32 (wallets.service.idsCounter + 1)
    let s := { s with wallets := wallets }
    let s := s.withService { s.wallets.service with idsCounter := s.wallets.service.idsCounter + 1 }
    let s := { s with pendingCallbacks := insert cbId s.pendingCallbacks }
    (s.send (.deriveKey importKeyData (.importKey config credentials keyData handle cbId)), [])

/-- The callback of `DeriveKey`, with the key that was derived. -/
def keyDerived (derived : IndyResult Key) : KeyCallback → Task
  | .openKey handle rekeyData => match derived, rekeyData with
    | .ok key, some rekeyData => .deriveKey rekeyData (.openRekey handle key)
    | result, _ => .openContinue handle (result.map fun key => (key, none))
  | .openRekey handle key => .openContinue handle (derived.map fun rekey => (key, some rekey))
  | .importKey config credentials keyData handle cbId =>
    .deriveKey keyData (.importMasterKey config credentials derived handle cbId)
  | .importMasterKey config credentials importKeyResult handle cbId =>
    .importContinue config credentials
      (do
        let importKey ← importKeyResult
        let key ← derived
        pure (importKey, key)) handle cbId

def openContinue (handle : WalletHandle) (keyResult : IndyResult (Key × Option Key))
    (nonce : Bytes) :
    Outcome (Executor P × List Reply) :=
  if handle ∈ s.openCallbacks then
    let s := { s with openCallbacks := s.openCallbacks.erase handle }
    match keyResult with
    | .error e => .ok (s, [.opened (.error e)])
    | .ok (key, rekey) =>
      let (service, result) := openWalletContinue s.wallets.service handle key rekey nonce
      .ok (s.withService service, [.opened result])
  else .error (.panic .unwrapNone)

def importContinue (config : Config) (keyResult : IndyResult (Key × Key)) (handle : WalletHandle)
    (cbId : CallbackHandle) (random : ImportRandom) : Outcome (Executor P × List Reply) :=
  if cbId ∈ s.pendingCallbacks then
    let s := { s with pendingCallbacks := s.pendingCallbacks.erase cbId }
    match keyResult with
    | .error e => .ok (s, [.imported (.error e)])
    | .ok (importKey, masterKey) =>
      match importWalletContinue s.wallets handle config importKey masterKey random with
      | (wallets, .ok _) => .ok ({ s with wallets := wallets }, [.imported (.ok ())])
      | (wallets, .error (.err e)) => .ok ({ s with wallets := wallets }, [.imported (.error e)])
      | (_, .error fault) => .error fault
  -- `get_cb` logs that there is no pending command
  else .ok (s, [])

def runTask (task : Task) (draws : Draws) : Outcome (Executor P × List Reply) :=
  match task with
  | .deriveKey _ cb => .ok (s.send (keyDerived draws.derived cb), [])
  | .openContinue handle keyResult => openContinue s handle keyResult draws.nonce
  | .importContinue config _ keyResult handle cbId =>
    importContinue s config keyResult handle cbId draws.random

def execute (event : Event) : Outcome (Executor P × List Reply) :=
  match event with
  | .openWallet config credentials salt => .ok (openCommand s config credentials salt)
  | .importWallet config credentials file exportKey salt =>
    .ok (importCommand s config credentials file exportKey salt)
  | .run i draws => match s.inFlight[i]? with
    | none => .ok (s, [])
    | some task => runTask { s with inFlight := s.inFlight.eraseIdx i } task draws
  | .close handle =>
    let (service, result) := closeWallet s.wallets.service handle
    .ok (s.withService service, [.closed result])
  | .getNextId => .ok
      (s.withService { s.wallets.service with idsCounter := s.wallets.service.idsCounter + 1 }, [])

end Steps

/-- The executor at the start, over some disk. -/
def newExecutor {P : Platform} (idsCounter : ℕ) (disk : Table P.File (Option Metadata))
    (contents : P.File → Db) :
    Executor P :=
  ⟨⟨newService idsCounter disk, contents, ∅⟩, ∅, ∅, []⟩

end SimpleAsset.Indy.Wallet
