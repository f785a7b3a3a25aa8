import Mathlib.Data.List.Perm.Basic
import SimpleAsset.Indy.Wallet.Commands
import SimpleAsset.Indy.Wallet.FailedImport
import SimpleAsset.Library.Runs

/-! Half-open wallets: the entries that wait for a key, and the commands that will bring it. -/
namespace SimpleAsset.Indy.Wallet
open SimpleAsset.Library

section Outstanding

def KeyCallback.openHandle? : KeyCallback → Option WalletHandle
  | .openKey handle _ | .openRekey handle _ => some handle
  | _ => none

def KeyCallback.importHandle? : KeyCallback → Option WalletHandle
  | .importKey _ _ _ handle _ | .importMasterKey _ _ _ handle _ => some handle
  | _ => none

/-- The wallet that a command in flight goes on to open. -/
def Task.openHandle? : Task → Option WalletHandle
  | .deriveKey _ cb => cb.openHandle?
  | .openContinue handle _ => some handle
  | .importContinue _ _ _ _ _ => none

/-- The wallet that a command in flight goes on to import. -/
def Task.importHandle? : Task → Option WalletHandle
  | .deriveKey _ cb => cb.importHandle?
  | .openContinue _ _ => none
  | .importContinue _ _ _ handle _ => some handle

/-- A derived key is passed on for the same wallet. -/
theorem handles_keyDerived (derived : IndyResult Key) (cb : KeyCallback) :
    (keyDerived derived cb).openHandle? = cb.openHandle? ∧
    (keyDerived derived cb).importHandle? = cb.importHandle? := by
  cases cb with
  | openKey handle rekeyData => cases derived <;> cases rekeyData <;> exact ⟨rfl, rfl⟩
  | openRekey handle key => exact ⟨rfl, rfl⟩
  | importKey config credentials keyData handle cbId => exact ⟨rfl, rfl⟩
  | importMasterKey config credentials importKeyResult handle cbId => exact ⟨rfl, rfl⟩

variable {P : Platform}

def Executor.openings (s : Executor P) : List WalletHandle := s.inFlight.filterMap Task.openHandle?

def Executor.imports (s : Executor P) : List WalletHandle := s.inFlight.filterMap Task.importHandle?

/-- The pending entries are those of the outstanding commands, one for each. -/
structure OneEntryEach (s : Executor P) : Prop where
  openings : s.wallets.service.pendingForOpen.keys.Perm s.openings
  imports : s.wallets.pendingForImport.keys.Perm s.imports

/-- Keys were derived, the callback is there, and a new handle is none of those that wait. -/
def Delivers (s : Executor P) : Event → Prop
  | .openWallet config credentials salt =>
    ∀ r, (openWalletPrepare s.wallets.service config credentials salt).2 = .ok r →
      nextWalletHandle s.wallets.service ∉ s.wallets.service.pendingForOpen.keys
  | .importWallet _ credentials file exportKey salt =>
      ∀ r, (importWalletPrepare s.wallets credentials file exportKey salt).2 = .ok r →
        nextWalletHandle s.wallets.service ∉ s.wallets.pendingForImport.keys
  | .run i _ => match s.inFlight[i]? with
    | some (.openContinue _ keyResult) => ∃ keys, keyResult = .ok keys
    | some (.importContinue _ _ keyResult _ cbId) => cbId ∈ s.pendingCallbacks ∧
        ∃ keys, keyResult = .ok keys
    | _ => True
  | .close _ => True
  | .getNextId => True

/-- The invariant of a run: no opening has lost its callback either. -/
structure Awaited (s : Executor P) : Prop extends OneEntryEach s where
  callbacks : ∀ handle ∈ s.openings, handle ∈ s.openCallbacks

end Outstanding

section Service
variable {P : Platform} {s : ImportService P} {service : WalletService P.environment}
    {config : Config}
  {credentials : Credentials} {salt : Bytes}

theorem openWalletPrepare_cases (s : WalletService P.environment) (config : Config)
    (credentials : Credentials)
    (salt : Bytes) : (∃ e, openWalletPrepare s config credentials salt = (s, .error e)) ∨
      ∃ pending keyData rekeyData, openWalletPrepare s config credentials salt =
        ({ s with
            idsCounter := s.idsCounter + 1
            pendingForOpen := s.pendingForOpen.insert (nextWalletHandle s) pending },
          .ok (nextWalletHandle s, keyData, rekeyData)) := by
  unfold openWalletPrepare
  dsimp only
  split
  · exact Or.inl ⟨_, rfl⟩
  · exact Or.inr ⟨_, _, _, rfl⟩

theorem importWalletPrepare_cases (s : ImportService P) (credentials : Credentials)
    (file : Option Bytes) (exportKey : String) (salt : Bytes) :
    (∃ e, importWalletPrepare s credentials file exportKey salt = (s, .error e)) ∨
      ∃ pending keyData importKeyData, importWalletPrepare s credentials file exportKey salt =
        ({ s with
            service := { s.service with idsCounter := s.service.idsCounter + 1 }
            pendingForImport := s.pendingForImport.insert (nextWalletHandle s.service) pending },
          .ok (nextWalletHandle s.service, keyData, importKeyData)) := by
  unfold importWalletPrepare
  split
  · exact Or.inl ⟨_, rfl⟩
  · split
    · exact Or.inl ⟨_, rfl⟩
    · exact Or.inr ⟨_, _, _, rfl⟩

theorem pendingForOpen_openWalletContinue {s : WalletService P.environment} {handle : WalletHandle}
    (h : handle ∈ s.pendingForOpen.keys) (key : Key) (rekey : Option Key) (nonce : Bytes) :
    (openWalletContinue s handle key rekey nonce).1.pendingForOpen =
      s.pendingForOpen.erase handle := by
  obtain ⟨p, hp⟩ := Table.mem_keys_iff.mp h
  rw [openWalletContinue, hp]
  dsimp only
  split <;> rfl

theorem pendingForOpen_closeWallet (s : WalletService P.environment) (handle : WalletHandle) :
    (closeWallet s handle).1.pendingForOpen = s.pendingForOpen := by
  unfold closeWallet
  split <;> rfl

theorem pendingForOpen_deleted {s service : WalletService P.environment} {storage : P.File}
    {masterKey : Key} {result : IndyResult Unit} (h : (do
      let metadata ← getStorageMetadata s storage
      pure (deleteWalletContinue s config metadata masterKey)) = Except.ok (service, result)) :
    service.pendingForOpen = s.pendingForOpen := by
  obtain ⟨metadata, -, hdeleted⟩ := except_bind_eq_ok.mp h
  obtain rfl := (congrArg Prod.fst (Except.ok.inj hdeleted)).symm
  unfold deleteWalletContinue
  dsimp only
  split <;> rfl

/-- Creating and filling a wallet leaves what is pending. -/
theorem pending_createWallet (keyData : KeyDerivationData) (masterKey : Key)
    (random : ImportRandom) :
    (createWallet s config keyData masterKey random).1.service.pendingForOpen =
      s.service.pendingForOpen ∧
      (createWallet s config keyData masterKey random).1.pendingForImport = s.pendingForImport := by
  unfold createWallet
  dsimp only
  split_ifs <;> exact ⟨rfl, rfl⟩

theorem pending_fillWallet (importKey masterKey : Key) (p : PendingImport) (keys : Keys)
    (values : ℕ → ValueRandom) :
    (fillWallet s config importKey masterKey p keys values).1.service.pendingForOpen =
      s.service.pendingForOpen ∧
      (fillWallet s config importKey masterKey p keys values).1.pendingForImport =
        s.pendingForImport := by
  unfold fillWallet
  dsimp only
  split
  · exact ⟨rfl, rfl⟩
  · split
    · split
      · exact ⟨rfl, rfl⟩
      · rename_i hdeleted
        exact ⟨pendingForOpen_deleted hdeleted, rfl⟩
      · rename_i hdeleted
        exact ⟨pendingForOpen_deleted hdeleted, rfl⟩
    · exact ⟨rfl, rfl⟩

variable (config) in
theorem pending_importWalletContinue {handle : WalletHandle} (h : handle ∈ s.pendingForImport.keys)
    (importKey masterKey : Key) (random : ImportRandom) :
    (importWalletContinue s handle config importKey masterKey random).1.service.pendingForOpen =
        s.service.pendingForOpen ∧
      (importWalletContinue s handle config importKey masterKey random).1.pendingForImport =
        s.pendingForImport.erase handle := by
  obtain ⟨p, hp⟩ := Table.mem_keys_iff.mp h
  let s₀ : ImportService P := { s with pendingForImport := s.pendingForImport.erase handle }
  obtain ⟨hopen,
      himport⟩ : (createWallet s₀ config p.keyData masterKey random).1.service.pendingForOpen =
        s.service.pendingForOpen ∧
      (createWallet s₀ config p.keyData masterKey random).1.pendingForImport =
        s.pendingForImport.erase handle :=
    pending_createWallet p.keyData masterKey random
  rw [importWalletContinue, hp]
  dsimp only
  split
  · rename_i hcreate
    exact ⟨by rw [← hopen, hcreate], by rw [← himport, hcreate]⟩
  · rename_i t keys hcreate
    obtain ⟨hopen', himport'⟩ : (fillWallet t config importKey masterKey p keys
        random.values).1.service.pendingForOpen =
          t.service.pendingForOpen ∧
        (fillWallet t config importKey masterKey p keys random.values).1.pendingForImport =
          t.pendingForImport :=
      pending_fillWallet importKey masterKey p keys random.values
    exact ⟨by rw [hopen', ← hopen, hcreate], by rw [himport', ← himport, hcreate]⟩

end Service

section Steps
variable {P : Platform} {s : Executor P} {handle : WalletHandle} {config : Config}
    {credentials : Credentials}
  {salt : Bytes} {file : Option Bytes} {exportKey : String} {i : ℕ} {task : Task}

theorem openings_send (s : Executor P) (task : Task) :
    (s.send task).openings = s.openings ++ task.openHandle?.toList := by
  rw [Executor.openings, Executor.send, List.filterMap_append]
  cases htask : task.openHandle? <;> simp [htask, Executor.openings]

theorem imports_send (s : Executor P) (task : Task) :
    (s.send task).imports = s.imports ++ task.importHandle?.toList := by
  rw [Executor.imports, Executor.send, List.filterMap_append]
  cases htask : task.importHandle? <;> simp [htask, Executor.imports]

/-- The executor after a command in flight was taken. -/
def Executor.without (s : Executor P) (i : ℕ) : Executor P :=
  { s with inFlight := s.inFlight.eraseIdx i }

theorem perm_without (h : s.inFlight[i]? = some task) :
    s.inFlight.Perm (task :: (s.without i).inFlight) := by
  obtain ⟨hi, rfl⟩ := List.getElem?_eq_some_iff.mp h
  exact (List.getElem_cons_eraseIdx_perm hi).symm

theorem openings_without (h : s.inFlight[i]? = some task) :
    s.openings.Perm (task.openHandle?.toList ++ (s.without i).openings) := by
  have hperm := (perm_without h).filterMap Task.openHandle?
  rw [List.filterMap_cons] at hperm
  cases htask : task.openHandle? <;> rw [htask] at hperm <;> exact hperm

theorem imports_without (h : s.inFlight[i]? = some task) :
    s.imports.Perm (task.importHandle?.toList ++ (s.without i).imports) := by
  have hperm := (perm_without h).filterMap Task.importHandle?
  rw [List.filterMap_cons] at hperm
  cases htask : task.importHandle? <;> rw [htask] at hperm <;> exact hperm

/-- A new opening has its entry exactly when its handle is new. -/
theorem Awaited.openCommand (h : Awaited s) (config : Config) (credentials : Credentials)
    (salt : Bytes) :
    (Delivers s (.openWallet config credentials salt) →
      Awaited (openCommand s config credentials salt).1) ∧
      (¬ Delivers s (.openWallet config credentials salt) →
        ¬ OneEntryEach (Wallet.openCommand s config credentials salt).1) := by
  simp only [Wallet.openCommand, Delivers]
  rcases openWalletPrepare_cases s.wallets.service config credentials salt with
    ⟨e, hprepare⟩ | ⟨pending, keyData, rekeyData, hprepare⟩
  · rw [hprepare]
    exact ⟨fun _ => ⟨⟨h.openings, h.imports⟩, h.callbacks⟩, fun hnot => absurd nofun hnot⟩
  · rw [hprepare]
    have hopenings :=
      openings_send s (.deriveKey keyData (.openKey (nextWalletHandle s.wallets.service) rekeyData))
    have himports :=
      imports_send s (.deriveKey keyData (.openKey (nextWalletHandle s.wallets.service) rekeyData))
    have hiff := Table.keys_insert_perm_iff h.openings (nextWalletHandle s.wallets.service) pending
    constructor
    · intro hnew
      refine ⟨⟨?_, ?_⟩, ?_⟩
      · change List.Perm _ (s.send _).openings
        rw [hopenings]
        exact hiff.mpr (hnew _ rfl)
      · change List.Perm _ (s.send _).imports
        rw [himports]
        exact h.imports.trans (List.Perm.of_eq (List.append_nil _).symm)
      · intro handle hmem
        change handle ∈ (s.send _).openings at hmem
        rw [hopenings, List.mem_append] at hmem
        rcases hmem with hmem | hmem
        · exact Finset.mem_insert_of_mem (h.callbacks handle hmem)
        · rw [List.mem_singleton.mp hmem]
          exact Finset.mem_insert_self _ _
    · intro hold hentries
      have hperm := hentries.openings
      change List.Perm _ (s.send _).openings at hperm
      rw [hopenings] at hperm
      exact hold fun _ _ => hiff.mp hperm

theorem Awaited.importCommand (h : Awaited s) (config : Config) (credentials : Credentials)
    (file : Option Bytes) (exportKey : String) (salt : Bytes) :
    (Delivers s (.importWallet config credentials file exportKey salt) →
        Awaited (importCommand s config credentials file exportKey salt).1) ∧
      (¬ Delivers s (.importWallet config credentials file exportKey salt) →
        ¬ OneEntryEach (Wallet.importCommand s config credentials file exportKey salt).1) := by
  simp only [Wallet.importCommand, Delivers]
  rcases importWalletPrepare_cases s.wallets credentials file exportKey salt with
    ⟨e, hprepare⟩ | ⟨pending, keyData, importKeyData, hprepare⟩
  · rw [hprepare]
    exact ⟨fun _ => ⟨⟨h.openings, h.imports⟩, h.callbacks⟩, fun hnot => absurd nofun hnot⟩
  · rw [hprepare]
    let cbId : CallbackHandle := BitVec.ofNat 32 (s.wallets.service.idsCounter + 1 + 1)
    let task : Task := .deriveKey importKeyData
      (.importKey config credentials keyData (nextWalletHandle s.wallets.service) cbId)
    have hopenings : (s.send task).openings = s.openings ++ [] := openings_send s task
    have himports : (s.send task).imports = s.imports ++ [nextWalletHandle s.wallets.service] :=
      imports_send s task
    have hiff := Table.keys_insert_perm_iff h.imports (nextWalletHandle s.wallets.service) pending
    constructor
    · intro hnew
      refine ⟨⟨?_, ?_⟩, ?_⟩
      · change List.Perm _ (s.send task).openings
        rw [hopenings, List.append_nil]
        exact h.openings
      · change List.Perm _ (s.send task).imports
        rw [himports]
        exact hiff.mpr (hnew _ rfl)
      · intro handle hmem
        change handle ∈ (s.send task).openings at hmem
        rw [hopenings, List.append_nil] at hmem
        exact h.callbacks handle hmem
    · intro hold hentries
      have hperm := hentries.imports
      change List.Perm _ (s.send task).imports at hperm
      rw [himports] at hperm
      exact hold fun _ _ => hiff.mp hperm

/-- A derived key is passed on, and nothing else happens. -/
theorem Awaited.deriveKey {keyData : KeyDerivationData} {cb : KeyCallback} (h : Awaited s)
    (htask : s.inFlight[i]? = some (.deriveKey keyData cb)) (derived : IndyResult Key) :
    Awaited ((s.without i).send (keyDerived derived cb)) := by
  obtain ⟨hopen, himport⟩ := handles_keyDerived derived cb
  have hopenings : s.openings.Perm ((s.without i).send (keyDerived derived cb)).openings := by
    rw [openings_send, hopen]
    exact (openings_without htask).trans List.perm_append_comm
  have himports : s.imports.Perm ((s.without i).send (keyDerived derived cb)).imports := by
    rw [imports_send, himport]
    exact (imports_without htask).trans List.perm_append_comm
  refine ⟨⟨h.openings.trans hopenings, h.imports.trans himports⟩, ?_⟩
  intro handle hmem
  exact h.callbacks handle (hopenings.mem_iff.mpr hmem)

/-- An opening that is taken up has its entry and its callback, and no other opening has them. -/
theorem Awaited.opening {keyResult : IndyResult (Key × Option Key)} (h : Awaited s)
    (htask : s.inFlight[i]? = some (.openContinue handle keyResult)) :
    s.wallets.service.pendingForOpen.keys.Perm (handle :: (s.without i).openings) ∧
      s.wallets.pendingForImport.keys.Perm (s.without i).imports ∧ handle ∈ s.openCallbacks ∧
      ∀ handle' ∈ (s.without i).openings, handle' ∈ s.openCallbacks.erase handle := by
  have hopenings : s.openings.Perm (handle :: (s.without i).openings) := openings_without htask
  have himports : s.imports.Perm (s.without i).imports := imports_without htask
  have hperm := h.openings.trans hopenings
  have hnodup : (handle :: (s.without i).openings).Nodup :=
    hperm.nodup_iff.mp s.wallets.service.pendingForOpen.keys_nodup
  refine ⟨hperm, h.imports.trans himports,
    h.callbacks handle (hopenings.mem_iff.mpr List.mem_cons_self), ?_⟩
  intro handle' hmem
  have hne : handle' ≠ handle := by
    rintro rfl
    exact (List.nodup_cons.mp hnodup).1 hmem
  exact Finset.mem_erase.mpr
    ⟨hne, h.callbacks handle' (hopenings.mem_iff.mpr (List.mem_cons_of_mem _ hmem))⟩

theorem not_perm_tail {α : Type} {l l' : List α} {a : α} (h : l.Perm (a :: l')) : ¬ l.Perm l' := by
  intro hperm
  have hlength := h.length_eq
  rw [List.length_cons, hperm.length_eq] at hlength
  omega

theorem Awaited.openContinue {keyResult : IndyResult (Key × Option Key)} (h : Awaited s)
    (htask : s.inFlight[i]? = some (.openContinue handle keyResult)) (nonce : Bytes) :
    ∃ s' out, openContinue (s.without i) handle keyResult nonce = .ok (s', out) ∧
      ((∃ keys, keyResult = .ok keys) → Awaited s') ∧
      ((¬ ∃ keys, keyResult = .ok keys) → ¬ OneEntryEach s') := by
  obtain ⟨hopenings, himports, hcallback, hrest⟩ := h.opening htask
  have hcallback' : handle ∈ (s.without i).openCallbacks := hcallback
  unfold Wallet.openContinue
  rw [if_pos hcallback']
  cases keyResult with
  | error e =>
    refine ⟨_, _, rfl, fun hkeys => ?_, fun _ hentries => not_perm_tail hopenings hentries.openings⟩
    obtain ⟨keys, hkeys⟩ := hkeys
    cases hkeys
  | ok keys =>
    obtain ⟨key, rekey⟩ := keys
    refine ⟨_, _, rfl, fun _ => ⟨⟨?_, himports⟩, hrest⟩, fun hnot => absurd ⟨_, rfl⟩ hnot⟩
    have hmem : handle ∈ s.wallets.service.pendingForOpen.keys :=
      hopenings.mem_iff.mpr List.mem_cons_self
    have hpending := pendingForOpen_openWalletContinue hmem key rekey nonce
    change List.Perm
      (Wallet.openWalletContinue s.wallets.service handle key rekey nonce).1.pendingForOpen.keys
      (s.without i).openings
    rw [hpending]
    exact Table.keys_erase_perm hopenings

/-- An import that is taken up loses its entry exactly when it gets as far as the service. -/
theorem Awaited.importContinue {keyResult : IndyResult (Key × Key)} {cbId : CallbackHandle}
    (h : Awaited s)
    (htask : s.inFlight[i]? = some (.importContinue config credentials keyResult handle cbId))
    (random : ImportRandom) :
    (∀ s' out, importContinue (s.without i) config keyResult handle cbId random = .ok (s', out) →
      (cbId ∈ s.pendingCallbacks ∧ ∃ keys, keyResult = .ok keys) → Awaited s') ∧
    (¬ (cbId ∈ s.pendingCallbacks ∧ ∃ keys, keyResult = .ok keys) →
      ∃ s' out,
        Wallet.importContinue (s.without i) config keyResult handle cbId random = .ok (s', out) ∧
        ¬ OneEntryEach s') := by
  have hopenings : s.openings.Perm (s.without i).openings := openings_without htask
  have himports : s.imports.Perm (handle :: (s.without i).imports) := imports_without htask
  have hkeys := h.imports.trans himports
  have hcallbacks : ∀ handle' ∈ (s.without i).openings, handle' ∈ s.openCallbacks := by
    intro handle' hmem
    exact h.callbacks handle' (hopenings.mem_iff.mpr hmem)
  have hmem : handle ∈ s.wallets.pendingForImport.keys := hkeys.mem_iff.mpr List.mem_cons_self
  constructor
  · intro s' out hrun ⟨hcallback, keys, hkeyResult⟩
    subst hkeyResult
    obtain ⟨importKey, masterKey⟩ := keys
    have hcallback' : cbId ∈ (s.without i).pendingCallbacks := hcallback
    obtain ⟨hopen, himport⟩ := pending_importWalletContinue config hmem importKey masterKey random
    have hafter : ∀ (wallets : ImportService P) (callbacks : Finset CallbackHandle),
        wallets = (importWalletContinue s.wallets handle config importKey masterKey random).1 →
        Awaited { s.without i with wallets := wallets, pendingCallbacks := callbacks } := by
      intro wallets callbacks hwallets
      subst hwallets
      refine ⟨⟨?_, ?_⟩, hcallbacks⟩
      · change List.Perm (importWalletContinue s.wallets handle config importKey masterKey
          random).1.service.pendingForOpen.keys (s.without i).openings
        rw [hopen]
        exact h.openings.trans hopenings
      · change List.Perm (importWalletContinue s.wallets handle config importKey masterKey
          random).1.pendingForImport.keys (s.without i).imports
        rw [himport]
        exact Table.keys_erase_perm hkeys
    unfold Wallet.importContinue at hrun
    rw [if_pos hcallback'] at hrun
    dsimp only at hrun
    split at hrun
    · rename_i hresult
      obtain ⟨rfl, -⟩ := Prod.mk.inj (Except.ok.inj hrun)
      exact hafter _ _ (congrArg Prod.fst hresult).symm
    · rename_i hresult
      obtain ⟨rfl, -⟩ := Prod.mk.inj (Except.ok.inj hrun)
      exact hafter _ _ (congrArg Prod.fst hresult).symm
    · cases hrun
  · intro hlost
    unfold Wallet.importContinue
    split_ifs with hcallback
    · cases keyResult with
      | error e => exact ⟨_, _, rfl, fun hentries => not_perm_tail hkeys hentries.imports⟩
      | ok keys => exact absurd ⟨hcallback, keys, rfl⟩ hlost
    · exact ⟨_, _, rfl, fun hentries => not_perm_tail hkeys hentries.imports⟩

theorem Awaited.execute {e : Event} {s' : Executor P} {out : List Reply} (h : Awaited s)
    (hd : Delivers s e) (hstep : execute s e = .ok (s', out)) : Awaited s' := by
  cases e with
  | openWallet config credentials salt =>
    obtain rfl := congrArg Prod.fst (Except.ok.inj hstep)
    exact (h.openCommand config credentials salt).1 hd
  | importWallet config credentials file exportKey salt =>
    obtain rfl := congrArg Prod.fst (Except.ok.inj hstep)
    exact (h.importCommand config credentials file exportKey salt).1 hd
  | close handle =>
    obtain rfl := congrArg Prod.fst (Except.ok.inj hstep)
    refine ⟨⟨?_, h.imports⟩, h.callbacks⟩
    change List.Perm (closeWallet s.wallets.service handle).1.pendingForOpen.keys s.openings
    rw [pendingForOpen_closeWallet]
    exact h.openings
  | getNextId =>
    obtain rfl := congrArg Prod.fst (Except.ok.inj hstep)
    exact ⟨⟨h.openings, h.imports⟩, h.callbacks⟩
  | run i draws =>
    simp only [Wallet.execute] at hstep
    cases htask : s.inFlight[i]? with
    | none =>
      rw [htask] at hstep
      obtain rfl := congrArg Prod.fst (Except.ok.inj hstep)
      exact h
    | some task =>
      simp only [Delivers, htask] at hd
      simp only [htask] at hstep
      change runTask (s.without i) task draws = .ok (s', out) at hstep
      cases task with
      | deriveKey keyData cb =>
        obtain rfl := congrArg Prod.fst (Except.ok.inj hstep)
        exact h.deriveKey htask draws.derived
      | openContinue handle keyResult =>
        obtain ⟨s₁, out₁, hrun, hkeep, -⟩ := h.openContinue htask draws.nonce
        obtain rfl : s₁ = s' := congrArg Prod.fst (Except.ok.inj (hrun.symm.trans hstep))
        exact hkeep hd
      | importContinue config credentials keyResult handle cbId =>
        exact (h.importContinue htask draws.random).1 s' out hstep hd

theorem Awaited.exists_leak {e : Event} (h : Awaited s) (hd : ¬ Delivers s e) :
    ∃ s' out, Wallet.execute s e = .ok (s', out) ∧ ¬ OneEntryEach s' := by
  cases e with
  | openWallet config credentials salt =>
    exact ⟨_, _, rfl, (h.openCommand config credentials salt).2 hd⟩
  | importWallet config credentials file exportKey salt =>
    exact ⟨_, _, rfl, (h.importCommand config credentials file exportKey salt).2 hd⟩
  | close handle => exact absurd trivial hd
  | getNextId => exact absurd trivial hd
  | run i draws =>
    simp only [Wallet.execute]
    cases htask : s.inFlight[i]? with
    | none => exact absurd (by simp only [Delivers, htask]) hd
    | some task =>
      simp only [Delivers, htask] at hd
      change ∃ s' out, runTask (s.without i) task draws = .ok (s', out) ∧ ¬ OneEntryEach s'
      cases task with
      | deriveKey keyData cb => exact absurd trivial hd
      | openContinue handle keyResult =>
        obtain ⟨s₁, out₁, hrun, -, hleak⟩ := h.openContinue htask draws.nonce
        exact ⟨s₁, out₁, hrun, hleak hd⟩
      | importContinue config credentials keyResult handle cbId =>
        exact (h.importContinue htask draws.random).2 hd

end Steps

section Runs
variable {P : Platform}

/-- One entry for each outstanding command, and none when none is outstanding. -/
def NoneLeaked (s : Executor P) : Prop :=
  OneEntryEach s ∧
    (s.inFlight = [] → s.wallets.service.pendingForOpen = ∅ ∧ s.wallets.pendingForImport = ∅)

theorem eq_empty_of_keys_perm {κ β : Type} {t : Table κ β} (h : t.keys.Perm []) : t = ∅ := by
  have hkeys := h.eq_nil
  rw [AList.keys, List.keys, List.map_eq_nil_iff] at hkeys
  exact AList.ext hkeys

theorem Awaited.noneLeaked {s : Executor P} (h : Awaited s) : NoneLeaked s := by
  refine ⟨h.toOneEntryEach, fun hnone => ⟨eq_empty_of_keys_perm ?_, eq_empty_of_keys_perm ?_⟩⟩
  · have hopenings := h.openings
    rwa [Executor.openings, hnone] at hopenings
  · have himports := h.imports
    rwa [Executor.imports, hnone] at himports

theorem awaited_newExecutor (idsCounter : ℕ) (disk : Table P.File (Option Metadata))
    (contents : P.File → Db) :
    Awaited (newExecutor idsCounter disk contents) :=
  ⟨⟨.nil, .nil⟩, fun _ hmem => by cases hmem⟩

/-- No entry is leaked in a run exactly when every continuation brings its keys and finds its
callback, and no handle is given out again while it is pending. -/
theorem none_leaked_iff_delivers (idsCounter : ℕ) (disk : Table P.File (Option Metadata))
    (contents : P.File → Db) (events : List Event) :
    (∀ pre s out, pre <+: events →
      runSteps execute (newExecutor idsCounter disk contents) pre = .ok (s, out) →
      NoneLeaked s) ↔ EveryStep execute Delivers (newExecutor idsCounter disk contents) events := by
  apply forall_runSteps_iff (awaited_newExecutor idsCounter disk contents)
    (fun s hs => hs.noneLeaked)
  · intro s e s' out hs hd hstep
    exact hs.execute hd hstep
  · intro s e hs hd
    obtain ⟨s', out, hstep, hleak⟩ := hs.exists_leak hd
    exact ⟨s', out, hstep, fun hnone => hleak hnone.1⟩

end Runs

section Sample

/-- An opening whose raw key has the wrong length. -/
def wrongKeyOpening : List Event :=
  [.openWallet ⟨"alice", none⟩ ⟨"key", none, .raw, .raw⟩ [],
    .run 0 ⟨.error ⟨.invalidStructure, "Invalid mastery key"⟩, [],
      ⟨zeroKeys, [], fun _ => zeroRandom⟩⟩,
    .run 0 ⟨.ok zeroKey, [], ⟨zeroKeys, [], fun _ => zeroRandom⟩⟩]

def aliceOnDisk : Table plainPlatform.File (Option Metadata) :=
  AList.singleton (storageFile plainPlatform.environment ⟨"alice", none⟩)
    (some (.raw (plainKeys zeroKeys zeroKey)))

/-- What waits after a run: commands, and entries for openings. -/
def waiting (r : Outcome (Executor plainPlatform × List Reply)) : Option (ℕ × List WalletHandle) :=
  match r with
  | .ok (s, _) => some (s.inFlight.length, s.wallets.service.pendingForOpen.keys)
  | .error _ => none

theorem wrong_key_leaks_entry : ¬ ∀ pre s out, pre <+: wrongKeyOpening →
    runSteps execute (newExecutor 1 aliceOnDisk fun _ => emptyDb) pre = .ok (s, out) →
    NoneLeaked s := by
  intro h
  have hwaiting : waiting
      (runSteps execute (newExecutor 1 aliceOnDisk fun _ => emptyDb) wrongKeyOpening) =
      some (0, [2]) := by decide
  cases hrun : runSteps execute (newExecutor 1 aliceOnDisk fun _ => emptyDb) wrongKeyOpening with
  | error fault =>
    rw [hrun] at hwaiting
    cases hwaiting
  | ok r =>
    rw [hrun] at hwaiting
    obtain ⟨hcommands, hentries⟩ := Prod.mk.inj (Option.some.inj hwaiting)
    have hnone := (h wrongKeyOpening r.1 r.2 (List.prefix_refl _) hrun).2
      (List.eq_nil_of_length_eq_zero hcommands)
    rw [hnone.1] at hentries
    cases hentries

end Sample

end SimpleAsset.Indy.Wallet
