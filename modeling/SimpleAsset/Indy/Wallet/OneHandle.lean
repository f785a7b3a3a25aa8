import SimpleAsset.Indy.Wallet.Service
import SimpleAsset.Library.Runs

/-! One open handle per wallet. -/
namespace SimpleAsset.Indy.Wallet
open SimpleAsset.Library

section Properties
variable {E : Environment}

/-- The registered ids are those of the open wallets, and no two handles share a storage. -/
structure OneHandle (s : WalletService E) : Prop where
  ids : ∀ id, id ∈ s.walletIds ↔ ∃ handle wallet, s.wallets.lookup handle = some wallet ∧
    wallet.id = id
  storages : ∀ handle handle' wallet wallet', s.wallets.lookup handle = some wallet →
    s.wallets.lookup handle' = some wallet' → wallet.storage = wallet'.storage → handle = handle'

/-- The call takes no storage off the disk that an open wallet uses. -/
def KeepsOpenStorages (s : WalletService E) (c : Call E) : Prop :=
  ∀ handle wallet, s.wallets.lookup handle = some wallet → (s.disk.lookup wallet.storage).isSome →
    ((call s c).disk.lookup wallet.storage).isSome

/-- The open wallets on these files have this id. -/
def NamedBy (s : WalletService E) (id : String) (files : E.File → Prop) : Prop :=
  ∀ handle wallet, s.wallets.lookup handle = some wallet → files wallet.storage → wallet.id = id

/-- A second half that goes on to the end still finds the id unused, and its handle too. No open
wallet of another id is on the storage that is opened, or in the directory that is deleted. -/
def StillUnused (s : WalletService E) : Call E → Prop
  | .openWalletContinue handle masterKey _ _ => ∀ p keys, s.pendingForOpen.lookup handle = some p →
      restoreKeys E p.metadata masterKey = .ok keys →
        p.id ∉ s.walletIds ∧ s.wallets.lookup handle = none ∧
        NamedBy s p.id fun file => file = p.storage
  | .deleteWalletContinue config metadata masterKey =>
    ∀ keys, restoreKeys E metadata masterKey = .ok keys →
      getWalletId config ∉ s.walletIds ∧
        NamedBy s (getWalletId config) fun file => E.inTree (walletDir E config) file = true
  | _ => True

end Properties

section Invariant
variable {E : Environment} {s : WalletService E}

/-- There is one handle for each storage, and no two open wallets have one id. -/
structure Opened (s : WalletService E) : Prop extends OneHandle s where
  once : ∀ handle handle' wallet wallet', s.wallets.lookup handle = some wallet →
    s.wallets.lookup handle' = some wallet' → wallet.id = wallet'.id → handle = handle'

theorem opened_newService (idsCounter : ℕ) (disk : Table E.File (Option Metadata)) :
    Opened (newService idsCounter disk : WalletService E) := by
  have hnone : ∀ handle wallet,
      (newService idsCounter disk : WalletService E).wallets.lookup handle ≠ some wallet := by
    intro handle wallet hwallet
    cases hwallet
  refine ⟨⟨?_, ?_⟩, ?_⟩
  · intro id
    constructor
    · intro hid
      exact absurd hid (Finset.notMem_empty id)
    · rintro ⟨handle, wallet, hwallet, -⟩
      exact absurd hwallet (hnone handle wallet)
  · intro handle handle' wallet wallet' hwallet
    exact absurd hwallet (hnone handle wallet)
  · intro handle handle' wallet wallet' hwallet
    exact absurd hwallet (hnone handle wallet)

/-- The id of an open wallet is registered. -/
theorem OneHandle.id_mem (h : OneHandle s) {handle : WalletHandle} {wallet : OpenWallet E}
    (hwallet : s.wallets.lookup handle = some wallet) : wallet.id ∈ s.walletIds :=
  (h.ids wallet.id).mpr ⟨handle, wallet, hwallet, rfl⟩

/-- Where an id is not registered, no open wallet is on the files that only wallets with that id are
on. -/
theorem OneHandle.not_on (h : OneHandle s) {id : String} {files : E.File → Prop}
    (hid : id ∉ s.walletIds)
    (hnamed : NamedBy s id files) {handle : WalletHandle} {wallet : OpenWallet E}
    (hwallet : s.wallets.lookup handle = some wallet) : ¬ files wallet.storage := by
  intro hfile
  have hsame : wallet.id = id := hnamed handle wallet hwallet hfile
  exact hid (hsame ▸ h.id_mem hwallet)

theorem Opened.openWalletPrepare (h : Opened s) (config : Config) (credentials : Credentials)
    (salt : Bytes) :
    Opened (openWalletPrepare s config credentials salt).1 := by
  unfold Wallet.openWalletPrepare
  dsimp only
  split
  · exact h
  · exact ⟨⟨h.ids, h.storages⟩, h.once⟩

/-- Two wallets that share a key are one, also after another with a new key. -/
theorem lookup_insert_once {K : Type} {wallets : Table WalletHandle (OpenWallet E)}
    {key : OpenWallet E → K} {handle : WalletHandle} {wallet : OpenWallet E}
    (hnew : ∀ handle' wallet', wallets.lookup handle' = some wallet' → key wallet' ≠ key wallet)
    (honce : ∀ handle₁ handle₂ wallet₁ wallet₂, wallets.lookup handle₁ = some wallet₁ →
      wallets.lookup handle₂ = some wallet₂ → key wallet₁ = key wallet₂ → handle₁ = handle₂)
    (handle₁ handle₂ : WalletHandle) (wallet₁ wallet₂ : OpenWallet E)
    (h₁ : (wallets.insert handle wallet).lookup handle₁ = some wallet₁)
    (h₂ : (wallets.insert handle wallet).lookup handle₂ = some wallet₂)
    (hsame : key wallet₁ = key wallet₂) :
    handle₁ = handle₂ := by
  by_cases hh₁ : handle₁ = handle
  · by_cases hh₂ : handle₂ = handle
    · rw [hh₁, hh₂]
    · subst hh₁
      rw [AList.lookup_insert, Option.some.injEq] at h₁
      rw [AList.lookup_insert_ne hh₂] at h₂
      exact absurd (by rw [h₁, hsame]) (hnew handle₂ wallet₂ h₂)
  · rw [AList.lookup_insert_ne hh₁] at h₁
    by_cases hh₂ : handle₂ = handle
    · subst hh₂
      rw [AList.lookup_insert, Option.some.injEq] at h₂
      exact absurd (by rw [hsame, h₂]) (hnew handle₁ wallet₁ h₁)
    · rw [AList.lookup_insert_ne hh₂] at h₂
      exact honce handle₁ handle₂ wallet₁ wallet₂ h₁ h₂ hsame

/-- A wallet with a new id on a new storage is registered under a new handle. -/
theorem Opened.register (h : Opened s) {handle : WalletHandle} {wallet : OpenWallet E}
    (hid : wallet.id ∉ s.walletIds) (hhandle : s.wallets.lookup handle = none)
    (hstorage : ∀ handle' wallet', s.wallets.lookup handle' = some wallet' →
      wallet'.storage ≠ wallet.storage)
    (disk : Table E.File (Option Metadata)) :
    Opened { s with
      disk := disk
      wallets := s.wallets.insert handle wallet
      walletIds := insert wallet.id s.walletIds } := by
  have hnew : ∀ handle' wallet', s.wallets.lookup handle' = some wallet' → handle' ≠ handle := by
    rintro handle' wallet' hwallet' rfl
    rw [hhandle] at hwallet'
    cases hwallet'
  have hother : ∀ handle' wallet', s.wallets.lookup handle' = some wallet' →
      wallet'.id ≠ wallet.id := by
    intro handle' wallet' hwallet' hsame
    exact hid (hsame ▸ h.id_mem hwallet')
  refine ⟨⟨?_, lookup_insert_once hstorage h.storages⟩, lookup_insert_once hother h.once⟩
  intro id
  rw [Finset.mem_insert, h.ids]
  constructor
  · rintro (rfl | ⟨handle', wallet', hwallet', rfl⟩)
    · exact ⟨handle, wallet, AList.lookup_insert _, rfl⟩
    · exact ⟨handle', wallet',
        by rw [AList.lookup_insert_ne (hnew handle' wallet' hwallet')]; exact hwallet', rfl⟩
  · rintro ⟨handle', wallet', hwallet', rfl⟩
    by_cases hh : handle' = handle
    · subst hh
      rw [AList.lookup_insert, Option.some.injEq] at hwallet'
      exact Or.inl (by rw [hwallet'])
    · rw [AList.lookup_insert_ne hh] at hwallet'
      exact Or.inr ⟨handle', wallet', hwallet', rfl⟩

theorem Opened.openWalletContinue (h : Opened s) {handle : WalletHandle} {masterKey : E.MasterKey}
    {rekey : Option E.MasterKey} {nonce : Bytes}
    (hfree : StillUnused s (.openWalletContinue handle masterKey rekey nonce)) :
    Opened (openWalletContinue s handle masterKey rekey nonce).1 := by
  unfold Wallet.openWalletContinue
  cases hp : s.pendingForOpen.lookup handle with
  | none => exact h
  | some p =>
    have herased : Opened { s with pendingForOpen := s.pendingForOpen.erase handle } :=
      ⟨⟨h.ids, h.storages⟩, h.once⟩
    dsimp only
    split
    · exact herased
    · rename_i keys disk hrestored
      obtain ⟨keys', hkeys, hrestored⟩ := except_bind_eq_ok.mp hrestored
      obtain ⟨disk', -, hrestored⟩ := except_bind_eq_ok.mp hrestored
      obtain ⟨rfl, rfl⟩ := Prod.mk.inj (Except.ok.inj hrestored)
      obtain ⟨hid, hhandle, hnamed⟩ := hfree p keys' hp hkeys
      have hstorage : ∀ handle' wallet', s.wallets.lookup handle' = some wallet' →
          wallet'.storage ≠ p.storage :=
        fun handle' wallet' hwallet' => h.not_on hid hnamed hwallet'
      exact @Opened.register _ _ herased handle ⟨p.id, p.storage, keys'⟩ hid hhandle hstorage disk'

theorem Opened.closeWallet (h : Opened s) (handle : WalletHandle) :
    Opened (closeWallet s handle).1 := by
  unfold Wallet.closeWallet
  cases hwallet : s.wallets.lookup handle with
  | none => exact h
  | some wallet =>
    have hother : ∀ {handle' wallet'}, (s.wallets.erase handle).lookup handle' = some wallet' ↔
        handle' ≠ handle ∧ s.wallets.lookup handle' = some wallet' := by
      intro handle' wallet'
      by_cases hh : handle' = handle
      · subst hh
        simp
      · simp [AList.lookup_erase_ne hh, hh]
    refine ⟨⟨?_, ?_⟩, ?_⟩
    · intro id
      dsimp only
      rw [Finset.mem_erase, h.ids]
      constructor
      · rintro ⟨hne, handle', wallet', hwallet', rfl⟩
        refine ⟨handle', wallet', hother.mpr ⟨?_, hwallet'⟩, rfl⟩
        rintro rfl
        rw [hwallet, Option.some.injEq] at hwallet'
        exact hne (by rw [hwallet'])
      · rintro ⟨handle', wallet', hwallet', rfl⟩
        obtain ⟨hne, hwallet'⟩ := hother.mp hwallet'
        refine ⟨?_, handle', wallet', hwallet', rfl⟩
        intro hsame
        exact hne (h.once handle' handle wallet' wallet hwallet' hwallet hsame)
    · intro handle₁ handle₂ wallet₁ wallet₂ h₁ h₂ hsame
      exact h.storages handle₁ handle₂ wallet₁ wallet₂ (hother.mp h₁).2 (hother.mp h₂).2 hsame
    · intro handle₁ handle₂ wallet₁ wallet₂ h₁ h₂ hsame
      exact h.once handle₁ handle₂ wallet₁ wallet₂ (hother.mp h₁).2 (hother.mp h₂).2 hsame

theorem Opened.deleteWalletContinue (h : Opened s) (config : Config) (metadata : Metadata)
    (masterKey : E.MasterKey) :
    Opened (deleteWalletContinue s config metadata masterKey).1 := by
  unfold Wallet.deleteWalletContinue
  dsimp only
  split
  · exact h
  · exact ⟨⟨h.ids, h.storages⟩, h.once⟩

theorem Opened.call (h : Opened s) {c : Call E} (hfree : StillUnused s c) : Opened (call s c) := by
  cases c with
  | openWalletPrepare config credentials salt => exact h.openWalletPrepare config credentials salt
  | openWalletContinue handle masterKey rekey nonce => exact h.openWalletContinue hfree
  | closeWallet handle => exact h.closeWallet handle
  | deleteWalletPrepare config credentials => exact h
  | deleteWalletContinue config metadata masterKey =>
    exact h.deleteWalletContinue config metadata masterKey
  | getNextId => exact ⟨⟨h.ids, h.storages⟩, h.once⟩

theorem isSome_of_rekeyStorage {p : PendingOpen E} {rekey : Option E.MasterKey} {keys : E.Keys}
    {nonce : Bytes}
    {disk : Table E.File (Option Metadata)} (h : rekeyStorage s p rekey keys nonce = .ok disk)
    {file : E.File} (hfile : (s.disk.lookup file).isSome) : (disk.lookup file).isSome := by
  unfold rekeyStorage at h
  split at h
  · unfold setStorageMetadata at h
    split_ifs at h
    obtain rfl := Except.ok.inj h
    by_cases hf : file = p.storage
    · rw [hf, AList.lookup_insert]
      rfl
    · rw [AList.lookup_insert_ne hf]
      exact hfile
  · obtain rfl := Except.ok.inj h
    exact hfile

theorem isSome_of_deleteStorage {config : Config} {disk : Table E.File (Option Metadata)}
    (h : deleteStorage s config = .ok disk) {file : E.File}
    (hout : E.inTree (walletDir E config) file = false)
    (hfile : (s.disk.lookup file).isSome) : (disk.lookup file).isSome := by
  unfold deleteStorage at h
  split_ifs at h
  obtain rfl := Except.ok.inj h
  obtain ⟨metadata, hmetadata⟩ := Option.isSome_iff_exists.mp hfile
  rw [Table.lookup_filter, hmetadata]
  simp [hout]

/-- A wallet directory is removed only with storages that no open wallet uses. -/
theorem OneHandle.keepsOpenStorages (h : OneHandle s) {c : Call E} (hfree : StillUnused s c) :
    KeepsOpenStorages s c := by
  intro handle wallet hwallet hdisk
  cases c with
  | openWalletPrepare config credentials salt =>
    change ((Wallet.openWalletPrepare s config credentials salt).1.disk.lookup
      wallet.storage).isSome
    unfold Wallet.openWalletPrepare
    dsimp only
    split <;> exact hdisk
  | openWalletContinue handle' masterKey rekey nonce =>
    change ((Wallet.openWalletContinue s handle' masterKey rekey nonce).1.disk.lookup
      wallet.storage).isSome
    unfold Wallet.openWalletContinue
    cases hp : s.pendingForOpen.lookup handle' with
    | none => exact hdisk
    | some p =>
      dsimp only
      split
      · exact hdisk
      · rename_i keys disk hrestored
        obtain ⟨keys', -, hrestored⟩ := except_bind_eq_ok.mp hrestored
        obtain ⟨disk', hrekey, hrestored⟩ := except_bind_eq_ok.mp hrestored
        obtain ⟨rfl, rfl⟩ := Prod.mk.inj (Except.ok.inj hrestored)
        exact isSome_of_rekeyStorage hrekey hdisk
  | closeWallet handle' =>
    change ((Wallet.closeWallet s handle').1.disk.lookup wallet.storage).isSome
    unfold Wallet.closeWallet
    split <;> exact hdisk
  | deleteWalletPrepare config credentials => exact hdisk
  | deleteWalletContinue config metadata masterKey =>
    change ((Wallet.deleteWalletContinue s config metadata masterKey).1.disk.lookup
      wallet.storage).isSome
    unfold Wallet.deleteWalletContinue
    dsimp only
    split
    · exact hdisk
    · rename_i disk hdeleted
      obtain ⟨keys, hkeys, hdeleted⟩ := except_bind_eq_ok.mp hdeleted
      obtain ⟨hid, hnamed⟩ := hfree keys hkeys
      exact isSome_of_deleteStorage hdeleted
        (Bool.eq_false_of_not_eq_true (h.not_on hid hnamed hwallet)) hdisk
  | getNextId => exact hdisk

end Invariant

section Runs
variable {E : Environment}

/-- As long as the second halves find the ids unused and no open wallet of another id in their way,
there is one handle for each open wallet, and no storage is deleted under a handle. -/
theorem one_handle_per_wallet (idsCounter : ℕ) (disk : Table E.File (Option Metadata))
    (calls : List (Call E))
    (hfree : ∀ pre c, pre ++ [c] <+: calls →
      StillUnused (pre.foldl call (newService idsCounter disk)) c) :
    (∀ pre, pre <+: calls → OneHandle (pre.foldl call (newService idsCounter disk))) ∧
      ∀ pre c, pre ++ [c] <+: calls →
        KeepsOpenStorages (pre.foldl call (newService idsCounter disk)) c := by
  have hopened : ∀ pre, pre <+: calls → Opened (pre.foldl call (newService idsCounter disk)) := by
    refine forall_prefix_of_steps (opened_newService idsCounter disk) ?_ hfree
    intro pre c hpre hunused
    rw [List.foldl_concat]
    exact hpre.call hunused
  refine ⟨fun pre hpre => (hopened pre hpre).toOneHandle, ?_⟩
  intro pre c hpre
  have hbefore := hopened pre ((List.prefix_append pre [c]).trans hpre)
  exact hbefore.keepsOpenStorages (hfree pre c hpre)

end Runs

section Sample

/-- Files are their paths, a wallet directory holds the storage only, and a master key opens the
keys stored under it. -/
def sampleEnvironment : Environment where
  File := String
  walletHomePath := "/home/indy/.indy_client/wallet"
  fileAt path := path
  inTree dir file := decide (file = pushPath dir "sqlite.db")
  inOwnTree _ := decide_eq_true rfl
  MasterKey := Bytes
  Keys := Unit
  deserializeEncrypted keys masterKey :=
    if keys = masterKey then .ok ()
      else .error ⟨.invalidStructure, "Unable to open sodium chacha20poly1305_ietf"⟩
  serializeEncrypted _ masterKey _ := masterKey

def aliceConfig : Config := ⟨"alice", none⟩

def bobConfig : Config := ⟨"bob", none⟩

def sampleCredentials : Credentials := ⟨"key", none, .raw, .raw⟩

/-- The storages of two wallets. -/
def sampleDisk : Table sampleEnvironment.File (Option Metadata) :=
  (AList.singleton (storageFile sampleEnvironment aliceConfig) (some (.raw [1]))).insert
    (storageFile sampleEnvironment bobConfig) (some (.raw [1]))

def openSample (config : Config) : Call sampleEnvironment :=
  .openWalletPrepare config sampleCredentials []

/-- The second half of an opening with the right key. -/
def continueSample (handle : WalletHandle) : Call sampleEnvironment :=
  .openWalletContinue handle [1] none []

/-- Two wallets are opened, and one is closed and deleted. -/
def twoWalletCalls : List (Call sampleEnvironment) :=
  [openSample aliceConfig, openSample bobConfig, continueSample 3, continueSample 2, .closeWallet 2,
    .deleteWalletContinue aliceConfig (.raw [1]) [1]]

/-- Where only the wallet of `bob` is open, the wallet of `alice` can be opened and deleted. -/
theorem namedBy_bob {s : WalletService sampleEnvironment} {handle : WalletHandle} {keys : Unit}
    (hwallets : s.wallets = AList.singleton handle
      ⟨"bob", storageFile sampleEnvironment bobConfig, keys⟩) (id : String)
    {files : sampleEnvironment.File → Prop}
    (hfiles : ¬ files (storageFile sampleEnvironment bobConfig)) :
    NamedBy s id files := by
  intro handle' wallet hwallet hfile
  have hmem := AList.mem_lookup_iff.mp (show wallet ∈ s.wallets.lookup handle' from hwallet)
  rw [hwallets] at hmem
  obtain ⟨rfl, h⟩ := Sigma.mk.inj (List.mem_singleton.mp hmem)
  rw [eq_of_heq h] at hfile
  exact absurd hfile hfiles

theorem one_handle_per_wallet_two :
    (∀ pre, pre <+: twoWalletCalls → OneHandle (pre.foldl call (newService 1 sampleDisk))) ∧
      ∀ pre c, pre ++ [c] <+: twoWalletCalls →
        KeepsOpenStorages (pre.foldl call (newService 1 sampleDisk)) c := by
  refine one_handle_per_wallet 1 sampleDisk twoWalletCalls ?_
  have hbob : StillUnused ((twoWalletCalls.take 2).foldl call (newService 1 sampleDisk))
      (continueSample 3) := by
    intro p keys hp _
    obtain rfl : PendingOpen.mk "bob" (storageFile sampleEnvironment bobConfig) (.raw
        [1]) none = p :=
      Option.some.inj hp
    refine ⟨by decide, rfl, ?_⟩
    intro handle wallet hwallet
    cases hwallet
  have halice : StillUnused ((twoWalletCalls.take 3).foldl call (newService 1 sampleDisk))
      (continueSample 2) := by
    intro p keys hp _
    obtain rfl : PendingOpen.mk "alice" (storageFile sampleEnvironment aliceConfig) (.raw
        [1]) none = p :=
      Option.some.inj hp
    exact ⟨by decide, rfl, namedBy_bob rfl "alice" (by decide)⟩
  have hdelete : StillUnused ((twoWalletCalls.take 5).foldl call (newService 1 sampleDisk))
      (.deleteWalletContinue aliceConfig (.raw [1]) [1]) := by
    intro keys _
    exact ⟨by decide, namedBy_bob rfl "alice" (by decide)⟩
  exact forall_steps_cons trivial
    (forall_steps_cons trivial (forall_steps_cons hbob (forall_steps_cons halice
    (forall_steps_cons trivial (forall_steps_cons hdelete forall_steps_nil)))))

/-- Two openings of one wallet, with both checks before both registrations. -/
theorem two_handles_for_one_wallet :
    ¬ OneHandle ([openSample aliceConfig, openSample aliceConfig, continueSample 2,
      continueSample 3].foldl call (newService 1 sampleDisk)) := by
  intro h
  have hkeys : ([openSample aliceConfig, openSample aliceConfig, continueSample 2,
      continueSample 3].foldl call (newService 1 sampleDisk)).wallets.keys = [3, 2] := by
    decide
  obtain ⟨wallet, hwallet⟩ :=
    Table.mem_keys_iff.mp (show (2 : WalletHandle) ∈ _ by rw [hkeys]; simp)
  obtain ⟨wallet', hwallet'⟩ :=
    Table.mem_keys_iff.mp (show (3 : WalletHandle) ∈ _ by rw [hkeys]; simp)
  have hstorage : wallet.storage = wallet'.storage := by
    rw [← Option.some.inj hwallet, ← Option.some.inj hwallet']
  have hsame : (2 : WalletHandle) = 3 := h.storages 2 3 wallet wallet' hwallet hwallet' hstorage
  revert hsame
  decide

end Sample

end SimpleAsset.Indy.Wallet
