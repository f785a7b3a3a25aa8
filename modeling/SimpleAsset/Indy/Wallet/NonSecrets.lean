import SimpleAsset.Indy.Wallet.IndyObjects

/-! The records that an application may keep in a wallet (commands/non_secrets.rs), apart from those
of the library. -/
namespace SimpleAsset.Indy.Wallet.NonSecretsCommandExecutor
open SimpleAsset.Library
open WalletService (PREFIX mapStorageFault)

/-- JSON arguments come as what they stand for, or as the text of the error of serde. -/
inductive NonSecretsCommand
  | addRecord (type id value : String) (tags : Option (Table String String)) (random : ValueRandom)
  | updateRecordValue (type id value : String) (random : ValueRandom)
  | updateRecordTags (type id : String) (tags : Table String String)
  | addRecordTags (type id : String) (tags : Table String String)
  | deleteRecordTags (type id : String) (tagNames : Except String (List String))
  | deleteRecord (type id : String)
  | getRecord (type id : String) (options : Except String RecordOptions)
  /-- A search that is opened, fetched from until it has no record left, and closed. -/
  | search (type : String) (query : Json) (options : Except String SearchOptions)

def NonSecretsCommand.type : NonSecretsCommand → String
  | addRecord type _ _ _ _ | updateRecordValue type _ _ _ | updateRecordTags type _
      _ | addRecordTags type _ _
  | deleteRecordTags type _ _ | deleteRecord type _ | getRecord type _ _ | search type _ _ => type

/-- Types that are not for applications. -/
def isReserved (type : String) : Bool := PREFIX.toList.isPrefixOf type.toList

/-- `_check_type`. -/
def checkType (type : String) : IndyResult Unit :=
  if isReserved type then
    .error ⟨.walletAccessFailed, "Record of type \"" ++ type ++ "\" is not available for fetching"⟩
  else .ok ()

/-- `.to_indy(IndyErrorKind::InvalidStructure, message)?`. -/
def ofSerde {α : Type} (message : String) : Except String α → IndyResult α
  | .ok a => .ok a
  | .error e => .error ⟨.invalidStructure, message ++ "\n  Caused by: " ++ e⟩

/-- The call on the wallet service that a command with an admitted type comes down to. -/
def NonSecretsCommand.call : NonSecretsCommand → IndyResult RecordCall
  | addRecord type id value tags random => .ok (.add type id value (tags.getD ∅) random)
  | updateRecordValue type id value random => .ok (.update type id value random)
  | updateRecordTags type id tags => .ok (.updateTags type id tags)
  | addRecordTags type id tags => .ok (.addTags type id tags)
  | deleteRecordTags type id tagNames => do
    let tagNames ← ofSerde "Cannot deserialize tag names" tagNames
    pure (.deleteTags type id tagNames)
  | deleteRecord type id => .ok (.delete type id)
  | getRecord type id options => do
    let options ← ofSerde "Cannot deserialize options" options
    pure (.get type id (some options))
  | search type query options => do
    let options ← ofSerde "Cannot deserialize options" options
    pure (.search type query (some options))

/-- The error of a call of `WalletService`; those of a search are as the wallet has them. -/
def mapCallFault : RecordCall → Fault → Fault
  | .add type id _ _ _ | .update type id _ _ | .updateTags type id _ | .addTags type id
      _ | .deleteTags type id _
  | .delete type id | .get type id _ => mapStorageFault type id
  | .search _ _ _ | .reopen => fun fault => fault

section Executor

/-- One command, over the calls of a wallet. -/
def executeOn {W : Type} (call : W → RecordCall → Outcome ReplyView × W) (w : W)
    (c : NonSecretsCommand) : Outcome ReplyView × W :=
  match checkType c.type with
  | .error e => (.error (.err e), w)
  | .ok _ =>
    match c.call with
    | .error e => (.error (.err e), w)
    | .ok serviceCall =>
      ((call w serviceCall).1.mapError (mapCallFault serviceCall), (call w serviceCall).2)

variable (C : Cipher) (keys : Keys) (S : Sqlite) (build : Build)

/-- One command of the executor. The order of tags and of records that are found is left out of
its reply. -/
def execute (conn : Connection) (c : NonSecretsCommand) : Outcome ReplyView × Connection :=
  executeOn (fun conn serviceCall =>
    ((conn.call C keys S build serviceCall).1.map RecordReply.view,
      (conn.call C keys S build serviceCall).2)) conn c

/-- The replies to commands one after another, and the wallet after them. -/
def executeAll (conn : Connection) :
    List NonSecretsCommand → List (Outcome ReplyView) × Connection
  | [] => ([], conn)
  | c :: cs =>
    let (replies, conn') := executeAll (execute C keys S build conn c).2 cs
    ((execute C keys S build conn c).1 :: replies, conn')

/-- What a command does to the records of a wallet. -/
def executeOnMap (like : String → String → Bool) (m : RecordMap) (c : NonSecretsCommand) :
    Outcome ReplyView × RecordMap :=
  executeOn (RecordMap.call like) m c

end Executor

section Confined
variable (like : String → String → Bool) {m m' : RecordMap} {key : String × String}
  {c : NonSecretsCommand} {call : RecordCall}

/-- The wallets hold the same records of the types that are for applications. -/
def SameOutside (m m' : RecordMap) : Prop :=
  ∀ key : String × String, isReserved key.1 = false → m.lookup key = m'.lookup key

/-- The wallets hold the same records of the reserved types. -/
def SameInside (m m' : RecordMap) : Prop :=
  ∀ key : String × String, isReserved key.1 = true → m.lookup key = m'.lookup key

/-- The type that a call is about. -/
def callType : RecordCall → Option String
  | .add type _ _ _ _ | .update type _ _ _ | .updateTags type _ _ | .addTags type _
      _ | .deleteTags type _ _
  | .delete type _ | .get type _ _ | .search type _ _ => some type
  | .reopen => none

theorem isReserved_addPrefix (type : String) :
    isReserved (WalletService.addPrefix type) = true := by
  rw [isReserved, List.isPrefixOf_iff_prefix, WalletService.addPrefix, String.toList_append,
    String.toList_append, List.append_assoc]
  exact List.prefix_append _ _

theorem callType_of_call (h : c.call = .ok call) : callType call = some c.type := by
  cases c with
  | addRecord | updateRecordValue | updateRecordTags | addRecordTags | deleteRecord =>
    rw [← Except.ok.inj h]
    rfl
  | deleteRecordTags | getRecord | search =>
    obtain ⟨_, -, hcall⟩ := except_bind_eq_ok.mp h
    rw [← Except.ok.inj hcall]
    rfl

theorem SameOutside.mem_iff (h : SameOutside m m') (hkey : isReserved key.1 = false) :
    key ∈ m ↔ key ∈ m' := by
  rw [← Finmap.lookup_isSome, ← Finmap.lookup_isSome, h key hkey]

theorem SameOutside.insert (h : SameOutside m m') (key : String × String) (entry : Entry) :
    SameOutside (m.insert key entry) (m'.insert key entry) := by
  intro key' hkey'
  by_cases heq : key' = key
  · rw [heq, Finmap.lookup_insert, Finmap.lookup_insert]
  · rw [Finmap.lookup_insert_of_ne m heq, Finmap.lookup_insert_of_ne m' heq, h key' hkey']

theorem SameOutside.erase (h : SameOutside m m') (key : String × String) :
    SameOutside (m.erase key) (m'.erase key) := by
  intro key' hkey'
  by_cases heq : key' = key
  · rw [heq, Finmap.lookup_erase, Finmap.lookup_erase]
  · rw [Finmap.lookup_erase_ne heq, Finmap.lookup_erase_ne heq, h key' hkey']

theorem sameInside_insert (hkey : isReserved key.1 = false) (entry : Entry) :
    SameInside (m.insert key entry) m := by
  intro key' hkey'
  apply Finmap.lookup_insert_of_ne
  rintro rfl
  rw [hkey] at hkey'
  cases hkey'

theorem sameInside_erase (hkey : isReserved key.1 = false) : SameInside (m.erase key) m := by
  intro key' hkey'
  apply Finmap.lookup_erase_ne
  rintro rfl
  rw [hkey] at hkey'
  cases hkey'

theorem sameOutside_refl (m : RecordMap) : SameOutside m m := fun _ _ => rfl

theorem sameInside_refl (m : RecordMap) : SameInside m m := fun _ _ => rfl

/-- Two wallets have the same records of a type. -/
theorem SameOutside.filter_eq (h : SameOutside m m') {type : String}
    (htype : isReserved type = false) :
    m.entries.filter (fun e => e.1.1 = type) = m'.entries.filter fun e => e.1.1 = type := by
  refine (Multiset.Nodup.ext (m.nodup_entries.filter _) (m'.nodup_entries.filter _)).mpr ?_
  rintro ⟨key, entry⟩
  rw [Multiset.mem_filter, Multiset.mem_filter, ← Finmap.lookup_eq_some_iff,
    ← Finmap.lookup_eq_some_iff]
  constructor
  · rintro ⟨hlookup, heq⟩
    rw [h key (by rw [heq, htype])] at hlookup
    exact ⟨hlookup, heq⟩
  · rintro ⟨hlookup, heq⟩
    rw [← h key (by rw [heq, htype])] at hlookup
    exact ⟨hlookup, heq⟩

theorem SameOutside.select_eq (h : SameOutside m m') {type : String}
    (htype : isReserved type = false) (query : Anoncreds.Query) :
    RecordMap.select like m type query = RecordMap.select like m' type query := by
  unfold RecordMap.select
  simp only [and_comm (a := _ = type), ← Multiset.filter_filter, h.filter_eq htype]

/-- Two wallets answer alike and stay alike, and the first one keeps what is reserved in it. -/
structure Confined (m : RecordMap) (r r' : Outcome ReplyView × RecordMap) : Prop where
  reply : r.1 = r'.1
  outside : SameOutside r.2 r'.2
  inside : SameInside r.2 m

theorem confined_same (h : SameOutside m m') (reply : Outcome ReplyView) :
    Confined m (reply, m) (reply, m') :=
  ⟨rfl, h, sameInside_refl m⟩

theorem confined_change (h : SameOutside m m') (hkey : isReserved key.1 = false)
    (missing : IndyError)
    (f : Entry → Entry) : Confined m (m.change key missing f) (m'.change key missing f) := by
  have hsame := h key hkey
  rcases hlookup : m.lookup key with _ | entry
  · rw [RecordMap.change_of_none hlookup, RecordMap.change_of_none (hsame.symm.trans hlookup)]
    exact confined_same h _
  · rw [RecordMap.change_of_lookup hlookup, RecordMap.change_of_lookup (hsame.symm.trans hlookup)]
    exact ⟨rfl, h.insert key _, sameInside_insert hkey _⟩

theorem confined_add (h : SameOutside m m') (hkey : isReserved key.1 = false) (entry : Entry) :
    Confined m (m.add key entry) (m'.add key entry) := by
  unfold RecordMap.add
  by_cases hmem : key ∈ m
  · rw [if_pos hmem, if_pos ((h.mem_iff hkey).mp hmem)]
    exact confined_same h _
  · rw [if_neg hmem, if_neg (mt (h.mem_iff hkey).mpr hmem)]
    exact ⟨rfl, h.insert key _, sameInside_insert hkey _⟩

theorem confined_delete (h : SameOutside m m') (hkey : isReserved key.1 = false) :
    Confined m (m.delete key) (m'.delete key) := by
  unfold RecordMap.delete
  by_cases hmem : key ∈ m
  · rw [if_pos hmem, if_pos ((h.mem_iff hkey).mp hmem)]
    exact ⟨rfl, h.erase key, sameInside_erase hkey⟩
  · rw [if_neg hmem, if_neg (mt (h.mem_iff hkey).mpr hmem)]
    exact confined_same h _

theorem get_eq (h : SameOutside m m') {type : String} (htype : isReserved type = false)
    (name : String)
    (options : Option RecordOptions) : m.get type name options = m'.get type name options := by
  unfold RecordMap.get
  rw [h (type, name) htype]

theorem search_eq (h : SameOutside m m') {type : String} (htype : isReserved type = false)
    (query : Json) (options : Option SearchOptions) :
    RecordMap.search like m type query options = RecordMap.search like m' type query options := by
  unfold RecordMap.search RecordMap.searchFor RecordMap.answer
  simp only [h.select_eq like htype]

theorem confined_call (h : SameOutside m m') {type : String} (hcall : callType call = some type)
    (htype : isReserved type = false) :
    Confined m (RecordMap.call like m call) (RecordMap.call like m' call) := by
  cases call with
  | add type' name value tags random =>
    obtain rfl : type' = type := Option.some.inj hcall
    have hkey : isReserved (type', name).1 = false := htype
    exact confined_add h hkey _
  | update type' name newValue random =>
    obtain rfl : type' = type := Option.some.inj hcall
    have hkey : isReserved (type', name).1 = false := htype
    exact confined_change h hkey _ _
  | addTags type' name tags =>
    obtain rfl : type' = type := Option.some.inj hcall
    have hkey : isReserved (type', name).1 = false := htype
    exact confined_change h hkey _ _
  | updateTags type' name tags =>
    obtain rfl : type' = type := Option.some.inj hcall
    have hkey : isReserved (type', name).1 = false := htype
    exact confined_change h hkey _ _
  | deleteTags type' name tagNames =>
    obtain rfl : type' = type := Option.some.inj hcall
    have hkey : isReserved (type', name).1 = false := htype
    exact confined_change h hkey _ _
  | delete type' name =>
    obtain rfl : type' = type := Option.some.inj hcall
    have hkey : isReserved (type', name).1 = false := htype
    exact confined_delete h hkey
  | get type' name options =>
    obtain rfl : type' = type := Option.some.inj hcall
    refine ⟨?_, h, sameInside_refl m⟩
    exact congrArg (Except.map ReplyView.record) (get_eq h htype name options)
  | search type' query options =>
    obtain rfl : type' = type := Option.some.inj hcall
    refine ⟨?_, h, sameInside_refl m⟩
    exact congrArg (Except.map fun r => ReplyView.found r.1 r.2)
      (search_eq like h htype query options)
  | reopen => cases hcall

/-- A command is refused or is one call, whatever is in the wallet. -/
theorem executeOn_eq (c : NonSecretsCommand) :
    (∃ reply, ∀ (W : Type) (exec : W → RecordCall → Outcome ReplyView × W) (w : W),
      executeOn exec w c = (reply, w)) ∨
    ∃ call, callType call = some c.type ∧ isReserved c.type = false ∧
      ∀ (W : Type) (exec : W → RecordCall → Outcome ReplyView × W) (w : W),
        executeOn exec w c = ((exec w call).1.mapError (mapCallFault call), (exec w call).2) := by
  unfold executeOn
  rcases hcheck : checkType c.type with e | u
  · exact .inl ⟨.error (.err e), fun _ _ _ => rfl⟩
  · rcases hcall : c.call with e | call
    · exact .inl ⟨.error (.err e), fun _ _ _ => rfl⟩
    · refine .inr ⟨call, callType_of_call hcall, ?_, fun _ _ _ => rfl⟩
      by_contra hreserved
      rw [checkType, if_pos (Bool.eq_true_of_not_eq_false hreserved)] at hcheck
      cases hcheck

theorem confined_execute (h : SameOutside m m') (c : NonSecretsCommand) :
    Confined m (executeOnMap like m c) (executeOnMap like m' c) := by
  unfold executeOnMap
  rcases executeOn_eq c with ⟨reply, hrefused⟩ | ⟨call, hcall, htype, heq⟩
  · rw [hrefused, hrefused]
    exact confined_same h reply
  · have hconfined := confined_call like h hcall htype
    rw [heq, heq]
    exact ⟨congrArg (Except.mapError (mapCallFault call)) hconfined.reply, hconfined.outside,
      hconfined.inside⟩

/-- A call changes records of its own type only. -/
theorem lookup_call_of_ne (hcall : callType call ≠ some key.1) :
    (RecordMap.call like m call).2.lookup key = m.lookup key := by
  have hchange : ∀ (type name : String) (missing : IndyError) (f : Entry → Entry),
      some type ≠ some key.1 →
      (m.change (type, name) missing f).2.lookup key = m.lookup key := by
    intro type name missing f hne
    unfold RecordMap.change
    split
    · apply Finmap.lookup_insert_of_ne
      rintro rfl
      exact hne rfl
    · rfl
  cases call with
  | add type name value tags random =>
    change (m.add (type, name) _).2.lookup key = _
    unfold RecordMap.add
    split_ifs
    · rfl
    · apply Finmap.lookup_insert_of_ne
      rintro rfl
      exact hcall rfl
  | delete type name =>
    change (m.delete (type, name)).2.lookup key = _
    unfold RecordMap.delete
    split_ifs
    · apply Finmap.lookup_erase_ne
      rintro rfl
      exact hcall rfl
    · rfl
  | update type name newValue random => exact hchange type name _ _ hcall
  | addTags type name tags => exact hchange type name _ _ hcall
  | updateTags type name tags => exact hchange type name _ _ hcall
  | deleteTags type name tagNames => exact hchange type name _ _ hcall
  | get | search | reopen => rfl

theorem lookup_execute_of_ne (h : c.type ≠ key.1) :
    (executeOnMap like m c).2.lookup key = m.lookup key := by
  unfold executeOnMap
  rcases executeOn_eq c with ⟨reply, hrefused⟩ | ⟨call, hcall, -, heq⟩
  · rw [hrefused]
  · rw [heq]
    apply lookup_call_of_ne
    rw [hcall]
    exact fun htype => h (Option.some.inj htype)

end Confined

section OnWallets
variable {C : Cipher} {keys : Keys} {S : Sqlite} {build : Build} {conn conn' : Connection}
  {m m' : RecordMap}

/-- A call about a type that is for applications is answered from the records of that type. -/
theorem reply_call_eq (hkeys : S.foreignKeys = true) (h : Connected C keys S conn m)
    (h' : Connected C keys S conn' m') (hsame : SameOutside m m') {call : RecordCall}
    {type : String} (hcall : callType call = some type) (htype : isReserved type = false) :
    (conn.call C keys S build call).1.map RecordReply.view =
      (conn'.call C keys S build call).1.map RecordReply.view := by
  by_cases hsearch : ∃ type query options, call = .search type query options
  · obtain ⟨type', query, options, rfl⟩ := hsearch
    obtain rfl : type' = type := Option.some.inj hcall
    have hfound := searchAll_congr S build h.stores h'.stores
      (hsame.filter_eq htype) query options
    have hview : ∀ db, ((Wallet.searchAll C keys S build type' query options db).map
        fun r => RecordReply.found r.1 r.2).map RecordReply.view =
        ((Wallet.searchAll C keys S build type' query options db).map
          fun r => (r.1, (r.2.map WalletRecord.view : Multiset RecordView))).map
            fun r => ReplyView.found r.1 r.2 := by
      intro db
      cases Wallet.searchAll C keys S build type' query options db <;> rfl
    exact (hview conn.db).trans ((congrArg _ hfound).trans (hview conn'.db).symm)
  · have hclean : ∀ s : Connection × RecordMap, Clean C keys S build s call := fun s =>
      clean_of_foreignKeys hkeys fun type query options heq => hsearch ⟨type, query, options, heq⟩
    rw [(call_refines h (hclean _)).1, (call_refines h' (hclean _)).1]
    exact (confined_call S.like hsame hcall htype).reply

theorem reply_execute_eq (hkeys : S.foreignKeys = true) (h : Connected C keys S conn m)
    (h' : Connected C keys S conn' m') (hsame : SameOutside m m') (c : NonSecretsCommand) :
    (execute C keys S build conn c).1 = (execute C keys S build conn' c).1 := by
  unfold execute
  rcases executeOn_eq c with ⟨reply, hrefused⟩ | ⟨call, hcall, htype, heq⟩
  · rw [hrefused, hrefused]
  · rw [heq, heq]
    exact congrArg (Except.mapError (mapCallFault call))
      (reply_call_eq hkeys h h' hsame hcall htype)

/-- A command leaves a wallet that stores the records that the command leaves. -/
theorem connected_execute (hkeys : S.foreignKeys = true) (h : Connected C keys S conn m)
    (c : NonSecretsCommand) :
    Connected C keys S (execute C keys S build conn c).2 (executeOnMap S.like m c).2 := by
  unfold execute executeOnMap
  rcases executeOn_eq c with ⟨reply, hrefused⟩ | ⟨call, -, -, heq⟩
  · rw [hrefused, hrefused]
    exact h
  · rw [heq, heq]
    exact h.call hkeys call

/-- Commands of an application give the same replies whatever the library keeps in the wallet, and
leave that as it is. -/
theorem executeAll_confined (hkeys : S.foreignKeys = true) (h : Connected C keys S conn m)
    (h' : Connected C keys S conn' m') (hsame : SameOutside m m') (cs : List NonSecretsCommand) :
    (executeAll C keys S build conn cs).1 = (executeAll C keys S build conn' cs).1 ∧
      ∃ n n', Connected C keys S (executeAll C keys S build conn cs).2 n ∧
        Connected C keys S (executeAll C keys S build conn' cs).2 n' ∧
        SameOutside n n' ∧ SameInside n m := by
  induction cs generalizing conn conn' m m' with
  | nil => exact ⟨rfl, m, m', h, h', hsame, sameInside_refl m⟩
  | cons c cs ih =>
    have hstep := confined_execute S.like hsame c
    obtain ⟨hreplies, n, n', hn, hn', houtside, hinside⟩ :=
      ih (connected_execute hkeys h c) (connected_execute hkeys h' c) hstep.outside
    refine ⟨?_, n, n', hn, hn', houtside, ?_⟩
    · exact congrArg₂ List.cons (reply_execute_eq hkeys h h' hsame c) hreplies
    · intro key hkey
      rw [← hstep.inside key hkey]
      exact hinside key hkey

/-- A key of the library. -/
def addKey : RecordCall := .add "Indy::Key" "k" "secret" ∅ zeroRandom

theorem sameOutside_addKey : SameOutside (mapAfter maxSqlite.like [addKey]) ∅ := by
  intro key hkey
  have hmap : mapAfter maxSqlite.like [addKey] =
      (∅ : RecordMap).insert ("Indy::Key", "k") ⟨"secret", AList.toFinmap ∅⟩ := rfl
  rw [hmap]
  apply Finmap.lookup_insert_of_ne
  rintro rfl
  revert hkey
  decide

/-- The key is asked for under its type, under a type of the application and in a search. -/
def askingCommands : List NonSecretsCommand :=
  [.getRecord "Indy::Key" "k" (.ok ⟨true, true, true⟩), .deleteRecord "Indy::Key" "k",
    .addRecord "Key" "k" "v" none zeroRandom,
    .search "Key" (.object []) (.ok ⟨true, true, true, true, true⟩)]

theorem executeAll_confined_asking :
    (executeAll plainCipher zeroKeys maxSqlite .release
        (walletAfter plainCipher zeroKeys maxSqlite .release [addKey]) askingCommands).1 =
        (executeAll plainCipher zeroKeys maxSqlite .release
          (newWallet maxSqlite) askingCommands).1 ∧
      ∃ n n', Connected plainCipher zeroKeys maxSqlite
          (executeAll plainCipher zeroKeys maxSqlite .release
            (walletAfter plainCipher zeroKeys maxSqlite .release [addKey]) askingCommands).2 n ∧
        Connected plainCipher zeroKeys maxSqlite
          (executeAll plainCipher zeroKeys maxSqlite .release (newWallet maxSqlite)
            askingCommands).2 n' ∧
        SameOutside n n' ∧ SameInside n (mapAfter maxSqlite.like [addKey]) :=
  executeAll_confined rfl (connected_newWallet.call rfl addKey) connected_newWallet
    sameOutside_addKey askingCommands

end OnWallets

end SimpleAsset.Indy.Wallet.NonSecretsCommandExecutor
