import SimpleAsset.Library.Runs
import SimpleAsset.Indy.Wallet.RecordWrites
import SimpleAsset.Indy.Wallet.RecordReads

/-! Runs of calls on a wallet give the results of the map, unless a record inherits the tags of a
deleted one or a search cannot be answered. -/
namespace SimpleAsset.Indy.Wallet
open SimpleAsset.Library

variable (C : Cipher) (keys : Keys) (S : Sqlite) (build : Build)

/-- The state before a call is one where the wallet does what the map does: a new record gets a row
id for which no tags are left, which foreign keys see to, and a search can be answered. -/
def Clean (s : Connection × RecordMap) : RecordCall → Prop
  | .add type name _ _ _ => S.foreignKeys = false →
      s.1.db.findItem (encryptType C keys type) (encryptName C keys name) = none →
        ∀ slot, s.1.db.tag (S.nextRowid s.1.db.items.keys) slot = none
  | .search type query options => ∀ q o, Wql.deserialize query = .ok q → options = some o →
      o.asks = true → namesTags q = true → Searchable S.like build s.2 type q
  | _ => True

/-- The wallet after these calls, made and opened before them. -/
def walletAfter (calls : List RecordCall) : Connection :=
  calls.foldl (fun conn c => (conn.call C keys S build c).2) (newWallet S)

/-- The map after these calls. -/
def mapAfter (like : String → String → Bool) (calls : List RecordCall) : RecordMap :=
  calls.foldl (fun m c => (RecordMap.call like m c).2) ∅

/-- One call on a wallet and on a map. -/
def bothCalls (s : Connection × RecordMap) (c : RecordCall) : Connection × RecordMap :=
  ((s.1.call C keys S build c).2, (RecordMap.call S.like s.2 c).2)

theorem foldl_bothCalls (calls : List RecordCall) :
    calls.foldl (bothCalls C keys S build) (newWallet S, ∅) =
      (walletAfter C keys S build calls, mapAfter S.like calls) := by
  induction calls using List.reverseRecOn with
  | nil => rfl
  | append_singleton calls c ih =>
    rw [walletAfter, mapAfter, List.foldl_concat, List.foldl_concat, List.foldl_concat, ih]
    rfl

section Step
variable {C keys S build} {conn : Connection} {m : RecordMap}

variable (C keys S) in
/-- An open wallet that stores the map. -/
structure Connected (conn : Connection) (m : RecordMap) : Prop where
  stores : Stores C keys conn.db m
  setting : conn.foreignKeys = S.foreignKeys
  orphans : S.foreignKeys = true → NoOrphans conn.db

theorem connected_newWallet : Connected C keys S (newWallet S) ∅ :=
  ⟨stores_empty, rfl, fun _ => noOrphans_empty⟩

theorem db_exec (statement : Sql Unit) : (conn.exec statement).2.db = (statement conn.db).2 := by
  unfold Connection.exec
  cases statement conn.db with
  | mk r db => cases r <;> rfl

theorem foreignKeys_exec (statement : Sql Unit) :
    (conn.exec statement).2.foreignKeys = conn.foreignKeys := by
  unfold Connection.exec
  cases statement conn.db with
  | mk r db => cases r <;> rfl

/-- What the statements of the wallet keep is kept by its calls. -/
theorem KeptByWrites.call {P : Db → Prop} (h : KeptByWrites C keys conn.foreignKeys P)
    (hdb : P conn.db) (c : RecordCall) : P (conn.call C keys S build c).2.db := by
  cases c with
  | add type name value tags random =>
    rw [Connection.call, db_exec]
    exact h.add hdb type name value tags random
  | update type name newValue random =>
    rw [Connection.call, db_exec]
    exact h.updateValue hdb type name newValue random
  | addTags type name tags =>
    rw [Connection.call, db_exec]
    exact h.addTags hdb type name tags
  | updateTags type name tags =>
    rw [Connection.call, db_exec]
    exact h.updateTags hdb type name tags
  | deleteTags type name tagNames =>
    rw [Connection.call, db_exec]
    exact h.deleteTags hdb type name tagNames
  | delete type name =>
    rw [Connection.call, db_exec]
    exact h.deleteRow hdb type name
  | get type name options => exact hdb
  | search type query options => exact hdb
  | reopen => exact hdb

theorem setting_call (hsetting : conn.foreignKeys = S.foreignKeys) (c : RecordCall) :
    (conn.call C keys S build c).2.foreignKeys = S.foreignKeys := by
  cases c with
  | get | search => exact hsetting
  | reopen => rfl
  | _ => exact (foreignKeys_exec _).trans hsetting

/-- The reply is the one of the map, and the database then stores the map. -/
def Agrees (C : Cipher) (keys : Keys) (r : Outcome RecordReply × Connection)
    (r' : Outcome ReplyView × RecordMap) : Prop :=
  r.1.map RecordReply.view = r'.1 ∧ Stores C keys r.2.db r'.2

theorem exec_ok {statement : Sql Unit} {m' : RecordMap}
    (h : ∃ db', statement conn.db = (.ok (), db') ∧ Stores C keys db' m') :
    Agrees C keys (conn.exec statement) (.ok .unit, m') := by
  obtain ⟨db', heq, hstores⟩ := h
  rw [Connection.exec, heq]
  exact ⟨rfl, hstores⟩

theorem exec_error {statement : Sql Unit} {e : IndyError}
    (h : ∃ db', statement conn.db = (.error e, db') ∧ Stores C keys db' m) :
    Agrees C keys (conn.exec statement) (.error (.err e), m) := by
  obtain ⟨db', heq, hstores⟩ := h
  rw [Connection.exec, heq]
  exact ⟨rfl, hstores⟩

/-- A call that changes the entry of a key. -/
theorem exec_change {statement : Sql Unit} {key : String × String} {missing : IndyError}
    {f : Entry → Entry}
    (hnone : m.lookup key = none → ∃ db', statement conn.db = (.error missing, db') ∧
      Stores C keys db' m)
    (hsome : ∀ entry, m.lookup key = some entry →
      ∃ db', statement conn.db = (.ok (), db') ∧ Stores C keys db' (m.insert key (f entry))) :
    Agrees C keys (conn.exec statement) (m.change key missing f) := by
  cases hkey : m.lookup key with
  | none =>
    rw [RecordMap.change_of_none hkey]
    exact exec_error (hnone hkey)
  | some entry =>
    rw [RecordMap.change_of_lookup hkey]
    exact exec_ok (hsome entry hkey)

theorem add_refines (h : Connected C keys S conn m) {type name value : String}
    {tags : Table String String} {random : ValueRandom}
    (hclean : Clean C keys S build (conn, m) (.add type name value tags random)) :
    Agrees C keys (conn.exec (Wallet.add C keys S type name value tags random))
      (m.add (type, name) ⟨value, tags.toFinmap⟩) := by
  rw [RecordMap.add]
  split_ifs with hkey
  · obtain ⟨entry, hentry⟩ := Finmap.mem_iff.mp hkey
    exact exec_error ⟨conn.db, add_some h.stores hentry value tags random, h.stores⟩
  · have hnone : m.lookup (type, name) = none := Finmap.lookup_eq_none.mpr hkey
    have hfree : ∀ slot, conn.db.tag (S.nextRowid conn.db.items.keys) slot = none := by
      cases hsetting : S.foreignKeys with
      | true => exact h.orphans hsetting _ (S.fresh _)
      | false => exact hclean hsetting (h.stores.findItem_none hnone)
    obtain ⟨db', hadd, hstores, -⟩ := add_none h.stores hnone hfree value tags random
    exact exec_ok ⟨db', hadd, hstores⟩

theorem delete_refines (h : Stores C keys conn.db m) (type name : String) :
    Agrees C keys (conn.exec (Wallet.delete C keys conn.foreignKeys type name))
      (m.delete (type, name)) := by
  rw [RecordMap.delete]
  split_ifs with hkey
  · obtain ⟨entry, hentry⟩ := Finmap.mem_iff.mp hkey
    exact exec_ok (delete_some h hentry conn.foreignKeys)
  · exact exec_error (delete_none h (Finmap.lookup_eq_none.mpr hkey) conn.foreignKeys)

/-- One call on the wallet is one call on the map. -/
theorem call_agrees (hconn : Connected C keys S conn m) {c : RecordCall}
    (hclean : Clean C keys S build (conn, m) c) :
    Agrees C keys (conn.call C keys S build c) (RecordMap.call S.like m c) := by
  have h := hconn.stores
  cases c with
  | add type name value tags random => exact add_refines hconn hclean
  | update type name newValue random =>
    exact exec_change (fun hkey => update_none h hkey newValue random) fun _ hkey =>
      update_some h hkey newValue random
  | addTags type name tags =>
    exact exec_change (fun hkey => ⟨conn.db, addTags_none h hkey tags, h⟩) fun _ hkey =>
      addTags_some h hkey tags
  | updateTags type name tags =>
    exact exec_change (fun hkey => ⟨conn.db, updateTags_none h hkey tags, h⟩) fun _ hkey =>
      updateTags_some h hkey tags
  | deleteTags type name tagNames =>
    exact exec_change (fun hkey => ⟨conn.db, deleteTags_none h hkey tagNames, h⟩)
      fun _ hkey => deleteTags_some h hkey tagNames
  | delete type name => exact delete_refines h type name
  | get type name options =>
    refine ⟨?_, h⟩
    change _ = (m.get type name options).map ReplyView.record
    rw [← get_refines h type name options]
    change ((Wallet.get C keys type name options conn.db).map RecordReply.record).map
      RecordReply.view = _
    cases Wallet.get C keys type name options conn.db <;> rfl
  | search type query options =>
    refine ⟨?_, h⟩
    change _ = (RecordMap.search S.like m type query options).map fun r => ReplyView.found r.1 r.2
    rw [← search_refines h type hclean]
    change ((Wallet.searchAll C keys S build type query options conn.db).map fun r =>
      RecordReply.found r.1 r.2).map
      RecordReply.view = _
    cases Wallet.searchAll C keys S build type query options conn.db <;> rfl
  | reopen => exact ⟨rfl, h⟩

theorem call_refines (h : Connected C keys S conn m) {c : RecordCall}
    (hclean : Clean C keys S build (conn, m) c) :
    (conn.call C keys S build c).1.map RecordReply.view = (RecordMap.call S.like m c).1 ∧
      Connected C keys S (conn.call C keys S build c).2 (RecordMap.call S.like m c).2 := by
  obtain ⟨hreply, hstores⟩ := call_agrees h hclean
  refine ⟨hreply, hstores, setting_call h.setting c, fun hsetting => ?_⟩
  have hkept : KeptByWrites C keys conn.foreignKeys NoOrphans := by
    rw [h.setting, hsetting]
    exact noOrphans_kept
  exact hkept.call (h.orphans hsetting) c

/-- Where foreign keys are enforced, only a search asks for more. -/
theorem clean_of_foreignKeys (hkeys : S.foreignKeys = true) {c : RecordCall}
    (hc : ∀ type query options, c ≠ .search type query options) :
    Clean C keys S build (conn, m) c := by
  cases c with
  | add type name value tags random =>
    intro hloose
    rw [hkeys] at hloose
    cases hloose
  | search type query options => exact absurd rfl (hc type query options)
  | _ => trivial

/-- Where foreign keys are enforced, a wallet stores the map after every call. -/
theorem Connected.call (h : Connected C keys S conn m) (hkeys : S.foreignKeys = true)
    (c : RecordCall) :
    Connected C keys S (conn.call C keys S build c).2 (RecordMap.call S.like m c).2 := by
  by_cases hc : ∃ type query options, c = .search type query options
  · obtain ⟨type, query, options, rfl⟩ := hc
    exact h
  · have hclean : Clean C keys S build (conn, m) c :=
      clean_of_foreignKeys hkeys fun type query options heq => hc ⟨type, query, options, heq⟩
    exact (call_refines h hclean).2

end Step

/-- In a run whose calls are clean every reply is the map's, the database stores the map after every
call, and a call that fails leaves the map as it was. -/
theorem wallet_refines_map (calls : List RecordCall)
    (hclean : ∀ pre c, pre ++ [c] <+: calls →
      Clean C keys S build (walletAfter C keys S build pre, mapAfter S.like pre) c)
    (pre : List RecordCall) (c : RecordCall) (hpre : pre ++ [c] <+: calls) :
    ((walletAfter C keys S build pre).call C keys S build c).1.map RecordReply.view =
        (RecordMap.call S.like (mapAfter S.like pre) c).1 ∧
      Stores C keys (walletAfter C keys S build (pre ++ [c])).db (mapAfter S.like (pre ++ [c])) ∧
      ∀ fault, ((walletAfter C keys S build pre).call C keys S build c).1 = .error fault →
        mapAfter S.like (pre ++ [c]) = mapAfter S.like pre := by
  have hstep : ∀ pre c,
      Connected C keys S (walletAfter C keys S build pre) (mapAfter S.like pre) →
      Clean C keys S build (walletAfter C keys S build pre, mapAfter S.like pre) c →
      Connected C keys S (walletAfter C keys S build (pre ++ [c]))
      (mapAfter S.like (pre ++ [c])) := by
    intro pre c h hc
    rw [walletAfter, mapAfter, List.foldl_concat, List.foldl_concat]
    exact (call_refines h hc).2
  have hconnected := forall_prefix_of_steps connected_newWallet hstep hclean
  have hbefore := hconnected pre ((List.prefix_append pre [c]).trans hpre)
  have hreply := (call_refines hbefore (hclean pre c hpre)).1
  refine ⟨hreply, (hconnected _ hpre).stores, ?_⟩
  intro fault hfault
  rw [hfault] at hreply
  rw [mapAfter, List.foldl_concat]
  exact RecordMap.call_error hreply.symm

section Samples

/-- A cipher that hides nothing. -/
def plainCipher : Cipher where
  encrypt data _ _ := data
  decrypt data _ _ := .ok data
  authenticate _ _ := List.replicate 32 0
  decrypt_encrypt _ _ _ := rfl
  length_authenticate _ _ := List.length_replicate

def zeroKey : Key := ⟨List.replicate 32 0, List.length_replicate⟩

def zeroNonce : Nonce := ⟨List.replicate 12 0, List.length_replicate⟩

def zeroKeys : Keys := ⟨zeroKey, zeroKey, zeroKey, zeroKey, zeroKey, zeroKey, zeroKey⟩

def zeroRandom : ValueRandom := ⟨zeroKey, zeroNonce, zeroNonce⟩

/-- A new row gets the id after the largest one. -/
def maxSqlite : Sqlite where
  nextRowid used := used.foldr max 0 + 1
  fresh used := by
    have hle : ∀ n ∈ used, n ≤ used.foldr max 0 := by
      induction used with
      | nil => simp
      | cons n used ih => simpa using fun m hm => Or.inr (ih m hm)
    exact fun hmem => absurd (hle _ hmem) (by omega)
  like s pattern := decide (s = pattern)
  foreignKeys := true

/-- The same, compiled without foreign keys. -/
def looseSqlite : Sqlite := { maxSqlite with foreignKeys := false }

/-- The number of records in a reply. -/
def countInReply : Outcome ReplyView → Option ℕ
  | .ok (.found totalCount _) => totalCount
  | _ => none

/-- A tag of the record in a reply. -/
def tagInReply (name : String) : Outcome ReplyView → Option (Option String)
  | .ok (.record r) => r.tags.map fun tags => tags.lookup name
  | _ => none

def addI : RecordCall := .add "t" "i" "v" ∅ zeroRandom

/-- All records are asked for, or those with a tag. -/
def searchAny : RecordCall :=
  .search "t" (.object [("$or", .array [.object [], .object [("a", .string "1")]])])
    (some ⟨false, true, false, false, false⟩)

/-- The record `j` is added without tags, with the row id that the deleted `i` had. -/
def readdCalls : List RecordCall :=
  [.add "t" "i" "v" (AList.singleton "a" "1") zeroRandom, .delete "t" "i",
    .add "t" "j" "w" ∅ zeroRandom]

def getJ : RecordCall := .get "t" "j" (some ⟨false, true, true⟩)

/-- A record is not found; and without foreign keys, one is read back with the tag of another. -/
theorem wallet_differs :
    (¬ ∀ pre c, pre ++ [c] <+: [addI, searchAny] →
      ((walletAfter plainCipher zeroKeys maxSqlite .release pre).call plainCipher zeroKeys maxSqlite
        .release c).1.map RecordReply.view =
          (RecordMap.call maxSqlite.like (mapAfter maxSqlite.like pre) c).1) ∧
    ¬ ∀ pre c, pre ++ [c] <+: readdCalls ++ [getJ] →
      ((walletAfter plainCipher zeroKeys looseSqlite .release pre).call plainCipher zeroKeys
        looseSqlite .release c).1.map RecordReply.view =
          (RecordMap.call looseSqlite.like (mapAfter looseSqlite.like pre) c).1 := by
  constructor
  · intro h
    have hcount := congrArg countInReply (h [addI] searchAny (List.prefix_refl _))
    revert hcount
    decide
  · intro h
    have htag := congrArg (tagInReply "a") (h readdCalls getJ (List.prefix_refl _))
    revert htag
    decide

/-- A record is tagged, found over its tag, and deleted after the wallet was opened again. -/
def taggedCalls : List RecordCall :=
  [addI, .addTags "t" "i" (AList.singleton "a" "1"),
    .search "t" (.object [("a", .string "1")]) (some ⟨true, true, true, true, true⟩), .reopen,
    .delete "t" "i"]

theorem wallet_refines_map_tagged :
    ((walletAfter plainCipher zeroKeys looseSqlite .debug taggedCalls).call plainCipher zeroKeys
        looseSqlite .debug getJ).1.map RecordReply.view =
        (RecordMap.call looseSqlite.like (mapAfter looseSqlite.like taggedCalls) getJ).1 ∧
      Stores plainCipher zeroKeys
        (walletAfter plainCipher zeroKeys looseSqlite .debug (taggedCalls ++ [getJ])).db
        (mapAfter looseSqlite.like (taggedCalls ++ [getJ])) ∧
      ∀ fault, ((walletAfter plainCipher zeroKeys looseSqlite .debug taggedCalls).call plainCipher
        zeroKeys looseSqlite .debug getJ).1 = .error fault →
          mapAfter looseSqlite.like (taggedCalls ++ [getJ]) =
            mapAfter looseSqlite.like taggedCalls := by
  refine wallet_refines_map plainCipher zeroKeys looseSqlite .debug (taggedCalls ++ [getJ]) ?_
    taggedCalls getJ (List.prefix_refl _)
  have hsteps : ∀ pre c, pre ++ [c] <+: taggedCalls ++ [getJ] →
      Clean plainCipher zeroKeys looseSqlite .debug
        (pre.foldl (bothCalls plainCipher zeroKeys looseSqlite .debug) (newWallet looseSqlite, ∅))
        c := by
    apply forall_steps_cons
    · rintro - - slot
      cases slot <;> rfl
    repeat' apply forall_steps_cons
    · trivial
    · rintro q o hq - - -
      obtain rfl : Anoncreds.Query.eq "a" "1" = q := Except.ok.inj hq
      exact ⟨Or.inr rfl, fun _ _ _ _ _ hmeets => hmeets⟩
    · trivial
    · trivial
    · trivial
    · exact forall_steps_nil
  intro pre c hpre
  have hclean := hsteps pre c hpre
  rwa [foldl_bothCalls] at hclean

end Samples

end SimpleAsset.Indy.Wallet
