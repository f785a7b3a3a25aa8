import Mathlib.Data.Finmap
import SimpleAsset.Indy.Wallet.Wallet

/-! What a wallet is for: a finite map from types and ids to values and tags. -/
namespace SimpleAsset.Indy.Wallet
open SimpleAsset.Library
open Anoncreds (Query)

abbrev Tags := Finmap fun _ : String => String

structure Entry where
  value : String
  tags : Tags

/-- The records of a wallet by type and id. -/
abbrev RecordMap := Finmap fun _ : String × String => Entry

/-- A record as callers see it; the order of tags does not count. -/
structure RecordView where
  id : String
  type : Option String
  value : Option String
  tags : Option Tags

/-- A reply as callers see it; neither does the order of the records that a search finds. -/
inductive ReplyView
  | unit
  | record (record : RecordView)
  | found (totalCount : Option ℕ) (records : Multiset RecordView)

def WalletRecord.view (r : WalletRecord) : RecordView :=
  ⟨r.id, r.type, r.value, r.tags.map AList.toFinmap⟩

def RecordReply.view : RecordReply → ReplyView
  | .unit => .unit
  | .record r => .record r.view
  | .found totalCount records => .found totalCount (records.map WalletRecord.view)

section Queries
variable (like : String → String → Bool)

def CompareOp.compares (stored queried : String) : CompareOp → Bool
  | .eq => decide (stored = queried)
  | .neq => decide (stored ≠ queried)
  | .gt => decide (queried < stored)
  | .gte => !decide (stored < queried)
  | .lt => decide (stored < queried)
  | .lte => !decide (queried < stored)
  | .like => like stored queried

/-- The tag is there and its value compares so. -/
def tagCompares (tags : Tags) (op : CompareOp) (name value : String) : Bool :=
  (tags.lookup name).any fun stored => op.compares like stored value

mutual

/-- The tags meet a query. -/
def meets (tags : Tags) : Query → Bool
  | .eq name value => tagCompares like tags .eq name value
  | .neq name value => tagCompares like tags .neq name value
  | .gt name value => tagCompares like tags .gt name value
  | .gte name value => tagCompares like tags .gte name value
  | .lt name value => tagCompares like tags .lt name value
  | .lte name value => tagCompares like tags .lte name value
  | .like name value => tagCompares like tags .like name value
  | .isIn name values => (tags.lookup name).any fun stored => decide (stored ∈ values)
  | .and operators => meetsAll tags operators
  | .or operators => meetsAny tags operators
  | .not operator => !meets tags operator

def meetsAll (tags : Tags) : List Query → Bool
  | [] => true
  | operator :: operators => meets tags operator && meetsAll tags operators

def meetsAny (tags : Tags) : List Query → Bool
  | [] => false
  | operator :: operators => meets tags operator || meetsAny tags operators

end

end Queries

section Refusals

/-- No tag is named by nothing. -/
def isNamed (name : String) : Bool := decide (name ≠ "" ∧ name ≠ "~")

mutual

def namesTags : Query → Bool
  | .eq name _ | .neq name _ | .gt name _ | .gte name _ | .lt name _ | .lte name _ | .like name _ =>
    isNamed name
  | .isIn name _ => isNamed name
  | .and operators | .or operators => allNameTags operators
  | .not operator => namesTags operator

def allNameTags : List Query → Bool
  | [] => true
  | operator :: operators => namesTags operator && allNameTags operators

end

/-- The values of encrypted tags have no order. -/
def orderRefusal (op : CompareOp) (name : String) : Option IndyError :=
  if isPlain name then none
  else some ⟨.walletQueryError, "Invalid combination of tag name and value for " ++ op.title ++
    " operator"⟩

mutual

/-- The first comparison of a query that encrypted tags do not have. -/
def refusal : Query → Option IndyError
  | .eq _ _ | .neq _ _ | .isIn _ _ => none
  | .gt name _ => orderRefusal .gt name
  | .gte name _ => orderRefusal .gte name
  | .lt name _ => orderRefusal .lt name
  | .lte name _ => orderRefusal .lte name
  | .like name _ => orderRefusal .like name
  | .and operators | .or operators => firstRefusal operators
  | .not operator => refusal operator

def firstRefusal : List Query → Option IndyError
  | [] => none
  | operator :: operators => (refusal operator).or (firstRefusal operators)

end

end Refusals

namespace RecordMap
variable (like : String → String → Bool)

def add (m : RecordMap) (key : String × String) (entry : Entry) : Outcome ReplyView × RecordMap :=
  if key ∈ m then (.error (.err itemAlreadyExists), m) else (.ok .unit, m.insert key entry)

def delete (m : RecordMap) (key : String × String) : Outcome ReplyView × RecordMap :=
  if key ∈ m then (.ok .unit, m.erase key)
  else (.error (.err ⟨.walletItemNotFound, "Item to delete not found"⟩), m)

/-- Changes the entry of a key. -/
def change (m : RecordMap) (key : String × String) (missing : IndyError) (f : Entry → Entry) :
    Outcome ReplyView × RecordMap :=
  match m.lookup key with
  | some entry => (.ok .unit, m.insert key (f entry))
  | none => (.error (.err missing), m)

/-- The record of an entry, with what was asked for. -/
def viewOf (name type : String) (entry : Entry) (retrieveType retrieveValue retrieveTags : Bool) :
    RecordView where
  id := name
  type := if retrieveType then some type else none
  value := if retrieveValue then some entry.value else none
  tags := if retrieveTags then some entry.tags else none

def get (m : RecordMap) (type name : String) (options : Option RecordOptions) :
    Outcome RecordView :=
  match options with
  | none => errMsg .invalidStructure "RecordOptions is malformed json"
  | some options => match m.lookup (type, name) with
    | none => .error (.err itemNotFound)
    | some entry =>
      .ok (viewOf name type entry options.retrieveType options.retrieveValue options.retrieveTags)

/-- The entries of a type that meet a query. -/
def select (m : RecordMap) (type : String) (query : Query) :
    Multiset ((_ : String × String) × Entry) :=
  m.entries.filter fun e => e.1.1 = type ∧ meets like e.2.tags query

/-- The answer to a query; one for which nothing is asked is not looked at. -/
def answer (m : RecordMap) (type : String) (query : Query) (options : SearchOptions) :
    Outcome (Option ℕ × Multiset RecordView) :=
  if options.retrieveTotalCount || options.retrieveRecords then
    match refusal query with
    | some e => .error (.err e)
    | none =>
      let found := select like m type query
      .ok (if options.retrieveTotalCount then some (Multiset.card found) else none,
        if options.retrieveRecords then found.map fun e =>
          viewOf e.1.2 e.1.1 e.2 options.retrieveType options.retrieveValue options.retrieveTags
        else 0)
  else .ok (none, 0)

/-- A search with a query that was read. -/
def searchFor (m : RecordMap) (type : String) (query : Query) (options : Option SearchOptions) :
    Outcome (Option ℕ × Multiset RecordView) :=
  if namesTags query then
    match options with
    | none => errMsg .invalidStructure "Search options is malformed json"
    | some options => answer like m type query options
  else errMsg .walletQueryError "Tag name must not be empty"

def search (m : RecordMap) (type : String) (query : Json) (options : Option SearchOptions) :
    Outcome (Option ℕ × Multiset RecordView) := do
  let query ← parsedQuery query
  searchFor like m type query options

/-- Removes the tags of these names. -/
def without (tags : Tags) (names : List String) : Tags :=
  names.foldl (fun tags name => tags.erase name) tags

def call (m : RecordMap) : RecordCall → Outcome ReplyView × RecordMap
  | .add type name value tags _ => m.add (type, name) ⟨value, tags.toFinmap⟩
  | .update type name newValue _ =>
    m.change (type, name) ⟨.walletItemNotFound, "Item to update not found"⟩ fun entry =>
      { entry with value := newValue }
  | .addTags type name tags =>
    m.change (type, name) itemNotFound fun entry =>
      { entry with tags := tags.toFinmap ∪ entry.tags }
  | .updateTags type name tags =>
    m.change (type, name) itemNotFound fun entry => { entry with tags := tags.toFinmap }
  | .deleteTags type name tagNames =>
    m.change (type, name) itemNotFound fun entry =>
      { entry with tags := without entry.tags tagNames }
  | .delete type name => m.delete (type, name)
  | .get type name options => ((m.get type name options).map .record, m)
  | .search type query options =>
    ((search like m type query options).map fun r => .found r.1 r.2, m)
  | .reopen => (.ok .unit, m)

variable {like}

theorem change_of_lookup {m : RecordMap} {key : String × String} {entry : Entry}
    (h : m.lookup key = some entry) (missing : IndyError) (f : Entry → Entry) :
    m.change key missing f = (.ok .unit, m.insert key (f entry)) := by
  rw [change, h]

theorem change_of_none {m : RecordMap} {key : String × String} (h : m.lookup key = none)
    (missing : IndyError)
    (f : Entry → Entry) : m.change key missing f = (.error (.err missing), m) := by
  rw [change, h]

theorem change_error {m : RecordMap} {key : String × String} {missing : IndyError}
    {f : Entry → Entry} {fault : Fault}
    (h : (m.change key missing f).1 = .error fault) : (m.change key missing f).2 = m := by
  cases hkey : m.lookup key with
  | some entry =>
    rw [change_of_lookup hkey] at h
    cases h
  | none => rw [change_of_none hkey]

theorem add_error {m : RecordMap} {key : String × String} {entry : Entry} {fault : Fault}
    (h : (m.add key entry).1 = .error fault) : (m.add key entry).2 = m := by
  unfold add at h ⊢
  split_ifs at h ⊢ with hkey
  rfl

theorem delete_error {m : RecordMap} {key : String × String} {fault : Fault}
    (h : (m.delete key).1 = .error fault) :
    (m.delete key).2 = m := by
  unfold delete at h ⊢
  split_ifs at h ⊢ with hkey
  rfl

/-- A call that fails changes nothing. -/
theorem call_error {m : RecordMap} {c : RecordCall} {fault : Fault}
    (h : (call like m c).1 = .error fault) :
    (call like m c).2 = m := by
  cases c with
  | add type name value tags random => exact add_error h
  | delete type name => exact delete_error h
  | update type name newValue random => exact change_error h
  | addTags type name tags => exact change_error h
  | updateTags type name tags => exact change_error h
  | deleteTags type name tagNames => exact change_error h
  | get type name options => rfl
  | search type query options => rfl
  | reopen => rfl

end RecordMap

end SimpleAsset.Indy.Wallet
