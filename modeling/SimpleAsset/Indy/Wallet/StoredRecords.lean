import Mathlib.Data.Set.List
import SimpleAsset.Indy.Wallet.RecordMap

/-! When the tables of a database store the records of a map. -/
namespace SimpleAsset.Indy.Wallet
open SimpleAsset.Library

variable (C : Cipher) (keys : Keys)

section Tags

/-- What is stored for the names of a row are these tags. -/
structure TagsStored (stored : TagName → Option Tag) (tags : Tags) : Prop where
  lookup : ∀ name, stored (encryptTagName C keys name) = (tags.lookup name).map
    (encryptTag C keys name)
  named : ∀ slot, stored slot ≠ none → ∃ name, slot = encryptTagName C keys name

variable {C keys} {db : Db} {rowid : ℕ} {tags : Tags} {stored : TagName → Option Tag}

theorem TagsStored.empty (h : ∀ slot, stored slot = none) : TagsStored C keys stored ∅ where
  lookup name := by rw [h, Finmap.lookup_empty, Option.map_none]
  named slot hslot := absurd (h slot) hslot

theorem TagsStored.put (h : TagsStored C keys (db.tag rowid) tags) (name value : String) :
    TagsStored C keys ((db.putTag rowid (encryptTag C keys name value)).tag rowid)
      (tags.insert name value) where
  lookup n := by
    rw [Db.tag_putTag, encryptTag_name]
    by_cases hn : n = name
    · rw [if_pos ⟨rfl, congrArg _ hn⟩, hn, Finmap.lookup_insert, Option.map_some]
    · have hslot : encryptTagName C keys n ≠ encryptTagName C keys name :=
        mt (encryptTagName_inj C keys).mp hn
      rw [if_neg (fun hp => hslot hp.2), Finmap.lookup_insert_of_ne _ hn, h.lookup]
  named slot hslot := by
    rw [Db.tag_putTag, encryptTag_name] at hslot
    split_ifs at hslot with hp
    · exact ⟨name, hp.2⟩
    · exact h.named slot hslot

theorem TagsStored.erase (h : TagsStored C keys (db.tag rowid) tags) (name : String) :
    TagsStored C keys ((db.eraseTag rowid (encryptTagName C keys name)).tag rowid)
      (tags.erase name) where
  lookup n := by
    rw [Db.tag_eraseTag]
    by_cases hn : n = name
    · rw [if_pos ⟨rfl, congrArg _ hn⟩, hn, Finmap.lookup_erase, Option.map_none]
    · have hslot : encryptTagName C keys n ≠ encryptTagName C keys name :=
        mt (encryptTagName_inj C keys).mp hn
      rw [if_neg (fun hp => hslot hp.2), Finmap.lookup_erase_ne hn, h.lookup]
  named slot hslot := by
    rw [Db.tag_eraseTag] at hslot
    split_ifs at hslot with hp
    · exact absurd rfl hslot
    · exact h.named slot hslot

/-- The same tags are stored in the same way. -/
theorem TagsStored.unique {stored' : TagName → Option Tag} (h : TagsStored C keys stored tags)
    (h' : TagsStored C keys stored' tags) : stored = stored' := by
  have hnamed : ∀ name,
      stored (encryptTagName C keys name) = stored' (encryptTagName C keys name) :=
    fun name => (h.lookup name).trans (h'.lookup name).symm
  funext slot
  by_contra hne
  have hslot : ∃ name, slot = encryptTagName C keys name := by
    by_cases hstored : stored slot = none
    · apply h'.named slot
      rw [hstored] at hne
      exact fun hnone => hne hnone.symm
    · exact h.named slot hstored
  obtain ⟨name, rfl⟩ := hslot
  exact hne (hnamed name)

/-- A stored tag is the encryption of one of the tags. -/
theorem TagsStored.exists_tag (h : TagsStored C keys stored tags) {tag : Tag}
    (htag : stored tag.name = some tag) :
    ∃ name value, tag = encryptTag C keys name value ∧ tags.lookup name = some value := by
  obtain ⟨name, hname⟩ := h.named tag.name (by rw [htag]; exact Option.some_ne_none tag)
  rw [hname, h.lookup, Option.map_eq_some_iff] at htag
  obtain ⟨value, hvalue, heq⟩ := htag
  exact ⟨name, value, heq.symm, hvalue⟩

theorem decryptTagList_map (pairs : List (String × String)) :
    decryptTagList C keys (pairs.map fun p => encryptTag C keys p.1 p.2) = .ok
      (Table.insertAll pairs ∅) := by
  unfold decryptTagList Table.insertAll
  generalize (∅ : Table String String) = acc
  induction pairs generalizing acc with
  | nil => rfl
  | cons p pairs ih =>
    rw [List.map_cons, List.foldlM_cons, decryptTag_encryptTag, List.foldl_cons]
    exact ih _

/-- Whatever the order in which the stored tags are found, decrypting them gives the tags. -/
theorem TagsStored.decryptTagList_eq (h : TagsStored C keys stored tags) {etags : List Tag}
    (hetags : ∀ tag, tag ∈ etags ↔ stored tag.name = some tag) :
    ∃ found, decryptTagList C keys etags = .ok found ∧ found.toFinmap = tags := by
  have hrange : etags ∈ Set.range
      (List.map fun p : String × String => encryptTag C keys p.1 p.2) := by
    rw [Set.range_list_map]
    intro tag htag
    obtain ⟨name, value, heq, -⟩ := h.exists_tag ((hetags tag).mp htag)
    exact ⟨(name, value), heq.symm⟩
  obtain ⟨pairs, rfl⟩ := hrange
  have hpair : ∀ name value, (name, value) ∈ pairs → tags.lookup name = some value := by
    intro name value hmem
    obtain ⟨name', value', heq, hlookup⟩ := h.exists_tag ((hetags _).mp (List.mem_map_of_mem hmem))
    obtain ⟨rfl, rfl⟩ := eq_of_encryptTag_eq C keys heq
    exact hlookup
  refine ⟨_, decryptTagList_map pairs, Finmap.ext_lookup fun name => ?_⟩
  change (Table.insertAll pairs ∅).lookup name = tags.lookup name
  cases hname : tags.lookup name with
  | none =>
    rw [Table.lookup_insertAll_of_notMem]
    · rfl
    · rintro ⟨n, v⟩ hmem rfl
      rw [hpair n v hmem] at hname
      cases hname
  | some value =>
    have hstored : stored (encryptTag C keys name value).name = some
        (encryptTag C keys name value) := by
      rw [encryptTag_name, h.lookup, hname, Option.map_some]
    obtain ⟨⟨n, v⟩, hmem, heq⟩ := List.mem_map.mp ((hetags _).mpr hstored)
    obtain ⟨rfl, rfl⟩ := eq_of_encryptTag_eq C keys heq
    apply Table.lookup_insertAll hmem
    intro v' hv'
    have hsame := hpair n v' hv'
    rw [hname, Option.some.injEq] at hsame
    exact hsame.symm

end Tags

section Rows

theorem encryptKey_inj {key key' : String × String} :
    encryptType C keys key.1 = encryptType C keys key'.1 ∧
    encryptName C keys key.2 = encryptName C keys key'.2 ↔ key = key' := by
  unfold encryptType encryptName
  rw [encryptAsSearchable_inj, encryptAsSearchable_inj, asBytes_inj, asBytes_inj, Prod.ext_iff]

/-- The row of `items` and its tags are an entry of the map. -/
structure Represents (db : Db) (rowid : ℕ) (item : Item) (key : String × String)
    (entry : Entry) : Prop where
  type : item.type = encryptType C keys key.1
  name : item.name = encryptName C keys key.2
  value : (⟨item.value, item.key⟩ : EncryptedValue).decrypt C keys.valueKey = .ok entry.value
  tags : TagsStored C keys (db.tag rowid) entry.tags

/-- Rows and entries correspond one to one. Tags of rows that are not there do not matter. -/
structure Stores (db : Db) (m : RecordMap) : Prop where
  row : ∀ rowid item, db.items.lookup rowid = some item →
    ∃ key entry, m.lookup key = some entry ∧ Represents C keys db rowid item key entry
  entry : ∀ key entry, m.lookup key = some entry →
    ∃ rowid item, db.items.lookup rowid = some item ∧ Represents C keys db rowid item key entry
  unique : ∀ rowid rowid' item item', db.items.lookup rowid = some item →
    db.items.lookup rowid' = some item' →
    item.type = item'.type → item.name = item'.name → rowid = rowid'

variable {C keys} {db db' : Db} {m : RecordMap} {rowid rowid' : ℕ} {item item' : Item}
    {key key' : String × String}
  {entry entry' : Entry}

theorem Represents.isFor_iff (h : Represents C keys db rowid item key entry) :
    item.isFor (encryptType C keys key'.1) (encryptName C keys key'.2) = true ↔ key = key' := by
  rw [Item.isFor, decide_eq_true_iff, h.type, h.name, encryptKey_inj]

theorem Represents.congr (h : Represents C keys db rowid item key entry)
    (htag : db'.tag rowid = db.tag rowid) :
    Represents C keys db' rowid item key entry where
  type := h.type
  name := h.name
  value := h.value
  tags := htag ▸ h.tags

theorem stores_empty : Stores C keys emptyDb ∅ where
  row _ _ h := by simp [emptyDb] at h
  entry _ _ h := by simp at h
  unique _ _ _ _ h := by simp [emptyDb] at h

/-- A key has one row only. -/
theorem Stores.rowid_eq_iff (h : Stores C keys db m) (hrow : db.items.lookup rowid = some item)
    (hrep : Represents C keys db rowid item key entry) (hrow' : db.items.lookup rowid' = some item')
    (hrep' : Represents C keys db rowid' item' key' entry') : rowid = rowid' ↔ key = key' := by
  constructor
  · intro hid
    rw [hid, hrow', Option.some.injEq] at hrow
    rw [← encryptKey_inj C keys, ← hrep.type, ← hrep.name, ← hrep'.type, ← hrep'.name, hrow]
    exact ⟨rfl, rfl⟩
  · rintro rfl
    exact h.unique _ _ _ _ hrow hrow' (hrep.type.trans hrep'.type.symm)
      (hrep.name.trans hrep'.name.symm)

/-- Writing one row writes the entry of its key, where no other row has that key. -/
theorem Stores.writeRow (h : Stores C keys db m)
    (hkey : ∀ r i k e, db.items.lookup r = some i → m.lookup k = some e →
      Represents C keys db r i k e →
      (r = rowid ↔ k = key))
    (hitems : ∀ r, db'.items.lookup r = if r = rowid then some item else db.items.lookup r)
    (htags : ∀ r, r ≠ rowid → db'.tag r = db.tag r)
    (hrep : Represents C keys db' rowid item key entry) :
    Stores C keys db' (m.insert key entry) := by
  have hold : ∀ r i, r ≠ rowid → db'.items.lookup r = some i →
      ∃ k e, db.items.lookup r = some i ∧ k ≠ key ∧
      m.lookup k = some e ∧ Represents C keys db r i k e := by
    intro r i hr hrow
    rw [hitems, if_neg hr] at hrow
    obtain ⟨k, e, hk, hrep⟩ := h.row r i hrow
    exact ⟨k, e, hrow, mt (hkey r i k e hrow hk hrep).mpr hr, hk, hrep⟩
  have hnew : ∀ i, db'.items.lookup rowid = some i → i = item := by
    intro i hrow
    rw [hitems, if_pos rfl, Option.some.injEq] at hrow
    exact hrow.symm
  constructor
  · intro r i hrow
    by_cases hr : r = rowid
    · subst hr
      rw [hnew i hrow]
      exact ⟨key, entry, Finmap.lookup_insert m, hrep⟩
    · obtain ⟨k, e, -, hk, hlookup, hrepk⟩ := hold r i hr hrow
      exact ⟨k, e, by rw [Finmap.lookup_insert_of_ne _ hk, hlookup], hrepk.congr (htags r hr)⟩
  · intro k e hk
    by_cases hkk : k = key
    · subst hkk
      rw [Finmap.lookup_insert, Option.some.injEq] at hk
      exact ⟨rowid, item, by rw [hitems, if_pos rfl], hk ▸ hrep⟩
    · rw [Finmap.lookup_insert_of_ne _ hkk] at hk
      obtain ⟨r, i, hrow, hrepk⟩ := h.entry k e hk
      have hr : r ≠ rowid := mt (hkey r i k e hrow hk hrepk).mp hkk
      exact ⟨r, i, by rw [hitems, if_neg hr, hrow], hrepk.congr (htags r hr)⟩
  · have hclash : ∀ r i, r ≠ rowid → db'.items.lookup r = some i → item.type = i.type →
        item.name = i.name → False := by
      intro r i hr hrow htype hname
      obtain ⟨k, e, -, hk, -, hrepk⟩ := hold r i hr hrow
      apply hk
      rw [← encryptKey_inj C keys, ← hrep.type, ← hrep.name, ← hrepk.type, ← hrepk.name]
      exact ⟨htype.symm, hname.symm⟩
    intro r r' i i' hrow hrow' htype hname
    by_cases hr : r = rowid
    · by_cases hr' : r' = rowid
      · rw [hr, hr']
      · subst hr
        obtain rfl := hnew i hrow
        exact (hclash r' i' hr' hrow' htype hname).elim
    · by_cases hr' : r' = rowid
      · subst hr'
        obtain rfl := hnew i' hrow'
        exact (hclash r i hr hrow htype.symm hname.symm).elim
      · rw [hitems, if_neg hr] at hrow
        rw [hitems, if_neg hr'] at hrow'
        exact h.unique r r' i i' hrow hrow' htype hname

/-- Changing the row of a key changes the entry of that key. -/
theorem Stores.changeRow (h : Stores C keys db m) (hrow : db.items.lookup rowid = some item)
    (hrep : Represents C keys db rowid item key entry)
    (hitems : ∀ r, db'.items.lookup r = if r = rowid then some item' else db.items.lookup r)
    (htags : ∀ r, r ≠ rowid → db'.tag r = db.tag r)
    (hrep' : Represents C keys db' rowid item' key entry') :
    Stores C keys db' (m.insert key entry') :=
  h.writeRow (fun _ _ _ _ hr _ hrepr => h.rowid_eq_iff hr hrepr hrow hrep) hitems htags hrep'

/-- A new row under a new key is a new entry. -/
theorem Stores.addRow (h : Stores C keys db m) (hrow : db.items.lookup rowid = none)
    (hkey : m.lookup key = none)
    (hitems : ∀ r, db'.items.lookup r = if r = rowid then some item' else db.items.lookup r)
    (htags : ∀ r, r ≠ rowid → db'.tag r = db.tag r)
    (hrep' : Represents C keys db' rowid item' key entry') :
    Stores C keys db' (m.insert key entry') := by
  refine h.writeRow ?_ hitems htags hrep'
  intro r i k e hr hk _
  constructor
  · rintro rfl
    rw [hrow] at hr
    cases hr
  · rintro rfl
    rw [hkey] at hk
    cases hk

theorem Stores.eraseRow (h : Stores C keys db m) (hrow : db.items.lookup rowid = some item)
    (hrep : Represents C keys db rowid item key entry)
    (hitems : ∀ r, db'.items.lookup r = if r = rowid then none else db.items.lookup r)
    (htags : ∀ r, r ≠ rowid → r ∈ db.items.keys → db'.tag r = db.tag r) :
    Stores C keys db' (m.erase key) := by
  have hold : ∀ r i, db'.items.lookup r = some i → r ≠ rowid ∧ db.items.lookup r = some i := by
    intro r i hr
    rw [hitems] at hr
    split_ifs at hr with hid
    exact ⟨hid, hr⟩
  constructor
  · intro r i hr
    obtain ⟨hid, hr⟩ := hold r i hr
    obtain ⟨k, e, hk, hrepk⟩ := h.row r i hr
    have hkk : k ≠ key := mt (h.rowid_eq_iff hr hrepk hrow hrep).mpr hid
    exact ⟨k, e, by rw [Finmap.lookup_erase_ne hkk,
      hk], hrepk.congr (htags r hid (Table.mem_keys_iff.mpr ⟨i, hr⟩))⟩
  · intro k e hk
    have hkk : k ≠ key := by
      rintro rfl
      rw [Finmap.lookup_erase] at hk
      cases hk
    rw [Finmap.lookup_erase_ne hkk] at hk
    obtain ⟨r, i, hr, hrepk⟩ := h.entry k e hk
    have hid : r ≠ rowid := mt (h.rowid_eq_iff hr hrepk hrow hrep).mp hkk
    exact ⟨r, i,
      by rw [hitems, if_neg hid, hr], hrepk.congr (htags r hid (Table.mem_keys_iff.mpr ⟨i, hr⟩))⟩
  · intro r r' i i' hr hr'
    exact h.unique r r' i i' (hold r i hr).2 (hold r' i' hr').2

/-- Nothing else counts but the rows and their tags. -/
theorem Stores.congr (h : Stores C keys db m) (hitems : ∀ r, db'.items.lookup r = db.items.lookup r)
    (htags : ∀ r, r ∈ db.items.keys → db'.tag r = db.tag r) : Stores C keys db' m := by
  constructor
  · intro r i hr
    rw [hitems] at hr
    obtain ⟨k, e, hk, hrepk⟩ := h.row r i hr
    exact ⟨k, e, hk, hrepk.congr (htags r (Table.mem_keys_iff.mpr ⟨i, hr⟩))⟩
  · intro k e hk
    obtain ⟨r, i, hr, hrepk⟩ := h.entry k e hk
    exact ⟨r, i, by rw [hitems, hr], hrepk.congr (htags r (Table.mem_keys_iff.mpr ⟨i, hr⟩))⟩
  · intro r r' i i' hr hr'
    rw [hitems] at hr hr'
    exact h.unique r r' i i' hr hr'

end Rows

section Queries
variable {C keys} {db : Db} {m : RecordMap} {key : String × String} {entry : Entry}

theorem Stores.isFor_iff (h : Stores C keys db m) {e : (_ : ℕ) × Item} (he : e ∈ db.items.entries) :
    e.2.isFor (encryptType C keys key.1) (encryptName C keys key.2) = true ↔
      ∃ entry, m.lookup key = some entry ∧ Represents C keys db e.1 e.2 key entry := by
  obtain ⟨k, entry, hk, hrep⟩ := h.row e.1 e.2 (Table.mem_entries_iff.mp he)
  rw [hrep.isFor_iff]
  constructor
  · rintro rfl
    exact ⟨entry, hk, hrep⟩
  · rintro ⟨entry', -, hrep'⟩
    rw [← encryptKey_inj C keys, ← hrep.type, ← hrep.name, ← hrep'.type, ← hrep'.name]
    exact ⟨rfl, rfl⟩

theorem Stores.findItem_none (h : Stores C keys db m) (hkey : m.lookup key = none) :
    db.findItem (encryptType C keys key.1) (encryptName C keys key.2) = none := by
  rw [Db.findItem, List.find?_eq_none]
  intro e he hfor
  obtain ⟨entry, hentry, -⟩ := (h.isFor_iff he).mp hfor
  rw [hkey] at hentry
  cases hentry

theorem Stores.findItem_some (h : Stores C keys db m) (hkey : m.lookup key = some entry) :
    ∃ rowid item, db.findItem (encryptType C keys key.1) (encryptName C keys key.2) = some
      ⟨rowid, item⟩ ∧
      db.items.lookup rowid = some item ∧ Represents C keys db rowid item key entry := by
  obtain ⟨rowid, item, hrow, hrep⟩ := h.entry key entry hkey
  have hfor : item.isFor (encryptType C keys key.1) (encryptName C keys key.2) = true :=
    hrep.isFor_iff.mpr rfl
  cases hfind : db.findItem (encryptType C keys key.1) (encryptName C keys key.2) with
  | none =>
    exact absurd hfor (List.find?_eq_none.mp hfind ⟨rowid, item⟩ (Table.mem_entries_iff.mpr hrow))
  | some e =>
    have he : e ∈ db.items.entries := List.mem_of_find?_eq_some hfind
    have hfor' : e.2.isFor (encryptType C keys key.1) (encryptName C keys key.2) = true := by
      simpa using List.find?_some hfind
    obtain ⟨entry', hentry, hrep'⟩ := (h.isFor_iff he).mp hfor'
    rw [hkey, Option.some.injEq] at hentry
    exact ⟨e.1, e.2, rfl, Table.mem_entries_iff.mp he, hentry ▸ hrep'⟩

/-- The row of a key is the only one that statements for that key find. -/
theorem Stores.isFor_iff_rowid {r rowid : ℕ} {i item : Item} (h : Stores C keys db m)
    (hrow : db.items.lookup rowid = some item) (hrep : Represents C keys db rowid item key entry)
    (hr : db.items.lookup r = some i) :
    i.isFor (encryptType C keys key.1) (encryptName C keys key.2) = true ↔ r = rowid := by
  obtain ⟨k, e, -, hrepk⟩ := h.row r i hr
  rw [hrepk.isFor_iff, h.rowid_eq_iff hr hrepk hrow hrep]

theorem Stores.not_isFor {r : ℕ} {i : Item} (h : Stores C keys db m) (hkey : m.lookup key = none)
    (hr : db.items.lookup r = some i) :
    i.isFor (encryptType C keys key.1) (encryptName C keys key.2) = false := by
  have hfind := List.find?_eq_none.mp (h.findItem_none hkey) ⟨r, i⟩ (Table.mem_entries_iff.mpr hr)
  exact Bool.eq_false_of_not_eq_true hfind

theorem Stores.countP_none (h : Stores C keys db m) (hkey : m.lookup key = none) :
    db.items.entries.countP
      (fun e => e.2.isFor (encryptType C keys key.1) (encryptName C keys key.2)) = 0 := by
  rw [List.countP_eq_zero]
  exact List.find?_eq_none.mp (h.findItem_none hkey)

theorem Stores.countP_some (h : Stores C keys db m) (hkey : m.lookup key = some entry) :
    db.items.entries.countP
      (fun e => e.2.isFor (encryptType C keys key.1) (encryptName C keys key.2)) = 1 := by
  obtain ⟨rowid, item, hrow, hrep⟩ := h.entry key entry hkey
  have hmem : (⟨rowid, item⟩ : (_ : ℕ) × Item) ∈ db.items.entries := Table.mem_entries_iff.mpr hrow
  rw [← List.count_eq_one_of_mem db.items.nodupKeys.nodup hmem, List.count]
  apply List.countP_congr
  intro e he
  have hlookup := Table.mem_entries_iff.mp he
  rw [h.isFor_iff_rowid hrow hrep hlookup, beq_iff_eq]
  constructor
  · intro hid
    rw [hid, hrow, Option.some.injEq] at hlookup
    exact Sigma.ext hid (heq_of_eq hlookup.symm)
  · rintro rfl
    rfl

end Queries

end SimpleAsset.Indy.Wallet
