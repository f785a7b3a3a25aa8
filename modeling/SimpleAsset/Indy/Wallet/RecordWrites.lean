import SimpleAsset.Indy.Wallet.StoredRecords

/-! What the calls that write do to the stored records. -/
namespace SimpleAsset.Indy.Wallet
open SimpleAsset.Library

section TagLoops
variable (db : Db) (rowid : ℕ)

def Db.putTags (etags : List Tag) : Db := etags.foldl (fun db etag => db.putTag rowid etag) db

def Db.eraseTags (names : List TagName) : Db :=
  names.foldl (fun db name => db.eraseTag rowid name) db

theorem forM_replaceTag (etags : List Tag) :
    (forM etags (replaceTag rowid) : Sql Unit) db = (.ok (), db.putTags rowid etags) := by
  induction etags generalizing db with
  | nil => rfl
  | cons etag etags ih => exact ih (db.putTag rowid etag)

theorem forM_deleteTag (names : List TagName) :
    (forM names (deleteTag rowid) : Sql Unit) db = (.ok (), db.eraseTags rowid names) := by
  induction names generalizing db with
  | nil => rfl
  | cons name names ih => exact ih (db.eraseTag rowid name)

/-- Tags of different names can be inserted where there are none of these names. -/
theorem forM_insertTag {etags : List Tag} (hnames : (etags.map Tag.name).Nodup)
    (hfree : ∀ etag ∈ etags, db.tag rowid etag.name = none) :
    (forM etags (insertTag rowid) : Sql Unit) db = (.ok (), db.putTags rowid etags) := by
  induction etags generalizing db with
  | nil => rfl
  | cons etag etags ih =>
    rw [List.map_cons, List.nodup_cons] at hnames
    have hinsert : insertTag rowid etag db = (.ok (), db.putTag rowid etag) := by
      rw [insertTag, hfree etag List.mem_cons_self]
      rfl
    rw [List.forM_cons, Sql.bind_ok hinsert, ih (db.putTag rowid etag) hnames.2]
    · rfl
    · intro etag' hetag'
      have hne : etag'.name ≠ etag.name := fun heq => hnames.1 (heq ▸ List.mem_map_of_mem hetag')
      rw [Db.tag_putTag, if_neg (fun hp => hne hp.2)]
      exact hfree etag' (List.mem_cons_of_mem _ hetag')

theorem Db.items_putTags (etags : List Tag) : (db.putTags rowid etags).items = db.items := by
  induction etags generalizing db with
  | nil => rfl
  | cons etag etags ih => exact (ih _).trans (db.items_putTag rowid etag)

theorem Db.items_eraseTags (names : List TagName) :
    (db.eraseTags rowid names).items = db.items := by
  induction names generalizing db with
  | nil => rfl
  | cons name names ih => exact (ih _).trans (db.items_eraseTag rowid name)

variable {rowid} {r : ℕ}

theorem Db.tag_putTags_ne (hr : r ≠ rowid) (etags : List Tag) :
    (db.putTags rowid etags).tag r = db.tag r := by
  induction etags generalizing db with
  | nil => rfl
  | cons etag etags ih =>
    refine (ih _).trans ?_
    funext slot
    rw [Db.tag_putTag, if_neg (fun hp => hr hp.1)]

theorem Db.tag_eraseTags_ne (hr : r ≠ rowid) (names : List TagName) :
    (db.eraseTags rowid names).tag r = db.tag r := by
  induction names generalizing db with
  | nil => rfl
  | cons name names ih =>
    refine (ih _).trans ?_
    funext slot
    rw [Db.tag_eraseTag, if_neg (fun hp => hr hp.1)]

end TagLoops

section StoredTags
variable {C : Cipher} {keys : Keys} {db : Db} {rowid : ℕ} {tags : Tags}

theorem lookup_foldl_insert {l : List ((_ : String) × String)} (hl : l.NodupKeys) (tags : Tags)
    (name : String) :
    (l.foldl (fun tags e => tags.insert e.1 e.2) tags).lookup name = (l.dlookup name).or
      (tags.lookup name) := by
  induction l generalizing tags with
  | nil => rfl
  | cons e l ih =>
    obtain ⟨hnew, hl⟩ := List.nodupKeys_cons.mp hl
    rw [List.foldl_cons, ih hl]
    by_cases hname : name = e.1
    · subst hname
      rw [Finmap.lookup_insert, List.dlookup_cons_eq, List.dlookup_eq_none.mpr hnew]
      rfl
    · rw [Finmap.lookup_insert_of_ne _ hname, List.dlookup_cons_ne _ _ hname]

theorem foldl_insert_eq_union (new : Table String String) (tags : Tags) :
    new.entries.foldl (fun tags e => tags.insert e.1 e.2) tags = new.toFinmap ∪ tags := by
  apply Finmap.ext_lookup
  intro name
  rw [lookup_foldl_insert new.nodupKeys]
  by_cases hname : name ∈ new.toFinmap
  · obtain ⟨value, hvalue⟩ := Finmap.mem_iff.mp hname
    rw [Finmap.lookup_union_left hname, hvalue]
    change (new.toFinmap.lookup name).or _ = _
    rw [hvalue, Option.some_or]
  · rw [Finmap.lookup_union_right hname]
    change (new.toFinmap.lookup name).or _ = _
    rw [Finmap.lookup_eq_none.mpr hname, Option.none_or]

theorem TagsStored.putTags (h : TagsStored C keys (db.tag rowid) tags) (new : Table String String) :
    TagsStored C keys ((db.putTags rowid (encryptTags C keys new)).tag rowid)
      (new.toFinmap ∪ tags) := by
  rw [← foldl_insert_eq_union, encryptTags]
  generalize new.entries = l
  induction l generalizing db tags with
  | nil => exact h
  | cons e l ih => exact ih (h.put e.1 e.2)

theorem TagsStored.eraseTags (h : TagsStored C keys (db.tag rowid) tags) (names : List String) :
    TagsStored C keys ((db.eraseTags rowid (encryptTagNames C keys names)).tag rowid)
      (RecordMap.without tags names) := by
  unfold encryptTagNames
  induction names generalizing db tags with
  | nil => exact h
  | cons name names ih => exact ih (h.erase name)

/-- On a row without tags the tags of a table can be inserted, and are the tags then. -/
theorem insertTags_of_none (C : Cipher) (keys : Keys) (hfree : ∀ slot, db.tag rowid slot = none)
    (tags : Table String String) :
    (forM (encryptTags C keys tags) (insertTag rowid) : Sql Unit) db =
      (.ok (), db.putTags rowid (encryptTags C keys tags)) ∧
    TagsStored C keys ((db.putTags rowid (encryptTags C keys tags)).tag rowid) tags.toFinmap := by
  constructor
  · apply forM_insertTag
    · unfold encryptTags
      rw [List.map_map]
      have hnames : (Tag.name ∘ fun e : (_ : String) × String => encryptTag C keys e.1 e.2) =
          fun e => encryptTagName C keys e.1 := by
        funext e
        exact encryptTag_name C keys e.1 e.2
      rw [hnames]
      have hkeys : (tags.entries.map fun e => encryptTagName C keys e.1) = tags.keys.map
          (encryptTagName C keys) := by
        rw [AList.keys, List.keys, List.map_map]
        rfl
      rw [hkeys]
      exact tags.keys_nodup.map fun _ _ heq => (encryptTagName_inj C keys).mp heq
    · exact fun etag _ => hfree etag.name
  · have hempty : TagsStored C keys (db.tag rowid) ∅ := .empty hfree
    have hput := hempty.putTags tags
    rwa [Finmap.union_empty] at hput

end StoredTags

section Calls
variable {C : Cipher} {keys : Keys} {S : Sqlite} {db : Db} {m : RecordMap} {type name : String}
    {entry : Entry}

theorem selectItem_some (h : Stores C keys db m) (hkey : m.lookup (type, name) = some entry) :
    ∃ rowid item, selectItem (encryptType C keys type)
      (encryptName C keys name) db = (.ok ⟨rowid, item⟩, db) ∧
      db.items.lookup rowid = some item ∧ Represents C keys db rowid item (type, name) entry := by
  obtain ⟨rowid, item, hfind, hrow, hrep⟩ := h.findItem_some hkey
  exact ⟨rowid, item, by rw [selectItem, hfind], hrow, hrep⟩

theorem selectItem_none (h : Stores C keys db m) (hkey : m.lookup (type, name) = none) :
    selectItem (encryptType C keys type) (encryptName C keys name) db =
      (.error itemNotFound, db) := by
  have hfind := h.findItem_none hkey
  rw [selectItem, hfind]

/-- Items stay and only the tags of one row change. -/
theorem Stores.changeTags {db' : Db} {rowid : ℕ} {item : Item} {tags : Tags}
    (h : Stores C keys db m) (hrow : db.items.lookup rowid = some item)
    (hrep : Represents C keys db rowid item (type, name) entry)
    (hitems : db'.items = db.items) (htags : ∀ r, r ≠ rowid → db'.tag r = db.tag r)
    (hstored : TagsStored C keys (db'.tag rowid) tags) :
    Stores C keys db' (m.insert (type, name) { entry with tags := tags }) := by
  refine h.changeRow hrow hrep ?_ htags ⟨hrep.type, hrep.name, hrep.value, hstored⟩
  intro r
  rw [hitems]
  split_ifs with hr
  · rw [hr, hrow]
  · rfl

theorem insertItem_of_some (S : Sqlite) {type name : Bytes} {row : (_ : ℕ) × Item}
    (hfind : db.findItem type name = some row) (value : EncryptedValue) :
    insertItem S type name value db = (.error itemAlreadyExists, db) := by
  rw [insertItem, hfind]
  rfl

/-- A new row gets the id that SQLite gives next. -/
theorem insertItem_of_none (S : Sqlite) {type name : Bytes} (hfind : db.findItem type name = none)
    (value : EncryptedValue) :
    insertItem S type name value db = (.ok (S.nextRowid db.items.keys),
      { db with
        items := db.items.insert (S.nextRowid db.items.keys)
          ⟨type, name, value.data, value.key⟩ }) := by
  rw [insertItem, hfind]
  rfl

theorem add_some (h : Stores C keys db m) (hkey : m.lookup (type, name) = some entry)
    (value : String) (tags : Table String String) (random : ValueRandom) :
    Wallet.add C keys S type name value tags random db = (.error itemAlreadyExists, db) := by
  obtain ⟨rowid, item, hfind, -, -⟩ := h.findItem_some hkey
  exact transaction_error (Sql.bind_error (insertItem_of_some S hfind _))

/-- Only rows that are there have tags. -/
def NoOrphans (db : Db) : Prop := ∀ r, r ∉ db.items.keys → ∀ slot, db.tag r slot = none

/-- The id of the new row must not have tags left from before. -/
theorem add_none (h : Stores C keys db m) (hkey : m.lookup (type, name) = none)
    (hfree : ∀ slot, db.tag (S.nextRowid db.items.keys) slot = none) (value : String)
    (tags : Table String String) (random : ValueRandom) :
    ∃ db', Wallet.add C keys S type name value tags random db = (.ok (), db') ∧
      Stores C keys db' (m.insert (type, name) ⟨value, tags.toFinmap⟩) ∧
      (NoOrphans db → NoOrphans db') := by
  let rowid := S.nextRowid db.items.keys
  let evalue := EncryptedValue.encrypt C value keys.valueKey random
  let item : Item := ⟨encryptType C keys type, encryptName C keys name, evalue.data, evalue.key⟩
  let db₁ : Db := { db with items := db.items.insert rowid item }
  have hinsert := insertItem_of_none S (h.findItem_none hkey) evalue
  have hfree₁ : ∀ slot, db₁.tag rowid slot = none := hfree
  obtain ⟨hloop, hstored⟩ := insertTags_of_none C keys hfree₁ tags
  refine ⟨db₁.putTags rowid (encryptTags C keys tags),
    transaction_ok ((Sql.bind_ok hinsert).trans hloop), ?_⟩
  have hnew : db.items.lookup rowid = none := AList.lookup_eq_none.mpr (S.fresh db.items.keys)
  have hrep : Represents C keys (db₁.putTags rowid (encryptTags C keys tags)) rowid item
      (type, name) ⟨value, tags.toFinmap⟩ :=
      ⟨rfl, rfl, decrypt_encrypt_value C value keys.valueKey random, hstored⟩
  have htags : ∀ r, r ≠ rowid → (db₁.putTags rowid (encryptTags C keys tags)).tag r = db.tag r :=
    fun r hr => Db.tag_putTags_ne db₁ hr _
  refine ⟨h.addRow hnew hkey ?_ htags hrep, ?_⟩
  · intro r
    rw [Db.items_putTags]
    exact Table.lookup_insert_ite db.items rowid r item
  · intro horphans r hr slot
    rw [Db.items_putTags, ← AList.mem_keys, AList.mem_insert, not_or] at hr
    rw [htags r hr.1]
    exact horphans r hr.2 slot

theorem updateItems_of_count {t n : Bytes} {count : ℕ}
    (h : db.items.entries.countP (fun e => e.2.isFor t n) = count) (value : EncryptedValue) :
    updateItems t n value db = (.ok count, (updateItems t n value db).2) :=
  Prod.ext (congrArg Except.ok h) rfl

theorem deleteItems_of_count {t n : Bytes} {count : ℕ}
    (h : db.items.entries.countP (fun e => e.2.isFor t n) = count) (foreignKeys : Bool) :
    deleteItems foreignKeys t n db = (.ok count, (deleteItems foreignKeys t n db).2) :=
  Prod.ext (congrArg Except.ok h) rfl

theorem update_none (h : Stores C keys db m) (hkey : m.lookup (type, name) = none)
    (newValue : String)
    (random : ValueRandom) : ∃ db', Wallet.update C keys type name newValue random db =
      (.error ⟨.walletItemNotFound, "Item to update not found"⟩, db') ∧ Stores C keys db' m := by
  have hcount := updateItems_of_count (h.countP_none hkey)
    (EncryptedValue.encrypt C newValue keys.valueKey random)
  refine ⟨_, Sql.bind_ok hcount, h.congr ?_ fun _ _ => rfl⟩
  intro r
  unfold updateItems
  rw [Table.lookup_mapValues]
  cases hr : db.items.lookup r with
  | none => rfl
  | some i =>
    have hfor := h.not_isFor hkey hr
    simp only [Option.map_some, hfor]
    rfl

theorem update_some (h : Stores C keys db m) (hkey : m.lookup (type, name) = some entry)
    (newValue : String) (random : ValueRandom) :
    ∃ db', Wallet.update C keys type name newValue random db = (.ok (), db') ∧
      Stores C keys db' (m.insert (type, name) { entry with value := newValue }) := by
  obtain ⟨rowid, item, hrow, hrep⟩ := h.entry _ _ hkey
  let evalue := EncryptedValue.encrypt C newValue keys.valueKey random
  have hcount := updateItems_of_count (h.countP_some hkey) evalue
  refine ⟨_, Sql.bind_ok hcount, ?_⟩
  have hrep' : Represents C keys db rowid { item with value := evalue.data, key := evalue.key }
    (type, name)
      { entry with value := newValue } :=
    ⟨hrep.type, hrep.name, decrypt_encrypt_value C newValue keys.valueKey random, hrep.tags⟩
  refine h.changeRow hrow hrep ?_ (fun _ _ => rfl) (hrep'.congr rfl)
  intro r
  unfold updateItems
  rw [Table.lookup_mapValues]
  cases hr : db.items.lookup r with
  | none =>
    have hne : r ≠ rowid := by
      rintro rfl
      rw [hrow] at hr
      cases hr
    rw [if_neg hne, Option.map_none]
  | some i =>
    have hfor := h.isFor_iff_rowid hrow hrep hr
    by_cases hid : r = rowid
    · subst hid
      rw [hrow, Option.some.injEq] at hr
      subst hr
      rw [if_pos rfl, Option.map_some, if_pos (hfor.mpr rfl)]
    · rw [if_neg hid, Option.map_some, if_neg (fun hi => hid (hfor.mp hi))]

theorem addTags_some (h : Stores C keys db m) (hkey : m.lookup (type, name) = some entry)
    (tags : Table String String) :
    ∃ db', Wallet.addTags C keys type name tags db = (.ok (), db') ∧
      Stores C keys db'
        (m.insert (type, name) { entry with tags := tags.toFinmap ∪ entry.tags }) := by
  obtain ⟨rowid, item, hselect, hrow, hrep⟩ := selectItem_some h hkey
  refine ⟨_, transaction_ok ((Sql.bind_ok hselect).trans (forM_replaceTag db rowid _)), ?_⟩
  exact h.changeTags hrow hrep (Db.items_putTags _ _ _) (fun r hr => Db.tag_putTags_ne db hr _)
    (hrep.tags.putTags tags)

theorem addTags_none (h : Stores C keys db m) (hkey : m.lookup (type, name) = none)
    (tags : Table String String) :
    Wallet.addTags C keys type name tags db = (.error itemNotFound, db) :=
  transaction_error (Sql.bind_error (selectItem_none h hkey))

theorem updateTags_some (h : Stores C keys db m) (hkey : m.lookup (type, name) = some entry)
    (tags : Table String String) :
    ∃ db', Wallet.updateTags C keys type name tags db = (.ok (), db') ∧
      Stores C keys db' (m.insert (type, name) { entry with tags := tags.toFinmap }) := by
  obtain ⟨rowid, item, hselect, hrow, hrep⟩ := selectItem_some h hkey
  let db₁ := db.filterTags fun id => id ≠ rowid
  have hdelete : deleteTagsOf rowid db = (.ok (), db₁) := rfl
  have hfree : ∀ slot, db₁.tag rowid slot = none := by
    intro slot
    rw [Db.tag_filterTags]
    simp
  obtain ⟨hloop, hstored⟩ := insertTags_of_none C keys hfree tags
  refine ⟨_, transaction_ok ((Sql.bind_ok hselect).trans ((Sql.bind_ok hdelete).trans hloop)), ?_⟩
  refine h.changeTags hrow hrep (Db.items_putTags _ _ _) ?_ hstored
  intro r hr
  rw [Db.tag_putTags_ne db₁ hr]
  funext slot
  rw [Db.tag_filterTags, if_pos (by simpa using hr)]

theorem updateTags_none (h : Stores C keys db m) (hkey : m.lookup (type, name) = none)
    (tags : Table String String) :
    Wallet.updateTags C keys type name tags db = (.error itemNotFound, db) :=
  transaction_error (Sql.bind_error (selectItem_none h hkey))

theorem deleteTags_some (h : Stores C keys db m) (hkey : m.lookup (type, name) = some entry)
    (tagNames : List String) :
    ∃ db', Wallet.deleteTags C keys type name tagNames db = (.ok (), db') ∧
      Stores C keys db'
        (m.insert (type, name) { entry with tags := RecordMap.without entry.tags tagNames }) := by
  obtain ⟨rowid, item, hselect, hrow, hrep⟩ := selectItem_some h hkey
  refine ⟨_, (Sql.bind_ok hselect).trans (transaction_ok (forM_deleteTag db rowid _)), ?_⟩
  exact h.changeTags hrow hrep (Db.items_eraseTags _ _ _) (fun r hr => Db.tag_eraseTags_ne db hr _)
    (hrep.tags.eraseTags tagNames)

theorem deleteTags_none (h : Stores C keys db m) (hkey : m.lookup (type, name) = none)
    (tagNames : List String) :
    Wallet.deleteTags C keys type name tagNames db = (.error itemNotFound, db) :=
  Sql.bind_error (selectItem_none h hkey)

theorem lookup_deleteItems (foreignKeys : Bool) (t n : Bytes) (r : ℕ) :
    (deleteItems foreignKeys t n db).2.items.lookup r = (db.items.lookup r).filter fun item =>
      !item.isFor t n := by
  unfold deleteItems
  cases foreignKeys <;> exact Table.lookup_filter _ _ _

/-- Whether foreign keys are enforced or not, rows that stay keep their tags. -/
theorem tag_deleteItems {foreignKeys : Bool} {t n : Bytes} {r : ℕ} {item : Item}
    (hr : (deleteItems foreignKeys t n db).2.items.lookup r = some item) :
    (deleteItems foreignKeys t n db).2.tag r = db.tag r := by
  cases foreignKeys with
  | false => rfl
  | true =>
    funext slot
    let items := db.items.filter fun _ item => !item.isFor t n
    have htag :=
      Db.tag_filterTags { db with items := items } r (fun id => decide (id ∈ items.keys)) slot
    exact htag.trans (if_pos (decide_eq_true (Table.mem_keys_iff.mpr ⟨item, hr⟩)))

theorem delete_none (h : Stores C keys db m) (hkey : m.lookup (type, name) = none)
    (foreignKeys : Bool) :
    ∃ db', Wallet.delete C keys foreignKeys type name db =
      (.error ⟨.walletItemNotFound, "Item to delete not found"⟩, db') ∧ Stores C keys db' m := by
  have hcount := deleteItems_of_count (h.countP_none hkey) foreignKeys
  have hitems : ∀ r, (deleteItems foreignKeys (encryptType C keys type)
      (encryptName C keys name) db).2.items.lookup r = db.items.lookup r := by
    intro r
    rw [lookup_deleteItems]
    cases hr : db.items.lookup r with
    | none => rfl
    | some i =>
      have hfor := h.not_isFor hkey hr
      simp [Option.filter_some, hfor]
  refine ⟨_, Sql.bind_ok hcount, h.congr hitems ?_⟩
  intro r hr
  obtain ⟨i, hi⟩ := Table.mem_keys_iff.mp hr
  exact tag_deleteItems ((hitems r).trans hi)

theorem delete_some (h : Stores C keys db m) (hkey : m.lookup (type, name) = some entry)
    (foreignKeys : Bool) :
    ∃ db', Wallet.delete C keys foreignKeys type name db = (.ok (), db') ∧
      Stores C keys db' (m.erase (type, name)) := by
  obtain ⟨rowid, item, hrow, hrep⟩ := h.entry _ _ hkey
  have hcount := deleteItems_of_count (h.countP_some hkey) foreignKeys
  have hitems : ∀ r, (deleteItems foreignKeys (encryptType C keys type)
      (encryptName C keys name) db).2.items.lookup r =
      if r = rowid then none else db.items.lookup r := by
    intro r
    rw [lookup_deleteItems]
    cases hr : db.items.lookup r with
    | none => rw [Option.filter_none, ite_self]
    | some i =>
      have hfor := h.isFor_iff_rowid hrow hrep hr
      by_cases hid : r = rowid
      · simp [Option.filter_some, hid, hfor.mpr hid]
      · have hother : i.isFor (encryptType C keys type) (encryptName C keys name) = false :=
          Bool.eq_false_of_not_eq_true (mt hfor.mp hid)
        simp [Option.filter_some, hid, hother]
  refine ⟨_, Sql.bind_ok hcount, h.eraseRow hrow hrep hitems ?_⟩
  intro r hid hr
  obtain ⟨i, hi⟩ := Table.mem_keys_iff.mp hr
  exact tag_deleteItems ((hitems r).trans ((if_neg hid).trans hi))

end Calls

section Kept
variable {C : Cipher} {keys : Keys} {S : Sqlite} {db db' : Db} {rowid : ℕ} {foreignKeys : Bool}

/-- The tags that could be inserted are put. -/
theorem eq_putTags_of_forM_insertTag {etags : List Tag}
    (h : (forM etags (insertTag rowid) : Sql Unit) db = (.ok (), db')) :
    db' = db.putTags rowid etags := by
  induction etags generalizing db with
  | nil => exact (congrArg Prod.snd h).symm
  | cons etag etags ih =>
    rw [List.forM_cons] at h
    by_cases hthere : (db.tag rowid etag.name).isSome
    · have hinsert : insertTag rowid etag db = (.error itemAlreadyExists, db) := if_pos hthere
      rw [Sql.bind_error hinsert] at h
      cases h
    · have hinsert : insertTag rowid etag db = (.ok (), db.putTag rowid etag) := if_neg hthere
      rw [Sql.bind_ok hinsert] at h
      exact ih h

/-- A transaction leaves the database as it was or as its body does. -/
theorem transaction_keeps {P : Db → Prop} {body : Sql Unit} (h : P db)
    (hok : ∀ db', body db = (.ok (), db') → P db') : P (transaction body db).2 := by
  cases hbody : body db with
  | mk r db' =>
    cases r with
    | ok u =>
      rw [transaction_ok hbody]
      exact hok db' hbody
    | error e =>
      rw [transaction_error hbody]
      exact h

theorem selectItem_eq (db : Db) (type name : Bytes) :
    selectItem type name db = (.error itemNotFound, db) ∨
      ∃ item, selectItem type name db = (.ok item, db) ∧ item.1 ∈ db.items.keys := by
  unfold selectItem
  cases hfind : db.findItem type name with
  | none => exact .inl rfl
  | some item =>
    have hlookup := Table.mem_entries_iff.mp (List.mem_of_find?_eq_some hfind)
    exact .inr ⟨item, rfl, Table.mem_keys_iff.mpr ⟨item.2, hlookup⟩⟩

variable (C keys foreignKeys) in
/-- A property of databases that the statements of the wallet keep. -/
structure KeptByWrites (P : Db → Prop) : Prop where
  insert : ∀ {db} rowid item, P db → P { db with items := db.items.insert rowid item }
  put : ∀ {db} {rowid}, rowid ∈ db.items.keys → ∀ tags, P db →
    P (db.putTags rowid (encryptTags C keys tags))
  erase : ∀ {db} {rowid}, rowid ∈ db.items.keys → ∀ names, P db →
    P (db.eraseTags rowid (encryptTagNames C keys names))
  filter : ∀ {db} p, P db → P (db.filterTags p)
  update : ∀ {db} type name value, P db → P (updateItems type name value db).2
  delete : ∀ {db} type name, P db → P (deleteItems foreignKeys type name db).2

namespace KeptByWrites
variable {P : Db → Prop} (h : KeptByWrites C keys foreignKeys P)
include h

theorem add (hdb : P db) (type name value : String) (tags : Table String String)
    (random : ValueRandom) : P (Wallet.add C keys S type name value tags random db).2 := by
  apply transaction_keeps hdb
  intro db' hbody
  let evalue := EncryptedValue.encrypt C value keys.valueKey random
  cases hfind : db.findItem (encryptType C keys type) (encryptName C keys name) with
  | some item =>
    rw [Sql.bind_error (insertItem_of_some S hfind evalue)] at hbody
    cases hbody
  | none =>
    let rowid := S.nextRowid db.items.keys
    let item : Item := ⟨encryptType C keys type, encryptName C keys name, evalue.data, evalue.key⟩
    rw [Sql.bind_ok (insertItem_of_none S hfind evalue)] at hbody
    have hrow : rowid ∈ (db.items.insert rowid item).keys := by
      rw [← AList.mem_keys, AList.mem_insert]
      exact Or.inl rfl
    rw [eq_putTags_of_forM_insertTag hbody]
    exact h.put hrow tags (h.insert rowid item hdb)

theorem addTags (hdb : P db) (type name : String) (tags : Table String String) :
    P (Wallet.addTags C keys type name tags db).2 := by
  apply transaction_keeps hdb
  intro db' hbody
  rcases selectItem_eq db (encryptType C keys type) (encryptName C keys name) with
    hselect | ⟨item, hselect, hrow⟩
  · rw [Sql.bind_error hselect] at hbody
    cases hbody
  · rw [Sql.bind_ok hselect, forM_replaceTag] at hbody
    obtain rfl : db.putTags item.1 (encryptTags C keys tags) = db' := congrArg Prod.snd hbody
    exact h.put hrow tags hdb

theorem updateTags (hdb : P db) (type name : String) (tags : Table String String) :
    P (Wallet.updateTags C keys type name tags db).2 := by
  apply transaction_keeps hdb
  intro db' hbody
  rcases selectItem_eq db (encryptType C keys type) (encryptName C keys name) with
    hselect | ⟨item, hselect, hrow⟩
  · rw [Sql.bind_error hselect] at hbody
    cases hbody
  · rw [Sql.bind_ok hselect] at hbody
    have hdelete : deleteTagsOf item.1 db = (.ok (), db.filterTags fun id => id ≠ item.1) := rfl
    rw [Sql.bind_ok hdelete] at hbody
    rw [eq_putTags_of_forM_insertTag hbody]
    have hrow' : item.1 ∈ (db.filterTags fun id => id ≠ item.1).items.keys := hrow
    exact h.put hrow' tags (h.filter _ hdb)

theorem deleteTags (hdb : P db) (type name : String) (tagNames : List String) :
    P (Wallet.deleteTags C keys type name tagNames db).2 := by
  unfold Wallet.deleteTags SQLiteStorage.deleteTags
  rcases selectItem_eq db (encryptType C keys type) (encryptName C keys name) with
    hselect | ⟨item, hselect, hrow⟩
  · rw [Sql.bind_error hselect]
    exact hdb
  · rw [Sql.bind_ok hselect,
      transaction_ok (forM_deleteTag db item.1 (encryptTagNames C keys tagNames))]
    exact h.erase hrow tagNames hdb

theorem updateValue (hdb : P db) (type name newValue : String) (random : ValueRandom) :
    P (Wallet.update C keys type name newValue random db).2 := by
  let evalue := EncryptedValue.encrypt C newValue keys.valueKey random
  have hupdate := updateItems_of_count (Eq.refl (db.items.entries.countP fun e =>
    e.2.isFor (encryptType C keys type) (encryptName C keys name))) evalue
  have hleft : (Wallet.update C keys type name newValue random db).2 =
      (updateItems (encryptType C keys type) (encryptName C keys name) evalue db).2 := by
    unfold Wallet.update SQLiteStorage.update
    rw [Sql.bind_ok hupdate]
    generalize db.items.entries.countP _ = count
    rcases count with _ | _ | count <;> rfl
  rw [hleft]
  exact h.update _ _ evalue hdb

theorem deleteRow (hdb : P db) (type name : String) :
    P (Wallet.delete C keys foreignKeys type name db).2 := by
  have hdelete := deleteItems_of_count (Eq.refl (db.items.entries.countP fun e =>
    e.2.isFor (encryptType C keys type) (encryptName C keys name))) foreignKeys
  have hleft : (Wallet.delete C keys foreignKeys type name db).2 =
      (deleteItems foreignKeys (encryptType C keys type) (encryptName C keys name) db).2 := by
    unfold Wallet.delete SQLiteStorage.delete
    rw [Sql.bind_ok hdelete]
    generalize db.items.entries.countP _ = count
    rcases count with _ | _ | count <;> rfl
  rw [hleft]
  exact h.delete _ _ hdb

end KeptByWrites

theorem noOrphans_empty : NoOrphans emptyDb := by
  intro r _ slot
  cases slot <;> rfl

/-- Where foreign keys are enforced, the tags of a row go with it. -/
theorem noOrphans_kept : KeptByWrites C keys true NoOrphans where
  insert rowid item h := by
    intro r hr slot
    rw [← AList.mem_keys, AList.mem_insert, not_or] at hr
    exact h r hr.2 slot
  put hrow tags h := by
    intro r hr slot
    rw [Db.items_putTags] at hr
    have hne := ne_of_mem_of_not_mem hrow hr
    rw [Db.tag_putTags_ne _ hne.symm]
    exact h r hr slot
  erase hrow names h := by
    intro r hr slot
    rw [Db.items_eraseTags] at hr
    have hne := ne_of_mem_of_not_mem hrow hr
    rw [Db.tag_eraseTags_ne _ hne.symm]
    exact h r hr slot
  filter p h := by
    intro r hr slot
    rw [Db.tag_filterTags, h r hr slot, ite_self]
  update type name value h := by
    intro r hr slot
    unfold updateItems at hr ⊢
    rw [Table.keys_mapValues] at hr
    exact h r hr slot
  delete {db} type name h := by
    intro r hr slot
    let items := db.items.filter fun _ item => !item.isFor type name
    have htag := Db.tag_filterTags { db with items := items } r
      (fun id => decide (id ∈ items.keys)) slot
    have hgone : decide (r ∈ items.keys) = false := decide_eq_false hr
    rw [hgone] at htag
    exact htag

end Kept

end SimpleAsset.Indy.Wallet
