import SimpleAsset.Indy.Wallet.Encryption

/-! The default storage (storage/default/mod.rs): three tables of a SQLite database. -/
namespace SimpleAsset.Indy.Wallet
open SimpleAsset.Library

/-- A row of `items` besides its id. -/
structure Item where
  type : Bytes
  name : Bytes
  value : Bytes
  key : Bytes
  deriving DecidableEq, Repr

/-- The database; tables have their primary keys. -/
structure Db where
  items : Table ℕ Item
  tagsEncrypted : Table (Bytes × ℕ) Bytes
  tagsPlaintext : Table (Bytes × ℕ) String

def emptyDb : Db := ⟨∅, ∅, ∅⟩

/-- What is left to SQLite: which id a new row gets, the operator LIKE, and whether connections
enforce foreign keys. -/
structure Sqlite where
  /-- An id that no row has; one that a deleted row had may come back. -/
  nextRowid : List ℕ → ℕ
  fresh : ∀ used, nextRowid used ∉ used
  /-- Whether a text matches a pattern. -/
  like : String → String → Bool
  /-- `SQLITE_DEFAULT_FOREIGN_KEYS`, set where it is compiled: a connection enforces foreign keys
  without being told to. The SQLite that rusqlite bundles does. -/
  foreignKeys : Bool

section Tags
variable (db : Db) (rowid : ℕ)

/-- The tag of a row under a name. -/
def Db.tag : TagName → Option Tag
  | .ofEncrypted name => (db.tagsEncrypted.lookup (name, rowid)).map (.encrypted name)
  | .ofPlain name => (db.tagsPlaintext.lookup (name, rowid)).map (.plainText name)

def Db.putTag : Tag → Db
  | .encrypted name value =>
    { db with tagsEncrypted := db.tagsEncrypted.insert (name, rowid) value }
  | .plainText name value =>
    { db with tagsPlaintext := db.tagsPlaintext.insert (name, rowid) value }

def Db.eraseTag : TagName → Db
  | .ofEncrypted name => { db with tagsEncrypted := db.tagsEncrypted.erase (name, rowid) }
  | .ofPlain name => { db with tagsPlaintext := db.tagsPlaintext.erase (name, rowid) }

/-- The tags of the rows that `p` keeps. -/
def Db.filterTags (p : ℕ → Bool) : Db :=
  { db with
    tagsEncrypted := db.tagsEncrypted.filter fun k _ => p k.2
    tagsPlaintext := db.tagsPlaintext.filter fun k _ => p k.2 }

/-- The result of the queries for the tags of a row. -/
def Db.encryptedTagsOf : List Tag :=
  (db.tagsEncrypted.entries.filter fun e => e.1.2 = rowid).map fun e => .encrypted e.1.1 e.2

def Db.plaintextTagsOf : List Tag :=
  (db.tagsPlaintext.entries.filter fun e => e.1.2 = rowid).map fun e => .plainText e.1.1 e.2

@[simp] theorem Db.items_putTag (tag : Tag) : (db.putTag rowid tag).items = db.items := by
  cases tag <;> rfl

@[simp] theorem Db.items_eraseTag (name : TagName) : (db.eraseTag rowid name).items = db.items := by
  cases name <;> rfl

theorem Db.tag_putTag (tag : Tag) (rowid' : ℕ) (name : TagName) :
    (db.putTag rowid tag).tag rowid' name = if rowid' = rowid ∧
    name = tag.name then some tag else db.tag rowid' name := by
  cases tag with
  | encrypted n v =>
    cases name with
    | ofEncrypted n' =>
      simp only [Db.putTag, Db.tag, Tag.name, Table.lookup_insert_ite, Prod.mk.injEq,
        TagName.ofEncrypted.injEq, and_comm]
      split_ifs with h
      · rw [Option.map_some, h.2]
      · rfl
    | ofPlain n' => simp [Db.putTag, Db.tag, Tag.name]
  | plainText n v =>
    cases name with
    | ofEncrypted n' => simp [Db.putTag, Db.tag, Tag.name]
    | ofPlain n' =>
      simp only [Db.putTag, Db.tag, Tag.name, Table.lookup_insert_ite, Prod.mk.injEq,
        TagName.ofPlain.injEq, and_comm]
      split_ifs with h
      · rw [Option.map_some, h.2]
      · rfl

theorem Db.tag_eraseTag (name : TagName) (rowid' : ℕ) (name' : TagName) :
    (db.eraseTag rowid name).tag rowid' name' = if rowid' = rowid ∧
    name' = name then none else db.tag rowid' name' := by
  cases name with
  | ofEncrypted n =>
    cases name' with
    | ofEncrypted n' =>
      simp only [Db.eraseTag, Db.tag, Table.lookup_erase_ite, Prod.mk.injEq,
        TagName.ofEncrypted.injEq, and_comm]
      split_ifs <;> rfl
    | ofPlain n' => simp [Db.eraseTag, Db.tag]
  | ofPlain n =>
    cases name' with
    | ofEncrypted n' => simp [Db.eraseTag, Db.tag]
    | ofPlain n' =>
      simp only [Db.eraseTag, Db.tag, Table.lookup_erase_ite, Prod.mk.injEq,
        TagName.ofPlain.injEq, and_comm]
      split_ifs <;> rfl

theorem Db.tag_filterTags (p : ℕ → Bool) (name : TagName) :
    (db.filterTags p).tag rowid name = if p rowid then db.tag rowid name else none := by
  cases name with
  | ofEncrypted name =>
    simp only [Db.filterTags, Db.tag, Table.lookup_filter]
    cases db.tagsEncrypted.lookup (name, rowid) <;> by_cases h : p rowid <;> simp [h]
  | ofPlain name =>
    simp only [Db.filterTags, Db.tag, Table.lookup_filter]
    cases db.tagsPlaintext.lookup (name, rowid) <;> by_cases h : p rowid <;> simp [h]

/-- The queries find the tags of the row, each once. -/
theorem Db.mem_tagsOf {tag : Tag} :
    tag ∈ db.encryptedTagsOf rowid ++ db.plaintextTagsOf rowid ↔
    db.tag rowid tag.name = some tag := by
  rw [List.mem_append, Db.encryptedTagsOf, Db.plaintextTagsOf, List.mem_map, List.mem_map]
  cases tag with
  | encrypted name value =>
    rw [Tag.name, Db.tag, Option.map_eq_some_iff]
    constructor
    · rintro (⟨⟨⟨name', id⟩, value'⟩, hmem, heq⟩ | ⟨e, -, heq⟩)
      · obtain ⟨rfl, rfl⟩ := Tag.encrypted.inj heq
        obtain ⟨hrow, hid⟩ := List.mem_filter.mp hmem
        obtain rfl : id = rowid := by simpa using hid
        exact ⟨value', Table.mem_entries_iff.mp hrow, rfl⟩
      · cases heq
    · rintro ⟨value', hlookup, heq⟩
      obtain ⟨-, rfl⟩ := Tag.encrypted.inj heq
      exact Or.inl ⟨⟨(name, rowid), value'⟩,
        List.mem_filter.mpr ⟨Table.mem_entries_iff.mpr hlookup, by simp⟩, rfl⟩
  | plainText name value =>
    rw [Tag.name, Db.tag, Option.map_eq_some_iff]
    constructor
    · rintro (⟨e, -, heq⟩ | ⟨⟨⟨name', id⟩, value'⟩, hmem, heq⟩)
      · cases heq
      · obtain ⟨rfl, rfl⟩ := Tag.plainText.inj heq
        obtain ⟨hrow, hid⟩ := List.mem_filter.mp hmem
        obtain rfl : id = rowid := by simpa using hid
        exact ⟨value', Table.mem_entries_iff.mp hrow, rfl⟩
    · rintro ⟨value', hlookup, heq⟩
      obtain ⟨-, rfl⟩ := Tag.plainText.inj heq
      exact Or.inr ⟨⟨(name, rowid), value'⟩,
        List.mem_filter.mpr ⟨Table.mem_entries_iff.mpr hlookup, by simp⟩, rfl⟩

end Tags

section Statements

/-- Statements on a database: their result, and the database after them. What was done before an
error stays done. -/
def Sql (α : Type) : Type := Db → IndyResult α × Db

instance : Monad Sql where
  pure a := fun db => (.ok a, db)
  bind x f := fun db => match x db with
    | (.ok a, db) => f a db
    | (.error e, db) => (.error e, db)

variable {α β : Type} {x : Sql α} {f : α → Sql β} {db db' : Db} {a : α} {e : IndyError}

@[simp] theorem Sql.pure_apply (a : α) (db : Db) : (pure a : Sql α) db = (.ok a, db) := rfl

theorem Sql.bind_ok (h : x db = (.ok a, db')) : (x >>= f) db = f a db' := by
  simp only [bind, h]

theorem Sql.bind_error (h : x db = (.error e, db')) : (x >>= f) db = (.error e, db') := by
  simp only [bind, h]

/-- `Transaction`: dropped without a commit, it is rolled back. -/
def transaction (body : Sql α) : Sql α := fun db =>
  match body db with
  | (.ok a, db') => (.ok a, db')
  | (.error e, _) => (.error e, db)

theorem transaction_ok (h : x db = (.ok a, db')) : transaction x db = (.ok a, db') := by
  rw [transaction, h]

theorem transaction_error (h : x db = (.error e, db')) : transaction x db = (.error e, db) := by
  rw [transaction, h]

/-- A violated constraint as an `IndyError`. -/
def itemAlreadyExists : IndyError := ⟨.walletItemAlreadyExists, "Wallet item already exists"⟩

/-- No row as an `IndyError`. -/
def itemNotFound : IndyError := ⟨.walletItemNotFound, "Item not found"⟩

def Item.isFor (item : Item) (type name : Bytes) : Bool :=
  decide (item.type = type ∧ item.name = name)

/-- `SELECT id, value, key FROM items WHERE type = ?1 AND name = ?2`. -/
def Db.findItem (db : Db) (type name : Bytes) : Option ((_ : ℕ) × Item) :=
  db.items.entries.find? fun e => e.2.isFor type name

def selectItem (type name : Bytes) : Sql ((_ : ℕ) × Item) := fun db =>
  match db.findItem type name with
  | some e => (.ok e, db)
  | none => (.error itemNotFound, db)

/-- `INSERT INTO items`, under the unique index on type and name. -/
def insertItem (S : Sqlite) (type name : Bytes) (value : EncryptedValue) : Sql ℕ := fun db =>
  if (db.findItem type name).isSome then (.error itemAlreadyExists, db)
  else
    let rowid := S.nextRowid db.items.keys
    (.ok rowid, { db with items := db.items.insert rowid ⟨type, name, value.data, value.key⟩ })

/-- `INSERT INTO tags_..`, under the primary key. -/
def insertTag (rowid : ℕ) (tag : Tag) : Sql Unit := fun db =>
  if (db.tag rowid tag.name).isSome then (.error itemAlreadyExists, db)
    else (.ok (), db.putTag rowid tag)

/-- `INSERT OR REPLACE INTO tags_..`. -/
def replaceTag (rowid : ℕ) (tag : Tag) : Sql Unit := fun db => (.ok (), db.putTag rowid tag)

/-- `DELETE FROM tags_.. WHERE item_id = ?1`, for both tables. -/
def deleteTagsOf (rowid : ℕ) : Sql Unit := fun db => (.ok (), db.filterTags fun id => id ≠ rowid)

/-- `DELETE FROM tags_.. WHERE item_id = ?1 AND name = ?2`. -/
def deleteTag (rowid : ℕ) (name : TagName) : Sql Unit := fun db => (.ok (), db.eraseTag rowid name)

/-- `UPDATE items`, with the number of rows. -/
def updateItems (type name : Bytes) (value : EncryptedValue) : Sql ℕ := fun db =>
  (.ok (db.items.entries.countP fun e => e.2.isFor type name),
    { db with items := db.items.mapValues fun _ item =>
        if item.isFor type name then { item with value := value.data, key := value.key }
          else item })

/-- `DELETE FROM items`, with the number of rows. The tags go along only where foreign keys are
enforced. -/
def deleteItems (foreignKeys : Bool) (type name : Bytes) : Sql ℕ := fun db =>
  let items := db.items.filter fun _ item => !item.isFor type name
  let left : Db := { db with items := items }
  (.ok (db.items.entries.countP fun e => e.2.isFor type name),
    if foreignKeys then left.filterTags fun id => decide (id ∈ items.keys) else left)

end Statements

section Operations
variable (S : Sqlite)

structure RecordOptions where
  retrieveType : Bool
  retrieveValue : Bool
  retrieveTags : Bool
  deriving DecidableEq, Repr

structure StorageRecord where
  id : Bytes
  value : Option EncryptedValue
  type : Option Bytes
  tags : Option (List Tag)
  deriving DecidableEq, Repr

/-- `options` is `none` for text that is not a `RecordOptions`. -/
def SQLiteStorage.get (type id : Bytes) (options : Option RecordOptions) (db : Db) :
    IndyResult StorageRecord :=
  match options with
  | none => .error ⟨.invalidStructure, "RecordOptions is malformed json"⟩
  | some options =>
    match db.findItem type id with
    | none => .error itemNotFound
    | some item => .ok {
        id := id
        value := if options.retrieveValue then some ⟨item.2.value, item.2.key⟩ else none
        type := if options.retrieveType then some type else none
        tags := if options.retrieveTags
        then some (db.encryptedTagsOf item.1 ++ db.plaintextTagsOf item.1) else none }

def SQLiteStorage.add (type id : Bytes) (value : EncryptedValue) (tags : List Tag) : Sql Unit :=
  transaction do
  let rowid ← insertItem S type id value
  forM tags (insertTag rowid)

def SQLiteStorage.update (type id : Bytes) (value : EncryptedValue) : Sql Unit := do
  match ← updateItems type id value with
  | 1 => pure ()
  | 0 => fun db => (.error ⟨.walletItemNotFound, "Item to update not found"⟩, db)
  | _ => fun db =>
    (.error ⟨.invalidState, "More than one row update. Seems wallet structure is inconsistent"⟩, db)

def SQLiteStorage.addTags (type id : Bytes) (tags : List Tag) : Sql Unit := transaction do
  let item ← selectItem type id
  forM tags (replaceTag item.1)

def SQLiteStorage.updateTags (type id : Bytes) (tags : List Tag) : Sql Unit := transaction do
  let item ← selectItem type id
  deleteTagsOf item.1
  forM tags (insertTag item.1)

def SQLiteStorage.deleteTags (type id : Bytes) (tagNames : List TagName) : Sql Unit := do
  let item ← selectItem type id
  transaction (forM tagNames (deleteTag item.1))

def SQLiteStorage.delete (foreignKeys : Bool) (type id : Bytes) : Sql Unit := do
  let rowCount ← deleteItems foreignKeys type id
  if rowCount = 1 then pure ()
  else fun db => (.error ⟨.walletItemNotFound, "Item to delete not found"⟩, db)

end Operations

end SimpleAsset.Indy.Wallet
