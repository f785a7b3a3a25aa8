import SimpleAsset.Indy.Wallet.QueryMeaning

/-! What the calls that read find of the stored records. -/
namespace SimpleAsset.Indy.Wallet
open SimpleAsset.Library
open Anoncreds (Query)

variable {C : Cipher} {keys : Keys} {S : Sqlite} {build : Build} {db : Db} {m : RecordMap}

section Decryption
variable {rowid : ℕ} {item : Item} {key : String × String} {entry : Entry}

theorem Represents.decryptValue_eq (h : Represents C keys db rowid item key entry)
    (retrieve : Bool) :
    decryptValue C keys (if retrieve then some ⟨item.value, item.key⟩ else none) =
      .ok (if retrieve then some entry.value else none) := by
  cases retrieve with
  | false => rfl
  | true =>
    have hvalue := h.value
    simp only [if_true, decryptValue, hvalue]
    rfl

theorem Represents.decryptType_eq (h : Represents C keys db rowid item key entry)
    (retrieve : Bool) :
    decryptType C keys (if retrieve then some item.type else none) = .ok
      (if retrieve then some key.1 else none) := by
  cases retrieve with
  | false => rfl
  | true =>
    have htype := h.type
    simp [decryptType, htype, encryptType]

/-- The tags of a row, found in any order. -/
theorem Represents.decryptTags_eq (h : Represents C keys db rowid item key entry) {etags : List Tag}
    (hetags : ∀ tag, tag ∈ etags ↔ db.tag rowid tag.name = some tag) (retrieve : Bool) :
    ∃ tags, decryptTags C keys (if retrieve then some etags else none) = .ok tags ∧
      tags.map AList.toFinmap = if retrieve then some entry.tags else none := by
  cases retrieve with
  | false => exact ⟨none, rfl, rfl⟩
  | true =>
    obtain ⟨found, hfound, heq⟩ := h.tags.decryptTagList_eq hetags
    refine ⟨some found, ?_, congrArg some heq⟩
    simp only [if_true, decryptTags, hfound]
    rfl

theorem mem_plaintextTagsOf_append (tag : Tag) :
    tag ∈ db.plaintextTagsOf rowid ++ db.encryptedTagsOf rowid ↔
    db.tag rowid tag.name = some tag := by
  rw [← Db.mem_tagsOf, List.mem_append, List.mem_append, or_comm]

/-- A record of a search, decrypted, is the entry. -/
theorem Represents.decryptStorageRecord_eq (h : Represents C keys db rowid item key entry)
    (options : SearchOptions) :
    ∃ record, decryptStorageRecord C keys (options.record db ⟨rowid, item⟩) = .ok record ∧
      record.view = RecordMap.viewOf key.2 key.1 entry options.retrieveType options.retrieveValue
        options.retrieveTags := by
  obtain ⟨tags, htags, hview⟩ := h.decryptTags_eq mem_plaintextTagsOf_append options.retrieveTags
  have hname : decryptMerged C item.name keys.nameKey = .ok (asBytes key.2) := by
    rw [h.name, encryptName, decryptMerged_encryptAsSearchable]
  have hvalue := h.decryptValue_eq options.retrieveValue
  have htype := h.decryptType_eq options.retrieveType
  refine ⟨⟨key.2, if options.retrieveType then some key.1 else none,
    if options.retrieveValue then some entry.value else none, tags⟩, ?_, ?_⟩
  · unfold decryptStorageRecord SearchOptions.record
    simp only [hname, except_ok_bind, utf8OrElse_asBytes, hvalue, htype, htags]
    rfl
  · rw [WalletRecord.view, RecordMap.viewOf, hview]

end Decryption

section Get
variable {type name : String} {entry : Entry}

theorem get_none (h : Stores C keys db m) (hkey : m.lookup (type, name) = none)
    (options : RecordOptions) :
    Wallet.get C keys type name (some options) db = .error (.err itemNotFound) := by
  have hfind := h.findItem_none hkey
  rw [Wallet.get, SQLiteStorage.get, hfind]
  rfl

theorem get_some (h : Stores C keys db m) (hkey : m.lookup (type, name) = some entry)
    (options : RecordOptions) :
    ∃ record, Wallet.get C keys type name (some options) db = .ok record ∧
      record.view = RecordMap.viewOf name type entry options.retrieveType options.retrieveValue
        options.retrieveTags := by
  obtain ⟨rowid, item, hfind, -, hrep⟩ := h.findItem_some hkey
  have hmem : ∀ tag, tag ∈ db.encryptedTagsOf rowid ++ db.plaintextTagsOf rowid ↔
      db.tag rowid tag.name = some tag :=
    fun _ => db.mem_tagsOf rowid
  obtain ⟨tags, htags, hview⟩ := hrep.decryptTags_eq hmem options.retrieveTags
  have hvalue := hrep.decryptValue_eq options.retrieveValue
  refine ⟨⟨name, (if options.retrieveType then some (encryptType C keys type) else none).map
    fun _ => type, if options.retrieveValue then some entry.value else none, tags⟩, ?_, ?_⟩
  · rw [Wallet.get, SQLiteStorage.get, hfind]
    simp only [ofIndyResult, except_ok_bind, hvalue, htags]
    rfl
  · rw [WalletRecord.view, RecordMap.viewOf, hview]
    cases options.retrieveType <;> rfl

theorem get_refines (h : Stores C keys db m) (type name : String) (options : Option RecordOptions) :
    (Wallet.get C keys type name options db).map WalletRecord.view = m.get type name options := by
  cases options with
  | none => rfl
  | some options =>
    rw [RecordMap.get]
    cases hkey : m.lookup (type, name) with
    | none =>
      rw [get_none h hkey]
      rfl
    | some entry =>
      obtain ⟨record, hget, hview⟩ := get_some h hkey options
      rw [hget]
      exact congrArg Except.ok hview

end Get

section Search

/-- The rows of `items` are the entries of the map, row by row. -/
theorem Stores.exists_entryOf (h : Stores C keys db m) :
    ∃ entryOf : (_ : ℕ) × Item → (_ : String × String) × Entry,
      (∀ e ∈ db.items.entries, Represents C keys db e.1 e.2 (entryOf e).1 (entryOf e).2) ∧
      m.entries = (db.items.entries.map entryOf : Multiset ((_ : String × String) × Entry)) := by
  have hrow : ∀ e : (_ : ℕ) × Item, ∃ ke : (_ : String × String) × Entry, e ∈ db.items.entries →
      m.lookup ke.1 = some ke.2 ∧ Represents C keys db e.1 e.2 ke.1 ke.2 := by
    intro e
    by_cases he : e ∈ db.items.entries
    · obtain ⟨key, entry, hkey, hrep⟩ := h.row e.1 e.2 (Table.mem_entries_iff.mp he)
      exact ⟨⟨key, entry⟩, fun _ => ⟨hkey, hrep⟩⟩
    · exact ⟨⟨("", ""), ⟨"", ∅⟩⟩, fun hmem => absurd hmem he⟩
  choose entryOf hentry using hrow
  refine ⟨entryOf, fun e he => (hentry e he).2, ?_⟩
  have hnodup : (db.items.entries.map entryOf).Nodup := by
    refine List.Nodup.map_on ?_ db.items.nodupKeys.nodup
    intro e he e' he' heq
    have hlookup := Table.mem_entries_iff.mp he
    have hlookup' := Table.mem_entries_iff.mp he'
    have hid : e.1 = e'.1 :=
      (h.rowid_eq_iff hlookup (hentry e he).2 hlookup' (hentry e' he').2).mpr
        (congrArg Sigma.fst heq)
    rw [hid, hlookup', Option.some.injEq] at hlookup
    exact Sigma.ext hid (heq_of_eq hlookup.symm)
  refine (Multiset.Nodup.ext m.nodup_entries (Multiset.coe_nodup.mpr hnodup)).mpr ?_
  intro ke
  rw [Multiset.mem_coe, List.mem_map]
  constructor
  · intro hke
    have hlookup : m.lookup ke.1 = some ke.2 := Finmap.mem_lookup_iff.mpr hke
    obtain ⟨rowid, item, hrow, hrep⟩ := h.entry ke.1 ke.2 hlookup
    have he : (⟨rowid, item⟩ : (_ : ℕ) × Item) ∈ db.items.entries := Table.mem_entries_iff.mpr hrow
    obtain ⟨hfound, hrep'⟩ := hentry ⟨rowid, item⟩ he
    have hkey : (entryOf ⟨rowid, item⟩).1 = ke.1 := (h.rowid_eq_iff hrow hrep' hrow hrep).mp rfl
    rw [hkey, hlookup, Option.some.injEq] at hfound
    exact ⟨⟨rowid, item⟩, he, Sigma.ext hkey (heq_of_eq hfound.symm)⟩
  · rintro ⟨e, he, rfl⟩
    exact Finmap.mem_lookup_iff.mp (hentry e he).1

theorem decryptAll_eq {records : List StorageRecord} {views : List RecordView}
    (h : List.Forall₂
      (fun record view => ∃ r, decryptStorageRecord C keys record = .ok r ∧ r.view = view)
      records views) : ∃ rs, decryptAll C keys records = .ok rs ∧
        rs.map WalletRecord.view = views := by
  induction h with
  | nil => exact ⟨[], rfl, rfl⟩
  | cons hrecord _ ih =>
    obtain ⟨r, hr, hview⟩ := hrecord
    obtain ⟨rs, hrs, hviews⟩ := ih
    refine ⟨r :: rs, ?_, by rw [List.map_cons, hview, hviews]⟩
    rw [decryptAll, hr, hrs]
    rfl

/-- The query that is asked for has SQL. -/
def Askable (build : Build) (query : Query) : Prop :=
  optimised query = .and [] ∨ hasSql build (optimised query) = true

/-- A statement finds the rows of the entries with tags that its clause holds of. -/
theorem queryItems_entries (h : Stores C keys db m) {operator : Operator} {clause : Clause}
    {p : Tags → Bool} (type : String) (hsql : operatorToSql build operator = .ok clause)
    (hexpr : (clause.isEmpty || clause.isExpr) = true)
    (hholds : ∀ rowid tags, TagsStored C keys (db.tag rowid) tags →
      clause.holds S db rowid = p tags) :
    ∃ rows, ∃ entryOf : (_ : ℕ) × Item → (_ : String × String) × Entry,
      queryItems S build (encryptType C keys type) operator db = .ok rows ∧
      (∀ e ∈ rows, Represents C keys db e.1 e.2 (entryOf e).1 (entryOf e).2) ∧
      m.entries.filter (fun e => e.1.1 = type ∧ p e.2.tags) =
        (rows.map entryOf : Multiset ((_ : String × String) × Entry)) := by
  obtain ⟨entryOf, hrep, hentries⟩ := h.exists_entryOf
  let found : (_ : ℕ) × Item → Bool := fun e =>
    decide (e.2.type = encryptType C keys type) && clause.holds S db e.1
  refine ⟨db.items.entries.filter found, entryOf, ?_,
    fun e he => hrep e (List.mem_of_mem_filter he), ?_⟩
  · rw [queryItems, hsql, except_ok_bind, if_pos hexpr]
    rfl
  · rw [hentries, Multiset.filter_coe, Multiset.coe_eq_coe, List.filter_map]
    apply List.Perm.of_eq
    refine congrArg (List.map entryOf) (List.filter_congr ?_)
    intro e he
    have hrepe := hrep e he
    have htype : e.2.type = encryptType C keys type ↔ (entryOf e).1.1 = type := by
      rw [hrepe.type, encryptType, encryptType, encryptAsSearchable_inj, asBytes_inj]
    simp only [found, Function.comp_apply, hholds e.1 _ hrepe.tags, htype, Bool.decide_and,
      Bool.decide_eq_true]

/-- The statement for a query finds the rows of the entries that the map selects. -/
theorem queryItems_eq (h : Stores C keys db m) {operator : Operator} {query : Query}
    {clause : Clause} (type : String) (hsql : operatorToSql build operator = .ok clause)
    (hexpr : (clause.isEmpty || clause.isExpr) = true)
    (hholds : ∀ rowid tags, TagsStored C keys (db.tag rowid) tags →
      clause.holds S db rowid = meets S.like tags query) :
    ∃ rows, ∃ entryOf : (_ : ℕ) × Item → (_ : String × String) × Entry,
      queryItems S build (encryptType C keys type) operator db = .ok rows ∧
      (∀ e ∈ rows, Represents C keys db e.1 e.2 (entryOf e).1 (entryOf e).2) ∧
      RecordMap.select S.like m type query =
        (rows.map entryOf : Multiset ((_ : String × String) × Entry)) :=
  queryItems_entries h type hsql hexpr hholds

/-- What becomes of the SQL of a query that can be asked. -/
theorem operatorToSql_eq {query : Query} {operator : Operator} (hask : Askable build query)
    (htransform : transform C keys (optimised query) = .ok operator)
    (hstands : StandsFor C keys S build operator (optimised query)) :
    (∀ e, refusal (optimised query) = some e → operatorToSql build operator = .error (.err e)) ∧
    (refusal (optimised query) = none → ∃ clause, operatorToSql build operator = .ok clause ∧
      (clause.isEmpty || clause.isExpr) = true ∧
      ∀ db rowid tags, TagsStored C keys (Db.tag db rowid) tags →
        clause.holds S db rowid = meets S.like tags (optimised query)) := by
  rcases hask with hall | hsql
  · rw [hall] at htransform ⊢
    rw [transform, transformListOperators] at htransform
    obtain rfl : Operator.and [] = operator := Except.ok.inj htransform
    constructor
    · intro e he
      simp [refusal, firstRefusal] at he
    · intro _
      refine ⟨.empty, ?_, rfl, ?_⟩
      · rw [operatorToSql, operatorsToSql]
        rfl
      · intro db rowid tags _
        simp only [Clause.holds, meets, meetsAll]
  · constructor
    · exact fun e he => hstands.refused e he hsql
    · intro hnone
      obtain ⟨clause, hclause, hexpr, hholds⟩ := hstands.accepted hnone hsql
      exact ⟨clause, hclause, by rw [hexpr, Bool.or_true], hholds⟩

theorem storageSearch_eq (type : Bytes) (operator : Operator) (options : SearchOptions) :
    SQLiteStorage.search S build type operator (some options) db =
      if options.retrieveTotalCount || options.retrieveRecords then
        (queryItems S build type operator db).map fun rows =>
          (if options.retrieveTotalCount then some rows.length else none,
            if options.retrieveRecords then rows.map (options.record db) else [])
      else .ok (none, []) := by
  obtain ⟨retrieveRecords, retrieveTotalCount, retrieveType, retrieveValue, retrieveTags⟩ := options
  unfold SQLiteStorage.search
  cases retrieveTotalCount <;> cases retrieveRecords <;> cases queryItems S build type
    operator db <;> rfl

/-- The records of found rows, decrypted. -/
theorem decryptAll_rows {rows : List ((_ : ℕ) × Item)}
    {entryOf : (_ : ℕ) × Item → (_ : String × String) × Entry}
    (hrep : ∀ e ∈ rows, Represents C keys db e.1 e.2 (entryOf e).1 (entryOf e).2)
    (options : SearchOptions) :
    ∃ records, decryptAll C keys (rows.map (options.record db)) = .ok records ∧
      records.map WalletRecord.view = rows.map fun e =>
        RecordMap.viewOf (entryOf e).1.2 (entryOf e).1.1 (entryOf e).2
        options.retrieveType options.retrieveValue options.retrieveTags := by
  apply decryptAll_eq
  rw [List.forall₂_map_left_iff, List.forall₂_map_right_iff, List.forall₂_same]
  exact fun e he => (hrep e he).decryptStorageRecord_eq options

/-- What is asked for of the rows that a search finds. -/
theorem found_eq {operator : Operator} {type : Bytes} {options : SearchOptions}
    {rows : List ((_ : ℕ) × Item)} {entryOf : (_ : ℕ) × Item → (_ : String × String) × Entry}
    {selected : Multiset ((_ : String × String) × Entry)}
    (hasked : (options.retrieveTotalCount || options.retrieveRecords) = true)
    (hrows : queryItems S build type operator db = .ok rows)
    (hrep : ∀ e ∈ rows, Represents C keys db e.1 e.2 (entryOf e).1 (entryOf e).2)
    (hselected : selected = (rows.map entryOf : Multiset _)) :
    (do
      let (totalCount, records) ← SQLiteStorage.search S build type operator (some options) db
      let records ← decryptAll C keys records
      pure (totalCount, (records.map WalletRecord.view : Multiset RecordView))) =
      .ok (if options.retrieveTotalCount then some (Multiset.card selected) else none,
        if options.retrieveRecords then selected.map fun e =>
          RecordMap.viewOf e.1.2 e.1.1 e.2 options.retrieveType options.retrieveValue
            options.retrieveTags
        else 0) := by
  obtain ⟨records, hrecords, hviews⟩ := decryptAll_rows hrep options
  rw [storageSearch_eq, if_pos hasked, hrows, Except.map, except_ok_bind, hselected]
  cases options.retrieveRecords with
  | false =>
    simp only [Multiset.coe_card, List.length_map]
    rfl
  | true =>
    simp only [if_true, hrecords, hviews, except_ok_bind, Multiset.coe_card, List.length_map,
      Multiset.map_coe, List.map_map]
    rfl

/-- The search of the wallet after the query is transformed. -/
theorem answer_eq (h : Stores C keys db m) (type : String) {query : Query} {operator : Operator}
    {options : SearchOptions} (hask : options.asks = true → Askable build query)
    (htransform : transform C keys (optimised query) = .ok operator)
    (hstands : StandsFor C keys S build operator (optimised query)) :
    (do
      let (totalCount, records) ← SQLiteStorage.search S build (encryptType C keys type) operator
        (some options) db
      let records ← decryptAll C keys records
      pure (totalCount, (records.map WalletRecord.view : Multiset RecordView))) =
      RecordMap.answer S.like m type (optimised query) options := by
  rw [RecordMap.answer]
  by_cases hasked : (options.retrieveTotalCount || options.retrieveRecords) = true
  · obtain ⟨hrefused, haccepted⟩ := operatorToSql_eq (hask hasked) htransform hstands
    rw [if_pos hasked]
    cases hrefusal : refusal (optimised query) with
    | some e =>
      rw [storageSearch_eq, if_pos hasked, queryItems, hrefused e hrefusal]
      rfl
    | none =>
      obtain ⟨clause, hsql, hexpr, hholds⟩ := haccepted hrefusal
      obtain ⟨rows, entryOf, hrows, hrep, hselect⟩ := queryItems_eq h type hsql hexpr (hholds db)
      exact found_eq hasked hrows hrep hselect
  · rw [storageSearch_eq, if_neg hasked, if_neg hasked]
    rfl

theorem search_optimised (h : Stores C keys db m) (type : String) {query : Query}
    {options : Option SearchOptions}
    (hask : ∀ o, options = some o → o.asks = true → namesTags query = true → Askable build query) :
    (do
      let encryptedQuery ← ofIndyResult (transform C keys (optimised query))
      let (totalCount, records) ←
        SQLiteStorage.search S build (encryptType C keys type) encryptedQuery options db
      let records ← decryptAll C keys records
      pure (totalCount, (records.map WalletRecord.view : Multiset RecordView))) =
      RecordMap.searchFor S.like m type (optimised query) options := by
  have htransforms : Transforms C keys S build (optimised query) := transforms (optimised query)
  unfold RecordMap.searchFor
  cases hnames : namesTags (optimised query) with
  | false =>
    rw [htransforms.error hnames]
    rfl
  | true =>
    obtain ⟨operator, htransform, hstands⟩ := htransforms.ok hnames
    rw [htransform, if_pos rfl, ofIndyResult, except_ok_bind]
    cases options with
    | none => rfl
    | some options =>
      refine answer_eq h type (fun hasked => ?_) htransform hstands
      exact hask options rfl hasked ((namesTags_optimised query).symm.trans hnames)

/-- What a search needs for the answer of the map, if anything is asked of it: SQL for its query,
and no record that meets the query and no longer does once its empty operands are struck. -/
structure Searchable (like : String → String → Bool) (build : Build) (m : RecordMap) (type : String)
    (query : Query) : Prop where
  askable : Askable build query
  meets_struck : refusal query = none → ∀ key entry, m.lookup key = some entry → key.1 = type →
    meets like entry.tags query = true → meets like entry.tags (struck query) = true

/-- The records that meet the query are those that meet what is searched for. -/
theorem Searchable.select_eq {like : String → String → Bool} {type : String} {query : Query}
    (h : Searchable like build m type query) (hparsed : Wql.isParsed query = true)
    (hrefusal : refusal query = none) :
    RecordMap.select like m type (optimised query) = RecordMap.select like m type query := by
  apply Multiset.filter_congr
  intro e he
  rw [meets_optimised_iff hparsed]
  constructor
  · exact fun hmeets => ⟨hmeets.1, meets_of_meets_struck hmeets.2⟩
  · intro ⟨htype, hmeets⟩
    exact ⟨htype, h.meets_struck hrefusal e.1 e.2 (Finmap.mem_lookup_iff.mpr he) htype hmeets⟩

theorem searchFor_optimised {like : String → String → Bool} {type : String} {query : Query}
    {options : Option SearchOptions} (hparsed : Wql.isParsed query = true)
    (h : ∀ o, options = some o → o.asks = true → namesTags query = true →
      Searchable like build m type query) :
    RecordMap.searchFor like m type (optimised query) options =
      RecordMap.searchFor like m type query options := by
  unfold RecordMap.searchFor
  rw [namesTags_optimised]
  cases hnames : namesTags query with
  | false => rfl
  | true =>
    cases options with
    | none => rfl
    | some o =>
      rw [if_pos rfl, if_pos rfl]
      dsimp only
      unfold RecordMap.answer
      rw [refusal_optimised]
      by_cases hasked : (o.retrieveTotalCount || o.retrieveRecords) = true
      · rw [if_pos hasked, if_pos hasked]
        cases hrefusal : refusal query with
        | some e => rfl
        | none => rw [(h o rfl hasked hnames).select_eq hparsed hrefusal]
      · rw [if_neg hasked, if_neg hasked]

/-- The records that a search goes through, as callers see them. -/
theorem map_view_decryptAll (found : Outcome (Option ℕ × List StorageRecord)) :
    (do
      let (totalCount, records) ← found
      let records ← decryptAll C keys records
      pure (totalCount, records) : Outcome (Option ℕ × List WalletRecord)).map
        (fun r => (r.1, (r.2.map WalletRecord.view : Multiset RecordView))) = (do
      let (totalCount, records) ← found
      let records ← decryptAll C keys records
      pure (totalCount, (records.map WalletRecord.view : Multiset RecordView))) := by
  cases found with
  | error fault => rfl
  | ok found => cases hall : decryptAll C keys found.2 <;> simp only [except_ok_bind, hall] <;> rfl

theorem search_refines (h : Stores C keys db m) (type : String) {query : Json}
    {options : Option SearchOptions}
    (hsearchable : ∀ q o, Wql.deserialize query = .ok q → options = some o → o.asks = true →
      namesTags q = true → Searchable S.like build m type q) :
    (Wallet.searchAll C keys S build type query options db).map
        (fun r => (r.1, (r.2.map WalletRecord.view : Multiset _))) =
      RecordMap.search S.like m type query options := by
  unfold Wallet.searchAll Wallet.search RecordMap.search parsedQuery
  cases hq : Wql.deserialize query with
  | error err => rfl
  | ok q =>
    have hasked := fun o => hsearchable q o hq
    have hsearch := search_optimised (S := S) h type fun o ho ha hn => (hasked o ho ha hn).askable
    simp only [except_ok_bind]
    rw [← searchFor_optimised (Wql.isParsed_of_deserialize hq) hasked, ← hsearch]
    cases ofIndyResult (transform C keys (optimised q)) with
    | error fault => rfl
    | ok operator => exact map_view_decryptAll _

end Search

section Frame
variable {db' : Db} {m' : RecordMap} {rowid rowid' : ℕ}

mutual

/-- Whether a clause holds of a row is seen from the tags that are stored for the row. -/
theorem Clause.holds_congr (h : db.tag rowid = db'.tag rowid') :
    ∀ clause : Clause, clause.holds S db rowid = clause.holds S db' rowid'
  | .empty => rfl
  | .tag name condition => by rw [Clause.holds, Clause.holds, h]
  | .joined true clauses => Clause.allHold_congr h clauses
  | .joined false clauses => Clause.anyHolds_congr h clauses
  | .not clause => congrArg Bool.not (Clause.holds_congr h clause)

theorem Clause.allHold_congr (h : db.tag rowid = db'.tag rowid') :
    ∀ clauses, Clause.allHold S db rowid clauses = Clause.allHold S db' rowid' clauses
  | [] => rfl
  | clause :: clauses =>
    congrArg₂ Bool.and (Clause.holds_congr h clause) (Clause.allHold_congr h clauses)

theorem Clause.anyHolds_congr (h : db.tag rowid = db'.tag rowid') :
    ∀ clauses, Clause.anyHolds S db rowid clauses = Clause.anyHolds S db' rowid' clauses
  | [] => rfl
  | clause :: clauses =>
    congrArg₂ Bool.or (Clause.holds_congr h clause) (Clause.anyHolds_congr h clauses)

end

variable (C keys S) in
/-- A clause, whatever its query, is about the tags of a record. -/
theorem Clause.exists_holds_eq (clause : Clause) : ∃ p : Tags → Bool, ∀ db rowid tags,
    TagsStored C keys (Db.tag db rowid) tags → clause.holds S db rowid = p tags := by
  classical
  refine ⟨fun tags => decide (∃ db rowid, TagsStored C keys (Db.tag db rowid) tags ∧
    clause.holds S db rowid = true), ?_⟩
  intro db rowid tags hstored
  rw [Bool.eq_iff_iff, decide_eq_true_iff]
  constructor
  · exact fun hholds => ⟨db, rowid, hstored, hholds⟩
  · rintro ⟨db', rowid', hstored', hholds⟩
    rwa [Clause.holds_congr (hstored.unique hstored')]

variable (S build) in
/-- A search after its query is transformed. -/
theorem found_congr (h : Stores C keys db m) (h' : Stores C keys db' m') {type : String}
    (hsame : m.entries.filter (fun e => e.1.1 = type) = m'.entries.filter fun e => e.1.1 = type)
    (operator : Operator) (options : Option SearchOptions) :
    (do
      let (totalCount, records) ←
        SQLiteStorage.search S build (encryptType C keys type) operator options db
      let records ← decryptAll C keys records
      pure (totalCount, (records.map WalletRecord.view : Multiset RecordView))) = (do
      let (totalCount, records) ←
        SQLiteStorage.search S build (encryptType C keys type) operator options db'
      let records ← decryptAll C keys records
      pure (totalCount, (records.map WalletRecord.view : Multiset RecordView))) := by
  cases options with
  | none => rfl
  | some options =>
    by_cases hasked : (options.retrieveTotalCount || options.retrieveRecords) = true
    · cases hsql : operatorToSql build operator with
      | error fault =>
        simp only [storageSearch_eq, if_pos hasked, queryItems, hsql]
        rfl
      | ok clause =>
        by_cases hexpr : (clause.isEmpty || clause.isExpr) = true
        · obtain ⟨p, hp⟩ := clause.exists_holds_eq C keys S
          obtain ⟨rows, entryOf, hrows, hrep, hselect⟩ :=
            queryItems_entries h type hsql hexpr (hp db)
          obtain ⟨rows', entryOf', hrows', hrep', hselect'⟩ :=
            queryItems_entries h' type hsql hexpr (hp db')
          have hselected : m.entries.filter (fun e => e.1.1 = type ∧ p e.2.tags) =
              m'.entries.filter fun e => e.1.1 = type ∧ p e.2.tags := by
            simp only [and_comm (a := _ = type), ← Multiset.filter_filter, hsame]
          rw [found_eq hasked hrows hrep hselect, found_eq hasked hrows' hrep' hselect',
            hselected]
        · simp only [storageSearch_eq, if_pos hasked, queryItems, hsql, except_ok_bind,
            if_neg hexpr]
          rfl
    · simp only [storageSearch_eq, if_neg hasked]

variable (S build) in
/-- Two databases with the same records of a type give the same result of a search in it. -/
theorem searchAll_congr (h : Stores C keys db m) (h' : Stores C keys db' m') {type : String}
    (hsame : m.entries.filter (fun e => e.1.1 = type) = m'.entries.filter fun e => e.1.1 = type)
    (query : Json) (options : Option SearchOptions) :
    (Wallet.searchAll C keys S build type query options db).map
        (fun r => (r.1, (r.2.map WalletRecord.view : Multiset RecordView))) =
      (Wallet.searchAll C keys S build type query options db').map
        fun r => (r.1, (r.2.map WalletRecord.view : Multiset RecordView)) := by
  unfold Wallet.searchAll Wallet.search
  cases parsedQuery query with
  | error fault => rfl
  | ok q =>
    simp only [except_ok_bind]
    cases ofIndyResult (transform C keys (optimised q)) with
    | error fault => rfl
    | ok operator =>
      have hfound := found_congr S build h h' hsame operator options
      exact (map_view_decryptAll _).trans (hfound.trans (map_view_decryptAll _).symm)

end Frame

end SimpleAsset.Indy.Wallet
