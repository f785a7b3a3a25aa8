import SimpleAsset.Indy.Wallet.SqlSelection

/-! Encrypting a query commutes with evaluating it on tags. -/
namespace SimpleAsset.Indy.Wallet
open SimpleAsset.Library
open Anoncreds (Query)

variable (C : Cipher) (keys : Keys)

section Tags

/-- The tag of a name among tags: plain names are those of plaintext tags, encrypted ones those of
encrypted tags. -/
def tagNamed (etags : List Tag) (name : TagName) : Option Tag :=
  etags.find? fun etag => decide (etag.name = name)

/-- The tags that are left without some names. -/
def removeTags (names : List TagName) (etags : List Tag) : List Tag :=
  etags.filter fun etag => decide (etag.name ∉ names)

variable {C keys} {tags rest : Table String String} {name : String} {etag etag' : Tag}

theorem mem_encryptTags_iff : etag ∈ encryptTags C keys tags ↔
    ∃ name value, tags.lookup name = some value ∧ etag = encryptTag C keys name value := by
  unfold encryptTags
  rw [List.mem_map]
  constructor
  · rintro ⟨⟨name, value⟩, he, rfl⟩
    exact ⟨name, value, Table.mem_entries_iff.mp he, rfl⟩
  · rintro ⟨name, value, hlookup, rfl⟩
    exact ⟨⟨name, value⟩, Table.mem_entries_iff.mpr hlookup, rfl⟩

/-- `x` and `~x` are stored under names of different kinds, so that no two tags share a name. -/
theorem eq_of_name_eq (h : etag ∈ encryptTags C keys tags) (h' : etag' ∈ encryptTags C keys tags)
    (hname : etag.name = etag'.name) : etag = etag' := by
  obtain ⟨name, value, hlookup, rfl⟩ := mem_encryptTags_iff.mp h
  obtain ⟨name', value', hlookup', rfl⟩ := mem_encryptTags_iff.mp h'
  rw [encryptTag_name, encryptTag_name, encryptTagName_inj] at hname
  subst hname
  rw [hlookup, Option.some.injEq] at hlookup'
  rw [hlookup']

theorem nodup_encryptTags : (encryptTags C keys tags).Nodup := by
  refine List.Nodup.map ?_ tags.nodupKeys.nodup
  rintro ⟨name, value⟩ ⟨name', value'⟩ h
  obtain ⟨rfl, rfl⟩ := eq_of_encryptTag_eq C keys h
  rfl

theorem tagNamed_encryptTags_iff {slot : TagName} :
    tagNamed (encryptTags C keys tags) slot = some etag ↔ etag ∈ encryptTags C keys tags ∧
    etag.name = slot := by
  constructor
  · intro h
    exact ⟨List.mem_of_find?_eq_some h, by simpa using List.find?_some h⟩
  · rintro ⟨hmem, rfl⟩
    cases hfound : tagNamed (encryptTags C keys tags) etag.name with
    | none =>
      have hnone := List.find?_eq_none.mp hfound etag hmem
      simp at hnone
    | some found =>
      have hname : found.name = etag.name := by simpa using List.find?_some hfound
      rw [eq_of_name_eq (List.mem_of_find?_eq_some hfound) hmem hname]

theorem tagsStored_encryptTags :
    TagsStored C keys (tagNamed (encryptTags C keys tags)) tags.toFinmap where
  lookup name := by
    ext etag
    rw [tagNamed_encryptTags_iff, mem_encryptTags_iff, Finmap.lookup_toFinmap,
      Option.map_eq_some_iff]
    constructor
    · rintro ⟨⟨name', value, hlookup, rfl⟩, hname⟩
      rw [encryptTag_name, encryptTagName_inj] at hname
      subst hname
      exact ⟨value, hlookup, rfl⟩
    · rintro ⟨value, hlookup, rfl⟩
      exact ⟨⟨name, value, hlookup, rfl⟩, encryptTag_name C keys name value⟩
  named slot hslot := by
    obtain ⟨etag, hetag⟩ := Option.ne_none_iff_exists'.mp hslot
    obtain ⟨hmem, rfl⟩ := tagNamed_encryptTags_iff.mp hetag
    obtain ⟨name, value, -, rfl⟩ := mem_encryptTags_iff.mp hmem
    exact ⟨name, encryptTag_name C keys name value⟩

theorem decryptTags_encryptTags :
    ∃ found, decryptTags C keys (some (encryptTags C keys tags)) = .ok (some found) ∧
    found.toFinmap = tags.toFinmap := by
  have hstored : TagsStored C keys (tagNamed (encryptTags C keys tags)) tags.toFinmap :=
    tagsStored_encryptTags
  have hetags : ∀ etag, etag ∈ encryptTags C keys tags ↔
      tagNamed (encryptTags C keys tags) etag.name = some etag := by
    intro etag
    rw [tagNamed_encryptTags_iff, and_iff_left rfl]
  obtain ⟨found, hfound, htags⟩ := hstored.decryptTagList_eq hetags
  exact ⟨found, by rw [decryptTags, hfound]; rfl, htags⟩

theorem mem_encryptTagNames_iff {names : List String} :
    encryptTagName C keys name ∈ encryptTagNames C keys names ↔ name ∈ names :=
  List.mem_map_of_injective fun _ _ h => (encryptTagName_inj C keys).mp h

/-- Removing names from the encrypted tags is removing them from the tags, but for the order. -/
theorem removeTags_encryptTags_perm {names : List String}
    (hrest : ∀ name, rest.lookup name = if name ∈ names then none else tags.lookup name) :
    (removeTags (encryptTagNames C keys names) (encryptTags C keys tags)).Perm
      (encryptTags C keys rest) := by
  refine (List.perm_ext_iff_of_nodup (nodup_encryptTags.filter _) nodup_encryptTags).mpr
    fun etag => ?_
  rw [List.mem_filter, decide_eq_true_iff, mem_encryptTags_iff, mem_encryptTags_iff]
  constructor
  · rintro ⟨⟨name, value, hlookup, rfl⟩, hname⟩
    rw [encryptTag_name, mem_encryptTagNames_iff] at hname
    exact ⟨name, value, by rw [hrest, if_neg hname, hlookup], rfl⟩
  · rintro ⟨name, value, hlookup, rfl⟩
    rw [hrest] at hlookup
    split_ifs at hlookup with hname
    exact ⟨⟨name, value, hlookup, rfl⟩, by rwa [encryptTag_name, mem_encryptTagNames_iff]⟩

end Tags

section Evaluation

variable {C keys} {S : Sqlite} {stored : TagName → Option Tag} {tags : Tags}

/-- The operator holds for the stored tags if and only if the query holds for the tags. -/
def Commutes (S : Sqlite) (stored : TagName → Option Tag) (tags : Tags) (query : Query)
    (operator : Operator) : Prop :=
  operator.isSatisfied S stored = meets S.like tags query

theorem TagsStored.any_eq (h : TagsStored C keys stored tags) (name : String) (p : Tag → Bool) :
    (stored (encryptTagName C keys name)).any p =
      (tags.lookup name).any fun value => p (encryptTag C keys name value) := by
  rw [h.lookup]
  cases tags.lookup name <;> rfl

theorem commutes_query (h : TagsStored C keys stored tags) (op : CompareOp) (name value : String)
    (hrefusal : refusal (op.query name value) = none) :
    Commutes S stored tags (op.query name value)
      (.test op (encryptTagName C keys name) (encryptTarget C keys name value)) := by
  unfold Commutes
  rw [Operator.isSatisfied, h.any_eq, meets_query, tagCompares]
  cases hplain : isPlain name with
  | true =>
    simp only [sqlValue_of_isPlain hplain, encryptTarget_of_isPlain C keys hplain,
      TargetValue.sqlValue, holds_text]
  | false =>
    have hop : op = .eq ∨ op = .neq := by
      by_contra hop
      rw [refusal_query, if_neg hop, orderRefusal, if_neg (by simp [hplain])] at hrefusal
      cases hrefusal
    simp only [sqlValue_of_not_isPlain hplain, encryptTarget_of_not_isPlain C keys hplain,
      TargetValue.sqlValue, holds_blob hop]

theorem commutes_isIn (h : TagsStored C keys stored tags) (name : String) (values : List String) :
    Commutes S stored tags (.isIn name values)
      (.isIn (encryptTagName C keys name) (values.map (encryptTarget C keys name))) := by
  unfold Commutes
  rw [Operator.isSatisfied, h.any_eq, meets]
  cases hplain : isPlain name with
  | true =>
    simp [sqlValue_of_isPlain hplain, encryptTarget_of_isPlain C keys hplain, TargetValue.sqlValue]
  | false =>
    simp [sqlValue_of_not_isPlain hplain, encryptTarget_of_not_isPlain C keys hplain,
      TargetValue.sqlValue, encryptAsSearchable_inj, asBytes_inj]

/-- The operands of `And` and `Or`, in their order. -/
theorem commutes_list {queries : List Query} {operators : List Operator}
    (h : List.Forall₂
      (fun query operator => refusal query = none → Commutes S stored tags query operator)
      queries operators) (hrefusal : firstRefusal queries = none) :
    Operator.allSatisfied S stored operators = meetsAll S.like tags queries ∧
      Operator.anySatisfied S stored operators = meetsAny S.like tags queries := by
  induction h with
  | nil =>
    rw [Operator.allSatisfied, Operator.anySatisfied, meetsAll, meetsAny]
    exact ⟨rfl, rfl⟩
  | cons hquery _ ih =>
    rw [firstRefusal, Option.or_eq_none_iff] at hrefusal
    have hfirst := hquery hrefusal.1
    obtain ⟨hall, hany⟩ := ih hrefusal.2
    unfold Commutes at hfirst
    rw [Operator.allSatisfied, Operator.anySatisfied, meetsAll, meetsAny, hfirst, hall, hany]
    exact ⟨rfl, rfl⟩

/-- What a query is transformed into holds where the query does, if it compares no encrypted
values. -/
theorem commutes_transform (h : TagsStored C keys stored tags) (query : Query) (operator : Operator)
    (htransform : transform C keys query = .ok operator) :
    refusal query = none → Commutes S stored tags query operator := by
  refine transform_induction
    (P := fun query operator => refusal query = none → Commutes S stored tags query operator)
    (commutes_query h) (fun name values _ => commutes_isIn h name values) ?_ ?_ ?_ query
    operator htransform
  · intro queries operators hall hrefusal
    rw [refusal] at hrefusal
    unfold Commutes
    rw [Operator.isSatisfied, meets, (commutes_list hall hrefusal).1]
  · intro queries operators hall hrefusal
    rw [refusal] at hrefusal
    unfold Commutes
    rw [Operator.isSatisfied, meets, (commutes_list hall hrefusal).2]
  · intro query operator hquery hrefusal
    rw [refusal] at hrefusal
    have hcommutes := hquery hrefusal
    unfold Commutes at hcommutes ⊢
    rw [Operator.isSatisfied, meets, hcommutes]

end Evaluation

/-- A query that names its tags and orders plain tags only is encrypted into one that holds for the
encrypted tags if and only if it holds for the tags; the tags are read back, and removed by their
encrypted names. -/
theorem encrypted_query_commutes (S : Sqlite) {query : Query} (hnames : namesTags query = true)
    (hrefusal : refusal query = none) (tags : Table String String) :
    (∃ operator, transform C keys query = .ok operator ∧
      operator.isSatisfied S (tagNamed (encryptTags C keys tags)) =
        meets S.like tags.toFinmap query) ∧
    (∃ found, decryptTags C keys (some (encryptTags C keys tags)) = .ok (some found) ∧
      found.toFinmap = tags.toFinmap) ∧
    ∀ (names : List String) (rest : Table String String),
      (∀ name, rest.lookup name = if name ∈ names then none else tags.lookup name) →
      (removeTags (encryptTagNames C keys names) (encryptTags C keys tags)).Perm
        (encryptTags C keys rest) := by
  obtain ⟨operator, htransform⟩ := (exists_transform_iff C keys query).mpr hnames
  refine ⟨⟨operator, htransform, ?_⟩, decryptTags_encryptTags, fun names rest =>
    removeTags_encryptTags_perm⟩
  exact commutes_transform tagsStored_encryptTags query operator htransform hrefusal

/-- `x` and `~x` in one map, with an order on the plain one. -/
def sampleTags : Table String String := ((∅ : Table String String).insert "x" "1").insert "~x" "2"

def sampleQuery : Query := .and [.eq "x" "1", .not (.lt "~x" "2"), .isIn "x" ["3", "1"]]

theorem encrypted_query_commutes_sample :
    (∃ operator, transform plainCipher zeroKeys sampleQuery = .ok operator ∧
      operator.isSatisfied maxSqlite (tagNamed (encryptTags plainCipher zeroKeys sampleTags)) =
        meets maxSqlite.like sampleTags.toFinmap sampleQuery) ∧
    (removeTags (encryptTagNames plainCipher zeroKeys ["x"])
      (encryptTags plainCipher zeroKeys sampleTags)).Perm
      (encryptTags plainCipher zeroKeys (sampleTags.erase "x")) := by
  have hnames : namesTags sampleQuery = true := by decide
  have hrefusal : refusal sampleQuery = none := by decide
  have hcommutes :=
    encrypted_query_commutes plainCipher zeroKeys maxSqlite hnames hrefusal sampleTags
  refine ⟨hcommutes.1, hcommutes.2.2 ["x"] (sampleTags.erase "x") fun name => ?_⟩
  simp only [Table.lookup_erase_ite, List.mem_singleton]

end SimpleAsset.Indy.Wallet
