import SimpleAsset.Indy.Anoncreds.Domain
import SimpleAsset.Indy.Wallet.Storage

/-! Queries over tags: from WQL (wql.rs) over encrypted operators (query_encryption.rs) to SQL
(storage/default/query.rs). -/
namespace SimpleAsset.Indy.Wallet
open SimpleAsset.Library
open Anoncreds (Query)

section Optimise

/-- What is left of a conjunction or disjunction after optimisation. -/
def collapse (join : List Query → Query) : List Query → Option Query
  | [] => none
  | [operator] => some operator
  | operators => some (join operators)

mutual

def optimise : Query → Option Query
  | .not (.not nested) => some nested
  | .not operator => some (.not operator)
  | .and [] => none
  | .and [operator] => optimise operator
  | .and operators => collapse .and (optimiseAll operators)
  | .or [] => none
  | .or [operator] => optimise operator
  | .or operators => collapse .or (optimiseAll operators)
  | .isIn key [target] => some (.eq key target)
  | query => some query

def optimiseAll : List Query → List Query
  | [] => []
  | operator :: operators => (optimise operator).toList ++ optimiseAll operators

end

/-- The query that is searched for; `Query::default` is an empty conjunction. -/
def optimised (query : Query) : Query := (optimise query).getD (.and [])

end Optimise

section Encrypt
variable (C : Cipher) (keys : Keys)

/-- The comparisons of a tag with one value. -/
inductive CompareOp
  | eq
  | neq
  | gt
  | gte
  | lt
  | lte
  | like
  deriving DecidableEq, Repr

inductive TargetValue
  | unencrypted (value : String)
  | encrypted (value : Bytes)
  deriving DecidableEq, Repr

/-- `language::Operator`. -/
inductive Operator
  | and (operators : List Operator)
  | or (operators : List Operator)
  | not (operator : Operator)
  | test (op : CompareOp) (tagName : TagName) (value : TargetValue)
  | isIn (tagName : TagName) (values : List TargetValue)

/-- `TagName::from` of language.rs. -/
def checkTagName (s : String) : IndyResult Unit :=
  if s = "" ∨ s = "~" then .error ⟨.walletQueryError, "Tag name must not be empty"⟩ else .ok ()

/-- The value of a tag in a query: encrypted unless the name starts with `~`. -/
def encryptTarget (name value : String) : TargetValue :=
  if isPlain name then .unencrypted value
  else .encrypted (encryptAsSearchable C (asBytes value) keys.tagValueKey keys.tagsHmacKey)

def encryptNameValue (name value : String) : IndyResult (TagName × TargetValue) := do
  checkTagName name
  pure (encryptTagName C keys name, encryptTarget C keys name value)

def transformTest (op : CompareOp) (name value : String) : IndyResult Operator := do
  let (ename, evalue) ← encryptNameValue C keys name value
  pure (.test op ename evalue)

mutual

def transform : Query → IndyResult Operator
  | .eq name value => transformTest C keys .eq name value
  | .neq name value => transformTest C keys .neq name value
  | .gt name value => transformTest C keys .gt name value
  | .gte name value => transformTest C keys .gte name value
  | .lt name value => transformTest C keys .lt name value
  | .lte name value => transformTest C keys .lte name value
  | .like name value => transformTest C keys .like name value
  | .isIn name values => do
    checkTagName name
    let evalues ← values.mapM fun value => do
      let (_, evalue) ← encryptNameValue C keys name value
      pure evalue
    pure (.isIn (encryptTagName C keys name) evalues)
  | .and operators => do
    let operators ← transformListOperators operators
    pure (.and operators)
  | .or operators => do
    let operators ← transformListOperators operators
    pure (.or operators)
  | .not operator => do
    let operator ← transform operator
    pure (.not operator)

def transformListOperators : List Query → IndyResult (List Operator)
  | [] => .ok []
  | operator :: operators => do
    let operator ← transform operator
    let operators ← transformListOperators operators
    pure (operator :: operators)

end

end Encrypt

section Sql

inductive SqlValue
  | blob (b : Bytes)
  | text (s : String)
  deriving DecidableEq, Repr

/-- The condition on the value of a tag; a list may have been left with a comma at its end. -/
inductive Condition
  | test (op : CompareOp) (value : SqlValue)
  | isIn (values : List SqlValue) (trailingComma : Bool)
  deriving DecidableEq, Repr

/-- The text of a WHERE clause with its arguments. -/
inductive Clause
  | empty
  /-- `(i.id in (SELECT item_id FROM tags_.. WHERE name = ? AND value ..))`. -/
  | tag (name : TagName) (condition : Condition)
  /-- Clauses in parentheses with AND or OR between them. -/
  | joined (conjunction : Bool) (clauses : List Clause)
  | not (clause : Clause)

/-- The name of a comparison in its error. -/
def CompareOp.title : CompareOp → String
  | .eq => "equality"
  | .neq => "inequality"
  | .gt => "$gt"
  | .gte => "$gte"
  | .lt => "$lt"
  | .lte => "$lte"
  | .like => "$like"

/-- `eq_to_sql` and its siblings; only equality is there for encrypted values. -/
def testToSql (op : CompareOp) (name : TagName) (value : TargetValue) : Outcome Clause :=
  match name, value with
  | .ofPlain _, .unencrypted queriedValue => .ok (.tag name (.test op (.text queriedValue)))
  | .ofEncrypted _, .encrypted queriedValue =>
    if op = .eq ∨ op = .neq then .ok (.tag name (.test op (.blob queriedValue)))
    else errMsg .walletQueryError
      ("Invalid combination of tag name and value for " ++ op.title ++ " operator")
  | _, _ => errMsg .walletQueryError
      ("Invalid combination of tag name and value for " ++ op.title ++ " operator")

/-- `in_to_sql`. For an encrypted name the commas are counted from `values.len() - 2`, which
underflows for short lists: a list of one value is then left with a comma. -/
def inToSql (build : Build) (name : TagName) (values : List TargetValue) : Outcome Clause :=
  match name with
  | .ofPlain _ => do
    let targets ← values.mapM fun value => match value with
      | .unencrypted target => Except.ok (SqlValue.text target)
      | .encrypted _ =>
        errMsg .walletQueryError "Encrypted tag value in $in for nonencrypted tag name"
    pure (.tag name (.isIn targets false))
  | .ofEncrypted _ =>
    if build = .debug ∧ values.length < 2 then .error (.panic .overflow)
    else do
      let targets ← values.mapM fun value => match value with
        | .encrypted target => Except.ok (SqlValue.blob target)
        | .unencrypted _ =>
          errMsg .walletQueryError "Unencrypted tag value in $in for encrypted tag name"
      pure (.tag name (.isIn targets (decide (values.length = 1))))

/-- `join_operators`. -/
def joinClauses (conjunction : Bool) : List Clause → Clause
  | [] => .empty
  | clauses => .joined conjunction clauses

mutual

def operatorToSql (build : Build) : Operator → Outcome Clause
  | .test op tagName value => testToSql op tagName value
  | .isIn tagName values => inToSql build tagName values
  | .and operators => do
    let clauses ← operatorsToSql build operators
    pure (joinClauses true clauses)
  | .or operators => do
    let clauses ← operatorsToSql build operators
    pure (joinClauses false clauses)
  | .not operator => do
    let clause ← operatorToSql build operator
    pure (.not clause)

def operatorsToSql (build : Build) : List Operator → Outcome (List Clause)
  | [] => .ok []
  | operator :: operators => do
    let clause ← operatorToSql build operator
    let clauses ← operatorsToSql build operators
    pure (clause :: clauses)

end

end Sql

section Evaluate
variable (S : Sqlite)

/-- SQLite orders texts before blobs, and each by their bytes. -/
def SqlValue.less : SqlValue → SqlValue → Bool
  | .text s, .text t => decide (s < t)
  | .text _, .blob _ => true
  | .blob _, .text _ => false
  | .blob a, .blob b => decide (a < b)

def SqlValue.isLike : SqlValue → SqlValue → Bool
  | .text s, .text pattern => S.like s pattern
  | _, _ => false

def CompareOp.holds (stored queried : SqlValue) : CompareOp → Bool
  | .eq => decide (stored = queried)
  | .neq => decide (stored ≠ queried)
  | .gt => queried.less stored
  | .gte => !stored.less queried
  | .lt => stored.less queried
  | .lte => !queried.less stored
  | .like => stored.isLike S queried

def Condition.holds (stored : SqlValue) : Condition → Bool
  | .test op value => op.holds S stored value
  | .isIn values _ => decide (stored ∈ values)

def Tag.sqlValue : Tag → SqlValue
  | .encrypted _ value => .blob value
  | .plainText _ value => .text value

mutual

/-- The clause holds of the row. -/
def Clause.holds (db : Db) (rowid : ℕ) : Clause → Bool
  | .empty => true
  | .tag name condition => match db.tag rowid name with
    | some found => condition.holds S found.sqlValue
    | none => false
  | .joined true clauses => Clause.allHold db rowid clauses
  | .joined false clauses => Clause.anyHolds db rowid clauses
  | .not clause => !Clause.holds db rowid clause

def Clause.allHold (db : Db) (rowid : ℕ) : List Clause → Bool
  | [] => true
  | clause :: clauses => Clause.holds db rowid clause && Clause.allHold db rowid clauses

def Clause.anyHolds (db : Db) (rowid : ℕ) : List Clause → Bool
  | [] => false
  | clause :: clauses => Clause.holds db rowid clause || Clause.anyHolds db rowid clauses

end

mutual

/-- The clause is an expression: nothing is missing in it and no comma is left over. -/
def Clause.isExpr : Clause → Bool
  | .empty => false
  | .tag _ (.test _ _) => true
  | .tag _ (.isIn _ trailingComma) => !trailingComma
  | .joined _ clauses => Clause.areExprs clauses
  | .not clause => Clause.isExpr clause

def Clause.areExprs : List Clause → Bool
  | [] => true
  | clause :: clauses => Clause.isExpr clause && Clause.areExprs clauses

end

def Clause.isEmpty : Clause → Bool
  | .empty => true
  | _ => false

structure SearchOptions where
  retrieveRecords : Bool
  retrieveTotalCount : Bool
  retrieveType : Bool
  retrieveValue : Bool
  retrieveTags : Bool
  deriving DecidableEq, Repr

/-- Something is asked for. -/
def SearchOptions.asks (options : SearchOptions) : Bool :=
  options.retrieveTotalCount || options.retrieveRecords

/-- A statement that does not parse. -/
def sqliteError : IndyError := ⟨.invalidState, "Unexpected sqlite error"⟩

/-- The rows of a type that meet a query, in the order SQLite has for them. -/
def queryItems (build : Build) (type : Bytes) (operator : Operator) (db : Db) :
    Outcome (List ((_ : ℕ) × Item)) := do
  let clause ← operatorToSql build operator
  if clause.isEmpty || clause.isExpr then
    pure (db.items.entries.filter fun e => decide (e.2.type = type) && clause.holds S db e.1)
  else .error (.err sqliteError)

def SearchOptions.record (options : SearchOptions) (db : Db) (e : (_ : ℕ) × Item) :
    StorageRecord where
  id := e.2.name
  value := if options.retrieveValue then some ⟨e.2.value, e.2.key⟩ else none
  type := if options.retrieveType then some e.2.type else none
  tags := if options.retrieveTags
    then some (db.plaintextTagsOf e.1 ++ db.encryptedTagsOf e.1) else none

/-- The total count and the records that the iterator goes through. -/
def SQLiteStorage.search (build : Build) (type : Bytes) (operator : Operator)
    (options : Option SearchOptions) (db : Db) :
    Outcome (Option ℕ × List StorageRecord) :=
  match options with
  | none => errMsg .invalidStructure "Search options is malformed json"
  | some options => do
    let totalCount ← if options.retrieveTotalCount then do
        let rows ← queryItems S build type operator db
        pure (some rows.length)
      else pure none
    if options.retrieveRecords then do
      let rows ← queryItems S build type operator db
      pure (totalCount, rows.map (options.record db))
    else pure (totalCount, [])

end Evaluate

end SimpleAsset.Indy.Wallet
