import SimpleAsset.Library.Ascending
import SimpleAsset.Indy.StateProof.Enumeration

/-! Range proofs leave nothing out: `_verify_proof_range` against the map that the trie stands
for. -/
namespace SimpleAsset.Indy
open SimpleAsset.Library

section Search
variable {pre : String} {vals : List (String × String)} {num : String → ℕ}

theorem valsFrom_eq_filter {l : List Numbered} (h : Ascending Prod.fst l) (fromSeqno : Option ℕ) :
    valsFrom fromSeqno l = l.filter fun val => ∀ m ∈ fromSeqno, m ≤ val.1 := by
  cases fromSeqno with
  | none => simp [valsFrom]
  | some m =>
    have hdrop : l.drop (l.takeWhile fun val => val.1 < m).length = l.filter fun val => m ≤ val.1 :=
      (drop_length_takeWhile _ l).trans (h.dropWhile_lt m)
    have hfrom : valsFrom (some m) l = l.drop (l.takeWhile fun val => val.1 < m).length := by
      simp only [valsFrom, binarySearch]
      split <;> rename_i heq <;> split at heq <;> cases heq <;> rfl
    rw [hfrom, hdrop]
    simp

theorem valsUpTo_eq {l : List Numbered} (h : Ascending Prod.fst l) (nextSeqno : Option ℕ) :
    valsUpTo nextSeqno l = if ∀ n ∈ nextSeqno, ∃ val ∈ l, val.1 = n
      then some (l.filter fun val => ∀ n ∈ nextSeqno, ¬ n ≤ val.1) else none := by
  cases nextSeqno with
  | none => simp [valsUpTo]
  | some n =>
    have htake : l.take (l.takeWhile fun val => val.1 < n).length = l.filter fun val => val.1 < n :=
      (take_length_takeWhile _ l).trans (h.takeWhile_lt n)
    have hfound := h.any_getElem?_iff n
    simp only [valsUpTo, binarySearch, Option.mem_some_iff, forall_eq', not_le]
    by_cases hany : (l[(l.takeWhile fun val => val.1 < n).length]?.any fun val => val.1 = n) = true
    · rw [if_pos hany, if_pos (hfound.mp hany)]
      exact congrArg some htake
    · rw [if_neg hany, if_neg fun hex => hany (hfound.mpr hex)]

/-- The values under their numbers, in ascending order. -/
def sortedValues (num : String → ℕ) (vals : List (String × String)) : List Numbered :=
  (vals.map fun val => (num val.1, val.1, some val.2)).mergeSort fun val val' => val.1 ≤ val'.1

theorem mem_sortedValues {a : ℕ} {k : String} {v : Option String} :
    (a, k, v) ∈ sortedValues num vals ↔ ∃ s, v = some s ∧ (k, s) ∈ vals ∧ a = num k := by
  rw [sortedValues, List.mem_mergeSort, List.mem_map]
  constructor
  · rintro ⟨⟨k', s⟩, hmem, heq⟩
    obtain ⟨rfl, rfl, rfl⟩ : num k' = a ∧ k' = k ∧ some s = v := by simpa using heq
    exact ⟨s, rfl, hmem, rfl⟩
  · rintro ⟨s, rfl, hmem, rfl⟩
    exact ⟨(k, s), hmem, rfl⟩

theorem ascending_sortedValues (hnodup : vals.Nodup)
    (hinj : ∀ x ∈ vals, ∀ y ∈ vals, num x.1 = num y.1 → x = y) :
    Ascending Prod.fst (sortedValues num vals) := by
  refine ascending_mergeSort ?_ ?_
  · refine hnodup.map ?_
    intro x y heq
    simp only [Prod.mk.injEq, Option.some.injEq] at heq
    exact Prod.ext heq.2.1 heq.2.2
  · intro x hx y hy heq
    obtain ⟨val, hval, rfl⟩ := List.mem_map.mp hx
    obtain ⟨val', hval', rfl⟩ := List.mem_map.mp hy
    rw [hinj val hval val' hval' heq]

/-- What the checks come to when every key has a number. -/
theorem matchesRange_eq
    (hnum : ∀ val ∈ vals, pre.toList <+: val.1.toList ∧ numberOf pre val.1 = some (num val.1))
    (fromSeqno nextSeqno : Option ℕ) (kvs : List (String × Option String)) :
    matchesRange pre fromSeqno nextSeqno kvs vals =
      match valsUpTo nextSeqno (valsFrom fromSeqno (sortedValues num vals)) with
      | some valsSlice => valsSlice.map Prod.snd = kvs
      | none => false := by
  have hfilter : (vals.filter fun val => pre.toList <+: val.1.toList) = vals := by
    rw [List.filter_eq_self]
    intro val hval
    simpa using (hnum val hval).1
  have hcheck :
      (vals.map fun val => (numberOf pre val.1).map fun number => (number, val.1, some val.2)) =
      (vals.map fun val => (num val.1, val.1, some val.2)).map some := by
    rw [List.map_map]
    refine List.map_congr_left ?_
    intro val hval
    rw [(hnum val hval).2]
    rfl
  have hall : ((vals.map fun val => (num val.1, val.1, some val.2)).map some).all
      Option.isSome = true := by
    simp
  have hid : ((vals.map fun val => (num val.1, val.1, some val.2)).map some).filterMap id =
      vals.map fun val => (num val.1, val.1, some val.2) := by
    rw [List.filterMap_map]
    simp
  simp only [matchesRange, hfilter, hcheck, hall, hid, if_true]
  rfl

/-- With distinct numbers the answer is accepted exactly when it is the range. -/
theorem matchesRange_iff
    (hnum : ∀ val ∈ vals, pre.toList <+: val.1.toList ∧ numberOf pre val.1 = some (num val.1))
    (hnodup : vals.Nodup) (hinj : ∀ x ∈ vals, ∀ y ∈ vals, num x.1 = num y.1 → x = y)
    (fromSeqno nextSeqno : Option ℕ) (kvs : List (String × Option String)) :
    matchesRange pre fromSeqno nextSeqno kvs vals = true ↔
      (∀ k v, (k, v) ∈ kvs ↔ ∃ s, v = some s ∧ (k, s) ∈ vals ∧ (∀ m ∈ fromSeqno, m ≤ num k) ∧
        ∀ n ∈ nextSeqno, num k < n) ∧
      Ascending (fun kv => num kv.1) kvs ∧
      ∀ n ∈ nextSeqno, (∃ val ∈ vals, num val.1 = n) ∧ ∀ m ∈ fromSeqno, m ≤ n := by
  have hasc := ascending_sortedValues hnodup hinj
  have hascFrom := hasc.filter fun val => ∀ m ∈ fromSeqno, m ≤ val.1
  rw [matchesRange_eq hnum, valsFrom_eq_filter hasc, valsUpTo_eq hascFrom]
  have hnext : (∀ n ∈ nextSeqno,
      ∃ val ∈ (sortedValues num vals).filter fun val => ∀ m ∈ fromSeqno, m ≤ val.1, val.1 = n) ↔
      ∀ n ∈ nextSeqno, (∃ val ∈ vals, num val.1 = n) ∧ ∀ m ∈ fromSeqno, m ≤ n := by
    refine forall₂_congr fun n _ => ?_
    constructor
    · rintro ⟨⟨a, k, v⟩, hmem, rfl⟩
      obtain ⟨hmem, hfrom⟩ := List.mem_filter.mp hmem
      obtain ⟨s, -, hval, rfl⟩ := mem_sortedValues.mp hmem
      exact ⟨⟨(k, s), hval, rfl⟩, by simpa using hfrom⟩
    · rintro ⟨⟨⟨k, s⟩, hval, rfl⟩, hfrom⟩
      refine ⟨(num k, k, some s), ?_, rfl⟩
      rw [List.mem_filter]
      exact ⟨mem_sortedValues.mpr ⟨s, rfl, hval, rfl⟩, by simpa using hfrom⟩
  have hslice := (hascFrom.filter fun val => ∀ n ∈ nextSeqno, ¬ n ≤ val.1)
  have hmem : ∀ k v,
      (k, v) ∈ (((sortedValues num vals).filter fun val => ∀ m ∈ fromSeqno, m ≤ val.1).filter
      fun val => ∀ n ∈ nextSeqno, ¬ n ≤ val.1).map Prod.snd ↔
      ∃ s, v = some s ∧ (k, s) ∈ vals ∧ (∀ m ∈ fromSeqno, m ≤ num k) ∧
        ∀ n ∈ nextSeqno, num k < n := by
    intro k v
    simp only [List.mem_map, List.mem_filter, decide_eq_true_eq, not_le]
    constructor
    · rintro ⟨⟨a, k', v'⟩, ⟨⟨hmem, hfrom⟩, hto⟩, heq⟩
      obtain ⟨rfl, rfl⟩ : k' = k ∧ v' = v := by simpa using heq
      obtain ⟨s, rfl, hval, rfl⟩ := mem_sortedValues.mp hmem
      exact ⟨s, rfl, hval, hfrom, hto⟩
    · rintro ⟨s, rfl, hval, hfrom, hto⟩
      exact ⟨(num k, k, some s), ⟨⟨mem_sortedValues.mpr ⟨s, rfl, hval, rfl⟩, hfrom⟩, hto⟩, rfl⟩
  have hsorted : Ascending (fun kv : String × Option String => num kv.1)
      ((((sortedValues num vals).filter fun val => ∀ m ∈ fromSeqno, m ≤ val.1).filter
        fun val => ∀ n ∈ nextSeqno, ¬ n ≤ val.1).map Prod.snd) := by
    refine ascending_map hslice ?_
    rintro ⟨a, k, v⟩ hval
    obtain ⟨s, -, -, rfl⟩ := mem_sortedValues.mp (List.mem_filter.mp (List.mem_filter.mp hval).1).1
    rfl
  generalize (((sortedValues num vals).filter fun val => ∀ m ∈ fromSeqno, m ≤ val.1).filter
        fun val => ∀ n ∈ nextSeqno, ¬ n ≤ val.1) = slice at hmem hsorted ⊢
  rw [← hnext]
  split
  · rename_i valsSlice heq
    split at heq
    · rename_i hfound
      obtain rfl := Option.some.inj heq
      rw [decide_eq_true_eq]
      constructor
      · rintro rfl
        exact ⟨hmem, hsorted, hfound⟩
      · rintro ⟨hkvs, hkvsAsc, -⟩
        refine hsorted.eq_of_mem_iff hkvsAsc ?_
        rintro ⟨k, v⟩
        rw [hmem, hkvs]
    · cases heq
  · rename_i heq
    split at heq
    · cases heq
    · rename_i hmissing
      exact iff_of_false Bool.false_ne_true fun h => hmissing h.2.2

end Search

section Keys

theorem pathToNibbles_append (a b : Bytes) :
    Node.pathToNibbles (a ++ b) = Node.pathToNibbles a ++ Node.pathToNibbles b := by
  induction a with
  | nil => rfl
  | cons s a ih =>
    show _ :: _ :: Node.pathToNibbles (a ++ b) = _
    rw [ih]
    rfl

/-- The bytes of a path are found again in its nibbles. -/
theorem nibblesToBytes_pathToNibbles (path : Bytes) :
    Node.nibblesToBytes (Node.pathToNibbles path) = .ok path := by
  induction path with
  | nil => rfl
  | cons s path ih =>
    have hs : UInt8.ofNat (16 * (Node.highNibble s).val + (Node.lowNibble s).val) = s := by
      have hsum : 16 * (s.toNat / 16) + s.toNat % 16 = s.toNat := Nat.div_add_mod _ _
      show UInt8.ofNat (16 * (s.toNat / 16) + s.toNat % 16) = s
      rw [hsum, UInt8.ofNat_toNat]
    rw [Node.pathToNibbles, Node.nibblesToBytes, ih, hs]
    rfl

theorem nibblesToStr_asBytes (k : String) :
    Node.nibblesToStr (Node.pathToNibbles (asBytes k)) = .ok k := by
  rw [Node.nibblesToStr, nibblesToBytes_pathToNibbles, except_ok_bind, fromUtf8_asBytes]
  rfl

theorem removeFirst_append (pattern rest : List Char) :
    removeFirst pattern (pattern ++ rest) = rest := by
  have hpre : pattern <+: pattern ++ rest := List.prefix_append pattern rest
  have hdrop : (pattern ++ rest).drop pattern.length = rest := List.drop_left
  rcases h : pattern ++ rest with _ | ⟨c, cs⟩
  · obtain ⟨rfl, rfl⟩ := List.append_eq_nil_iff.mp h
    rfl
  · rw [h] at hpre hdrop
    rw [removeFirst, if_pos hpre, hdrop]

theorem parseU64_of_readNat {s : String} {a : ℕ} (h : readNat asciiDigit s.toList = some a)
    (ha : a < 2 ^ 64) :
    parseU64 s = some a := by
  unfold parseU64
  split
  · rename_i ds heq
    rw [heq] at h
    simp [readNat, asciiDigit] at h
  · rw [h, Option.filter_some, if_pos (by simpa using ha)]

/-- The key is the prefix and a decimal number. -/
def SuffixNumber (pre k : String) (a : ℕ) : Prop :=
  ∃ suffix, k = pre ++ suffix ∧ readNat asciiDigit suffix.toList = some a

theorem SuffixNumber.unique {pre k : String} {a b : ℕ} (ha : SuffixNumber pre k a)
    (hb : SuffixNumber pre k b) :
    a = b := by
  obtain ⟨suffix, rfl, hread⟩ := ha
  obtain ⟨suffix', heq, hread'⟩ := hb
  obtain rfl := (String.append_right_inj pre).mp heq
  exact Option.some.inj (hread.symm.trans hread')

theorem SuffixNumber.numberOf {pre k : String} {a : ℕ} (h : SuffixNumber pre k a)
    (ha : a < 2 ^ 64) :
    pre.toList <+: k.toList ∧ numberOf pre k = some a := by
  obtain ⟨suffix, rfl, hread⟩ := h
  rw [String.toList_append]
  refine ⟨List.prefix_append _ _, ?_⟩
  rw [SimpleAsset.Indy.numberOf, String.toList_append, removeFirst_append, String.ofList_toList]
  exact parseU64_of_readNat hread ha

theorem SuffixNumber.prefix_nibbles {pre k : String} {a : ℕ} (h : SuffixNumber pre k a) :
    Node.pathToNibbles (asBytes pre) <+: Node.pathToNibbles (asBytes k) := by
  obtain ⟨suffix, rfl, -⟩ := h
  rw [asBytes_append, pathToNibbles_append]
  exact List.prefix_append _ _

end Keys

section Agreement
variable {R : Rlp} {t : Trie Nibble Bytes} {pre : String}

/-- The map that the trie stands for: `k` has the value `v`. -/
def Entry (R : Rlp) (t : Trie Nibble Bytes) (k v : String) : Prop :=
  ∃ val, Stores R t (asBytes k) val ∧ fromUtf8 val = some v

/-- Under the prefix the trie stands for a map of texts, whose keys are the prefix and a decimal
number. -/
def NumberedKeys (R : Rlp) (t : Trie Nibble Bytes) (pre : String) : Prop :=
  ∀ w raw, Node.pathToNibbles (asBytes pre) <+: w → t.lookup w = some raw →
    ∃ k a val v, w = Node.pathToNibbles (asBytes k) ∧ SuffixNumber pre k a ∧
      R.list raw = some [val] ∧
      fromUtf8 val = some v

/-- `kvs` lists the entries with numbers from `fromSeqno` up to `nextSeqno`, which is one of the
numbers. -/
structure IsRange (R : Rlp) (t : Trie Nibble Bytes) (pre : String) (fromSeqno nextSeqno : Option ℕ)
    (kvs : List (String × Option String)) : Prop where
  mem : ∀ k v, (k, v) ∈ kvs ↔ ∃ s a, v = some s ∧ Entry R t k s ∧ SuffixNumber pre k a ∧
    (∀ m ∈ fromSeqno, m ≤ a) ∧ ∀ n ∈ nextSeqno, a < n
  nodup : kvs.Nodup
  sorted : kvs.Pairwise fun x y => ∃ a b, SuffixNumber pre x.1 a ∧ SuffixNumber pre y.1 b ∧ a ≤ b
  next : ∀ n ∈ nextSeqno, (∃ k s, Entry R t k s ∧ SuffixNumber pre k n) ∧ ∀ m ∈ fromSeqno, m ≤ n

theorem Entry.unique {k v v' : String} (h : Entry R t k v) (h' : Entry R t k v') : v = v' := by
  obtain ⟨val, ⟨raw, hraw, hlist⟩, hutf⟩ := h
  obtain ⟨val', ⟨raw', hraw', hlist'⟩, hutf'⟩ := h'
  obtain rfl := Option.some.inj (hraw.symm.trans hraw')
  rw [hlist, Option.some.injEq, List.cons.injEq] at hlist'
  rw [← hlist'.1, hutf] at hutf'
  exact Option.some.inj hutf'

theorem textOf_eq_ok {raw : Bytes} {s : String} :
    Node.textOf R raw = some (.ok s) ↔ ∃ val, R.list raw = some [val] ∧ fromUtf8 val = some s := by
  unfold Node.textOf
  rcases R.list raw with _ | _ | ⟨val, _ | ⟨val', rest⟩⟩
  · simp
  · simp
  · rcases hutf : fromUtf8 val with _ | str <;> simp [hutf, errMsg]
  · simp

theorem NumberedKeys.hasTexts (h : NumberedKeys R t pre) :
    HasTexts R t (Node.pathToNibbles (asBytes pre)) := by
  intro w raw hpre hlookup
  obtain ⟨-, -, val, v, -, -, hlist, hutf⟩ := h w raw hpre hlookup
  exact ⟨v, textOf_eq_ok.mpr ⟨val, hlist, hutf⟩⟩

/-- The text of a key, where it has one. -/
def keyText (w : List Nibble) : String :=
  match Node.nibblesToStr w with
  | .ok k => k
  | .error _ => ""

theorem keyText_asBytes (k : String) : keyText (Node.pathToNibbles (asBytes k)) = k := by
  rw [keyText, nibblesToStr_asBytes]

/-- What is collected under the prefix is the map, with its keys as texts. -/
theorem keyed_of_collects {l : List (List Nibble × String)} (hnum : NumberedKeys R t pre)
    (h : Collects R t (Node.pathToNibbles (asBytes pre)) [] l) :
    ∃ vals, Node.keyed l = .ok vals ∧ vals.Nodup ∧
      ∀ k s, (k, s) ∈ vals ↔ Entry R t k s ∧ ∃ a, SuffixNumber pre k a := by
  have hkey : ∀ entry ∈ l, ∃ k a, entry.1 = Node.pathToNibbles (asBytes k) ∧ SuffixNumber pre k a ∧
      Entry R t k entry.2 := by
    intro entry hentry
    obtain ⟨w, raw, heq, hpre, hlookup, htext⟩ := (h.mem entry.1 entry.2).mp hentry
    obtain ⟨k, a, -, -, hw, hsuffix, -, -⟩ := hnum w raw hpre hlookup
    obtain ⟨val, hlist, hutf⟩ := textOf_eq_ok.mp htext
    rw [hw] at hlookup
    exact ⟨k, a, by rw [heq, List.nil_append, hw], hsuffix, val, ⟨raw, hlookup, hlist⟩, hutf⟩
  have hinj : ∀ x ∈ l, ∀ y ∈ l, keyText x.1 = keyText y.1 → x.1 = y.1 := by
    intro x hx y hy heq
    obtain ⟨k, -, hxk, -⟩ := hkey x hx
    obtain ⟨k', -, hyk, -⟩ := hkey y hy
    rw [hxk, hyk, keyText_asBytes, keyText_asBytes] at heq
    rw [hxk, hyk, heq]
  refine ⟨l.map fun entry => (keyText entry.1, entry.2), ?_, ?_, ?_⟩
  · refine mapM_eq_ok_map ?_
    intro entry hentry
    obtain ⟨k, -, hk, -⟩ := hkey entry hentry
    rw [hk, keyText_asBytes, nibblesToStr_asBytes]
    rfl
  · refine h.nodup.of_map _ |>.map_on ?_
    intro x hx y hy heq
    rw [Prod.mk.injEq] at heq
    exact Prod.ext (hinj x hx y hy heq.1) heq.2
  · intro k s
    rw [List.mem_map]
    constructor
    · rintro ⟨entry, hentry, heq⟩
      obtain ⟨k', a, hk, hsuffix, hstored⟩ := hkey entry hentry
      obtain ⟨hkk, rfl⟩ := Prod.mk.inj heq
      rw [hk, keyText_asBytes] at hkk
      subst hkk
      exact ⟨hstored, a, hsuffix⟩
    · rintro ⟨⟨val, ⟨raw, hraw, hlist⟩, hutf⟩, a, hsuffix⟩
      refine ⟨(Node.pathToNibbles (asBytes k), s), ?_, by rw [keyText_asBytes]⟩
      rw [h.mem]
      exact ⟨_, raw, rfl, hsuffix.prefix_nibbles, hraw, textOf_eq_ok.mpr ⟨val, hlist, hutf⟩⟩

/-- The numbers are below `2^64`, and no two keys have the same one. -/
structure DistinctNumbers (R : Rlp) (t : Trie Nibble Bytes) (pre : String) : Prop where
  lt : ∀ k s a, Entry R t k s → SuffixNumber pre k a → a < 2 ^ 64
  unique : ∀ k k' s s' a, Entry R t k s → Entry R t k' s' → SuffixNumber pre k a →
    SuffixNumber pre k' a → k = k'

/-- The number in a key, where it has one. -/
def keyNumber (pre k : String) : ℕ := (numberOf pre k).getD 0

theorem DistinctNumbers.numberOf (h : DistinctNumbers R t pre) {k s : String} {a : ℕ}
    (hentry : Entry R t k s) (hsuffix : SuffixNumber pre k a) : pre.toList <+: k.toList ∧
      numberOf pre k = some (keyNumber pre k) := by
  obtain ⟨hpre, hnumber⟩ := hsuffix.numberOf (h.lt k s a hentry hsuffix)
  exact ⟨hpre, by rw [keyNumber, hnumber]; rfl⟩

theorem DistinctNumbers.keyNumber (h : DistinctNumbers R t pre) {k s : String} {a : ℕ}
    (hentry : Entry R t k s) (hsuffix : SuffixNumber pre k a) : keyNumber pre k = a := by
  have hnumber := (hsuffix.numberOf (h.lt k s a hentry hsuffix)).2
  rw [SimpleAsset.Indy.keyNumber, hnumber]
  rfl

/-- Entries with the same number are the same. -/
theorem DistinctNumbers.eq_of_keyNumber (h : DistinctNumbers R t pre) {k k' s s' : String} {a b : ℕ}
    (hentry : Entry R t k s) (hentry' : Entry R t k' s') (ha : SuffixNumber pre k a)
    (hb : SuffixNumber pre k' b)
    (heq : SimpleAsset.Indy.keyNumber pre k = SimpleAsset.Indy.keyNumber pre k') :
    k = k' ∧ s = s' := by
  rw [h.keyNumber hentry ha, h.keyNumber hentry' hb] at heq
  subst heq
  have hkey : k = k' := h.unique k k' s s' a hentry hentry' ha hb
  subst hkey
  exact ⟨rfl, hentry.unique hentry'⟩

/-- Entries in ascending order of their numbers, none of them twice. -/
theorem DistinctNumbers.ascending_iff (h : DistinctNumbers R t pre)
    {kvs : List (String × Option String)}
    (hkvs : ∀ k v, (k, v) ∈ kvs → ∃ s a, v = some s ∧ Entry R t k s ∧ SuffixNumber pre k a) :
    Ascending (fun kv => SimpleAsset.Indy.keyNumber pre kv.1) kvs ↔
      kvs.Nodup ∧ kvs.Pairwise fun x y => ∃ a b, SuffixNumber pre x.1 a ∧
        SuffixNumber pre y.1 b ∧ a ≤ b := by
  rw [Ascending]
  constructor
  · intro hasc
    constructor
    · refine List.Pairwise.imp ?_ hasc
      intro x y hlt heq
      rw [heq] at hlt
      exact lt_irrefl _ hlt
    · refine List.Pairwise.imp_of_mem ?_ hasc
      intro x y hx hy hlt
      obtain ⟨s, a, -, hxe, hxa⟩ := hkvs x.1 x.2 hx
      obtain ⟨s', b, -, hye, hyb⟩ := hkvs y.1 y.2 hy
      rw [h.keyNumber hxe hxa, h.keyNumber hye hyb] at hlt
      exact ⟨a, b, hxa, hyb, hlt.le⟩
  · rintro ⟨hnodup, hsorted⟩
    refine List.Pairwise.imp_of_mem ?_ (hsorted.and hnodup)
    intro x y hx hy hxy
    obtain ⟨⟨a, b, hxa, hyb, hle⟩, hne⟩ := hxy
    obtain ⟨s, -, hxs, hxe, -⟩ := hkvs x.1 x.2 hx
    obtain ⟨s', -, hys, hye, -⟩ := hkvs y.1 y.2 hy
    refine lt_of_le_of_ne ?_ ?_
    · rw [h.keyNumber hxe hxa, h.keyNumber hye hyb]
      exact hle
    · intro heq
      obtain ⟨hkey, hvalue⟩ := h.eq_of_keyNumber hxe hye hxa hyb heq
      exact hne (Prod.ext hkey (by rw [hxs, hys, hvalue]))

theorem matchesRange_iff_isRange {vals : List (String × String)} (hnodup : vals.Nodup)
    (hmem : ∀ k s, (k, s) ∈ vals ↔ Entry R t k s ∧ ∃ a, SuffixNumber pre k a)
    (hdistinct : DistinctNumbers R t pre)
    (fromSeqno nextSeqno : Option ℕ) (kvs : List (String × Option String)) :
    matchesRange pre fromSeqno nextSeqno kvs vals = true ↔
    IsRange R t pre fromSeqno nextSeqno kvs := by
  have hnum : ∀ val ∈ vals, pre.toList <+: val.1.toList ∧
      numberOf pre val.1 = some (keyNumber pre val.1) := by
    intro val hval
    obtain ⟨hentry, a, hsuffix⟩ := (hmem val.1 val.2).mp hval
    exact hdistinct.numberOf hentry hsuffix
  have hinj : ∀ x ∈ vals, ∀ y ∈ vals, keyNumber pre x.1 = keyNumber pre y.1 → x = y := by
    intro x hx y hy heq
    obtain ⟨hxe, a, hxa⟩ := (hmem x.1 x.2).mp hx
    obtain ⟨hye, b, hyb⟩ := (hmem y.1 y.2).mp hy
    obtain ⟨hkey, hvalue⟩ := hdistinct.eq_of_keyNumber hxe hye hxa hyb heq
    exact Prod.ext hkey hvalue
  have hlist : (∀ k v, (k, v) ∈ kvs ↔ ∃ s, v = some s ∧ (k, s) ∈ vals ∧
      (∀ m ∈ fromSeqno, m ≤ keyNumber pre k) ∧ ∀ n ∈ nextSeqno, keyNumber pre k < n) ↔
      ∀ k v, (k, v) ∈ kvs ↔ ∃ s a, v = some s ∧ Entry R t k s ∧ SuffixNumber pre k a ∧
        (∀ m ∈ fromSeqno, m ≤ a) ∧ ∀ n ∈ nextSeqno, a < n := by
    refine forall₂_congr fun k v => iff_congr Iff.rfl ?_
    constructor
    · rintro ⟨s, rfl, hval, hfrom, hto⟩
      obtain ⟨hentry, a, hsuffix⟩ := (hmem k s).mp hval
      rw [hdistinct.keyNumber hentry hsuffix] at hfrom hto
      exact ⟨s, a, rfl, hentry, hsuffix, hfrom, hto⟩
    · rintro ⟨s, a, rfl, hentry, hsuffix, hfrom, hto⟩
      refine ⟨s, rfl, (hmem k s).mpr ⟨hentry, a, hsuffix⟩, ?_⟩
      rw [hdistinct.keyNumber hentry hsuffix]
      exact ⟨hfrom, hto⟩
  have hnext : (∀ n ∈ nextSeqno, (∃ val ∈ vals, keyNumber pre val.1 = n) ∧ ∀ m ∈ fromSeqno, m ≤ n) ↔
      ∀ n ∈ nextSeqno, (∃ k s, Entry R t k s ∧ SuffixNumber pre k n) ∧ ∀ m ∈ fromSeqno, m ≤ n := by
    refine forall₂_congr fun n _ => and_congr_left fun _ => ?_
    constructor
    · rintro ⟨⟨k, s⟩, hval, rfl⟩
      obtain ⟨hentry, a, hsuffix⟩ := (hmem k s).mp hval
      exact ⟨k, s, hentry, by rwa [hdistinct.keyNumber hentry hsuffix]⟩
    · rintro ⟨k, s, hentry, hsuffix⟩
      exact ⟨(k, s), (hmem k s).mpr ⟨hentry, n, hsuffix⟩, hdistinct.keyNumber hentry hsuffix⟩
  rw [matchesRange_iff hnum hnodup hinj, hlist, hnext]
  constructor
  · rintro ⟨hkvs, hasc, hlast⟩
    have hentries : ∀ k v, (k, v) ∈ kvs → ∃ s a, v = some s ∧ Entry R t k s ∧
        SuffixNumber pre k a := by
      intro k v hkv
      obtain ⟨s, a, hv, hentry, hsuffix, -⟩ := (hkvs k v).mp hkv
      exact ⟨s, a, hv, hentry, hsuffix⟩
    obtain ⟨hkvsNodup, hsorted⟩ := (hdistinct.ascending_iff hentries).mp hasc
    exact ⟨hkvs, hkvsNodup, hsorted, hlast⟩
  · intro h
    have hentries : ∀ k v, (k, v) ∈ kvs → ∃ s a, v = some s ∧ Entry R t k s ∧
        SuffixNumber pre k a := by
      intro k v hkv
      obtain ⟨s, a, hv, hentry, hsuffix, -⟩ := (h.mem k v).mp hkv
      exact ⟨s, a, hv, hentry, hsuffix⟩
    exact ⟨h.mem, (hdistinct.ascending_iff hentries).mpr ⟨h.nodup, h.sorted⟩, h.next⟩

/-- The verdict is that on what is collected from the trie. -/
theorem verifyProofRange_returns {proof rootHash : Bytes} {root : Node}
    (hroot : Node.trieDB R ((R.nodes proof).getD []) rootHash = some root)
    (hsound : ∀ node ∈ (R.nodes proof).getD [], node.Sound)
    (ht : Resolves (Node.trieDB R ((R.nodes proof).getD [])) root t) (pre : String)
    (fromSeqno nextSeqno : Option ℕ) (kvs : List (String × Option String)) :
    Returns (fun fuel => verifyProofRange R fuel proof rootHash pre fromSeqno nextSeqno kvs)
      (rangeVerdict pre fromSeqno nextSeqno kvs
        (enumerateUnder R t (Node.pathToNibbles (asBytes pre)) [] >>= Node.keyed)) := by
  have hget : ∀ hash node, Node.trieDB R ((R.nodes proof).getD []) hash = some node →
      node.Sound := by
    intro hash node hnode
    exact hsound node (Node.mem_of_trieDB hnode)
  have hvalues := getAllValues_returns (R := R) ht (hget rootHash root hroot) hget (asBytes pre)
  simpa only [verifyProofRange, hroot] using hvalues.map (rangeVerdict pre fromSeqno nextSeqno kvs)

/-- The nodes of a proof, as they are read from its bytes, and the trie that they are a part of. -/
structure NumberedTrie (R : Rlp) (proof rootHash : Bytes) (root : Node) (t : Trie Nibble Bytes)
    (pre : String) :
    Prop where
  found : Node.trieDB R ((R.nodes proof).getD []) rootHash = some root
  sound : ∀ node ∈ (R.nodes proof).getD [], node.Sound
  trie : Resolves (Node.trieDB R ((R.nodes proof).getD [])) root t
  keys : NumberedKeys R t pre

/-- An answer to a range request is accepted exactly when it lists the range and nothing of it is
hidden. -/
def ProvesRange (R : Rlp) (proof rootHash : Bytes) (t : Trie Nibble Bytes) (pre : String)
    (fromSeqno nextSeqno : Option ℕ) (kvs : List (String × Option String)) : Prop :=
  ∃ res, Returns
    (fun fuel => verifyProofRange R fuel proof rootHash pre fromSeqno nextSeqno kvs) (.ok res) ∧
    (res = true ↔ t.ExposedUnder (Node.pathToNibbles (asBytes pre)) ∧
      IsRange R t pre fromSeqno nextSeqno kvs)

theorem provesRange {proof rootHash : Bytes} {root : Node}
    (h : NumberedTrie R proof rootHash root t pre)
    (hdistinct : DistinctNumbers R t pre) (fromSeqno nextSeqno : Option ℕ)
    (kvs : List (String × Option String)) :
    ProvesRange R proof rootHash t pre fromSeqno nextSeqno kvs := by
  have hreturns := verifyProofRange_returns h.found h.sound h.trie pre fromSeqno nextSeqno kvs
  by_cases hexp : t.ExposedUnder (Node.pathToNibbles (asBytes pre))
  · obtain ⟨l, hl, hcollects⟩ := enumerateUnder_collects hexp h.keys.hasTexts []
    obtain ⟨vals, hvals, hnodup, hmem⟩ := keyed_of_collects h.keys hcollects
    rw [hl, except_ok_bind, hvals] at hreturns
    refine ⟨matchesRange pre fromSeqno nextSeqno kvs vals, hreturns, ?_⟩
    rw [matchesRange_iff_isRange hnodup hmem hdistinct]
    exact ⟨fun hrange => ⟨hexp, hrange⟩, fun hrange => hrange.2⟩
  · obtain ⟨e, he⟩ := enumerateUnder_of_not_exposed (R := R) hexp []
    rw [he] at hreturns
    exact ⟨false, hreturns, iff_of_false Bool.false_ne_true fun hrange => hexp hrange.1⟩

end Agreement

section Samples

/-- A proof of one node, with the bytes `v` as the only value in it. -/
def singleRlp (proof : Bytes) (node : Node) (root : Bytes) : Rlp where
  nodes bytes := if bytes = proof then some [node] else none
  list raw := if raw = [0xc1, 0x76] then some [[0x76]] else none
  getHash _ := root

def singleNode (key : String) : Node := .leaf (0x20 :: asBytes key) [0xc1, 0x76]

def singleTrie (key : String) : Trie Nibble Bytes :=
  .leaf (Node.pathToNibbles (asBytes key)) [0xc1, 0x76]

theorem fromUtf8_v : fromUtf8 [0x76] = some "v" := by
  rw [show [0x76] = asBytes "v" by decide, fromUtf8_asBytes]

variable {proof root : Bytes} {node : Node}

theorem numberedTrie_single {t : Trie Nibble Bytes} {pre : String} (hsound : node.Sound)
    (ht : ∀ db, Resolves db node t) (hkeys : NumberedKeys (singleRlp proof node root) t pre) :
    NumberedTrie (singleRlp proof node root) proof root node t pre := by
  have hnodes : ((singleRlp proof node root).nodes proof).getD [] = [node] := by simp [singleRlp]
  refine ⟨?_, ?_, ht _, hkeys⟩
  · rw [hnodes]
    simp [Node.trieDB, singleRlp]
  · rw [hnodes]
    simpa using hsound

theorem singleNode_resolves (db : TrieDB) (key : String) :
    Resolves db (singleNode key) (singleTrie key) := .leaf rfl

theorem singleNode_sound (key : String) : (singleNode key).Sound := by
  have hpath : Node.parsePath (0x20 :: asBytes key) = .ok
      (true, Node.pathToNibbles (asBytes key)) := rfl
  exact .leaf hpath

theorem pathToNibbles_inj {a b : Bytes} : Node.pathToNibbles a = Node.pathToNibbles b ↔ a = b := by
  constructor
  · intro h
    have ha := nibblesToBytes_pathToNibbles a
    rw [h, nibblesToBytes_pathToNibbles] at ha
    exact (Except.ok.inj ha).symm
  · exact congrArg Node.pathToNibbles

theorem entry_singleTrie {key k s : String} :
    Entry (singleRlp proof node root) (singleTrie key) k s ↔ k = key ∧ s = "v" := by
  constructor
  · rintro ⟨val, ⟨raw, hraw, hlist⟩, hutf⟩
    rw [singleTrie, Trie.lookup] at hraw
    split at hraw
    · rename_i heq
      obtain rfl := Option.some.inj hraw
      obtain rfl : [0x76] = val := by simpa [singleRlp] using hlist
      rw [fromUtf8_v] at hutf
      exact ⟨asBytes_inj.mp (pathToNibbles_inj.mp heq), (Option.some.inj hutf).symm⟩
    · cases hraw
  · rintro ⟨rfl, rfl⟩
    exact ⟨[0x76], ⟨[0xc1, 0x76], if_pos rfl, by simp [singleRlp]⟩, fromUtf8_v⟩

theorem numberedKeys_singleTrie {pre key : String} {a : ℕ} (h : SuffixNumber pre key a) :
    NumberedKeys (singleRlp proof node root) (singleTrie key) pre := by
  intro w raw _ hlookup
  rw [singleTrie, Trie.lookup] at hlookup
  split at hlookup
  · rename_i heq
    obtain rfl := Option.some.inj hlookup
    exact ⟨key, a, [0x76], "v", heq, h, by simp [singleRlp], fromUtf8_v⟩
  · cases hlookup

theorem isRange_singleTrie {pre key : String} {a : ℕ} (h : SuffixNumber pre key a) :
    IsRange (singleRlp proof node root) (singleTrie key) pre none none [(key, some "v")] := by
  refine ⟨?_, by simp, by simp, by simp⟩
  intro k v
  rw [List.mem_singleton, Prod.mk.injEq]
  constructor
  · rintro ⟨rfl, rfl⟩
    exact ⟨"v", a, rfl, entry_singleTrie.mpr ⟨rfl, rfl⟩, h, by simp, by simp⟩
  · rintro ⟨s, b, rfl, hentry, -⟩
    obtain ⟨rfl, rfl⟩ := entry_singleTrie.mp hentry
    exact ⟨rfl, rfl⟩

theorem textOf_singleRlp : Node.textOf (singleRlp proof node root) [0xc1, 0x76] = some (.ok "v") :=
  textOf_eq_ok.mpr ⟨[0x76], by simp [singleRlp], fromUtf8_v⟩

theorem keyed_singleTrie {pre key : String} {a : ℕ} (h : SuffixNumber pre key a) :
    enumerateUnder (singleRlp proof node root) (singleTrie key) (Node.pathToNibbles (asBytes pre))
      [] >>= Node.keyed = .ok [(key, "v")] := by
  rw [singleTrie, enumerateUnder, if_pos h.prefix_nibbles, Node.leafValue, textOf_singleRlp]
  show Node.keyed [(Node.pathToNibbles (asBytes key), "v")] = _
  simp [Node.keyed, nibblesToStr_asBytes]

theorem numberedTrie_singleTrie {pre key : String} {a : ℕ} (h : SuffixNumber pre key a) :
    NumberedTrie (singleRlp proof (singleNode key) root) proof root (singleNode key)
      (singleTrie key) pre :=
  numberedTrie_single (singleNode_sound key) (fun db => singleNode_resolves db key)
    (numberedKeys_singleTrie h)

/-- `2^64` in decimal, as a key. -/
def bigKey : String := "18446744073709551616"

theorem suffixNumber_bigKey : SuffixNumber "" bigKey (2 ^ 64) := ⟨bigKey, by decide, by decide⟩

theorem not_provesRange_of_verdict {R : Rlp} {t : Trie Nibble Bytes} {pre : String}
    {kvs : List (String × Option String)} {vals : List (String × String)}
    (h : NumberedTrie R proof root node t pre)
    (hvals : enumerateUnder R t (Node.pathToNibbles (asBytes pre)) [] >>= Node.keyed = .ok vals)
    (hno : matchesRange pre none none kvs vals = false)
    (hexp : t.ExposedUnder (Node.pathToNibbles (asBytes pre)))
    (hrange : IsRange R t pre none none kvs) : ¬ ProvesRange R proof root t pre none none kvs := by
  rintro ⟨res, hres, hiff⟩
  have hreturns := verifyProofRange_returns h.found h.sound h.trie pre none none kvs
  rw [hvals, rangeVerdict, hno] at hreturns
  obtain rfl := Except.ok.inj (hreturns.unique hres)
  exact Bool.false_ne_true (hiff.mpr ⟨hexp, hrange⟩)

/-- Two keys that part after their first nibbles, with the encoded paths to them. -/
structure Fork where
  key : String
  key' : String
  stem : List Nibble
  x : Nibble
  x' : Nibble
  rest : List Nibble
  rest' : List Nibble
  stemPath : Bytes
  restPath : Bytes
  restPath' : Bytes
  ne : x ≠ x'
  nibbles : Node.pathToNibbles (asBytes key) = stem ++ x :: rest
  nibbles' : Node.pathToNibbles (asBytes key') = stem ++ x' :: rest'
  parse_stem : Node.parsePath stemPath = .ok (false, stem)
  parse_rest : Node.parsePath restPath = .ok (true, rest)
  parse_rest' : Node.parsePath restPath' = .ok (true, rest')

variable (f : Fork)

/-- Both keys have the value `v`. -/
def Fork.rootNode : Node :=
  .extension f.stemPath (.full (fun y => if y = f.x then some (.leaf f.restPath [0xc1, 0x76])
    else if y = f.x' then some (.leaf f.restPath' [0xc1, 0x76]) else none) none)

def Fork.trie : Trie Nibble Bytes :=
  .extension f.stem (.full (fun y => if y = f.x then .leaf f.rest [0xc1, 0x76]
    else if y = f.x' then .leaf f.rest' [0xc1, 0x76] else .blank) none)

theorem Fork.resolves (db : TrieDB) : Resolves db f.rootNode f.trie := by
  refine .extension f.parse_stem (.full ?_ ?_)
  · intro y hy
    split_ifs at hy ⊢
    rfl
  · intro y n hy
    split_ifs at hy ⊢
    · obtain rfl := Option.some.inj hy
      exact .leaf f.parse_rest
    · obtain rfl := Option.some.inj hy
      exact .leaf f.parse_rest'

theorem Fork.sound : f.rootNode.Sound := by
  refine .extension f.parse_stem (.full ?_)
  intro y n hy
  split_ifs at hy
  · obtain rfl := Option.some.inj hy
    exact .leaf f.parse_rest
  · obtain rfl := Option.some.inj hy
    exact .leaf f.parse_rest'

theorem Fork.lookup_trie {w : List Nibble} {raw : Bytes} :
    f.trie.lookup w = some raw ↔
      (w = Node.pathToNibbles (asBytes f.key) ∨ w = Node.pathToNibbles (asBytes f.key')) ∧
      raw = [0xc1, 0x76] := by
  rw [f.nibbles, f.nibbles']
  constructor
  · intro h
    rw [Fork.trie, Trie.lookup] at h
    split at h
    · rename_i hpre
      obtain ⟨tail, rfl⟩ := hpre
      rw [List.drop_left] at h
      rcases tail with _ | ⟨y, tail⟩
      · cases h
      · rw [Trie.lookup] at h
        split_ifs at h with hx hx' <;> rw [Trie.lookup] at h
        · split_ifs at h with hrest
          exact ⟨.inl (by rw [hx, hrest]), (Option.some.inj h).symm⟩
        · split_ifs at h with hrest
          exact ⟨.inr (by rw [hx', hrest]), (Option.some.inj h).symm⟩
        · cases h
    · cases h
  · rintro ⟨rfl | rfl, rfl⟩
    · simp [Fork.trie, Trie.lookup]
    · simp [Fork.trie, Trie.lookup, f.ne.symm]

theorem Fork.entry_trie {k s : String} :
    Entry (singleRlp proof node root) f.trie k s ↔ (k = f.key ∨ k = f.key') ∧ s = "v" := by
  constructor
  · rintro ⟨val, ⟨raw, hraw, hlist⟩, hutf⟩
    obtain ⟨hk, rfl⟩ := f.lookup_trie.mp hraw
    obtain rfl : [0x76] = val := by simpa [singleRlp] using hlist
    rw [pathToNibbles_inj, pathToNibbles_inj, asBytes_inj, asBytes_inj] at hk
    rw [fromUtf8_v] at hutf
    exact ⟨hk, (Option.some.inj hutf).symm⟩
  · rintro ⟨hk, rfl⟩
    refine ⟨[0x76], ⟨[0xc1, 0x76], f.lookup_trie.mpr ⟨?_, rfl⟩, by simp [singleRlp]⟩, fromUtf8_v⟩
    rwa [pathToNibbles_inj, pathToNibbles_inj, asBytes_inj, asBytes_inj]

theorem Fork.numberedTrie {pre : String} {a a' : ℕ} (h : SuffixNumber pre f.key a)
    (h' : SuffixNumber pre f.key' a') :
    NumberedTrie (singleRlp proof f.rootNode root) proof root f.rootNode f.trie pre := by
  refine numberedTrie_single f.sound f.resolves ?_
  intro w raw _ hlookup
  obtain ⟨hw, rfl⟩ := f.lookup_trie.mp hlookup
  rcases hw with rfl | rfl
  · exact ⟨f.key, a, [0x76], "v", rfl, h, by simp [singleRlp], fromUtf8_v⟩
  · exact ⟨f.key', a', [0x76], "v", rfl, h', by simp [singleRlp], fromUtf8_v⟩

theorem Fork.distinctNumbers {pre : String} {a a' : ℕ} (h : SuffixNumber pre f.key a)
    (h' : SuffixNumber pre f.key' a') (ha : a < 2 ^ 64) (ha' : a' < 2 ^ 64) (hne : a ≠ a') :
    DistinctNumbers (singleRlp proof node root) f.trie pre := by
  constructor
  · intro k s b hentry hb
    obtain ⟨rfl | rfl, -⟩ := f.entry_trie.mp hentry
    · rwa [hb.unique h]
    · rwa [hb.unique h']
  · intro k k' s s' b hentry hentry' hb hb'
    obtain ⟨rfl | rfl, -⟩ := f.entry_trie.mp hentry <;>
      obtain ⟨rfl | rfl, -⟩ := f.entry_trie.mp hentry'
    · rfl
    · exact absurd ((h.unique hb).trans (hb'.unique h')) hne
    · exact absurd ((h.unique hb').trans (hb.unique h')) hne
    · rfl

/-- The keys `k7` and `k8`. -/
def neighbours : Fork where
  key := "k7"
  key' := "k8"
  stem := [6, 11, 3]
  x := 7
  x' := 8
  rest := []
  rest' := []
  stemPath := [0x16, 0xb3]
  restPath := [0x20]
  restPath' := [0x20]
  ne := by decide
  nibbles := by decide
  nibbles' := by decide
  parse_stem := rfl
  parse_rest := rfl
  parse_rest' := rfl

theorem suffixNumber_k7 : SuffixNumber "k" "k7" 7 := ⟨"7", by decide, by decide⟩

theorem suffixNumber_k8 : SuffixNumber "k" "k8" 8 := ⟨"8", by decide, by decide⟩

def neighboursProof : Bytes :=
  [222, 221, 130, 22, 179, 217, 128, 128, 128, 128, 128, 128, 128, 196, 32, 130, 193, 118, 196, 32,
    130, 193, 118, 128, 128, 128, 128, 128, 128, 128, 128]

/-- SHA3-256 of the encoded node of `neighbours`. -/
def neighboursRoot : Bytes :=
  [85, 189, 43, 73, 25, 179, 109, 81, 64, 89, 43, 230, 184, 87, 5, 199, 152, 168, 155, 31, 95, 29,
    148, 211, 233, 73, 62, 211, 93, 96, 89, 68]

theorem provesRange_k7 :
    ProvesRange (singleRlp neighboursProof neighbours.rootNode neighboursRoot) neighboursProof
      neighboursRoot neighbours.trie "k" (some 7) (some 8) [("k7", some "v")] :=
  provesRange (neighbours.numberedTrie suffixNumber_k7 suffixNumber_k8)
    (neighbours.distinctNumbers suffixNumber_k7 suffixNumber_k8 (by decide) (by decide) (by decide))
    (some 7) (some 8) [("k7", some "v")]

/-- The keys `07` and `7`. -/
def twins : Fork where
  key := "07"
  key' := "7"
  stem := [3]
  x := 0
  x' := 7
  rest := [3, 7]
  rest' := []
  stemPath := [0x13]
  restPath := [0x20, 0x37]
  restPath' := [0x20]
  ne := by decide
  nibbles := by decide
  nibbles' := by decide
  parse_stem := rfl
  parse_rest := rfl
  parse_rest' := rfl

theorem suffixNumber_twin {k : String} (h : k = "07" ∨ k = "7") : SuffixNumber "" k 7 := by
  rcases h with rfl | rfl
  · exact ⟨"07", by decide, by decide⟩
  · exact ⟨"7", by decide, by decide⟩

theorem isRange_twins :
    IsRange (singleRlp proof node root) twins.trie "" none none
      [("7", some "v"), ("07", some "v")] := by
  refine ⟨?_, by decide, ?_, by simp⟩
  · intro k v
    simp only [List.mem_cons, List.not_mem_nil, or_false, Prod.mk.injEq, twins.entry_trie]
    constructor
    · rintro (⟨rfl, rfl⟩ | ⟨rfl, rfl⟩)
      · exact ⟨"v", 7, rfl, ⟨.inr rfl, rfl⟩, suffixNumber_twin (.inr rfl), by simp, by simp⟩
      · exact ⟨"v", 7, rfl, ⟨.inl rfl, rfl⟩, suffixNumber_twin (.inl rfl), by simp, by simp⟩
    · rintro ⟨s, a, rfl, ⟨rfl | rfl, rfl⟩, -⟩
      · exact .inr ⟨rfl, rfl⟩
      · exact .inl ⟨rfl, rfl⟩
  · rw [List.pairwise_pair]
    exact ⟨7, 7, suffixNumber_twin (.inr rfl), suffixNumber_twin (.inl rfl), le_rfl⟩

theorem keyed_twins :
    enumerateUnder (singleRlp proof node root) twins.trie (Node.pathToNibbles (asBytes "")) [] >>=
    Node.keyed =
      .ok [("07", "v"), ("7", "v")] := by
  have h07 := nibblesToStr_asBytes "07"
  have h7 := nibblesToStr_asBytes "7"
  rw [show Node.pathToNibbles (asBytes "07") = [3, 0, 3, 7] by decide] at h07
  rw [show Node.pathToNibbles (asBytes "7") = [3, 7] by decide] at h7
  have hvals : enumerateUnder (singleRlp proof node root) twins.trie
      (Node.pathToNibbles (asBytes "")) [] = .ok [([3, 0, 3, 7], "v"), ([3, 7], "v")] := by
    rw [show Node.pathToNibbles (asBytes "") = [] by decide]
    simp [Fork.trie, twins, enumerateUnder, enumerate, Node.leafValue, Node.ownValue,
      textOf_singleRlp, List.finRange_succ, List.mapM_cons]
  rw [hvals]
  simp [Node.keyed, h07, h7]

theorem matchesRange_twin :
    matchesRange "" none none [("7", some "v"), ("07", some "v")]
      [("07", "v"), ("7", "v")] = false := by
  have hnum : ∀ val ∈ [("07", "v"), ("7", "v")],
      "".toList <+: val.1.toList ∧ numberOf "" val.1 = some (keyNumber "" val.1) := by decide
  rw [matchesRange_eq hnum]
  have hsorted : sortedValues (keyNumber "")
      [("07", "v"), ("7", "v")] = [(7, "07", some "v"), (7, "7", some "v")] := by
    rw [sortedValues, List.mergeSort_of_pairwise]
    · decide
    · decide
  rw [hsorted]
  decide

def bigProof : Bytes :=
  [218, 217, 149, 32, 49, 56, 52, 52, 54, 55, 52, 52, 48, 55, 51, 55, 48, 57, 53, 53, 49, 54, 49,
    54, 130, 193, 118]

/-- SHA3-256 of the encoded leaf of `bigKey`. -/
def bigRoot : Bytes :=
  [88, 58, 210, 248, 198, 68, 148, 187, 215, 111, 248, 212, 9, 14, 114, 68, 144, 115, 82, 144, 105,
    236, 24, 147, 166, 119, 214, 6, 66, 91, 94, 181]

def twinProof : Bytes :=
  [222, 221, 19, 219, 198, 130, 32, 55, 130, 193, 118, 128, 128, 128, 128, 128, 128, 196, 32, 130,
    193, 118, 128, 128, 128, 128, 128, 128, 128, 128, 128]

/-- SHA3-256 of the encoded `twins.rootNode`. -/
def twinRoot : Bytes :=
  [99, 18, 221, 152, 210, 14, 237, 221, 170, 58, 231, 0, 172, 205, 85, 212, 78, 174, 64, 28, 78,
    143, 197, 50, 111, 120, 127, 74, 29, 131, 51, 28]

theorem exposedUnder_twins : twins.trie.ExposedUnder (Node.pathToNibbles (asBytes "")) := by
  rw [show Node.pathToNibbles (asBytes "") = [] by decide]
  refine ⟨fun hpre => absurd hpre (by decide), fun _ _ x => ?_⟩
  show Trie.ExposedUnder (if x = 0 then .leaf [3, 7] [0xc1, 0x76] else if x = 7
    then .leaf [] [0xc1, 0x76] else .blank) []
  split_ifs <;> trivial

/-- A key with the number `2^64` is refused, and so is one of the two orders of `7` and `07`. -/
theorem not_provesRange :
    (NumberedTrie (singleRlp bigProof (singleNode bigKey) bigRoot) bigProof bigRoot
      (singleNode bigKey)
        (singleTrie bigKey) "" ∧
      ¬ ProvesRange (singleRlp bigProof (singleNode bigKey) bigRoot) bigProof bigRoot
        (singleTrie bigKey) "" none none [(bigKey, some "v")]) ∧
    NumberedTrie (singleRlp twinProof twins.rootNode twinRoot) twinProof twinRoot twins.rootNode
      twins.trie "" ∧
      ¬ ProvesRange (singleRlp twinProof twins.rootNode twinRoot) twinProof twinRoot twins.trie
        "" none none [("7", some "v"), ("07", some "v")] := by
  have hbigVerdict : matchesRange "" none none [(bigKey, some "v")] [(bigKey, "v")] = false := by
    decide
  have hbig : NumberedTrie (singleRlp bigProof (singleNode bigKey) bigRoot) bigProof bigRoot
      (singleNode bigKey) (singleTrie bigKey) "" := numberedTrie_singleTrie suffixNumber_bigKey
  have htwin : NumberedTrie (singleRlp twinProof twins.rootNode twinRoot) twinProof twinRoot
      twins.rootNode twins.trie "" :=
    twins.numberedTrie (suffixNumber_twin (.inl rfl)) (suffixNumber_twin (.inr rfl))
  refine ⟨⟨hbig, ?_⟩, htwin, ?_⟩
  · exact not_provesRange_of_verdict hbig (keyed_singleTrie suffixNumber_bigKey) hbigVerdict trivial
      (isRange_singleTrie suffixNumber_bigKey)
  · exact not_provesRange_of_verdict htwin keyed_twins matchesRange_twin exposedUnder_twins
      isRange_twins

end Samples

end SimpleAsset.Indy
