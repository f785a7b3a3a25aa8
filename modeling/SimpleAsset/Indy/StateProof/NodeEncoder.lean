import Mathlib.Data.Fintype.Basic
import Mathlib.Tactic.FinCases
import SimpleAsset.Indy.StateProof.ProofSafety

/-! Writing a node (`Encodable for Node`), and reading it again. -/
namespace SimpleAsset.Indy
open SimpleAsset.Library

/-- What is appended to an `RlpStream`. -/
inductive RlpItem
  | data (bytes : Bytes)
  | list (items : List RlpItem)

namespace Node

def valueItem : Option Bytes → RlpItem
  | some value => .data value
  | none => .data []

mutual

/-- `rlp_append`. -/
def rlpAppend : Node → RlpItem
  | .hash h => .data h
  | .leaf path value => .list [.data path, .data value]
  | .extension path next => .list [.data path, rlpAppend next]
  | .full nodes value =>
    .list ((List.finRange 16).map (fun x => childItem (nodes x)) ++ [valueItem value])
  | .blank => .data []

/-- A child of a full node. -/
def childItem : Option Node → RlpItem
  | some node => rlpAppend node
  | none => .data []

end

/-- `get_hash`, by what the stream writes and SHA3-256. -/
def getHash (write : RlpItem → Bytes) (sha3 : Bytes → Bytes) (node : Node) : Bytes :=
  sha3 (write node.rlpAppend)

end Node

namespace UntrustedRlp

/-- What the crate writes for an item is read as the item. -/
inductive ReadsBack (U : UntrustedRlp) (write : RlpItem → Bytes) : RlpItem → Prop
  | data {v : Bytes} (hproto : U.prototype (write (.data v)) = .ok (.data v.length))
      (hvec : U.asVec (write (.data v)) = .ok v)
      (hempty : U.isEmpty (write (.data v)) = v.isEmpty) :
    ReadsBack U write (.data v)
  | list {items : List RlpItem}
      (hproto : U.prototype (write (.list items)) = .ok (.list items.length))
      (hitem : ∀ i c, items[i]? = some c → U.item (write (.list items)) i = .ok (write c))
      (hitems : ∀ c ∈ items, ReadsBack U write c) : ReadsBack U write (.list items)

/-- `is_empty` misses no empty data. -/
def TellsEmpty (U : UntrustedRlp) : Prop := ∀ b v, U.isEmpty b = false → U.asVec b = .ok v → v ≠ []

variable {U : UntrustedRlp} {write : RlpItem → Bytes} {b : Bytes} {node : Node}

theorem ReadsBack.prototype_data {v : Bytes} (h : U.ReadsBack write (.data v)) :
    U.prototype (write (.data v)) = .ok (.data v.length) := by
  cases h with
  | data hproto => exact hproto

theorem ReadsBack.asVec_data {v : Bytes} (h : U.ReadsBack write (.data v)) :
    U.asVec (write (.data v)) = .ok v := by
  cases h with
  | data _ hvec => exact hvec

theorem ReadsBack.isEmpty_data {v : Bytes} (h : U.ReadsBack write (.data v)) :
    U.isEmpty (write (.data v)) = v.isEmpty := by
  cases h with
  | data _ _ hempty => exact hempty

/-- Only a blank node is written as empty data. -/
theorem Encodes.eq_blank (h : U.Encodes b node) (hdata : U.prototype b = .ok (.data 0)) :
    node = .blank := by
  cases h with
  | leaf hlist => cases hlist.symm.trans hdata
  | extension hlist => cases hlist.symm.trans hdata
  | full hlist => cases hlist.symm.trans hdata
  | hash hhash => cases hhash.symm.trans hdata
  | blank => rfl

theorem getElem?_children (nodes : Nibble → Option Node) (value : Option Bytes) (x : Nibble) :
    ((List.finRange 16).map (fun x => Node.childItem (nodes x)) ++ [Node.valueItem value])[x.val]? =
      some (Node.childItem (nodes x)) := by
  rw [List.getElem?_append_left (by simp), List.getElem?_map, List.getElem?_eq_getElem (by simp),
    Option.map_some, List.getElem_finRange]
  rfl

theorem getElem?_value (nodes : Nibble → Option Node) (value : Option Bytes) :
    ((List.finRange 16).map (fun x => Node.childItem (nodes x)) ++ [Node.valueItem value])[16]? =
      some (Node.valueItem value) := by
  rw [List.getElem?_append_right (by simp)]
  simp

/-- A node that was read is read again from what is written for it. -/
theorem Encodes.rlpAppend (hU : U.TellsEmpty) (h : U.Encodes b node)
    (hback : U.ReadsBack write node.rlpAppend) :
    U.Encodes (write node.rlpAppend) node := by
  induction h with
  | @leaf b c d value path flags hlist hfirst hpath hflags hsecond hvalue =>
    rw [Node.rlpAppend] at hback ⊢
    cases hback with
    | list hproto hitem hitems =>
      exact .leaf hproto (hitem 0 _ rfl)
        (hitems (.data (flags :: path)) (by simp)).asVec_data hflags (hitem 1 _ rfl)
        (hitems (.data value) (by simp)).asVec_data
  | @extension b c d path flags next hlist hfirst hpath hflags hsecond hnext ih =>
    rw [Node.rlpAppend] at hback ⊢
    cases hback with
    | list hproto hitem hitems =>
      exact .extension hproto (hitem 0 _ rfl)
        (hitems (.data (flags :: path)) (by simp)).asVec_data hflags
        (hitem 1 _ rfl) (ih (hitems next.rlpAppend (by simp)))
  | @full b last children nodes value hlist hitem hnone hsome hlast hempty hvalue ih =>
    rw [Node.rlpAppend] at hback ⊢
    cases hback with
    | list hproto hitem' hitems =>
      have hchild : ∀ x, U.ReadsBack write (Node.childItem (nodes x)) := fun x =>
        hitems _ (List.mem_append_left _ (List.mem_map_of_mem (List.mem_finRange x)))
      have hencodes : ∀ x n, nodes x = some n → U.Encodes (write (Node.childItem (nodes x))) n := by
        intro x n hx
        have hback := hchild x
        rw [hx, Node.childItem] at hback ⊢
        exact ih x n hx hback
      have hvalueBack : U.ReadsBack write (Node.valueItem value) :=
        hitems _ (List.mem_append_right _ List.mem_cons_self)
      refine .full (by simpa using hproto)
        (fun x => hitem' x.val _ (getElem?_children nodes value x)) ?_ hencodes
        (hitem' 16 _ (getElem?_value nodes value)) ?_ ?_
      · intro x
        rcases hx : nodes x with _ | n
        · have hdata := hchild x
          rw [hx, Node.childItem] at hdata
          exact iff_of_true rfl hdata.prototype_data
        · -- a child that is written as empty data would be blank, and was not read as a child
          refine iff_of_false (by simp) fun hdata => ?_
          rw [← hx] at hdata
          obtain rfl := (hencodes x n hx).eq_blank hdata
          cases hsome x _ hx with
          | blank hread => rw [(hnone x).mpr hread] at hx; cases hx
      · intro hisEmpty
        rcases hlastEmpty : U.isEmpty last with _ | _
        · obtain ⟨v, rfl, hv⟩ := hvalue hlastEmpty
          rw [Node.valueItem] at hvalueBack hisEmpty
          rw [hvalueBack.isEmpty_data, List.isEmpty_iff] at hisEmpty
          exact absurd hisEmpty (hU last v hlastEmpty hv)
        · exact hempty hlastEmpty
      · intro hisEmpty
        rcases value with _ | v
        · rw [Node.valueItem] at hvalueBack hisEmpty
          rw [hvalueBack.isEmpty_data] at hisEmpty
          cases hisEmpty
        · exact ⟨v, rfl, hvalueBack.asVec_data⟩
  | @hash b h hdata hhash =>
    rw [Node.rlpAppend] at hback ⊢
    have hproto := hback.prototype_data
    rw [U.asVec_length b 32 h hdata hhash] at hproto
    exact .hash hproto hback.asVec_data
  | @blank b hdata =>
    rw [Node.rlpAppend] at hback ⊢
    exact .blank hback.prototype_data

/-- A node that was read is read again from what is written for it, so different nodes are written
differently; and their hashes differ, unless SHA3-256 collides on what is written for them. -/
theorem decode_rlpAppend (hU : U.TellsEmpty) (h : U.decode b = .ok node)
    (hback : U.ReadsBack write node.rlpAppend) :
    U.decode (write node.rlpAppend) = .ok node ∧
    ∀ b' node', U.decode b' = .ok node' → U.ReadsBack write node'.rlpAppend →
      (write node'.rlpAppend = write node.rlpAppend ↔ node' = node) ∧
      ∀ sha3, (sha3 (write node'.rlpAppend) = sha3 (write node.rlpAppend) →
        write node'.rlpAppend = write node.rlpAppend) →
        (node'.getHash write sha3 = node.getHash write sha3 ↔ node' = node) := by
  have hagain : ∀ {b node}, U.decode b = .ok node → U.ReadsBack write node.rlpAppend →
      U.decode (write node.rlpAppend) = .ok node :=
    fun h hback => ((encodes_of_decode h).rlpAppend hU hback).decode.1
  refine ⟨hagain h hback, fun b' node' h' hback' => ?_⟩
  have hinj : write node'.rlpAppend = write node.rlpAppend ↔ node' = node := by
    constructor
    · intro heq
      have hdecode := hagain h' hback'
      rw [heq, hagain h hback] at hdecode
      exact (Except.ok.inj hdecode).symm
    · rintro rfl
      rfl
  refine ⟨hinj, fun sha3 hcollision => ?_⟩
  rw [← hinj, Node.getHash, Node.getHash]
  exact ⟨hcollision, congrArg sha3⟩

mutual

/-- RLP of data and lists of up to 55 bytes. -/
def writeShort : RlpItem → Bytes
  | .data [b] => if b < 0x80 then [b] else [0x81, b]
  | .data v => UInt8.ofNat (0x80 + v.length) :: v
  | .list items => UInt8.ofNat (0xc0 + (writeItems items).length) :: writeItems items

def writeItems : List RlpItem → Bytes
  | [] => []
  | item :: items => writeShort item ++ writeItems items

end

section ShortItems

mutual

/-- Neither the item nor anything in it takes more than 55 bytes. -/
def isShort : RlpItem → Bool
  | .data v => v.length ≤ 55
  | .list items => areShort items && (writeItems items).length ≤ 55

def areShort : List RlpItem → Bool
  | [] => true
  | item :: items => isShort item && areShort items

end

/-- How many bytes the item at the front takes. -/
def frontSize (b : UInt8) : ℕ :=
  if b < 0x80 then 1 else if b < 0xc0 then b.toNat - 0x7f else b.toNat - 0xbf

/-- The first item, and those behind it. -/
def splitShort : ℕ → Bytes → List Bytes
  | fuel + 1, b :: bs =>
    (b :: bs).take (frontSize b) :: splitShort fuel ((b :: bs).drop (frontSize b))
  | _, _ => []

def shortItems : Bytes → List Bytes
  | [] => []
  | b :: payload => if b < 0xc0 then [] else splitShort payload.length payload

def shortData : Bytes → Except DecoderError Bytes
  | [b] => if b < 0x80 then .ok [b] else if b = 0x80 then .ok [] else .error .crate
  | b :: v => if 0x80 < b ∧ b < 0xc0 then .ok v else .error .crate
  | [] => .error .crate

variable {v : Bytes} {item : RlpItem} {items : List RlpItem}

theorem length_le_of_mem_splitShort {fuel : ℕ} {bs c : Bytes} (h : c ∈ splitShort fuel bs) :
    c.length ≤ bs.length := by
  induction fuel generalizing bs with
  | zero => cases h
  | succ fuel ih =>
    cases bs with
    | nil => cases h
    | cons b bs =>
      rw [splitShort] at h
      rcases List.mem_cons.mp h with rfl | hrest
      · exact List.length_take_le' _ _
      · exact (ih hrest).trans (by rw [List.length_drop]; exact Nat.sub_le _ _)

/-- A reader of RLP without items of more than 55 bytes. -/
def shortReader : UntrustedRlp where
  prototype b := match shortData b with
    | .ok v => .ok (.data v.length)
    | .error _ => .ok (.list (shortItems b).length)
  item b i := match (shortItems b)[i]? with
    | some c => .ok c
    | none => .error .crate
  asVec := shortData
  isEmpty b := b = [0x80]
  iter := shortItems
  item_length b i c h := by
    split at h
    · rename_i c' hc'
      obtain rfl := Except.ok.inj h
      have hmem := List.mem_of_getElem? hc'
      cases b with
      | nil => cases hmem
      | cons b payload =>
        rw [shortItems] at hmem
        split_ifs at hmem
        · cases hmem
        · exact Nat.lt_succ_of_le (length_le_of_mem_splitShort hmem)
    · cases h
  asVec_length b n v hproto hv := by
    rw [hv] at hproto
    simpa using hproto

theorem tellsEmpty_shortReader : shortReader.TellsEmpty := by
  rintro b v hempty hv rfl
  have hb : b ≠ [0x80] := by simpa [shortReader] using hempty
  change shortData b = .ok [] at hv
  unfold shortData at hv
  split at hv
  · split_ifs at hv with hsmall hzero
    · cases hv
    · exact hb (by rw [hzero])
  · rename_i b v hlong
    split_ifs at hv
    obtain rfl := Except.ok.inj hv
    exact hlong rfl
  · cases hv

theorem toNat_header {base n : ℕ} (hbase : base ≤ 0xc0) (hn : n ≤ 55) :
    (UInt8.ofNat (base + n)).toNat = base + n := by
  rw [UInt8.toNat_ofNat']
  omega

theorem data_header {n : ℕ} (hpos : 0 < n) (hn : n ≤ 55) :
    0x80 < UInt8.ofNat (0x80 + n) ∧ UInt8.ofNat (0x80 + n) < 0xc0 := by
  rw [UInt8.lt_iff_toNat_lt, UInt8.lt_iff_toNat_lt, toNat_header (by omega) hn]
  simp only [UInt8.reduceToNat]
  omega

theorem list_header {n : ℕ} (hn : n ≤ 55) : ¬ UInt8.ofNat (0xc0 + n) < 0xc0 := by
  rw [UInt8.lt_iff_toNat_lt, toNat_header le_rfl hn]
  simp only [UInt8.reduceToNat]
  omega

/-- What is written for data of two bytes or more. -/
theorem writeShort_data (hv : 2 ≤ v.length) :
    writeShort (.data v) = UInt8.ofNat (0x80 + v.length) :: v := by
  rw [writeShort]
  rintro b rfl
  simp at hv

theorem shortData_writeShort (hv : v.length ≤ 55) : shortData (writeShort (.data v)) = .ok v := by
  match v with
  | [] => rfl
  | [b] =>
    rw [writeShort]
    split_ifs with hsmall
    · rw [shortData, if_pos hsmall]
    · rfl
  | b :: b' :: v =>
    rw [writeShort_data (by simp), shortData, if_pos (data_header (by simp) hv)]
    simp

theorem exists_writeShort (h : isShort item = true) :
    ∃ b bs, writeShort item = b :: bs ∧ frontSize b = bs.length + 1 := by
  cases item with
  | data v =>
    have hv : v.length ≤ 55 := of_decide_eq_true h
    match v with
    | [] => exact ⟨0x80, [], rfl, rfl⟩
    | [b] =>
      rw [writeShort]
      split_ifs with hsmall
      · exact ⟨b, [], rfl, if_pos hsmall⟩
      · exact ⟨0x81, [b], rfl, by rw [List.length_singleton]; decide⟩
    | b :: b' :: v =>
      have hheader := data_header (n := (b :: b' :: v).length) (by simp) hv
      refine ⟨_, _, writeShort_data (by simp), ?_⟩
      rw [frontSize, if_neg (UInt8.not_lt.mpr (UInt8.le_of_lt hheader.1)), if_pos hheader.2,
        toNat_header (by omega) hv]
      omega
  | list items =>
    rw [isShort, Bool.and_eq_true, decide_eq_true_eq] at h
    have hheader := list_header h.2
    refine ⟨_, _, by rw [writeShort], ?_⟩
    rw [frontSize, if_neg fun hlt => hheader (UInt8.lt_trans hlt
      (show (0x80 : UInt8) < 0xc0 by decide)), if_neg hheader, toNat_header le_rfl h.2]
    omega

/-- Items that stand one behind the other are told apart. -/
theorem splitShort_writeItems (h : areShort items = true) {fuel : ℕ}
    (hfuel : (writeItems items).length ≤ fuel) :
    splitShort fuel (writeItems items) = items.map writeShort := by
  induction items generalizing fuel with
  | nil => cases fuel <;> rfl
  | cons item items ih =>
    rw [areShort, Bool.and_eq_true] at h
    obtain ⟨b, bs, hwrite, hsize⟩ := exists_writeShort h.1
    rw [writeItems, hwrite] at hfuel ⊢
    cases fuel with
    | zero => simp at hfuel
    | succ fuel =>
      have hrest : (writeItems items).length ≤ fuel := by
        simp only [List.cons_append, List.length_cons, List.length_append] at hfuel
        omega
      rw [List.cons_append, splitShort, hsize, List.take_succ_cons, List.take_left,
        List.drop_succ_cons, List.drop_left, ih h.2 hrest, List.map_cons, hwrite]

theorem shortItems_writeShort (h : isShort (.list items) = true) :
    shortItems (writeShort (.list items)) = items.map writeShort := by
  rw [isShort, Bool.and_eq_true, decide_eq_true_eq] at h
  rw [writeShort, shortItems, if_neg (list_header h.2)]
  exact splitShort_writeItems h.1 le_rfl

theorem shortData_list (h : isShort (.list items) = true) :
    shortData (writeShort (.list items)) = .error .crate := by
  rw [isShort, Bool.and_eq_true, decide_eq_true_eq] at h
  have hheader := list_header h.2
  rw [writeShort]
  generalize UInt8.ofNat (0xc0 + (writeItems items).length) = b at hheader
  cases writeItems items with
  | nil =>
    rw [shortData, if_neg fun hlt =>
      hheader (UInt8.lt_trans hlt (show (0x80 : UInt8) < 0xc0 by decide)), if_neg]
    rintro rfl
    exact hheader (by decide)
  | cons b' bs => rw [shortData, if_neg fun hdata => hheader hdata.2]; simp

mutual

/-- What is short is read back. -/
theorem readsBack_shortReader : (item : RlpItem) → isShort item = true →
    shortReader.ReadsBack writeShort item
  | .data v, h => by
    have hdata := shortData_writeShort (of_decide_eq_true h)
    refine .data ?_ hdata ?_
    · simp only [shortReader, hdata]
    · show decide (writeShort (.data v) = [0x80]) = v.isEmpty
      match v with
      | [] => rfl
      | [b] =>
        rw [writeShort]
        split_ifs with hsmall
        · simp only [List.cons.injEq, and_true, List.isEmpty_cons, decide_eq_false_iff_not]
          rintro rfl
          exact absurd hsmall (UInt8.lt_irrefl _)
        · rfl
      | b :: b' :: v =>
        rw [writeShort_data (by simp)]
        simp
  | .list items, h => by
    have hitems := shortItems_writeShort h
    refine .list ?_ ?_ (readsBack_items items ?_)
    · simp only [shortReader, shortData_list h, hitems, List.length_map]
    · intro i c hc
      simp only [shortReader, hitems, List.getElem?_map, hc, Option.map_some]
    · rw [isShort, Bool.and_eq_true] at h
      exact h.1

theorem readsBack_items : (items : List RlpItem) → areShort items = true →
    ∀ c ∈ items, shortReader.ReadsBack writeShort c
  | [], _, _, hc => by cases hc
  | item :: items, h, c, hc => by
    rw [areShort, Bool.and_eq_true] at h
    rcases List.mem_cons.mp hc with hc | hc
    · rw [hc]
      exact readsBack_shortReader item h.1
    · exact readsBack_items items h.2 c hc

end

end ShortItems

/-- A full node with a leaf in it, below an extension. -/
def inlineNode : Node :=
  .extension [0x11]
    (.full (fun x => if x.val = 3 then some nibbleLeaf else none) (some [0xc1, 0x77]))

theorem decode_inlineNode :
    shortReader.decode (writeShort inlineNode.rlpAppend) = .ok inlineNode := by
  let leaf : Bytes := [0xc4, 0x31, 0x82, 0xc1, 0x76]
  let full : Bytes :=
    0xd7 :: (List.replicate 3 0x80 ++ leaf ++ List.replicate 12 0x80 ++ [0x82, 0xc1, 0x77])
  have hleaf : shortReader.Encodes leaf nibbleLeaf := by
    refine .leaf (c := [0x31]) (d := [0x82, 0xc1, 0x76]) ?_ ?_ ?_ ?_ ?_ ?_ <;> rfl
  have hwrite : writeShort inlineNode.rlpAppend = 0xd9 :: 0x11 :: full := by decide
  rw [hwrite]
  have hitem : ∀ x : Nibble,
      shortReader.item full x.val = .ok (if x.val = 3 then leaf else [0x80]) := by
    intro x
    fin_cases x <;> rfl
  have hlast : shortReader.item full 16 = .ok [0x82, 0xc1, 0x77] := rfl
  have hfull : shortReader.Encodes full
      (.full (fun x => if x.val = 3 then some nibbleLeaf else none) (some [0xc1, 0x77])) := by
    refine .full rfl hitem ?_ ?_ hlast ?_ ?_
    · intro x
      by_cases hx : x.val = 3
      · simp only [hx, if_true]
        exact iff_of_false (by simp) (by decide)
      · simp only [hx, if_false]
        exact iff_of_true trivial rfl
    · intro x n hx
      split_ifs at hx ⊢
      obtain rfl := Option.some.inj hx
      exact hleaf
    · intro hempty
      cases hempty
    · intro _
      exact ⟨_, rfl, rfl⟩
  exact (Encodes.extension (c := [0x11]) (d := full) rfl rfl rfl rfl rfl hfull).decode.1

theorem decode_rlpAppend_inlineNode :
    shortReader.decode (writeShort inlineNode.rlpAppend) = .ok inlineNode ∧
    ∀ b' node', shortReader.decode b' = .ok node' →
      shortReader.ReadsBack writeShort node'.rlpAppend →
      (writeShort node'.rlpAppend = writeShort inlineNode.rlpAppend ↔ node' = inlineNode) ∧
      ∀ sha3, (sha3 (writeShort node'.rlpAppend) = sha3 (writeShort inlineNode.rlpAppend) →
        writeShort node'.rlpAppend = writeShort inlineNode.rlpAppend) →
        (node'.getHash writeShort sha3 = inlineNode.getHash writeShort sha3 ↔ node' = inlineNode) :=
  decode_rlpAppend tellsEmpty_shortReader decode_inlineNode
    (readsBack_shortReader _ (by decide))

end UntrustedRlp

end SimpleAsset.Indy
