import SimpleAsset.Indy.StateProof.Enumeration

/-! Reading the nodes of a proof from bytes (`Decodable for Node`), and what `_verify_proof` and
`_verify_proof_range` do with any bytes. -/
namespace SimpleAsset.Indy
open SimpleAsset.Library

/-- `rlp::DecoderError`: a message of the decoder here, or an error of the crate. -/
inductive DecoderError
  | custom (message : String)
  | crate
  deriving DecidableEq, Repr

/-- `rlp::Prototype`. -/
inductive Prototype
  | null
  | data (size : ℕ)
  | list (count : ℕ)
  deriving DecidableEq, Repr

/-- `rlp::UntrustedRlp` on its bytes: items are shorter than the list they are in, and data has the
size that its prototype says. -/
structure UntrustedRlp where
  prototype : Bytes → Except DecoderError Prototype
  item : Bytes → ℕ → Except DecoderError Bytes
  /-- `as_val` at `Vec<u8>` -/
  asVec : Bytes → Except DecoderError Bytes
  isEmpty : Bytes → Bool
  iter : Bytes → List Bytes
  item_length : ∀ b i c, item b i = .ok c → c.length < b.length
  asVec_length : ∀ b n v, prototype b = .ok (.data n) → asVec b = .ok v → v.length = n

inductive DecodeFault
  | error (e : DecoderError)
  | panic (p : Panic)
  deriving DecidableEq, Repr

namespace UntrustedRlp

/-- The `?` of the decoder. -/
def tried {α : Type} : Except DecoderError α → Except DecodeFault α
  | .ok a => .ok a
  | .error e => .error (.error e)

@[simp] theorem tried_ok {α : Type} (a : α) : tried (.ok a) = .ok a := rfl

@[simp] theorem tried_error {α : Type} (e : DecoderError) :
    tried (.error e : Except DecoderError α) = .error (.error e) :=
  rfl

variable (U : UntrustedRlp)

/-- `at`, with the reason why a walk through the items ends. -/
def itemBelow (b : Bytes) (i : ℕ) : Except DecodeFault {c : Bytes // c.length < b.length} :=
  match h : U.item b i with
  | .ok c => .ok ⟨c, U.item_length b i c h⟩
  | .error e => .error (.error e)

/-- The value of a full node, its last item. -/
def fullValue (last : Bytes) : Except DecodeFault (Option Bytes) :=
  if U.isEmpty last then .ok none else (tried (U.asVec last)).map some

/-- `Decodable for Node`. -/
def decode (b : Bytes) : Except DecodeFault Node := do
  match ← tried (U.prototype b) with
  | .list 2 =>
    match ← tried (U.asVec (← U.itemBelow b 0).1) with
    | [] => .error (.panic .outOfBounds)
    | flags :: path =>
      if flags &&& 0x20 = 0x20 then
        return .leaf (flags :: path) (← tried (U.asVec (← U.itemBelow b 1).1))
      else if flags &&& 0x20 = 0x00 then
        let next ← U.itemBelow b 1
        return .extension (flags :: path) (← decode next.1)
      else .error (.error (.custom "Path contains incorrect flags byte"))
  | .list 17 =>
    let nodes ← (List.finRange 16).mapM fun i => do
      let cur ← U.itemBelow b i.val
      match ← tried (U.prototype cur.1) with
      | .data 0 => return none
      | _ => return some (← decode cur.1)
    let value ← U.fullValue (← U.itemBelow b 16).1
    return .full (fun x => nodes[x.val]?.join) value
  | .data 32 => return .hash (← tried (U.asVec b))
  | .data 0 => return .blank
  | _ => .error (.error (.custom "Unexpected data"))
termination_by b.length
decreasing_by
  · exact next.2
  · exact cur.2

/-- The bytes of a node: a list of two or 17 items, a hash or nothing. -/
inductive Encodes : Bytes → Node → Prop
  | leaf {b c d value path : Bytes} {flags : UInt8} (hlist : U.prototype b = .ok (.list 2))
      (hfirst : U.item b 0 = .ok c)
      (hpath : U.asVec c = .ok (flags :: path)) (hflags : flags &&& 0x20 = 0x20)
      (hsecond : U.item b 1 = .ok d)
      (hvalue : U.asVec d = .ok value) : Encodes b (.leaf (flags :: path) value)
  | extension {b c d path : Bytes} {flags : UInt8} {next : Node}
      (hlist : U.prototype b = .ok (.list 2))
      (hfirst : U.item b 0 = .ok c) (hpath : U.asVec c = .ok (flags :: path))
      (hflags : flags &&& 0x20 = 0)
      (hsecond : U.item b 1 = .ok d) (hnext : Encodes d next) : Encodes b
      (.extension (flags :: path) next)
  | full {b last : Bytes} {children : Nibble → Bytes} {nodes : Nibble → Option Node}
      {value : Option Bytes} (hlist : U.prototype b = .ok (.list 17))
      (hitem : ∀ x : Nibble, U.item b x.val = .ok (children x))
      (hnone : ∀ x, nodes x = none ↔ U.prototype (children x) = .ok (.data 0))
      (hsome : ∀ x n, nodes x = some n → Encodes (children x) n) (hlast : U.item b 16 = .ok last)
      (hempty : U.isEmpty last = true → value = none)
      (hvalue : U.isEmpty last = false → ∃ v, value = some v ∧ U.asVec last = .ok v) : Encodes b
      (.full nodes value)
  | hash {b h : Bytes} (hdata : U.prototype b = .ok (.data 32)) (hhash : U.asVec b = .ok h) :
      Encodes b (.hash h)
  | blank {b : Bytes} (hdata : U.prototype b = .ok (.data 0)) : Encodes b .blank

/-- A child of a full node that can be read: empty data, or a node. -/
def ChildEncodes (b : Bytes) (x : Nibble) : Prop :=
  ∃ c, U.item b x.val = .ok c ∧ (U.prototype c = .ok (.data 0) ∨ ∃ n, U.Encodes c n)

/-- Reading comes to a pair with an empty path, all before being well formed. -/
inductive EmptyPair : Bytes → Prop
  | here {b c : Bytes} (hlist : U.prototype b = .ok (.list 2)) (hfirst : U.item b 0 = .ok c)
      (hpath : U.asVec c = .ok []) : EmptyPair b
  | extension {b c d path : Bytes} {flags : UInt8} (hlist : U.prototype b = .ok (.list 2))
      (hfirst : U.item b 0 = .ok c) (hpath : U.asVec c = .ok (flags :: path))
      (hflags : flags &&& 0x20 = 0)
      (hsecond : U.item b 1 = .ok d) (hnext : EmptyPair d) : EmptyPair b
  | full {b c : Bytes} {x : Nibble} (hlist : U.prototype b = .ok (.list 17))
      (hbefore : ∀ y < x, U.ChildEncodes b y)
      (hitem : U.item b x.val = .ok c) (hdata : U.prototype c ≠ .ok (.data 0))
      (hchild : EmptyPair c) : EmptyPair b

variable {U}

theorem itemBelow_eq {b c : Bytes} {i : ℕ} (h : U.item b i = .ok c) :
    U.itemBelow b i = .ok ⟨c, U.item_length b i c h⟩ := by
  unfold itemBelow
  split
  · rename_i c' hc'
    obtain rfl := Except.ok.inj (hc'.symm.trans h)
    rfl
  · rename_i e he
    rw [h] at he
    cases he

theorem itemBelow_error {b : Bytes} {i : ℕ} {e : DecoderError} (h : U.item b i = .error e) :
    U.itemBelow b i = .error (.error e) := by
  unfold itemBelow
  split
  · rename_i c hc
    rw [h] at hc
    cases hc
  · rename_i e' he'
    obtain rfl := Except.error.inj (he'.symm.trans h)
    rfl

variable (U) in
/-- A child of a full node, absent where its data are empty. -/
def decodeChild (b : Bytes) (i : Nibble) : Except DecodeFault (Option Node) := do
  let cur ← U.itemBelow b i.val
  match ← tried (U.prototype cur.1) with
  | .data 0 => return none
  | _ => return some (← U.decode cur.1)

theorem decodeChild_empty {b c : Bytes} {i : Nibble} (h : U.item b i.val = .ok c)
    (hdata : U.prototype c = .ok (.data 0)) :
    U.decodeChild b i = .ok none := by
  rw [decodeChild, itemBelow_eq h]
  simp [hdata]

theorem decodeChild_node {b c : Bytes} {i : Nibble} {p : Prototype} (h : U.item b i.val = .ok c)
    (hproto : U.prototype c = .ok p) (hdata : p ≠ .data 0) :
    U.decodeChild b i = (U.decode c).map some := by
  rw [decodeChild, itemBelow_eq h]
  simp only [except_ok_bind, hproto, tried_ok]
  cases U.decode c <;> rfl

theorem decode_full {b : Bytes} (hlist : U.prototype b = .ok (.list 17)) :
    U.decode b = (do
      let nodes ← (List.finRange 16).mapM (U.decodeChild b)
      let value ← U.fullValue (← U.itemBelow b 16).1
      return .full (fun x => nodes[x.val]?.join) value) := by
  rw [decode]
  simp only [hlist, tried_ok, except_ok_bind]
  rfl

theorem decode_pair {b c : Bytes} (hlist : U.prototype b = .ok (.list 2))
    (hfirst : U.item b 0 = .ok c) :
    U.decode b = (do
      match ← tried (U.asVec c) with
      | [] => .error (.panic .outOfBounds)
      | flags :: path =>
        if flags &&& 0x20 = 0x20 then
          return .leaf (flags :: path) (← tried (U.asVec (← U.itemBelow b 1).1))
        else if flags &&& 0x20 = 0x00 then
          return .extension (flags :: path) (← U.decode (← U.itemBelow b 1).1)
        else .error (.error (.custom "Path contains incorrect flags byte"))) := by
  rw [decode]
  simp only [hlist, tried_ok, except_ok_bind, itemBelow_eq hfirst]

/-- A byte with the leaf flag or without it. -/
theorem flags_cases (flags : UInt8) : flags &&& 0x20 = 0x20 ∨ flags &&& 0x20 = 0 := by
  have hall : ∀ n : Fin 256, UInt8.ofNat n.val &&& 0x20 = 0x20 ∨
      UInt8.ofNat n.val &&& 0x20 = 0 := by decide +kernel
  have h := hall ⟨flags.toNat, flags.toNat_lt⟩
  rwa [UInt8.ofNat_toNat] at h

theorem Encodes.prototype {b : Bytes} {node : Node} (h : U.Encodes b node) :
    ∃ p, U.prototype b = .ok p := by
  cases h with
  | leaf hlist => exact ⟨_, hlist⟩
  | extension hlist => exact ⟨_, hlist⟩
  | full hlist => exact ⟨_, hlist⟩
  | hash hdata => exact ⟨_, hdata⟩
  | blank hdata => exact ⟨_, hdata⟩

theorem decodeChild_eq {b c : Bytes} {x : Nibble} {r : Except DecodeFault Node}
    (hitem : U.item b x.val = .ok c)
    (hdata : U.prototype c ≠ .ok (.data 0)) (hproto : ∃ p, U.prototype c = .ok p)
    (h : U.decode c = r) :
    U.decodeChild b x = r.map some := by
  obtain ⟨p, hp⟩ := hproto
  have hne : p ≠ .data 0 := by
    rintro rfl
    exact hdata hp
  rw [decodeChild_node hitem hp hne, h]

theorem fullValue_eq {last : Bytes} {value : Option Bytes}
    (hempty : U.isEmpty last = true → value = none)
    (hvalue : U.isEmpty last = false → ∃ v, value = some v ∧ U.asVec last = .ok v) :
    U.fullValue last = .ok value := by
  rw [fullValue]
  rcases h : U.isEmpty last with _ | _
  · obtain ⟨v, rfl, hv⟩ := hvalue h
    rw [hv]
    rfl
  · rw [hempty h]
    rfl

/-- A well-formed node is read, and what is read is sound. -/
theorem Encodes.decode {b : Bytes} {node : Node} (h : U.Encodes b node) :
    U.decode b = .ok node ∧ node.Sound := by
  induction h with
  | @leaf b c d value path flags hlist hfirst hpath hflags hsecond hvalue =>
    constructor
    · rw [decode_pair hlist hfirst, hpath]
      simp [hflags, itemBelow_eq hsecond, hvalue]
    · have hparse : Node.parsePath (flags :: path) = .ok (true, if flags &&& 0x10 == 0x10
          then Node.lowNibble flags :: Node.pathToNibbles path else Node.pathToNibbles path) := by
        simp [Node.parsePath, hflags]
      exact .leaf hparse
  | @extension b c d path flags next hlist hfirst hpath hflags hsecond hnext ih =>
    obtain ⟨hdecode, hsound⟩ := ih
    constructor
    · rw [decode_pair hlist hfirst, hpath]
      simp [hflags, itemBelow_eq hsecond, hdecode]
    · have hparse : Node.parsePath (flags :: path) = .ok (false, if flags &&& 0x10 == 0x10
          then Node.lowNibble flags :: Node.pathToNibbles path else Node.pathToNibbles path) := by
        simp [Node.parsePath, hflags]
      exact .extension hparse hsound
  | @full b last children nodes value hlist hitem hnone hsome hlast hempty hvalue ih =>
    have hnodes : ∀ x : Nibble, U.decodeChild b x = .ok (nodes x) := by
      intro x
      rcases hx : nodes x with _ | n
      · exact decodeChild_empty (hitem x) ((hnone x).mp hx)
      · have hdata : U.prototype (children x) ≠ .ok (.data 0) := by
          intro hdata
          rw [(hnone x).mpr hdata] at hx
          cases hx
        exact decodeChild_eq (hitem x) hdata (hsome x n hx).prototype (ih x n hx).1
    have hfun : (fun x : Nibble => ((List.finRange 16).map nodes)[x.val]?.join) = nodes := by
      funext x
      simp
    constructor
    · rw [decode_full hlist, mapM_eq_ok_map fun x _ =>
        hnodes x, except_ok_bind, itemBelow_eq hlast, except_ok_bind,
        fullValue_eq hempty hvalue, except_ok_bind, hfun]
      rfl
    · exact .full fun x n hx => (ih x n hx).2
  | @hash b h hdata hhash =>
    refine ⟨?_, .hash (U.asVec_length b 32 h hdata hhash)⟩
    rw [UntrustedRlp.decode]
    simp [hdata, hhash]
  | @blank b hdata =>
    refine ⟨?_, .blank⟩
    rw [UntrustedRlp.decode]
    simp [hdata]

theorem ChildEncodes.decodeChild {b : Bytes} {x : Nibble} (h : U.ChildEncodes b x) :
    ∃ child, U.decodeChild b x = .ok child := by
  obtain ⟨c, hitem, hc⟩ := h
  by_cases hdata : U.prototype c = .ok (.data 0)
  · exact ⟨none, decodeChild_empty hitem hdata⟩
  · obtain ⟨n, hn⟩ := hc.resolve_left hdata
    exact ⟨some n, decodeChild_eq hitem hdata hn.prototype hn.decode.1⟩

/-- A full node fails as the first of its children that does. -/
theorem decode_full_error {b : Bytes} {before after : List Nibble} {x : Nibble} {e : DecodeFault}
    (hlist : U.prototype b = .ok (.list 17)) (hsplit : List.finRange 16 = before ++ x :: after)
    (hbefore : ∀ y ∈ before, ∃ child, U.decodeChild b y = .ok child)
    (hx : U.decodeChild b x = .error e) :
    U.decode b = .error e := by
  rw [decode_full hlist, mapM_eq_error hsplit hbefore hx, except_error_bind]

theorem lt_of_mem_before {before after : List Nibble} {x : Nibble}
    (hsplit : List.finRange 16 = before ++ x :: after) {y : Nibble} : y ∈ before ↔ y < x := by
  have hsorted := List.pairwise_lt_finRange 16
  rw [hsplit, List.pairwise_append] at hsorted
  obtain ⟨-, hafter, hacross⟩ := hsorted
  constructor
  · intro hy
    exact hacross y hy x (by simp)
  · intro hlt
    have hmem : y ∈ before ++ x :: after := hsplit ▸ List.mem_finRange y
    rcases List.mem_append.mp hmem with h | h
    · exact h
    · rcases List.mem_cons.mp h with rfl | hy
      · exact absurd hlt (lt_irrefl _)
      · exact absurd hlt (lt_asymm ((List.pairwise_cons.mp hafter).1 y hy))

theorem decodeChild_error {b c : Bytes} {x : Nibble} {fault : DecodeFault}
    (hitem : U.item b x.val = .ok c)
    (hdata : U.prototype c ≠ .ok (.data 0)) (h : U.decode c = .error fault) :
    U.decodeChild b x = .error fault := by
  rcases hproto : U.prototype c with e | p
  · have hfault : .error e = fault := by
      rw [decode, hproto, tried_error, except_error_bind] at h
      exact Except.error.inj h
    rw [decodeChild, itemBelow_eq hitem, except_ok_bind, hproto, tried_error,
      except_error_bind, hfault]
  · have hne : p ≠ .data 0 := by
      rintro rfl
      exact hdata hproto
    rw [decodeChild_node hitem hproto hne, h]
    rfl

/-- At an empty path the decoder indexes out of bounds. -/
theorem EmptyPair.decode {b : Bytes} (h : U.EmptyPair b) :
    U.decode b = .error (.panic .outOfBounds) := by
  induction h with
  | @here b c hlist hfirst hpath =>
    rw [decode_pair hlist hfirst, hpath]
    rfl
  | @extension b c d path flags hlist hfirst hpath hflags hsecond hnext ih =>
    rw [decode_pair hlist hfirst, hpath]
    simp [hflags, itemBelow_eq hsecond, ih]
  | @full b c x hlist hbefore hitem hdata hchild ih =>
    obtain ⟨before, after, hsplit⟩ := List.append_of_mem (List.mem_finRange x)
    refine decode_full_error hlist hsplit ?_ ?_
    · intro y hy
      exact (hbefore y ((lt_of_mem_before hsplit).mp hy)).decodeChild
    · exact decodeChild_error hitem hdata ih

variable (U) in
/-- Bytes are a node, lead to an empty path, or are refused. -/
def Told (b : Bytes) : Prop :=
  (∃ node, U.Encodes b node) ∨ U.EmptyPair b ∨ ∃ e, U.decode b = .error (.error e)

theorem decodeChild_cases {b : Bytes} (x : Nibble) (htold : ∀ c, c.length < b.length → U.Told c) :
    U.ChildEncodes b x ∨
    (∃ c, U.item b x.val = .ok c ∧ U.prototype c ≠ .ok (.data 0) ∧ U.EmptyPair c) ∨
      ∃ e, U.decodeChild b x = .error (.error e) := by
  rcases hitem : U.item b x.val with e | c
  · refine .inr (.inr ⟨e, ?_⟩)
    rw [decodeChild, itemBelow_error hitem, except_error_bind]
  · by_cases hdata : U.prototype c = .ok (.data 0)
    · exact .inl ⟨c, hitem, .inl hdata⟩
    · rcases htold c (U.item_length b x.val c hitem) with hencodes | hempty | ⟨e, he⟩
      · exact .inl ⟨c, hitem, .inr hencodes⟩
      · exact .inr (.inl ⟨c, rfl, hdata, hempty⟩)
      · exact .inr (.inr ⟨e, decodeChild_error hitem hdata he⟩)

/-- Children that can all be read, with the last item, make a full node. -/
theorem encodes_full {b last : Bytes} {value : Option Bytes}
    (hlist : U.prototype b = .ok (.list 17))
    (hchildren : ∀ x, U.ChildEncodes b x) (hlast : U.item b 16 = .ok last)
    (hempty : U.isEmpty last = true → value = none)
    (hvalue : U.isEmpty last = false → ∃ v, value = some v ∧ U.asVec last = .ok v) :
    ∃ node, U.Encodes b node := by
  choose children hitem hchild using hchildren
  have hnodes : ∀ x, ∃ child : Option Node,
      (child = none ↔ U.prototype (children x) = .ok (.data 0)) ∧
      ∀ n, child = some n → U.Encodes (children x) n := by
    intro x
    by_cases hdata : U.prototype (children x) = .ok (.data 0)
    · exact ⟨none, iff_of_true rfl hdata, fun n hn => by cases hn⟩
    · obtain ⟨n, hn⟩ := (hchild x).resolve_left hdata
      refine ⟨some n, iff_of_false (by simp) hdata, ?_⟩
      rintro n' ⟨⟩
      exact hn
  choose nodes hnone hsome using hnodes
  exact ⟨.full nodes value, .full hlist hitem hnone hsome hlast hempty hvalue⟩

theorem decode_full_cases {b : Bytes} (hlist : U.prototype b = .ok (.list 17))
    (htold : ∀ c, c.length < b.length → U.Told c) : U.Told b := by
  have hwell : ∀ x : Nibble, (∃ child, U.decodeChild b x = .ok child) → U.ChildEncodes b x := by
    intro x hx
    obtain ⟨child, hchild⟩ := hx
    rcases decodeChild_cases x htold with hok | ⟨c, hitem, hdata, hempty⟩ | ⟨e, he⟩
    · exact hok
    · rw [decodeChild_error hitem hdata hempty.decode] at hchild
      cases hchild
    · rw [he] at hchild
      cases hchild
  rcases mapM_cases (List.finRange 16) (U.decodeChild b)
    with hall | ⟨before, x, after, fault, hsplit, hbefore, hx⟩
  · have hchildren : ∀ x : Nibble, U.ChildEncodes b x :=
      fun x => hwell x (hall x (List.mem_finRange x))
    obtain ⟨nodes, hnodes⟩ := exists_mapM_eq_ok hall
    rcases hlast : U.item b 16 with e | last
    · refine .inr (.inr ⟨e, ?_⟩)
      rw [decode_full hlist, hnodes, except_ok_bind, itemBelow_error hlast, except_error_bind]
    rcases hempty : U.isEmpty last with _ | _
    · rcases hvalue : U.asVec last with e | value
      · refine .inr (.inr ⟨e, ?_⟩)
        rw [decode_full hlist, hnodes, except_ok_bind, itemBelow_eq hlast, except_ok_bind,
          fullValue, hempty, hvalue]
        rfl
      · exact .inl (encodes_full hlist hchildren hlast (fun h => by rw [hempty] at h; cases h)
          fun _ => ⟨value, rfl, hvalue⟩)
    · exact .inl
        (encodes_full hlist hchildren hlast (fun _ => rfl) fun h => by rw [hempty] at h; cases h)
  · rcases decodeChild_cases x htold with hencodes | ⟨c, hitem, hdata, hempty⟩ | ⟨e, he⟩
    · obtain ⟨child, hchild⟩ := hencodes.decodeChild
      rw [hchild] at hx
      cases hx
    · refine .inr (.inl (.full hlist ?_ hitem hdata hempty))
      intro y hy
      exact hwell y (hbefore y ((lt_of_mem_before hsplit).mpr hy))
    · exact .inr (.inr ⟨e, decode_full_error hlist hsplit hbefore he⟩)

theorem told (b : Bytes) : U.Told b := by
  induction hn : b.length using Nat.strong_induction_on generalizing b with
  | _ n ih =>
  have hbelow : ∀ c, c.length < b.length → U.Told c := by
    intro c hc
    exact ih c.length (hn ▸ hc) c rfl
  rcases hproto : U.prototype b with e | p
  · refine .inr (.inr ⟨e, ?_⟩)
    rw [decode, hproto]
    rfl
  by_cases hpair : p = .list 2
  · subst hpair
    rcases hfirst : U.item b 0 with e | c
    · refine .inr (.inr ⟨e, ?_⟩)
      rw [decode]
      simp [hproto, itemBelow_error hfirst]
    rcases hpath : U.asVec c with e | _ | ⟨flags, path⟩
    · refine .inr (.inr ⟨e, ?_⟩)
      rw [decode_pair hproto hfirst, hpath]
      rfl
    · exact .inr (.inl (.here hproto hfirst hpath))
    rcases hsecond : U.item b 1 with e | d
    · refine .inr (.inr ⟨e, ?_⟩)
      rw [decode_pair hproto hfirst, hpath]
      rcases flags_cases flags with hflags | hflags <;> simp [hflags, itemBelow_error hsecond]
    rcases flags_cases flags with hflags | hflags
    · rcases hvalue : U.asVec d with e | value
      · refine .inr (.inr ⟨e, ?_⟩)
        rw [decode_pair hproto hfirst, hpath]
        simp [hflags, itemBelow_eq hsecond, hvalue]
      · exact .inl ⟨.leaf (flags :: path) value, .leaf hproto hfirst hpath hflags hsecond hvalue⟩
    · rcases hbelow d (U.item_length b 1 d hsecond) with ⟨next, hnext⟩ | hempty | ⟨e, he⟩
      · exact .inl
          ⟨.extension (flags :: path) next, .extension hproto hfirst hpath hflags hsecond hnext⟩
      · exact .inr (.inl (.extension hproto hfirst hpath hflags hsecond hempty))
      · refine .inr (.inr ⟨e, ?_⟩)
        rw [decode_pair hproto hfirst, hpath]
        simp [hflags, itemBelow_eq hsecond, he]
  by_cases hfull : p = .list 17
  · subst hfull
    exact decode_full_cases hproto hbelow
  by_cases hhash : p = .data 32
  · subst hhash
    rcases hvec : U.asVec b with e | h
    · refine .inr (.inr ⟨e, ?_⟩)
      rw [decode]
      simp [hproto, hvec]
    · exact .inl ⟨.hash h, .hash hproto hvec⟩
  by_cases hblank : p = .data 0
  · subst hblank
    exact .inl ⟨.blank, .blank hproto⟩
  · refine .inr (.inr ⟨.custom "Unexpected data", ?_⟩)
    rw [decode]
    simp only [hproto, tried_ok, except_ok_bind]

end UntrustedRlp

end SimpleAsset.Indy
