import Mathlib.Data.List.Nodup
import SimpleAsset.Indy.StateProof.Lookup
import SimpleAsset.Indy.StateProof.RangeProof

/-! The values under a prefix: what the code collects from the nodes of a proof is what their trie
holds. -/
namespace SimpleAsset.Indy
open SimpleAsset.Library

/-- The values of a trie, as the code reads them. -/
def enumerate (R : Rlp) : Trie Nibble Bytes → List Nibble → Outcome (List (List Nibble × String))
  | .blank, _ => .ok []
  | .leaf path value, seen => Node.leafValue R (seen ++ path) value
  | .extension path next, seen => enumerate R next (seen ++ path)
  | .full nodes value, seen => do
    let res ← (List.finRange 16).mapM fun x => enumerate R (nodes x) (seen ++ [x])
    return res.flatten ++ (← Node.ownValue R seen value)
  | .hidden _, _ =>
    errMsg .invalidState
      "Incorrect Patricia Merkle Trie: empty hash node when it should not be empty"

/-- The values under a prefix. -/
def enumerateUnder (R : Rlp) : Trie Nibble Bytes → List Nibble → List Nibble →
    Outcome (List (List Nibble × String))
  | .blank, _, _ => .ok []
  | .leaf path value, key, seen =>
    if key <+: path then Node.leafValue R (seen ++ path) value else .ok []
  | .extension path next, key, seen =>
    if path <+: key then enumerateUnder R next (key.drop path.length) (seen ++ path)
    else if key <+: path then enumerate R next (seen ++ path)
    else .ok []
  | .full nodes value, [], seen => enumerate R (.full nodes value) seen
  | .full nodes _, x :: key, seen => enumerateUnder R (nodes x) key (seen ++ [x])
  | .hidden _, _, _ =>
    errMsg .invalidStructure
      "Incomplete key-value DB for Patricia Merkle Trie to get value by the key"

/-- The nodes that are read from bytes: paths have the flags of their kind, and references are 32
bytes long. -/
inductive Node.Sound : Node → Prop
  | blank : Sound .blank
  | leaf {path value : Bytes} {nibbles : List Nibble}
      (hpath : parsePath path = .ok (true, nibbles)) :
    Sound (.leaf path value)
  | extension {path : Bytes} {nibbles : List Nibble} {next : Node}
      (hpath : parsePath path = .ok (false, nibbles))
      (hnext : Sound next) : Sound (.extension path next)
  | full {nodes : Nibble → Option Node} {value : Option Bytes}
      (hnodes : ∀ x n, nodes x = some n → Sound n) :
    Sound (.full nodes value)
  | hash {h : Bytes} (hlen : h.length = 32) : Sound (.hash h)

theorem Node.mem_of_trieDB {R : Rlp} {nodes : List Node} {h : Bytes} {node : Node}
    (hnode : trieDB R nodes h = some node) : node ∈ nodes :=
  List.mem_reverse.mp (List.mem_of_find?_eq_some hnode)

section Refinement
variable {R : Rlp} {db : TrieDB} {node : Node} {t : Trie Nibble Bytes}

/-- A branch without a child is one on the empty trie. -/
theorem child_returns (child : Option Node) (seen : List Nibble) : (child = none → t = .blank) →
    (∀ next, child = some next →
      Returns (fun fuel => Node.allValues R db fuel next seen) (enumerate R t seen)) →
    Returns (fun fuel => match child with
      | some next => Node.allValues R db fuel next seen
      | none => .ok []) (enumerate R t seen) := by
  intro hnone hsome
  rcases child with _ | next
  · rw [hnone rfl]
    exact .pure _
  · exact hsome next rfl

/-- The code collects the values of the trie that the nodes stand for. -/
theorem allValues_returns (h : Resolves db node t) (hsound : node.Sound)
    (hdb : ∀ h n, db h = some n → n.Sound) (seen : List Nibble) :
    Returns (fun fuel => Node.allValues R db fuel node seen) (enumerate R t seen) := by
  induction h generalizing seen with
  | blank => exact .succ (fun _ => rfl) (.pure _)
  | @leaf path value nibbles hpath =>
    refine .succ (g := fun _ => enumerate R (.leaf nibbles value) seen) ?_ (.pure _)
    intro fuel
    simp only [Node.allValues, hpath, except_ok_bind, enumerate]
    rfl
  | @extension path nibbles next t hpath hnext ih =>
    obtain _ | _ | ⟨-, hnext⟩ := hsound
    refine .succ ?_ (ih hnext (seen ++ nibbles))
    intro fuel
    simp only [Node.allValues, hpath, except_ok_bind]
    rfl
  | @full nodes value ts hnone hsome ih =>
    obtain _ | _ | _ | hnodes := hsound
    have hchild := Returns.mapM (l := List.finRange 16) fun x _ =>
      child_returns (nodes x) (seen ++ [x]) (hnone x) fun next hx =>
        ih x next hx (hnodes x next hx) (seen ++ [x])
    exact .succ (fun _ => rfl) (hchild.map fun res => res >>= fun res => do
      return res.flatten ++ (← Node.ownValue R seen value))
  | @hash h next t hlen' hget hnext ih =>
    refine .succ ?_ (ih (hdb h next hget) seen)
    intro fuel
    simp only [Node.allValues, hlen', hget]
    rfl
  | @missing h hget content =>
    obtain _ | _ | _ | _ | hlen := hsound
    refine .succ (g := fun _ => enumerate R (.hidden content) seen) ?_ (.pure _)
    intro fuel
    simp only [Node.allValues, hlen, hget, enumerate]
    rfl

/-- What the walk of a prefix comes to, and what there is to collect from there. -/
inductive Found (R : Rlp) (db : TrieDB) : Outcome (Option (Node × List Nibble)) →
    Outcome (List (List Nibble × String)) → Prop
  | nothing : Found R db (.ok none) (.ok [])
  | node {node : Node} {t : Trie Nibble Bytes} (seen : List Nibble) (h : Resolves db node t)
      (hsound : node.Sound) :
    Found R db (.ok (some (node, seen))) (enumerate R t seen)
  | error (e : Fault) : Found R db (.error e) (.error e)

theorem getNode_found (h : Resolves db node t) (hsound : node.Sound)
    (hdb : ∀ h n, db h = some n → n.Sound) (key seen : List Nibble) :
    ∃ found, Returns (fun fuel => Node.getNode db fuel node key seen) found ∧
      Found R db found (enumerateUnder R t key seen) := by
  induction h generalizing key seen with
  | blank => exact ⟨.ok none, .succ (fun _ => rfl) (.pure _), .nothing⟩
  | @leaf path value nibbles hpath =>
    by_cases hpre : key <+: nibbles
    · refine ⟨.ok (some (.leaf path value, seen)),
        .succ (g := fun _ => .ok (some (.leaf path value, seen))) ?_ (.pure _), ?_⟩
      · intro fuel
        simp [Node.getNode, hpath, hpre]
      · have hunder : enumerateUnder R (.leaf nibbles value) key seen = enumerate R
            (.leaf nibbles value) seen := by
          rw [enumerateUnder, if_pos hpre, enumerate]
        rw [hunder]
        exact .node seen (.leaf hpath) hsound
    · refine ⟨.ok none, .succ (g := fun _ => .ok none) ?_ (.pure _), ?_⟩
      · intro fuel
        simp [Node.getNode, hpath, hpre]
      · rw [enumerateUnder, if_neg hpre]
        exact .nothing
  | @extension path nibbles next t hpath hnext ih =>
    have hnextSound : next.Sound := by
      obtain _ | _ | ⟨-, h⟩ := hsound
      exact h
    by_cases hpre : nibbles <+: key
    · obtain ⟨found, hreturns, hfound⟩ := ih hnextSound (key.drop nibbles.length) (seen ++ nibbles)
      refine ⟨found, .succ ?_ hreturns, ?_⟩
      · intro fuel
        simp [Node.getNode, hpath, hpre]
      · rw [enumerateUnder, if_pos hpre]
        exact hfound
    · by_cases hin : key <+: nibbles
      · refine ⟨.ok (some (.extension path next, seen)),
          .succ (g := fun _ => .ok (some (.extension path next, seen))) ?_ (.pure _), ?_⟩
        · intro fuel
          simp [Node.getNode, hpath, hpre, hin]
        · have hunder : enumerateUnder R (.extension nibbles t) key seen = enumerate R
              (.extension nibbles t) seen := by
            rw [enumerateUnder, if_neg hpre, if_pos hin, enumerate]
          rw [hunder]
          exact .node seen (.extension hpath hnext) hsound
      · refine ⟨.ok none, .succ (g := fun _ => .ok none) ?_ (.pure _), ?_⟩
        · intro fuel
          simp [Node.getNode, hpath, hpre, hin]
        · rw [enumerateUnder, if_neg hpre, if_neg hin]
          exact .nothing
  | @full nodes value ts hnone hsome ih =>
    cases key with
    | nil =>
      refine ⟨.ok (some (.full nodes value, seen)),
        .succ (g := fun _ => .ok (some (.full nodes value, seen))) ?_ (.pure _),
        .node seen (.full hnone hsome) hsound⟩
      exact fun _ => rfl
    | cons x key =>
      rw [enumerateUnder]
      rcases hx : nodes x with _ | next
      · refine ⟨.ok none, .succ (g := fun _ => .ok none) ?_ (.pure _), ?_⟩
        · intro fuel
          simp [Node.getNode, hx]
        · rw [hnone x hx]
          exact .nothing
      · have hnextSound : next.Sound := by
          obtain _ | _ | _ | hnodes := hsound
          exact hnodes x next hx
        obtain ⟨found, hreturns, hfound⟩ := ih x next hx hnextSound key (seen ++ [x])
        refine ⟨found, .succ ?_ hreturns, hfound⟩
        intro fuel
        simp [Node.getNode, hx]
  | @hash h next t hlen hget hnext ih =>
    obtain ⟨found, hreturns, hfound⟩ := ih (hdb h next hget) key seen
    refine ⟨found, .succ ?_ hreturns, hfound⟩
    intro fuel
    simp [Node.getNode, hlen, hget]
  | @missing h hget content =>
    have hlen : h.length = 32 := by
      obtain _ | _ | _ | _ | hlen := hsound
      exact hlen
    let fault : Fault :=
      .err ⟨.invalidStructure,
        "Incomplete key-value DB for Patricia Merkle Trie to get value by the key"⟩
    refine ⟨.error fault, .succ (g := fun _ => .error fault) ?_ (.pure _), .error fault⟩
    intro fuel
    simp [Node.getNode, hlen, hget, errMsg, fault]

theorem Returns.bind {α β : Type} {run : ℕ → Outcome α} {g : ℕ → α → Outcome β} {a : α}
    {r : Outcome β} (h : Returns run (.ok a)) (hnext : Returns (fun fuel => g fuel a) r) :
    Returns (fun fuel => run fuel >>= g fuel) r := by
  obtain ⟨n, hn⟩ := h
  obtain ⟨m, hm⟩ := hnext
  refine ⟨max n m, ?_⟩
  intro fuel hfuel
  have ha : run fuel = .ok a := hn fuel ((Nat.le_max_left n m).trans hfuel)
  have hr : g fuel a = r := hm fuel ((Nat.le_max_right n m).trans hfuel)
  show run fuel >>= g fuel = r
  rw [ha, except_ok_bind, hr]

/-- The code collects what the trie has under the prefix. -/
theorem getAllValues_returns (h : Resolves db node t) (hsound : node.Sound)
    (hdb : ∀ h n, db h = some n → n.Sound)
    (path : Bytes) : Returns (fun fuel => node.getAllValues R db fuel path)
      (enumerateUnder R t (Node.pathToNibbles path) [] >>= Node.keyed) := by
  obtain ⟨found, hreturns, hfound⟩ :=
    getNode_found (R := R) h hsound hdb (Node.pathToNibbles path) []
  generalize enumerateUnder R t (Node.pathToNibbles path) [] = vals at hfound ⊢
  cases hfound with
  | nothing =>
    exact Returns.bind (g := fun fuel found => Node.valuesUnder R db fuel found >>= Node.keyed)
      hreturns (.pure _)
  | @node next t' seen hnode hnext =>
    exact Returns.bind
      (g := fun fuel found => Node.valuesUnder R db fuel found >>= Node.keyed) hreturns
      ((allValues_returns hnode hnext hdb seen).map fun vals => vals >>= Node.keyed)
  | error e =>
    obtain ⟨n, hn⟩ := hreturns
    refine ⟨n, ?_⟩
    intro fuel hfuel
    have hnode : Node.getNode db fuel node (Node.pathToNibbles path) [] = .error e := hn fuel hfuel
    show node.getAllValues R db fuel path = .error e
    rw [Node.getAllValues, hnode]
    rfl

end Refinement

section Contents
variable {R : Rlp} {t : Trie Nibble Bytes}

/-- The words under `key` that have a value, each behind `seen`, with the texts of their values. -/
structure Collects (R : Rlp) (t : Trie Nibble Bytes) (key seen : List Nibble)
    (l : List (List Nibble × String)) :
    Prop where
  mem : ∀ w s, (w, s) ∈ l ↔
    ∃ w' raw, w = seen ++ w' ∧ key <+: w' ∧ t.lookup w' = some raw ∧
      Node.textOf R raw = some (.ok s)
  nodup : (l.map Prod.fst).Nodup

/-- All values under `key` are texts. -/
def HasTexts (R : Rlp) (t : Trie Nibble Bytes) (key : List Nibble) : Prop :=
  ∀ w raw, key <+: w → t.lookup w = some raw → ∃ s, Node.textOf R raw = some (.ok s)

theorem collects_nil {key seen : List Nibble} (h : ∀ w, key <+: w → t.lookup w = none) :
    Collects R t key seen [] := by
  refine ⟨?_, List.nodup_nil⟩
  intro w s
  constructor
  · intro hmem
    cases hmem
  · rintro ⟨w', raw, -, hpre, hlookup, -⟩
    rw [h w' hpre] at hlookup
    cases hlookup

theorem collects_leaf {path key seen : List Nibble} {value : Bytes} {s : String}
    (hpre : key <+: path) (htext : Node.textOf R value = some (.ok s)) :
    Collects R (.leaf path value) key seen [(seen ++ path, s)] := by
  refine ⟨?_, by simp⟩
  intro w s'
  simp only [List.mem_singleton, Prod.mk.injEq, Trie.lookup]
  constructor
  · rintro ⟨rfl, rfl⟩
    exact ⟨path, value, rfl, hpre, if_pos rfl, htext⟩
  · rintro ⟨w', raw, rfl, -, hlookup, htext'⟩
    split at hlookup
    · rename_i heq
      obtain rfl : value = raw := Option.some.inj hlookup
      rw [htext, Option.some.injEq, Except.ok.injEq] at htext'
      exact ⟨by rw [heq], htext'.symm⟩
    · cases hlookup

theorem lookup_extension (path w : List Nibble) (next : Trie Nibble Bytes) :
    (Trie.extension path next).lookup (path ++ w) = next.lookup w := by
  rw [Trie.lookup, if_pos (List.prefix_append path w), List.drop_left]

/-- Below an extension the words are those of the next node, behind its path. -/
theorem collects_extension {path key key' seen : List Nibble} {next : Trie Nibble Bytes}
    {l : List (List Nibble × String)} (hkey : ∀ w, key <+: path ++ w ↔ key' <+: w)
    (h : Collects R next key' (seen ++ path) l) : Collects R (.extension path next) key seen l := by
  refine ⟨?_, h.nodup⟩
  intro w s
  rw [h.mem]
  constructor
  · rintro ⟨w', raw, rfl, hpre, hlookup, htext⟩
    exact ⟨path ++ w', raw, List.append_assoc _ _ _, (hkey w').mpr hpre,
      (lookup_extension path w' next).trans hlookup, htext⟩
  · rintro ⟨w', raw, rfl, hpre, hlookup, htext⟩
    have hpath : path <+: w' := by
      by_contra hno
      rw [Trie.lookup, if_neg hno] at hlookup
      cases hlookup
    obtain ⟨rest, rfl⟩ := hpath
    rw [lookup_extension] at hlookup
    exact ⟨rest, raw, (List.append_assoc _ _ _).symm, (hkey rest).mp hpre, hlookup, htext⟩

theorem HasTexts.of_extension {path key key' : List Nibble} {next : Trie Nibble Bytes}
    (hkey : ∀ w, key <+: path ++ w ↔ key' <+: w) (h : HasTexts R (.extension path next) key) :
    HasTexts R next key' := by
  intro w raw hpre hlookup
  exact h (path ++ w) raw ((hkey w).mpr hpre) ((lookup_extension path w next).trans hlookup)

/-- A full node: what is below its letters, and its own value. -/
theorem collects_full {nodes : Nibble → Trie Nibble Bytes} {value : Option Bytes}
    {seen : List Nibble}
    {ls : Nibble → List (List Nibble × String)} {own : List (List Nibble × String)}
    (h : ∀ x, Collects R (nodes x) [] (seen ++ [x]) (ls x))
    (hown : ∀ w s, (w, s) ∈ own ↔ w = seen ∧ ∃ raw, value = some raw ∧
      Node.textOf R raw = some (.ok s))
    (hnodup : (own.map Prod.fst).Nodup) :
    Collects R (.full nodes value) [] seen ((List.finRange 16).flatMap ls ++ own) := by
  have hlong : ∀ x, ∀ w ∈ (ls x).map Prod.fst, ∃ w', w = seen ++ x :: w' := by
    intro x w hw
    obtain ⟨entry, hentry, rfl⟩ := List.mem_map.mp hw
    obtain ⟨w', raw, heq, -⟩ := ((h x).mem entry.1 entry.2).mp hentry
    exact ⟨w', by rw [heq, List.append_assoc, List.singleton_append]⟩
  constructor
  · intro w s
    rw [List.mem_append, List.mem_flatMap]
    constructor
    · rintro (⟨x, -, hx⟩ | hmem)
      · obtain ⟨w', raw, rfl, -, hlookup, htext⟩ := ((h x).mem w s).mp hx
        exact ⟨x :: w', raw, by simp, List.nil_prefix, hlookup, htext⟩
      · obtain ⟨rfl, raw, hvalue, htext⟩ := (hown w s).mp hmem
        exact ⟨[], raw, by simp, List.nil_prefix, hvalue, htext⟩
    · rintro ⟨w', raw, rfl, -, hlookup, htext⟩
      cases w' with
      | nil => exact .inr ((hown _ s).mpr ⟨by simp, raw, hlookup, htext⟩)
      | cons x w' =>
        left
        exact ⟨x, List.mem_finRange x,
          ((h x).mem _ s).mpr ⟨w', raw, by simp, List.nil_prefix, hlookup, htext⟩⟩
  · rw [List.map_append, List.map_flatMap, List.nodup_append]
    refine ⟨?_, hnodup, ?_⟩
    · rw [List.nodup_flatMap]
      refine ⟨fun x _ => (h x).nodup, ?_⟩
      refine List.Pairwise.imp ?_ (List.nodup_finRange 16)
      intro x y hne w hx hy
      obtain ⟨w₁, rfl⟩ := hlong x w hx
      obtain ⟨w₂, heq⟩ := hlong y _ hy
      exact hne (List.cons.inj (List.append_cancel_left heq)).1
    · intro w hw w' hw' heq
      obtain ⟨x, -, hx⟩ := List.mem_flatMap.mp hw
      obtain ⟨rest, rfl⟩ := hlong x w hx
      obtain ⟨entry, hentry, rfl⟩ := List.mem_map.mp hw'
      obtain ⟨hseen, -⟩ := (hown entry.1 entry.2).mp hentry
      have hlen := congrArg List.length (heq.trans hseen)
      simp at hlen

theorem ownValue_collects {value : Option Bytes} (seen : List Nibble)
    (htext : ∀ raw, value = some raw → ∃ s, Node.textOf R raw = some (.ok s)) :
    ∃ own, Node.ownValue R seen value = .ok own ∧ (own.map Prod.fst).Nodup ∧
      ∀ w s, (w, s) ∈ own ↔ w = seen ∧ ∃ raw, value = some raw ∧
        Node.textOf R raw = some (.ok s) := by
  rcases value with _ | raw
  · exact ⟨[], rfl, List.nodup_nil, by simp⟩
  · obtain ⟨s, hs⟩ := htext raw rfl
    refine ⟨[(seen, s)], ?_, by simp, ?_⟩
    · simp [Node.ownValue, hs]
    · intro w s'
      simp [hs, eq_comm]

/-- Where nothing is hidden, everything is collected. -/
theorem enumerate_collects (hexp : t.ExposedUnder []) (htext : HasTexts R t [])
    (seen : List Nibble) :
    ∃ l, enumerate R t seen = .ok l ∧ Collects R t [] seen l := by
  induction t generalizing seen with
  | blank => exact ⟨[], rfl, collects_nil fun _ _ => rfl⟩
  | leaf path value =>
    obtain ⟨s, hs⟩ := htext path value List.nil_prefix (if_pos rfl)
    refine ⟨[(seen ++ path, s)], ?_, collects_leaf List.nil_prefix hs⟩
    simp [enumerate, Node.leafValue, hs]
  | extension path next ih =>
    have hkey : ∀ w : List Nibble, [] <+: path ++ w ↔ [] <+: w :=
      fun w => iff_of_true List.nil_prefix List.nil_prefix
    have hnext : next.ExposedUnder [] := by
      by_cases hpath : path <+: []
      · simpa using hexp.1 hpath
      · exact hexp.2 hpath List.nil_prefix
    obtain ⟨l, hl, hcollects⟩ := ih hnext (htext.of_extension hkey) (seen ++ path)
    exact ⟨l, hl, collects_extension hkey hcollects⟩
  | full nodes value ih =>
    have hchild : ∀ x, ∃ l, enumerate R (nodes x) (seen ++ [x]) = .ok l ∧
        Collects R (nodes x) [] (seen ++ [x]) l := by
      intro x
      refine ih x (hexp x) ?_ (seen ++ [x])
      intro w raw _ hlookup
      exact htext (x :: w) raw List.nil_prefix hlookup
    choose ls hls hcollects using hchild
    have hvalue : ∀ raw, value = some raw → ∃ s, Node.textOf R raw = some (.ok s) := by
      intro raw hraw
      exact htext [] raw List.nil_prefix hraw
    obtain ⟨own, hown, hnodup, hmem⟩ := ownValue_collects seen hvalue
    refine ⟨(List.finRange 16).flatMap ls ++ own, ?_, collects_full hcollects hmem hnodup⟩
    rw [enumerate, mapM_eq_ok_map fun x _ => hls x, except_ok_bind, hown]
    rfl
  | hidden content => exact absurd hexp id

theorem enumerateUnder_collects {key : List Nibble} (hexp : t.ExposedUnder key)
    (htext : HasTexts R t key)
    (seen : List Nibble) : ∃ l, enumerateUnder R t key seen = .ok l ∧ Collects R t key seen l := by
  induction t generalizing key seen with
  | blank => exact ⟨[], rfl, collects_nil fun _ _ => rfl⟩
  | leaf path value =>
    by_cases hpre : key <+: path
    · obtain ⟨s, hs⟩ := htext path value hpre (if_pos rfl)
      refine ⟨[(seen ++ path, s)], ?_, collects_leaf hpre hs⟩
      simp [enumerateUnder, hpre, Node.leafValue, hs]
    · refine ⟨[], by rw [enumerateUnder, if_neg hpre], collects_nil ?_⟩
      intro w hw
      have hne : ¬ w = path := by
        rintro rfl
        exact hpre hw
      exact if_neg hne
  | extension path next ih =>
    rw [enumerateUnder]
    by_cases hpath : path <+: key
    · rw [if_pos hpath]
      obtain ⟨rest, rfl⟩ := hpath
      have hkey : ∀ w : List Nibble, path ++ rest <+: path ++ w ↔ rest <+: w :=
        fun w => List.prefix_append_right_inj path
      have hnext : next.ExposedUnder rest := by
        simpa only [List.drop_left] using hexp.1 (List.prefix_append path rest)
      rw [List.drop_left]
      obtain ⟨l, hl, hcollects⟩ := ih hnext (htext.of_extension hkey) (seen ++ path)
      exact ⟨l, hl, collects_extension hkey hcollects⟩
    · rw [if_neg hpath]
      by_cases hpre : key <+: path
      · rw [if_pos hpre]
        have hkey : ∀ w : List Nibble, key <+: path ++ w ↔ [] <+: w :=
          fun w => iff_of_true (hpre.trans (List.prefix_append path w)) List.nil_prefix
        obtain ⟨l, hl, hcollects⟩ :=
          enumerate_collects (hexp.2 hpath hpre) (htext.of_extension hkey) (seen ++ path)
        exact ⟨l, hl, collects_extension hkey hcollects⟩
      · rw [if_neg hpre]
        refine ⟨[], rfl, collects_nil ?_⟩
        intro w hw
        refine if_neg fun hin => ?_
        rcases List.prefix_or_prefix_of_prefix hin hw with h | h
        · exact hpath h
        · exact hpre h
  | full nodes value ih =>
    cases key with
    | nil => exact enumerate_collects hexp htext seen
    | cons x key =>
      have hbelow : HasTexts R (nodes x) key := by
        intro w raw hpre hlookup
        exact htext (x :: w) raw (List.cons_prefix_cons.mpr ⟨rfl, hpre⟩) hlookup
      obtain ⟨l, hl, hcollects⟩ := ih x hexp hbelow (seen ++ [x])
      refine ⟨l, hl, ?_, hcollects.nodup⟩
      intro w s
      rw [hcollects.mem]
      constructor
      · rintro ⟨w', raw, rfl, hpre, hlookup, hs⟩
        exact ⟨x :: w', raw, by simp, List.cons_prefix_cons.mpr ⟨rfl, hpre⟩, hlookup, hs⟩
      · rintro ⟨w', raw, rfl, hpre, hlookup, hs⟩
        cases w' with
        | nil => simp at hpre
        | cons y w' =>
          obtain ⟨rfl, hrest⟩ := List.cons_prefix_cons.mp hpre
          exact ⟨w', raw, by simp, hrest, hlookup, hs⟩
  | hidden content => exact absurd hexp id

end Contents

section Faults
variable {α β : Type} {R : Rlp} {t : Trie Nibble Bytes}

/-- The only fault is an `IndyError`. -/
def Orderly (r : Outcome α) : Prop := ∀ fault, r = .error fault → ∃ e, fault = .err e

theorem orderly_ok (a : α) : Orderly (.ok a) := by
  intro fault h
  cases h

theorem orderly_errMsg (kind : IndyErrorKind) (message : String) :
    Orderly (errMsg kind message : Outcome α) := by
  intro fault h
  exact ⟨⟨kind, message⟩, (Except.error.inj h).symm⟩

theorem Orderly.bind {r : Outcome α} {f : α → Outcome β} (h : Orderly r) (hf : ∀ a, Orderly (f a)) :
    Orderly (r >>= f) := by
  intro fault hfault
  cases r with
  | error e =>
    obtain ⟨e', rfl⟩ := h e rfl
    exact ⟨e', (Except.error.inj hfault).symm⟩
  | ok a => exact hf a fault hfault

theorem orderly_mapM {f : α → Outcome β} {l : List α} (h : ∀ x ∈ l, Orderly (f x)) :
    Orderly (l.mapM f) := by
  induction l with
  | nil => exact orderly_ok []
  | cons x l ih =>
    rw [List.mapM_cons]
    refine (h x (by simp)).bind fun y => ?_
    exact (ih fun z hz => h z (by simp [hz])).bind fun ys => orderly_ok (y :: ys)

theorem orderly_textOf {raw : Bytes} {text : Outcome String} (h : Node.textOf R raw = some text) :
    Orderly text := by
  unfold Node.textOf at h
  split at h
  · split at h
    · obtain rfl := Option.some.inj h
      exact orderly_ok _
    · obtain rfl := Option.some.inj h
      exact orderly_errMsg _ _
  · cases h

theorem orderly_leafValue (path : List Nibble) (raw : Bytes) :
    Orderly (Node.leafValue R path raw) := by
  unfold Node.leafValue
  split
  · exact orderly_errMsg _ _
  · rename_i text htext
    exact (orderly_textOf htext).bind fun s => orderly_ok [(path, s)]

theorem orderly_ownValue (seen : List Nibble) (value : Option Bytes) :
    Orderly (Node.ownValue R seen value) := by
  unfold Node.ownValue
  split
  · exact orderly_ok []
  · split
    · exact orderly_ok []
    · rename_i text htext
      exact (orderly_textOf htext).bind fun s => orderly_ok [(seen, s)]

theorem orderly_enumerate (t : Trie Nibble Bytes) (seen : List Nibble) :
    Orderly (enumerate R t seen) := by
  induction t generalizing seen with
  | blank => exact orderly_ok []
  | leaf path value => exact orderly_leafValue (seen ++ path) value
  | extension path next ih => exact ih (seen ++ path)
  | full nodes value ih =>
    refine (orderly_mapM fun x _ => ih x (seen ++ [x])).bind fun res => ?_
    exact (orderly_ownValue seen value).bind fun own => orderly_ok (res.flatten ++ own)
  | hidden content => exact orderly_errMsg _ _

theorem orderly_enumerateUnder (t : Trie Nibble Bytes) (key seen : List Nibble) :
    Orderly (enumerateUnder R t key seen) := by
  induction t generalizing key seen with
  | blank => exact orderly_ok []
  | leaf path value =>
    rw [enumerateUnder]
    split
    · exact orderly_leafValue (seen ++ path) value
    · exact orderly_ok []
  | extension path next ih =>
    rw [enumerateUnder]
    split
    · exact ih _ (seen ++ path)
    · split
      · exact orderly_enumerate next (seen ++ path)
      · exact orderly_ok []
  | full nodes value ih =>
    cases key with
    | nil => exact orderly_enumerate (.full nodes value) seen
    | cons x key => exact ih x key (seen ++ [x])
  | hidden content => exact orderly_errMsg _ _

/-- What is collected without fault was not hidden. -/
theorem exposed_of_enumerate {seen : List Nibble} {l : List (List Nibble × String)}
    (h : enumerate R t seen = .ok l) : t.ExposedUnder [] := by
  induction t generalizing seen l with
  | blank => trivial
  | leaf path value => trivial
  | extension path next ih =>
    have hnext : next.ExposedUnder [] := ih h
    refine ⟨fun _ => ?_, fun _ _ => hnext⟩
    rw [List.drop_nil]
    exact hnext
  | full nodes value ih =>
    intro x
    rw [enumerate] at h
    obtain ⟨res, hres, -⟩ := except_bind_eq_ok.mp h
    obtain ⟨i, hi⟩ := List.mem_iff_getElem?.mp (List.mem_finRange x)
    obtain ⟨lx, hlx, -⟩ := getElem?_of_mapM hres hi
    exact ih x hlx
  | hidden content => cases h

theorem exposed_of_enumerateUnder {key seen : List Nibble} {l : List (List Nibble × String)}
    (h : enumerateUnder R t key seen = .ok l) : t.ExposedUnder key := by
  induction t generalizing key seen l with
  | blank => trivial
  | leaf path value => trivial
  | extension path next ih =>
    rw [enumerateUnder] at h
    by_cases hpath : path <+: key
    · rw [if_pos hpath] at h
      exact ⟨fun _ => ih h, fun hno => absurd hpath hno⟩
    · rw [if_neg hpath] at h
      refine ⟨fun hyes => absurd hyes hpath, fun _ hpre => ?_⟩
      rw [if_pos hpre] at h
      exact exposed_of_enumerate h
  | full nodes value ih =>
    cases key with
    | nil => exact exposed_of_enumerate (t := .full nodes value) h
    | cons x key => exact ih x h
  | hidden content => cases h

/-- A hidden part under the prefix makes the collection fail. -/
theorem enumerateUnder_of_not_exposed {key : List Nibble} (h : ¬ t.ExposedUnder key)
    (seen : List Nibble) :
    ∃ e, enumerateUnder R t key seen = .error (.err e) := by
  rcases hl : enumerateUnder R t key seen with fault | l
  · obtain ⟨e, rfl⟩ := orderly_enumerateUnder t key seen fault hl
    exact ⟨e, rfl⟩
  · exact absurd (exposed_of_enumerateUnder hl) h

end Faults

end SimpleAsset.Indy
