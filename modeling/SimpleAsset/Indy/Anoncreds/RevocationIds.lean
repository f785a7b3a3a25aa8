import Mathlib.Data.List.TakeWhile
import SimpleAsset.Indy.Anoncreds.IdentifierParts

/-! Revocation registry ids: which split the pattern of their parser finds. -/
namespace SimpleAsset.Indy.Anoncreds
open SimpleAsset.Library

section Matching
variable {α : Type} {next : List Char → Option α} {s : List Char}

theorem literal_eq_some {text : String} {r : α} :
    literal text next s = some r ↔ ∃ rest, s = text.toList ++ rest ∧ next rest = some r := by
  unfold literal
  split
  · rename_i hprefix
    obtain ⟨rest, rfl⟩ := List.isPrefixOf_iff_prefix.mp hprefix
    have hdrop : (text.toList ++ rest).drop text.length = rest :=
      List.drop_left' String.length_toList
    rw [hdrop]
    constructor
    · exact fun h => ⟨rest, rfl, h⟩
    · rintro ⟨rest', heq, h⟩
      rwa [List.append_cancel_left heq]
  · rename_i hprefix
    constructor
    · rintro ⟨⟩
    · rintro ⟨rest, rfl, -⟩
      exact absurd (List.isPrefixOf_iff_prefix.mpr ⟨rest, rfl⟩) hprefix

theorem dotPlus_eq_none (h : dotPlus next s = none) {m rest : List Char} (hs : s = m ++ rest)
    (hne : m ≠ []) (hline : '\n' ∉ m) : next rest = none := by
  induction s generalizing m with
  | nil => simp_all
  | cons c s ih =>
    obtain ⟨d, m, rfl⟩ := List.exists_cons_of_ne_nil hne
    obtain ⟨rfl, rfl⟩ := List.cons.inj hs
    rw [List.mem_cons, not_or] at hline
    rw [dotPlus, if_neg (Ne.symm hline.1)] at h
    split at h
    · cases h
    · rename_i hnone
      by_cases hm : m = []
      · subst hm
        simpa using h
      · exact ih hnone rfl hm hline.2

/-- What `(.+)` takes is followed by what comes next, and a longer text is not. -/
structure Longest (next : List Char → Option α) (s : List Char) (m : String) (r : α)
    (rest : List Char) : Prop where
  split : s = m.toList ++ rest
  nonempty : m.toList ≠ []
  oneLine : '\n' ∉ m.toList
  follows : next rest = some r
  longest : ∀ m' rest', s = m' ++ rest' → '\n' ∉ m' → m.toList.length < m'.length →
    next rest' = none

theorem dotPlus_eq_some {m : String} {r : α} (h : dotPlus next s = some (m, r)) :
    ∃ rest, Longest next s m r rest := by
  induction s generalizing m with
  | nil => cases h
  | cons c s ih =>
    rw [dotPlus] at h
    split at h
    · cases h
    rename_i hc
    split at h
    · rename_i matched r' hsome
      obtain ⟨rfl, rfl⟩ : String.ofList (c :: matched.toList) = m ∧ r' = r := by simpa using h
      obtain ⟨rest, hrest⟩ := ih hsome
      refine ⟨rest,
        by simp [hrest.split], by simp, by simp [hrest.oneLine, Ne.symm hc], hrest.follows, ?_⟩
      intro m' rest' hs hline hlength
      obtain ⟨d, m', rfl⟩ :=
        List.exists_cons_of_ne_nil (List.ne_nil_of_length_pos (Nat.zero_lt_of_lt hlength))
      obtain ⟨rfl, hrestEq⟩ := List.cons.inj hs
      rw [List.mem_cons, not_or] at hline
      exact hrest.longest m' rest' hrestEq hline.2 (by simpa using hlength)
    · rename_i hnone
      obtain ⟨r', hnext, hm, rfl⟩ : ∃ r', next s = some r' ∧ String.ofList [c] = m ∧ r' = r := by
        simpa using h
      subst hm
      refine ⟨s, by simp, by simp, by simp [Ne.symm hc], hnext, ?_⟩
      intro m' rest' hs hline hlength
      obtain ⟨d, m', rfl⟩ :=
        List.exists_cons_of_ne_nil (List.ne_nil_of_length_pos (Nat.zero_lt_of_lt hlength))
      obtain ⟨rfl, hrestEq⟩ := List.cons.inj hs
      rw [List.mem_cons, not_or] at hline
      have hne : m' ≠ [] := List.ne_nil_of_length_pos (by simpa using hlength)
      exact dotPlus_eq_none hnone hrestEq hne hline.2

/-- Another way to match is the one found, or it ends inside it. -/
theorem Longest.eq_or_longer {m : String} {r : α} {rest m' rest' : List Char}
    (h : Longest next s m r rest)
    (hs : s = m' ++ rest') (hline : '\n' ∉ m') (hsome : (next rest').isSome = true) :
    (m.toList = m' ∧ rest = rest') ∨ ∃ z, z ≠ [] ∧ m.toList = m' ++ z ∧ rest' = z ++ rest := by
  have hle : m'.length ≤ m.toList.length := by
    by_contra hlt
    rw [h.longest m' rest' hs hline (by omega)] at hsome
    cases hsome
  have hsplit := h.split
  rw [hs] at hsplit
  obtain ⟨z, hz⟩ : m' <+: m.toList :=
    List.prefix_of_prefix_length_le ⟨rest', rfl⟩ ⟨rest, hsplit.symm⟩ hle
  rw [← hz, List.append_assoc] at hsplit
  have hrest := List.append_cancel_left hsplit
  by_cases hnil : z = []
  · subst hnil
    exact Or.inl ⟨by simpa using hz.symm, by simpa using hrest.symm⟩
  · exact Or.inr ⟨z, hnil, hz.symm, hrest⟩

theorem dotPlus_isSome {m rest : List Char} (hne : m ≠ []) (hline : '\n' ∉ m)
    (h : (next rest).isSome = true) :
    (dotPlus next (m ++ rest)).isSome = true := by
  rw [Option.isSome_iff_ne_none]
  intro hnone
  rw [dotPlus_eq_none hnone rfl hne hline] at h
  cases h

end Matching

section Tail

/-- `(.+):(.+):(.+)$`, what follows the marker. -/
def afterMarker : List Char → Option (String × String × String × Unit) :=
  dotPlus <| literal ":" <| dotPlus <| literal ":" <|
    dotPlus fun s => if s = [] then some () else none

theorem revRegIdBody_eq : revRegIdBody = dotPlus (literal ":4:" afterMarker) := rfl

/-- The three groups of a text that has two delimiters only. -/
theorem afterMarker_eq_some {s : List Char} {a b c : String}
    (h : afterMarker s = some (a, b, c, ())) :
    s = a.toList ++ ':' :: (b.toList ++ ':' :: c.toList) ∧ a.toList ≠ [] ∧ b.toList ≠ [] ∧
    c.toList ≠ [] ∧
      '\n' ∉ s := by
  obtain ⟨rest, ha⟩ := dotPlus_eq_some h
  obtain ⟨rest', rfl, hb'⟩ := literal_eq_some.mp ha.follows
  obtain ⟨rest, hb⟩ := dotPlus_eq_some hb'
  obtain ⟨rest'', rfl, hc'⟩ := literal_eq_some.mp hb.follows
  obtain ⟨rest, hc⟩ := dotPlus_eq_some hc'
  have hend : rest = [] := by
    by_contra hne
    have hfollows := hc.follows
    simp [hne] at hfollows
  have hs : s = a.toList ++ ':' :: (b.toList ++ ':' :: c.toList) := by
    rw [ha.split, hb.split, hc.split, hend]
    simp
  refine ⟨hs, ha.nonempty, hb.nonempty, hc.nonempty, ?_⟩
  rw [hs]
  simp [ha.oneLine, hb.oneLine, hc.oneLine]

theorem afterMarker_isSome {a b c : List Char} (ha : a ≠ []) (hb : b ≠ []) (hc : c ≠ [])
    (hline : '\n' ∉ a ++ b ++ c) :
    (afterMarker (a ++ ':' :: (b ++ ':' :: c))).isSome = true := by
  simp only [List.mem_append, not_or] at hline
  obtain ⟨⟨haline, hbline⟩, hcline⟩ := hline
  have hlast : (dotPlus (fun s => if s = [] then some () else none) (c ++ [])).isSome = true :=
    dotPlus_isSome hc hcline rfl
  rw [List.append_nil] at hlast
  have hliteral : ∀ {α : Type} (next : List Char → Option α) (s : List Char),
      literal ":" next (':' :: s) = next s :=
    fun next s => rfl
  refine dotPlus_isSome ha haline ?_
  rw [hliteral]
  refine dotPlus_isSome hb hbline ?_
  rw [hliteral]
  exact hlast

end Tail

section Body
variable {did credDefId tag : List Char}

/-- The marker stands inside the text, as a piece of its own with something behind it. -/
def InnerMarker (text : List Char) : Prop :=
  ∃ before after, after ≠ [] ∧ ':' :: text = before ++ ":4:".toList ++ after

/-- `:CL_ACCUM:<tag>`. -/
def accumTail (tag : List Char) : List Char := ':' :: ("CL_ACCUM".toList ++ ':' :: tag)

theorem count_accumTail (htag : ':' ∉ tag) : (accumTail tag).count ':' = 2 := by
  have htype : "CL_ACCUM".toList.count ':' = 0 := by decide
  rw [accumTail, List.count_cons_self, List.count_append, List.count_cons_self, htype,
    List.count_eq_zero.mpr htag]

/-- What follows a marker is longer than the tail. -/
theorem not_suffix_accumTail {y a b c : List Char} (htag : ':' ∉ tag) (ha : a ≠ []) :
    accumTail tag ≠ y ++ (a ++ ':' :: (b ++ ':' :: c)) := by
  intro heq
  have hcount := count_accumTail htag
  rw [heq] at hcount
  simp only [List.count_append, List.count_cons_self] at hcount
  have hfirst : ':' ∈ y ++ a := by
    cases y with
    | cons d y =>
      obtain ⟨rfl, -⟩ := List.cons.inj heq
      simp
    | nil =>
      obtain ⟨d, a, rfl⟩ := List.exists_cons_of_ne_nil ha
      obtain ⟨rfl, -⟩ := List.cons.inj heq
      simp
  have hpos := List.count_pos_iff.mpr hfirst
  rw [List.count_append] at hpos
  omega

/-- A second place to split at is inside the credential definition id. -/
theorem innerMarker_of_split {x rest : List Char} {r : String × String × String × Unit}
    (htag : ':' ∉ tag) (heq : ':' :: credDefId ++ accumTail tag = x ++ ":4:".toList ++ rest)
    (h : afterMarker rest = some r) :
    InnerMarker credDefId := by
  obtain ⟨a, b, c, ⟨⟩⟩ := r
  obtain ⟨rfl, ha, -⟩ := afterMarker_eq_some h
  rcases List.append_eq_append_iff.mp heq with ⟨y, hmarker, htail⟩ | ⟨y, hmarker, htail⟩
  · exact absurd htail (not_suffix_accumTail htag ha)
  · refine ⟨x, y, ?_, hmarker⟩
    rintro rfl
    exact not_suffix_accumTail (y := []) htag ha htail.symm

theorem split_of_innerMarker (h : InnerMarker credDefId) (hcred : '\n' ∉ credDefId)
    (htagLine : '\n' ∉ tag)
    (htagNe : tag ≠ []) : ∃ x rest, ':' :: credDefId ++ accumTail tag = x ++ ":4:".toList ++ rest ∧
      (afterMarker rest).isSome = true := by
  obtain ⟨before, after, hne, hmarker⟩ := h
  have hafter : '\n' ∉ after := fun hmem => by
    have hmem' : '\n' ∈ ':' :: credDefId := by simp [hmarker, hmem]
    simp [hcred] at hmem'
  refine ⟨before, after ++ accumTail tag, by rw [hmarker]; simp, ?_⟩
  exact afterMarker_isSome hne (by decide) htagNe (by simp [hafter, htagLine])

variable {didText credText tagText : String}

theorem afterMarker_credDefId (hcred : credText ≠ "") (htagNe : tagText ≠ "")
    (htag : ':' ∉ tagText.toList)
    (hcredLine : '\n' ∉ credText.toList) (htagLine : '\n' ∉ tagText.toList) :
    afterMarker (credText.toList ++ accumTail tagText.toList) = some
      (credText, "CL_ACCUM", tagText, ()) := by
  have htagNe' : tagText.toList ≠ [] := by simpa using htagNe
  have hnext :
      (literal ":" (dotPlus <| literal ":" <| dotPlus fun s => if s = [] then some () else none)
      (accumTail tagText.toList)).isSome = true := by
    have hlast : (dotPlus (fun s => if s = [] then some () else none)
        (tagText.toList ++ [])).isSome = true :=
      dotPlus_isSome htagNe' htagLine rfl
    have htype : (dotPlus (literal ":" <| dotPlus fun s => if s = [] then some () else none)
        ("CL_ACCUM".toList ++ ':' :: (tagText.toList ++ []))).isSome = true :=
      dotPlus_isSome (by decide) (by decide) hlast
    rwa [List.append_nil] at htype
  have hsome := dotPlus_isSome (m := credText.toList) (by simpa using hcred) hcredLine hnext
  obtain ⟨⟨c, ty, tg, ⟨⟩⟩, hr⟩ := Option.isSome_iff_exists.mp hsome
  obtain ⟨rest, hlongest⟩ := dotPlus_eq_some hr
  obtain ⟨hsplit, -⟩ := afterMarker_eq_some hr
  rcases hlongest.eq_or_longer rfl hcredLine hnext with ⟨hc, -⟩ | ⟨z, hz, hc, -⟩
  · rw [hc] at hsplit
    have htail : "CL_ACCUM".toList ++ ':' :: tagText.toList = ty.toList ++ ':' :: tg.toList :=
      (List.cons.inj (List.append_cancel_left hsplit)).2
    have hty : ':' ∉ ty.toList := by
      have hcount := congrArg (List.count ':') htail
      have htype : "CL_ACCUM".toList.count ':' = 0 := by decide
      simp only [List.count_append, List.count_cons_self, htype, List.count_eq_zero.mpr htag]
        at hcount
      exact List.count_eq_zero.mp (by omega)
    obtain ⟨hty', htg⟩ := (joined_inj_of_left (by decide) hty).mp htail
    rw [afterMarker, hr, String.toList_inj.mp hc, String.toList_inj.mp hty'.symm,
      String.toList_inj.mp htg.symm]
  · rw [hc, List.append_assoc] at hsplit
    exact absurd (List.append_cancel_left hsplit) (not_suffix_accumTail (y := []) htag hz)

/-- The identifier without the qualifier in front. -/
def plainText (did credDefId tag : String) : List Char :=
  did.toList ++ (":4:".toList ++ (credDefId.toList ++ accumTail tag.toList))

/-- What the parser needs of the parts to find them again. -/
structure Separable (did credDefId tag : String) : Prop where
  did_ne : did ≠ ""
  cred_ne : credDefId ≠ ""
  tag_ne : tag ≠ ""
  cred_line : '\n' ∉ credDefId.toList
  tag_line : '\n' ∉ tag.toList
  unmarked : ¬ InnerMarker credDefId.toList

theorem revRegIdBody_of_separable (h : Separable didText credText tagText)
    (hdidLine : '\n' ∉ didText.toList) (htag : ':' ∉ tagText.toList) :
    revRegIdBody (plainText didText credText tagText) = some
      (didText, credText, "CL_ACCUM", tagText, ()) := by
  have hafter := afterMarker_credDefId h.cred_ne h.tag_ne htag h.cred_line h.tag_line
  have hdidNe : didText.toList ≠ [] := by simpa using h.did_ne
  have hmarked : literal ":4:" afterMarker
      (":4:".toList ++ (credText.toList ++ accumTail tagText.toList)) =
      some (credText, "CL_ACCUM", tagText, ()) := literal_eq_some.mpr ⟨_, rfl, hafter⟩
  have hsome : (revRegIdBody (plainText didText credText tagText)).isSome = true := by
    rw [revRegIdBody_eq]
    exact dotPlus_isSome hdidNe hdidLine (by rw [hmarked]; rfl)
  obtain ⟨⟨d, r⟩, hr⟩ := Option.isSome_iff_exists.mp hsome
  rw [hr]
  rw [revRegIdBody_eq] at hr
  obtain ⟨rest, hlongest⟩ := dotPlus_eq_some hr
  obtain ⟨rest', rfl, hrest⟩ := literal_eq_some.mp hlongest.follows
  rcases hlongest.eq_or_longer rfl hdidLine
    (by rw [hmarked]; rfl) with ⟨hd, hrest'⟩ | ⟨z, hz, -, hrest'⟩
  · rw [List.append_cancel_left hrest', hafter] at hrest
    rw [String.toList_inj.mp hd, ← Option.some.inj hrest]
  · -- the text would be split at a marker inside the credential definition id
    have hmarker : ":4:".toList = [':', '4', ':'] := by decide
    obtain ⟨c, z, rfl⟩ := List.exists_cons_of_ne_nil hz
    cases z with
    | nil => simp [hmarker] at hrest'
    | cons d z =>
      have hinner : ':' :: credText.toList ++ accumTail tagText.toList = z ++
          ":4:".toList ++ rest' := by
        simp only [hmarker, List.cons_append, List.nil_append, List.cons.injEq] at hrest' ⊢
        simpa using hrest'.2.2
      exact absurd (innerMarker_of_split htag hinner hrest) h.unmarked

theorem separable_of_revRegIdBody (hdidLine : '\n' ∉ didText.toList)
    (h : revRegIdBody (plainText didText credText tagText) = some
      (didText, credText, "CL_ACCUM", tagText, ())) :
    Separable didText credText tagText := by
  rw [revRegIdBody_eq] at h
  obtain ⟨rest, hlongest⟩ := dotPlus_eq_some h
  obtain ⟨rest', rfl, hrest⟩ := literal_eq_some.mp hlongest.follows
  obtain ⟨rfl, hcred, -, htag, hline⟩ := afterMarker_eq_some hrest
  simp only [List.mem_append, List.mem_cons, not_or] at hline
  refine ⟨by
    simpa using hlongest.nonempty,
    by simpa using hcred, by simpa using htag, hline.1, hline.2.2.2.2, ?_⟩
  intro hinner
  obtain ⟨x, rest, hsplit, hsome⟩ := split_of_innerMarker hinner hline.1 hline.2.2.2.2 htag
  have hxLine : '\n' ∉ x := fun hmem => by
    have hmem' : '\n' ∈ ':' :: credText.toList ++ accumTail tagText.toList := by simp [hsplit, hmem]
    simp [accumTail, hline.1, hline.2.2.2.2] at hmem'
  have hnone := hlongest.longest (didText.toList ++ ':' :: '4' :: x) (":4:".toList ++ rest)
    (by simpa [plainText] using hsplit) (by simp [hdidLine, hxLine]) (by simp)
  have hmarked : literal ":4:" afterMarker (":4:".toList ++ rest) = afterMarker rest := rfl
  rw [hmarked] at hnone
  rw [hnone] at hsome
  cases hsome

/-- What the groups match is the whole text that the pattern is applied to. -/
theorem eq_plainText_of_revRegIdBody {s : List Char}
    (h : revRegIdBody s = some (didText, credText, "CL_ACCUM", tagText, ())) :
    s = plainText didText credText tagText := by
  rw [revRegIdBody_eq] at h
  obtain ⟨rest, hlongest⟩ := dotPlus_eq_some h
  obtain ⟨rest', rfl, hrest⟩ := literal_eq_some.mp hlongest.follows
  obtain ⟨rfl, -⟩ := afterMarker_eq_some hrest
  exact hlongest.split

theorem exists_suffix_of_revRegIdSearch {s : List Char}
    {r : String × String × String × String × Unit}
    (h : revRegIdSearch s = some r) : ∃ s', revRegIdBody s' = some r := by
  induction s with
  | nil => cases h
  | cons c s ih =>
    rw [revRegIdSearch, Option.or_eq_some_iff] at h
    rcases h with h | ⟨-, h⟩
    · exact ⟨_, h⟩
    · exact ih h

theorem exists_of_revRegIdQualified {s : List Char} {r : String × String × String × String × Unit}
    (h : revRegIdQualified s = some r) :
    ∃ method rest, ':' ∉ method ∧ s = "revreg:".toList ++ (method ++ ':' :: rest) ∧
      revRegIdBody rest = some r := by
  obtain ⟨rest, rfl, hrest⟩ := literal_eq_some.mp h
  split at hrest
  · rename_i c method rest' hspan
    have hmethod : ∀ d ∈ c :: method, isLowerAlnum d = true := by
      rw [List.span_eq_takeWhile_dropWhile] at hspan
      obtain ⟨htake, -⟩ := Prod.mk.inj hspan
      exact fun d hmem => List.mem_takeWhile_imp (htake ▸ hmem)
    have happ : rest = (c :: method) ++ ':' :: rest' := by
      rw [List.span_eq_takeWhile_dropWhile] at hspan
      obtain ⟨htake, hdrop⟩ := Prod.mk.inj hspan
      rw [← htake, ← hdrop, List.takeWhile_append_dropWhile]
    refine ⟨c :: method, rest', fun hmem => ?_, by rw [happ], hrest⟩
    have hcolon := hmethod _ hmem
    rw [isLowerAlnum_colon] at hcolon
    cases hcolon
  · cases hrest

end Body

section Parts

/-- What a revocation registry id is expected to give back. -/
structure RevRegIdRoundTrip (node13 : Bool) (did : Did) (credDefId : CredentialDefinitionId)
    (tag : Component) : Prop where
  parts : (RevocationRegistryId.new did.value credDefId "CL_ACCUM" tag.text).parts =
    some (did.value, credDefId, "CL_ACCUM", tag.text)
  unqualified :
    (RevocationRegistryId.new did.value credDefId "CL_ACCUM" tag.text).toUnqualified node13 =
    .new did.value.toUnqualified (credDefId.toUnqualified node13) "CL_ACCUM" tag.text

theorem revRegId_text (did : Did) (credDefId : CredentialDefinitionId) (tag : String) :
    (RevocationRegistryId.new did.value credDefId "CL_ACCUM" tag).value.toList =
      match did.method with
      | some method => "revreg:".toList ++
          (method.name.toList ++ ':' :: plainText did.value.value credDefId.value tag)
      | none => plainText did.value.value credDefId.value tag := by
  unfold RevocationRegistryId.new
  rw [did.getMethod_value]
  cases did.method <;> simp [plainText, accumTail, qualify, delimiter]

theorem oneLine_value (did : Did) : '\n' ∉ did.value.value.toList := by
  unfold Did.value
  cases did.method with
  | none => exact did.oneLine
  | some method =>
    have hmethod : '\n' ∉ method.name.toList := fun hmem => absurd (method.alnum _ hmem) (by decide)
    simp [DidValue.qualify, qualify, did.oneLine, hmethod]

theorem did_noDelimiter {did : Did} (h : did.method = none) : ':' ∉ did.value.value.toList := by
  unfold Did.value
  rw [h]
  exact did.plain h

/-- A plain DID may look like the qualifier; then what follows has no marker of its own. -/
theorem revRegIdQualified_eq_none {did credDefId tag : String}
    (hunmarked : ¬ InnerMarker credDefId.toList)
    (hdid : ':' ∉ did.toList) (htag : ':' ∉ tag.toList) :
    revRegIdQualified (plainText did credDefId tag) = none := by
  cases h : revRegIdQualified (plainText did credDefId tag) with
  | none => rfl
  | some r =>
    exfalso
    obtain ⟨method, rest, hmethod, htext, hbody⟩ := exists_of_revRegIdQualified h
    have hfour : plainText did credDefId tag =
        did.toList ++ ':' :: (['4'] ++ ':' :: (credDefId.toList ++ accumTail tag.toList)) := by
        simp [plainText]
    have hrevreg : "revreg:".toList ++ (method ++ ':' :: rest) = "revreg".toList ++
        ':' :: (method ++ ':' :: rest) := by
      simp
    rw [hfour, hrevreg] at htext
    obtain ⟨-, htext⟩ := (joined_inj_of_left hdid (by decide)).mp htext
    obtain ⟨-, rfl⟩ := (joined_inj_of_left (by decide) hmethod).mp htext
    obtain ⟨d, r⟩ := r
    rw [revRegIdBody_eq] at hbody
    obtain ⟨rest, hlongest⟩ := dotPlus_eq_some hbody
    obtain ⟨rest', rfl, hrest⟩ := literal_eq_some.mp hlongest.follows
    have hsplit := hlongest.split
    refine hunmarked (innerMarker_of_split (x := ':' :: d.toList) htag ?_ hrest)
    simp only [List.cons_append, List.append_assoc]
    rw [hsplit]

/-- The match at the place that the parts stand at. -/
theorem revRegId_match {did : Did} {credDefId : CredentialDefinitionId} {tag : Component}
    (h : Separable did.value.value credDefId.value tag.text) :
    (RevocationRegistryId.new did.value credDefId "CL_ACCUM" tag.text).parts =
      some (did.value, credDefId, "CL_ACCUM", tag.text) := by
  have hbody := revRegIdBody_of_separable h (oneLine_value did) tag.noDelimiter
  have htext := revRegId_text did credDefId tag.text
  unfold RevocationRegistryId.parts
  cases hmethod : did.method with
  | some method =>
    rw [hmethod] at htext
    have hqualified : revRegIdQualified ("revreg:".toList ++ (method.name.toList ++ ':' ::
        plainText did.value.value credDefId.value tag.text)) =
          some (did.value.value, credDefId.value, "CL_ACCUM", tag.text, ()) := by
      refine literal_eq_some.mpr ⟨_, rfl, ?_⟩
      obtain ⟨c, cs, hname⟩ := List.exists_cons_of_ne_nil method.nonempty
      rw [span_isLowerAlnum method.alnum, hname]
      exact hbody
    rw [htext, hqualified]
    rfl
  | none =>
    rw [hmethod] at htext
    dsimp only at htext
    have hqualified :=
      revRegIdQualified_eq_none h.unmarked (did_noDelimiter hmethod) tag.noDelimiter
    have hsearch : revRegIdSearch (plainText did.value.value credDefId.value tag.text) =
        some (did.value.value, credDefId.value, "CL_ACCUM", tag.text, ()) := by
      obtain ⟨c, cs, hcs⟩ := List.exists_cons_of_ne_nil
        (show plainText did.value.value credDefId.value tag.text ≠ [] by simp [plainText])
      rw [hcs] at hbody ⊢
      rw [revRegIdSearch, hbody]
      rfl
    rw [htext, hqualified, hsearch]
    rfl

theorem revRegId_roundTrip_iff (node13 : Bool) (did : Did) (credDefId : CredentialDefinitionId)
    (tag : Component) :
    RevRegIdRoundTrip node13 did credDefId tag ↔
    Separable did.value.value credDefId.value tag.text := by
  constructor
  · intro h
    have hparts := h.parts
    unfold RevocationRegistryId.parts at hparts
    obtain ⟨⟨d, c, ty, tg, ⟨⟩⟩, hmatch, hr⟩ := Option.map_eq_some_iff.mp hparts
    obtain ⟨rfl, rfl, rfl,
        rfl⟩ : d = did.value.value ∧ c = credDefId.value ∧ ty = "CL_ACCUM" ∧ tg = tag.text := by
      simp only [Prod.mk.injEq] at hr
      obtain ⟨hd, hc, rfl, rfl⟩ := hr
      exact ⟨congrArg DidValue.value hd, congrArg CredentialDefinitionId.value hc, rfl, rfl⟩
    obtain ⟨s, hbody⟩ : ∃ s,
        revRegIdBody s = some (did.value.value, credDefId.value, "CL_ACCUM", tag.text, ()) := by
      rcases Option.or_eq_some_iff.mp hmatch with hqualified | ⟨-, hsearch⟩
      · obtain ⟨-, rest, -, -, hbody⟩ := exists_of_revRegIdQualified hqualified
        exact ⟨rest, hbody⟩
      · exact exists_suffix_of_revRegIdSearch hsearch
    obtain rfl := eq_plainText_of_revRegIdBody hbody
    exact separable_of_revRegIdBody (oneLine_value did) hbody
  · intro h
    have hparts := revRegId_match h
    refine ⟨hparts, ?_⟩
    unfold RevocationRegistryId.toUnqualified
    rw [hparts]

theorem intercalate_toList_cons {piece next : String} {rest : List String} :
    (delimiter.intercalate (piece :: next :: rest)).toList =
      piece.toList ++ ':' :: (delimiter.intercalate (next :: rest)).toList := by
  simp [delimiter]

theorem intercalate_toList_ne_nil {pieces : List String} (hne : pieces ≠ [])
    (hlast : pieces.getLast? ≠ some "") :
    (delimiter.intercalate pieces).toList ≠ [] := by
  obtain ⟨piece, pieces, rfl⟩ := List.exists_cons_of_ne_nil hne
  cases pieces with
  | nil => simpa using hlast
  | cons next rest =>
    rw [intercalate_toList_cons]
    simp

/-- The marker stands inside when a piece before the last is the marker. -/
theorem innerMarker_intercalate {pieces : List String} (h : NoDelimiter pieces)
    (hlast : pieces.getLast? ≠ some "") :
    InnerMarker (delimiter.intercalate pieces).toList ↔ "4" ∈ pieces.dropLast := by
  have hmarker : ":4:".toList = [':', '4', ':'] := by decide
  induction pieces with
  | nil =>
    refine iff_of_false ?_ (by simp)
    rintro ⟨before, after, -, hsplit⟩
    have hcount := congrArg (List.count ':') hsplit
    rw [hmarker] at hcount
    simp at hcount
    omega
  | cons piece pieces ih =>
    have hpiece : ':' ∉ piece.toList := h piece List.mem_cons_self
    cases pieces with
    | nil =>
      refine iff_of_false ?_ (by simp)
      rintro ⟨before, after, -, hsplit⟩
      have hcount := congrArg (List.count ':') hsplit
      rw [hmarker, String.intercalate_singleton] at hcount
      simp [List.count_eq_zero.mpr hpiece] at hcount
      omega
    | cons next rest =>
      have hrest : NoDelimiter (next :: rest) :=
        fun piece' hmem => h piece' (List.mem_cons_of_mem _ hmem)
      have hlast' : (next :: rest).getLast? ≠ some "" := by simpa using hlast
      have hne := intercalate_toList_ne_nil (List.cons_ne_nil next rest) hlast'
      have ih' : InnerMarker (delimiter.intercalate (next :: rest)).toList ↔
          "4" ∈ (next :: rest).dropLast :=
        ih hrest hlast'
      rw [List.dropLast_cons_cons, List.mem_cons, ← ih', intercalate_toList_cons]
      generalize (delimiter.intercalate (next :: rest)).toList = text at hne
      constructor
      · rintro ⟨before, after, hafter, hsplit⟩
        rw [hmarker] at hsplit
        cases before with
        | nil =>
          have hjoined : piece.toList ++ ':' :: text = ['4'] ++ ':' :: after := by
            simpa using hsplit
          obtain ⟨hfour, -⟩ := (joined_inj_of_left hpiece (by decide)).mp hjoined
          exact Or.inl (String.toList_inj.mp hfour).symm
        | cons c before =>
          right
          have hjoined : piece.toList ++ ':' :: text = before ++ ':' :: ('4' :: ':' :: after) := by
            simpa using (List.cons.inj hsplit).2
          rcases joined_eq_iff.mp hjoined with ⟨-, htext⟩ | ⟨x, -, htext⟩ | ⟨x, hx, -⟩
          · exact ⟨[], after, hafter, by simp [hmarker, htext]⟩
          · exact ⟨':' :: x, after, hafter, by simp [hmarker, htext]⟩
          · exact absurd (hx ▸ by simp) hpiece
      · rintro (rfl | ⟨before, after, hafter, hsplit⟩)
        · exact ⟨[], text, hne, by simp [hmarker]⟩
        · exact ⟨':' :: piece.toList ++ before, after, hafter, by simp [hsplit]⟩

/-- When a revocation registry id gives back what it was made of: the credential definition id has
no marker inside, which for one with a tag means that no piece before the tag is the marker. -/
theorem revocationIds_roundTrip_iff (node13 : Bool) (did : Did) (credDefId : CredentialDefinitionId)
    (tag : Component) (p : CredDefParts) :
    (RevRegIdRoundTrip node13 did credDefId tag ↔
      Separable did.value.value credDefId.value tag.text) ∧
    (p.did.Simple → p.schema.Simple → p.tag.text ≠ "" →
      (InnerMarker p.id.value.toList ↔ "4" ∈ p.pieces.dropLast)) := by
  refine ⟨revRegId_roundTrip_iff node13 did credDefId tag, fun hdid hschema htag => ?_⟩
  rw [p.value_eq]
  exact innerMarker_intercalate (CredDefParts.pieces_noDelimiter hdid hschema)
    (p.getLast_pieces htag)

/-- `NcYxiDXkpYi6ov5FcYDi1e`, its credential definition for the schema with the given number, and a
registry. -/
def registryOfSchema (number : ℕ) : Did × CredDefParts × Component :=
  (⟨none, "NcYxiDXkpYi6ov5FcYDi1e", sampleMain_oneLine, sampleMain_plain⟩,
    ⟨⟨none, "NcYxiDXkpYi6ov5FcYDi1e", sampleMain_oneLine, sampleMain_plain⟩, .seqNo number,
      ⟨"CL", sampleSignature_noDelimiter⟩, ⟨"tag", sampleTag_noDelimiter⟩⟩,
    ⟨"TAG_1", by decide⟩)

theorem revocationIds_roundTrip_iff_schemaFour : (registryOfSchema 4).2.1.tag.text ≠ "" ∧
    (InnerMarker (registryOfSchema 4).2.1.id.value.toList ↔
      "4" ∈ (registryOfSchema 4).2.1.pieces.dropLast) :=
  ⟨by decide, (revocationIds_roundTrip_iff false (registryOfSchema 4).1 (registryOfSchema 4).2.1.id
    (registryOfSchema 4).2.2 (registryOfSchema 4).2.1).2 (show ':' ∉ "NcYxiDXkpYi6ov5FcYDi1e".toList by decide) trivial
      (by decide)⟩

theorem not_innerMarker {text : List Char} (h : '4' ∉ text) : ¬ InnerMarker text := by
  rintro ⟨before, after, -, hsplit⟩
  have hmem : '4' ∈ ':' :: text := by simp [hsplit]
  simp [h] at hmem

/-- For schema number 4 the registry id is cut at that number. -/
theorem schemaFour_not_roundTrip :
    ¬ RevRegIdRoundTrip false (registryOfSchema 4).1 (registryOfSchema 4).2.1.id
      (registryOfSchema 4).2.2 ∧
    (RevocationRegistryId.new (registryOfSchema 4).1.value
      (registryOfSchema 4).2.1.id "CL_ACCUM" "TAG_1").parts =
      some (⟨"NcYxiDXkpYi6ov5FcYDi1e:4:NcYxiDXkpYi6ov5FcYDi1e:3:CL"⟩, ⟨"tag"⟩, "CL_ACCUM",
        "TAG_1") := by
  have hparts :
      (RevocationRegistryId.new (registryOfSchema 4).1.value (registryOfSchema 4).2.1.id "CL_ACCUM"
      "TAG_1").parts =
      some (⟨"NcYxiDXkpYi6ov5FcYDi1e:4:NcYxiDXkpYi6ov5FcYDi1e:3:CL"⟩, ⟨"tag"⟩, "CL_ACCUM",
        "TAG_1") := by
    have hseparable : Separable "NcYxiDXkpYi6ov5FcYDi1e:4:NcYxiDXkpYi6ov5FcYDi1e:3:CL"
        "tag" "TAG_1" :=
      ⟨by decide, by decide, by decide, by decide, by decide, not_innerMarker (by decide)⟩
    have hbody := revRegIdBody_of_separable hseparable (by decide) (by decide)
    have htext : plainText "NcYxiDXkpYi6ov5FcYDi1e:4:NcYxiDXkpYi6ov5FcYDi1e:3:CL" "tag" "TAG_1" =
        (RevocationRegistryId.new (registryOfSchema 4).1.value
          (registryOfSchema 4).2.1.id "CL_ACCUM" "TAG_1").value.toList := by decide
    have hqualified : revRegIdQualified (RevocationRegistryId.new (registryOfSchema 4).1.value
        (registryOfSchema 4).2.1.id "CL_ACCUM" "TAG_1").value.toList = none := by decide
    rw [htext] at hbody
    obtain ⟨c, cs, hcs⟩ :=
      List.exists_cons_of_ne_nil (show (RevocationRegistryId.new (registryOfSchema 4).1.value
      (registryOfSchema 4).2.1.id "CL_ACCUM" "TAG_1").value.toList ≠ [] by decide)
    unfold RevocationRegistryId.parts
    rw [hqualified]
    rw [hcs] at hbody ⊢
    rw [revRegIdSearch, hbody]
    rfl
  refine ⟨fun h => ?_, hparts⟩
  have hexact := h.parts
  rw [show (registryOfSchema 4).2.2.text = "TAG_1" from rfl, hparts] at hexact
  have hdid : DidValue.mk "NcYxiDXkpYi6ov5FcYDi1e:4:NcYxiDXkpYi6ov5FcYDi1e:3:CL" ≠
      (registryOfSchema 4).1.value := by
    decide
  exact hdid (congrArg Prod.fst (Option.some.inj hexact))

end Parts

end SimpleAsset.Indy.Anoncreds
