import SimpleAsset.Cli.CommandExecutor

/-! Parameters that are written between quotes (cli, command_executor.rs). -/
namespace SimpleAsset.Cli
open SimpleAsset.Library
open Indy (isWhitespace)

section Written

/-- A backslash goes before every backslash and quote. -/
def escape : List Char → List Char
  | [] => []
  | c :: cs => if c = '\\' ∨ c = '"' then '\\' :: c :: escape cs else c :: escape cs

def quoted (value : List Char) : List Char := '"' :: (escape value ++ ['"'])

/-- `name="value"`. -/
def written (param : String × String) : List Char := param.1.toList ++ '=' :: quoted param.2.toList

/-- A text that is made of words with whitespace between them. -/
inductive Separated : List (List Char) → List Char → Prop
  | nil : Separated [] []
  | last (word : List Char) : Separated [word] word
  | cons {word gap line : List Char} {words : List (List Char)} : gap ≠ [] →
      (∀ c ∈ gap, isWhitespace c) →
      words ≠ [] → Separated words line → Separated (word :: words) (word ++ gap ++ line)

/-- The crate turns an escaped backslash or quote into the character and leaves other text alone. -/
structure Unescapes (unescape : List Char → Option (List Char)) : Prop where
  nil : unescape [] = some []
  plain : ∀ c cs, c ≠ '\\' → unescape (c :: cs) = (unescape cs).map (c :: ·)
  escaped : ∀ c cs, c = '\\' ∨ c = '"' → unescape ('\\' :: c :: cs) = (unescape cs).map (c :: ·)

end Written

section Splitting
variable {name value rest word line : List Char} {words : List (List Char)}

/-- Text in which nothing ends a word and nothing quotes. -/
def Plain (s : List Char) : Prop := ∀ c ∈ s, isWhitespace c = false ∧ c ≠ '"' ∧ c ≠ '\\'

/-- A word with more text before it. -/
def prepend (s : List Char) (read : List Char × List Char) : List Char × List Char :=
  (s ++ read.1, read.2)

theorem splitWord_plain (h : Plain name) (rest : List Char) :
    splitWord false false (name ++ rest) = prepend name (splitWord false false rest) := by
  induction name with
  | nil => rfl
  | cons c name ih =>
    obtain ⟨⟨hspace, hquote, hbackslash⟩, hname⟩ := List.forall_mem_cons.mp h
    rw [List.cons_append, splitWord_cons _ _ (by simp [hspace])]
    simp only [hquote, hbackslash, decide_false, Bool.and_false, Bool.false_eq_true,
      if_false, ih hname]
    rfl

/-- Whether the character before the next one is a backslash, after some text. -/
def afterValue (isQuoteEscape : Bool) (value : List Char) : Bool :=
  (value.getLast?.map fun c => decide (c = '\\')).getD isQuoteEscape

theorem afterValue_cons (isQuoteEscape : Bool) (c : Char) (value : List Char) :
    afterValue isQuoteEscape (c :: value) = afterValue (c = '\\') value := by
  rw [afterValue, afterValue, List.getLast?_cons]
  cases value.getLast? <;> rfl

/-- Between quotes an escaped value is taken as it is. -/
theorem splitWord_escape (isQuoteEscape : Bool) (value rest : List Char) :
    splitWord isQuoteEscape true (escape value ++ rest) =
      prepend (escape value) (splitWord (afterValue isQuoteEscape value) true rest) := by
  induction value generalizing isQuoteEscape with
  | nil => rfl
  | cons c value ih =>
    rw [afterValue_cons, escape]
    split_ifs with h
    · rw [List.cons_append, List.cons_append, splitWord_cons _ _ (by simp),
        splitWord_cons _ _ (by simp)]
      simp only [Char.reduceEq, decide_false, decide_true, Bool.and_false,
        Bool.false_eq_true, if_false, Bool.not_true, Bool.false_and, ih]
      rfl
    · obtain ⟨hbackslash, hquote⟩ := not_or.mp h
      rw [List.cons_append, splitWord_cons _ _ (by simp)]
      simp only [hquote, decide_false, Bool.and_false, Bool.false_eq_true, if_false, ih]
      rfl

/-- The closing quote is not seen after a backslash. -/
theorem splitWord_quoted (hname : Plain name) (value rest : List Char) :
    splitWord false false (name ++ quoted value ++ rest) =
      prepend (name ++ quoted value) (splitWord false (value.getLast? = some '\\') rest) := by
  have hopen : isWhitespace '"' = false := by decide
  have hafter : afterValue false value = decide (value.getLast? = some '\\') := by
    rw [afterValue]
    cases value.getLast? <;> simp
  rw [List.append_assoc, splitWord_plain hname, quoted, List.cons_append, List.append_assoc,
    splitWord_cons _ _ (by simp [hopen])]
  simp only [Bool.not_false, decide_true, Bool.and_self, if_true, Char.reduceEq, decide_false,
    splitWord_escape, hafter]
  rw [List.singleton_append, splitWord_cons _ _ (by simp)]
  by_cases h : value.getLast? = some '\\' <;> simp [h, prepend]

/-- A plain name, or nothing, and a quoted value. -/
def IsWord (word : List Char) : Prop := ∃ name value, Plain name ∧ word = name ++ quoted value

theorem IsWord.exists_cons (h : IsWord word) : ∃ c cs, word = c :: cs ∧ isWhitespace c = false := by
  obtain ⟨name, value, hname, rfl⟩ := h
  cases name with
  | nil => exact ⟨'"', _, rfl, by decide⟩
  | cons c name => exact ⟨c, _, rfl, (hname c List.mem_cons_self).1⟩

theorem IsWord.getLast? (h : IsWord word) : word.getLast? = some '"' := by
  obtain ⟨name, value, -, rfl⟩ := h
  rw [quoted, List.getLast?_append, ← List.cons_append, List.getLast?_append]
  rfl

theorem Separated.exists_cons (h : Separated words line) (hne : words ≠ [])
    (hwords : ∀ word ∈ words, IsWord word) :
    ∃ c cs, line = c :: cs ∧ isWhitespace c = false := by
  cases h with
  | nil => exact absurd rfl hne
  | last => exact (hwords _ List.mem_cons_self).exists_cons
  | cons hgap hspace hwordsNe hrest =>
    obtain ⟨c, cs, hword, hc⟩ := (hwords _ List.mem_cons_self).exists_cons
    exact ⟨c, _, by rw [hword, List.cons_append, List.cons_append], hc⟩

theorem Separated.getLast? (h : Separated words line) (hne : words ≠ [])
    (hwords : ∀ word ∈ words, IsWord word) :
    line.getLast? = some '"' := by
  induction h with
  | nil => exact absurd rfl hne
  | last word => exact (hwords word List.mem_cons_self).getLast?
  | cons hgap hspace hwordsNe hrest ih =>
    rw [List.getLast?_append, ih hwordsNe fun word hword =>
      hwords word (List.mem_cons_of_mem _ hword)]
    rfl

theorem trimStart_gap {gap : List Char} (hgap : ∀ c ∈ gap, isWhitespace c) {c : Char}
    {cs : List Char} (hc : isWhitespace c = false) : trimStart (gap ++ c :: cs) = c :: cs := by
  rw [trimStart, List.dropWhile_append_of_pos hgap, List.dropWhile_cons_of_neg (by simp [hc])]

/-- A line of words has no whitespace around it. -/
theorem Separated.trim_eq (h : Separated words line) (hwords : ∀ word ∈ words, IsWord word) :
    trim line = line := by
  by_cases hne : words = []
  · subst hne
    cases h
    rfl
  · obtain ⟨c, cs, rfl, hc⟩ := h.exists_cons hne hwords
    have hlast := h.getLast? hne hwords
    rw [← List.head?_reverse] at hlast
    obtain ⟨before, hbefore⟩ := List.head?_eq_some_iff.mp hlast
    have hquote : isWhitespace '"' = false := by decide
    have hstart : trimStart (c :: cs) = c :: cs := List.dropWhile_cons_of_neg (by simp [hc])
    rw [trim, hstart, hbefore, List.dropWhile_cons_of_neg (by simp [hquote]), ← hbefore,
      List.reverse_reverse]

/-- A word is read, unless its value ends with a backslash and more words follow. -/
theorem splitFirstWord_of_good (hname : Plain name)
    (h : Separated ((name ++ quoted value) :: words) line)
    (hwords : ∀ word ∈ words, IsWord word) (hgood : value.getLast? ≠ some '\\' ∨ words = []) :
    ∃ tail, splitFirstWord line = (name ++ quoted value, tail) ∧ Separated words tail := by
  have hall : ∀ word ∈ (name ++ quoted value) :: words, IsWord word :=
    List.forall_mem_cons.mpr ⟨⟨name, value, hname, rfl⟩, hwords⟩
  rw [splitFirstWord, h.trim_eq hall]
  cases h with
  | last =>
    have hsplit := splitWord_quoted hname value []
    rw [List.append_nil] at hsplit
    refine ⟨[], ?_, .nil⟩
    rw [hsplit, splitWord, prepend, List.append_nil]
  | @cons _ gap line _ hgap hspace hne hrest =>
    have hend : value.getLast? ≠ some '\\' := hgood.resolve_right hne
    obtain ⟨c, cs, hline, hc⟩ := hrest.exists_cons hne hwords
    obtain ⟨space, gap, rfl⟩ := List.exists_cons_of_ne_nil hgap
    refine ⟨line, ?_, hrest⟩
    rw [List.append_assoc, splitWord_quoted hname, decide_eq_false hend, List.cons_append,
      splitWord_of_whitespace _ (hspace space List.mem_cons_self), hline, ← List.cons_append,
      trimStart_gap hspace hc, prepend, List.append_nil]

/-- A word whose value ends with a backslash takes text of the next one along. -/
theorem splitFirstWord_of_backslash (hname : Plain name)
    (h : Separated ((name ++ quoted value) :: words) line)
    (hwords : ∀ word ∈ words, IsWord word) (hbad : value.getLast? = some '\\') (hne : words ≠ []) :
    ∃ more tail, more ≠ [] ∧ splitFirstWord line = (name ++ quoted value ++ more, tail) := by
  have hall : ∀ word ∈ (name ++ quoted value) :: words, IsWord word :=
    List.forall_mem_cons.mpr ⟨⟨name, value, hname, rfl⟩, hwords⟩
  rw [splitFirstWord, h.trim_eq hall]
  cases h with
  | last => exact absurd rfl hne
  | @cons _ gap line _ hgap hspace hne hrest =>
    obtain ⟨space, gap, rfl⟩ := List.exists_cons_of_ne_nil hgap
    rw [List.append_assoc, splitWord_quoted hname, decide_eq_true hbad, List.cons_append,
      splitWord_cons _ _ (by simp)]
    exact ⟨_, _, List.cons_ne_nil _ _, rfl⟩

end Splitting

section Reading
variable {unescape : List Char → Option (List Char)} {command : CommandMetadata}
    {res res' : CommandParams}
  {deferred deferred' : List String} {name : String} {value : List Char}

theorem unescape_append (h : Unescapes unescape) (value rest : List Char) :
    unescape (escape value ++ rest) = (unescape rest).map (value ++ ·) := by
  induction value with
  | nil => exact Option.map_id'.symm
  | cons c value ih =>
    rw [escape]
    split_ifs with hc
    · rw [List.cons_append, List.cons_append, h.escaped c _ hc, ih, Option.map_map]
      rfl
    · rw [List.cons_append, h.plain c _ (not_or.mp hc).1, ih, Option.map_map]
      rfl

theorem trimQuotes_quoted (value : List Char) : trimQuotes (quoted value) = escape value := by
  have hlast : (quoted value).getLast? = some '"' := by
    rw [quoted, ← List.cons_append, List.getLast?_append]
    rfl
  rw [trimQuotes, if_pos ⟨by simp [quoted], rfl, hlast⟩, quoted, List.tail_cons,
    List.dropLast_concat]

/-- A quoted value is read back. -/
theorem readValue_quoted (h : Unescapes unescape) (name : String) (value : List Char) :
    readValue unescape name (quoted value) = .ok (String.ofList value) := by
  have hread := unescape_append h value []
  rw [List.append_nil, h.nil, Option.map_some, List.append_nil] at hread
  rw [readValue, trimQuotes_quoted, hread]

/-- A quoted value is not read back if text follows. -/
theorem readValue_more (h : Unescapes unescape) {more : List Char} (hmore : more ≠ [])
    {read : String} (hread : readValue unescape name (quoted value ++ more) = .ok read) :
    read ≠ String.ofList value := by
  have hquote : ('"' : Char) ≠ '\\' := by decide
  have hlonger : ∀ text, unescape (trimQuotes (quoted value ++ more)) = some text →
      value.length < text.length := by
    intro text htext
    rw [trimQuotes] at htext
    split_ifs at htext with hquotes
    · -- the quote that was to close the value is still there
      rw [quoted, List.cons_append, List.tail_cons, List.append_assoc,
        List.dropLast_append_of_ne_nil (by simp),
        List.singleton_append, List.dropLast_cons_of_ne_nil hmore, unescape_append h,
        h.plain _ _ hquote, Option.map_map, Option.map_eq_some_iff] at htext
      obtain ⟨rest, -, rfl⟩ := htext
      simp
    · rw [quoted, List.cons_append, List.append_assoc, h.plain _ _ hquote, unescape_append h,
        Option.map_map, Option.map_eq_some_iff] at htext
      obtain ⟨rest, -, rfl⟩ := htext
      simp only [Function.comp_apply, List.length_cons, List.length_append]
      omega
  rw [readValue] at hread
  cases htext : unescape (trimQuotes (quoted value ++ more)) with
  | none =>
    rw [htext] at hread
    cases hread
  | some text =>
    rw [htext] at hread
    cases hread
    intro heq
    have hlength := hlonger text htext
    rw [String.ofList_injective heq] at hlength
    exact lt_irrefl _ hlength

theorem splitName_written (hname : '=' ∉ name.toList) (value : List Char) :
    splitName (name.toList ++ '=' :: value) = (name, some value) := by
  have hall : ∀ c ∈ name.toList, decide (c ≠ '=') = true := by
    intro c hc
    exact decide_eq_true fun heq => hname (heq ▸ hc)
  rw [splitName, List.takeWhile_append_of_pos hall, List.dropWhile_append_of_pos hall,
    List.takeWhile_cons_of_neg (by simp), List.dropWhile_cons_of_neg (by simp), List.append_nil,
    String.ofList_toList]

/-- A parameter that is known and has not been read yet. -/
theorem readParam_written {metadata : ParamMetadata}
    (hfind : command.params.find? (fun p => p.name = name) = some metadata)
    (hname : '=' ∉ name.toList) (hnew : name ∉ res) (value : List Char) :
    readParam unescape command res deferred (name.toList ++ '=' :: value) =
      (readValue unescape name value).map fun value => (res.insert name value, deferred) := by
  have hmetadata : metadata.name = name := by simpa using List.find?_some hfind
  rw [readParam, splitName_written hname]
  simp only [if_neg hnew, hfind, hmetadata]

/-- What has been read stays. -/
theorem lookup_of_readParam {param : List Char}
    (h : readParam unescape command res deferred param = .ok (res', deferred'))
    {v : String} (hv : res.lookup name = some v) (hname : name ∉ deferred) :
    res'.lookup name = some v ∧ name ∉ deferred' := by
  rw [readParam] at h
  generalize splitName param = split at h
  obtain ⟨other, value⟩ := split
  dsimp only at h
  split_ifs at h with hin
  have hne : name ≠ other := by
    rintro rfl
    exact hin (AList.lookup_isSome.mp (by rw [hv]; rfl))
  cases hfind : command.params.find? fun p => p.name = other with
  | none =>
    rw [hfind] at h
    cases h
  | some metadata =>
    have hmetadata : metadata.name = other := by simpa using List.find?_some hfind
    rw [hfind] at h
    dsimp only at h
    rw [hmetadata] at h
    cases value with
    | none =>
      dsimp only at h
      split_ifs at h
      cases h
      exact ⟨hv, by simp [hname, hne]⟩
    | some value =>
      dsimp only at h
      cases hread : readValue unescape other value with
      | error err =>
        rw [hread] at h
        cases h
      | ok read =>
        rw [hread] at h
        cases h
        exact ⟨by rw [AList.lookup_insert_ne hne, hv], hname⟩

theorem lookup_of_readParams {params : List Char}
    (h : readParams unescape command res deferred params = .ok (res', deferred')) {v : String}
    (hv : res.lookup name = some v) (hname : name ∉ deferred) :
    res'.lookup name = some v ∧ name ∉ deferred' := by
  induction hlength : params.length using Nat.strong_induction_on generalizing params res
    deferred with
  | _ length ih =>
    rw [readParams] at h
    split_ifs at h with hword
    · cases h
      exact ⟨hv, hname⟩
    · obtain ⟨read, hread, hrest⟩ := except_bind_eq_ok.mp h
      obtain ⟨hv, hname⟩ := lookup_of_readParam hread hv hname
      exact ih _ (hlength ▸ length_splitFirstWord_lt hword) hrest hv hname rfl

theorem lookup_of_askFor {answers : List (Except String String)}
    (h : askFor answers res deferred = some res')
    (hname : name ∉ deferred) : res'.lookup name = res.lookup name := by
  induction deferred generalizing answers res with
  | nil =>
    cases h
    rfl
  | cons param deferred ih =>
    rw [List.mem_cons, not_or] at hname
    rw [askFor] at h
    obtain ⟨answer, -, hrest⟩ := Option.bind_eq_some_iff.mp h
    rw [ih hrest hname.2, AList.lookup_insert_ne hname.1]

end Reading

/-- The names differ and are without what separates and quotes. -/
structure CommandMetadata.WellNamed (command : CommandMetadata) : Prop where
  nodup : ((command.mainParam.toList ++ command.params).map ParamMetadata.name).Nodup
  plain : ∀ param ∈ command.params, Plain param.name.toList ∧ '=' ∉ param.name.toList

/-- A value for the main parameter and for some of the others, in any order. -/
structure Assignment (command : CommandMetadata) where
  main : Option String
  params : List (String × String)
  main_given : main.isSome = command.mainParam.isSome
  nodup : (params.map Prod.fst).Nodup
  known : ∀ param ∈ params, param.1 ∈ command.params.map ParamMetadata.name

namespace Assignment
variable {command : CommandMetadata} (given : Assignment command)

def entries : List (String × String) :=
  (command.mainParam.toList.map ParamMetadata.name).zip given.main.toList ++ given.params

def values : List String := given.main.toList ++ given.params.map Prod.snd

/-- The main value comes first. -/
def words : List (List Char) :=
  given.main.toList.map (fun value => quoted value.toList) ++ given.params.map written

end Assignment

section Params
variable {unescape : List Char → Option (List Char)} {command : CommandMetadata}
    {res res' : CommandParams}
  {deferred deferred' : List String} {params : List (String × String)} {line : List Char}

variable (command) in
/-- What can be read next: a parameter that the command knows, with a name that can be taken off. -/
def Readable (param : String × String) : Prop :=
  (Plain param.1.toList ∧ '=' ∉ param.1.toList) ∧
  ∃ metadata, command.params.find? (fun p => p.name = param.1) = some metadata

theorem Readable.plain {param : String × String} (h : Readable command param) :
    Plain (param.1.toList ++ ['=']) := by
  intro c hc
  rcases List.mem_append.mp hc with hc | hc
  · exact h.1.1 c hc
  · rw [List.mem_singleton.mp hc]
    decide

theorem written_eq (param : String × String) :
    written param = param.1.toList ++ ['='] ++ quoted param.2.toList := by
  rw [written, List.append_assoc]
  rfl

theorem isWord_written (h : ∀ param ∈ params, Readable command param) :
    ∀ word ∈ params.map written, IsWord word := by
  intro word hword
  obtain ⟨param, hparam, rfl⟩ := List.mem_map.mp hword
  exact ⟨_, _, (h param hparam).plain, written_eq param⟩

/-- The quotes of a value are closed, or nothing follows. -/
def Closed (value : String) (params : List (String × String)) : Prop :=
  value.toList.getLast? ≠ some '\\' ∨ params = []

theorem closed_of_dropLast {value : String}
    (h : ∀ v ∈ (value :: params.map Prod.snd).dropLast, v.toList.getLast? ≠ some '\\') :
    Closed value params ∧ ∀ v ∈ (params.map Prod.snd).dropLast, v.toList.getLast? ≠ some '\\' := by
  by_cases hnil : params = []
  · subst hnil
    exact ⟨.inr rfl, fun v hv => absurd hv List.not_mem_nil⟩
  · rw [List.dropLast_cons_of_ne_nil (by simpa using hnil)] at h
    obtain ⟨hvalue, hparams⟩ := List.forall_mem_cons.mp h
    exact ⟨.inl hvalue, hparams⟩

theorem readParams_of_closed (h : Unescapes unescape) {param : String × String}
    (hparam : Readable command param) (hparams : ∀ p ∈ params, Readable command p)
    (hnew : param.1 ∉ res)
    (hline : Separated ((param :: params).map written) line) (hclosed : Closed param.2 params) :
    ∃ tail, Separated (params.map written) tail ∧
      ∀ deferred, readParams unescape command res deferred line =
      readParams unescape command (res.insert param.1 param.2) deferred tail := by
  obtain ⟨metadata, hfind⟩ := hparam.2
  rw [List.map_cons, written_eq] at hline
  obtain ⟨tail, hsplit, htail⟩ := splitFirstWord_of_good hparam.plain hline (isWord_written hparams)
    (hclosed.imp_right fun hnil => by rw [hnil]; rfl)
  refine ⟨tail, htail, fun deferred => ?_⟩
  rw [readParams, hsplit, dif_neg (by simp), ← written_eq, written,
    readParam_written hfind hparam.1.2 hnew, readValue_quoted h, String.ofList_toList]
  rfl

theorem open_of_closed {value : String} (hclosed : Closed value params)
    (h : ∃ v ∈ (value :: params.map Prod.snd).dropLast, v.toList.getLast? = some '\\') :
    ∃ v ∈ (params.map Prod.snd).dropLast, v.toList.getLast? = some '\\' := by
  obtain ⟨v, hv, hend⟩ := h
  by_cases hnil : params = []
  · subst hnil
    cases hv
  · rw [List.dropLast_cons_of_ne_nil (by simpa using hnil)] at hv
    rcases List.mem_cons.mp hv with rfl | hv
    · exact absurd hend (hclosed.resolve_right hnil)
    · exact ⟨v, hv, hend⟩

theorem lookup_eq_none {name : String} (h : name ∉ params.map Prod.fst) :
    params.lookup name = none := by
  refine List.lookup_eq_none_iff.mpr fun p hp => ?_
  have hne : name ≠ p.1 := fun heq => h (heq ▸ List.mem_map_of_mem hp)
  simpa using hne

theorem lookup_of_mem {e : String × String} (hnodup : (params.map Prod.fst).Nodup)
    (he : e ∈ params) :
    params.lookup e.1 = some e.2 := by
  obtain ⟨before, after, rfl⟩ := List.append_of_mem he
  refine List.lookup_eq_some_iff.mpr ⟨before, after, rfl, fun p hp => ?_⟩
  rw [List.map_append, List.nodup_append] at hnodup
  exact bne_iff_ne.mpr (hnodup.2.2 p.1 (List.mem_map_of_mem hp) e.1 (by simp)).symm

theorem forall_notMem_insert {name value : String} (hname : name ∉ params.map Prod.fst)
    (hnew : ∀ p ∈ params, p.1 ∉ res) :
    ∀ p ∈ params, p.1 ∉ res.insert name value := by
  intro p hp hin
  rcases (AList.mem_insert _).mp hin with heq | hin
  · exact hname (heq ▸ List.mem_map_of_mem hp)
  · exact hnew p hp hin

/-- The parameters are read back if the quotes of every value are closed. -/
theorem readParams_written (h : Unescapes unescape) (hparams : ∀ p ∈ params, Readable command p)
    (hnodup : (params.map Prod.fst).Nodup) (hnew : ∀ p ∈ params, p.1 ∉ res)
    (hline : Separated (params.map written) line)
    (hclosed : ∀ value ∈ (params.map Prod.snd).dropLast, value.toList.getLast? ≠ some '\\') :
    ∃ res', readParams unescape command res deferred line = .ok (res', deferred) ∧
      ∀ name, res'.lookup name = (params.lookup name).or (res.lookup name) := by
  induction params generalizing res line with
  | nil =>
    cases hline
    refine ⟨res, ?_, fun name => rfl⟩
    rw [readParams, dif_pos (by rfl)]
  | cons param params ih =>
    obtain ⟨hparam, hparams⟩ := List.forall_mem_cons.mp hparams
    obtain ⟨hfirst, hnodup⟩ := List.nodup_cons.mp hnodup
    obtain ⟨hnewFirst, hnew⟩ := List.forall_mem_cons.mp hnew
    obtain ⟨hclosedFirst, hclosedRest⟩ := closed_of_dropLast hclosed
    obtain ⟨tail, htail, hread⟩ :=
      readParams_of_closed h hparam hparams hnewFirst hline hclosedFirst
    obtain ⟨res', hrest, hlookup⟩ :=
      ih hparams hnodup (forall_notMem_insert hfirst hnew) htail hclosedRest
    refine ⟨res', (hread deferred).trans hrest, fun name => ?_⟩
    rw [hlookup, List.lookup_cons]
    by_cases hname : name = param.1
    · subst hname
      rw [lookup_eq_none hfirst, AList.lookup_insert, beq_self_eq_true]
      rfl
    · rw [AList.lookup_insert_ne hname, beq_eq_false_iff_ne.mpr hname]

/-- The first value whose quotes are not closed is not read back. -/
theorem readParams_misread (h : Unescapes unescape) (hparams : ∀ p ∈ params, Readable command p)
    (hnodup : (params.map Prod.fst).Nodup) (hnew : ∀ p ∈ params, p.1 ∉ res)
    (hdeferred : ∀ p ∈ params, p.1 ∉ deferred) (hline : Separated (params.map written) line)
    (hopen : ∃ value ∈ (params.map Prod.snd).dropLast, value.toList.getLast? = some '\\')
    (hread : readParams unescape command res deferred line = .ok (res', deferred')) :
    ∃ p ∈ params, ∃ v ≠ p.2, res'.lookup p.1 = some v ∧ p.1 ∉ deferred' := by
  induction params generalizing res line with
  | nil =>
    obtain ⟨value, hvalue, -⟩ := hopen
    cases hvalue
  | cons param params ih =>
    obtain ⟨hparam, hparams⟩ := List.forall_mem_cons.mp hparams
    obtain ⟨hfirst, hnodup⟩ := List.nodup_cons.mp hnodup
    obtain ⟨hnewFirst, hnew⟩ := List.forall_mem_cons.mp hnew
    obtain ⟨hdeferredFirst, hdeferred⟩ := List.forall_mem_cons.mp hdeferred
    have hne : params ≠ [] := by
      rintro rfl
      obtain ⟨value, hvalue, -⟩ := hopen
      cases hvalue
    by_cases hbad : param.2.toList.getLast? = some '\\'
    · rw [List.map_cons, written_eq] at hline
      obtain ⟨more, tail, hmore, hsplit⟩ :=
        splitFirstWord_of_backslash hparam.plain hline (isWord_written hparams) hbad
          (by simpa using hne)
      obtain ⟨metadata, hfind⟩ := hparam.2
      rw [readParams, hsplit, dif_neg (by simp), ← written_eq, written, List.append_assoc,
        List.cons_append, readParam_written hfind hparam.1.2 hnewFirst] at hread
      obtain ⟨read, hvalue, hrest⟩ := except_bind_eq_ok.mp hread
      cases hvalue' : readValue unescape param.1 (quoted param.2.toList ++ more) with
      | error err =>
        rw [hvalue'] at hvalue
        cases hvalue
      | ok v =>
        rw [hvalue'] at hvalue
        cases hvalue
        have hv := readValue_more h hmore hvalue'
        rw [String.ofList_toList] at hv
        exact ⟨param, List.mem_cons_self, v, hv,
          lookup_of_readParams hrest (AList.lookup_insert _) hdeferredFirst⟩
    · obtain ⟨tail, htail, hstep⟩ :=
        readParams_of_closed h hparam hparams hnewFirst hline (.inl hbad)
      obtain ⟨p, hp, hwrong⟩ := ih hparams hnodup (forall_notMem_insert hfirst hnew) hdeferred htail
        (open_of_closed (.inl hbad) hopen) ((hstep deferred).symm.trans hread)
      exact ⟨p, List.mem_cons_of_mem _ hp, hwrong⟩

end Params

section Lines
variable {unescape : List Char → Option (List Char)} {command : CommandMetadata}
    {res : CommandParams}
  {params : List (String × String)} {text : List Char} {line : String} {param : ParamMetadata}
  {value : String} {given : Assignment command} {answers : List (Except String String)}

theorem Assignment.main_eq_none (given : Assignment command) (hmain : command.mainParam = none) :
    given.main = none := by
  have hsome := given.main_given
  rw [hmain] at hsome
  exact Option.not_isSome_iff_eq_none.mp (by simp [hsome])

theorem Assignment.exists_main (given : Assignment command)
    (hmain : command.mainParam = some param) :
    ∃ value, given.main = some value := by
  have hsome := given.main_given
  rw [hmain] at hsome
  exact Option.isSome_iff_exists.mp hsome

theorem Assignment.readable (hcommand : command.WellNamed) (given : Assignment command) :
    ∀ p ∈ given.params, Readable command p := by
  intro p hp
  obtain ⟨metadata, hmetadata, hname⟩ := List.mem_map.mp (given.known p hp)
  refine ⟨hname ▸ hcommand.plain metadata hmetadata, ?_⟩
  exact Option.isSome_iff_exists.mp
    (List.find?_isSome.mpr ⟨metadata, hmetadata, by simpa using hname⟩)

theorem Assignment.main_notMem (hcommand : command.WellNamed) (given : Assignment command)
    (hmain : command.mainParam = some param) : param.name ∉ given.params.map Prod.fst := by
  have hnodup := hcommand.nodup
  rw [hmain, Option.toList_some, List.singleton_append, List.map_cons, List.nodup_cons] at hnodup
  intro hmem
  obtain ⟨p, hp, hname⟩ := List.mem_map.mp hmem
  exact hnodup.1 (hname ▸ given.known p hp)

theorem Assignment.lookup_entries (hcommand : command.WellNamed) (given : Assignment command)
    {e : String × String} (he : e ∈ given.entries) : given.entries.lookup e.1 = some e.2 := by
  refine lookup_of_mem ?_ he
  rw [Assignment.entries]
  cases hmain : command.mainParam with
  | none => exact given.nodup
  | some param =>
    obtain ⟨value, hgiven⟩ := given.exists_main hmain
    rw [hgiven]
    exact List.nodup_cons.mpr ⟨given.main_notMem hcommand hmain, given.nodup⟩

theorem plain_nil : Plain [] := fun _ hc => absurd hc List.not_mem_nil

theorem readMainParam_of_closed (h : Unescapes unescape) (hmain : command.mainParam = some param)
    (hparams : ∀ p ∈ params, Readable command p)
    (hline : Separated (quoted value.toList :: params.map written) text)
    (hclosed : Closed value params) :
    ∃ tail, readMainParam unescape command text = .ok (AList.insert param.name value ∅, tail) ∧
      Separated (params.map written) tail := by
  obtain ⟨tail, hsplit, htail⟩ := splitFirstWord_of_good plain_nil hline (isWord_written hparams)
    (hclosed.imp_right fun hnil => by rw [hnil]; rfl)
  refine ⟨tail, ?_, htail⟩
  rw [readMainParam, hmain]
  simp only [hsplit, List.nil_append]
  rw [if_neg (by simp [quoted]), readValue_quoted h, String.ofList_toList]
  rfl

theorem readMainParam_of_open (h : Unescapes unescape) (hmain : command.mainParam = some param)
    (hparams : ∀ p ∈ params, Readable command p)
    (hline : Separated (quoted value.toList :: params.map written) text)
    (hend : value.toList.getLast? = some '\\') (hne : params ≠ []) {tail : List Char}
    (hread : readMainParam unescape command text = .ok (res, tail)) :
    ∃ v ≠ value, res.lookup param.name = some v := by
  obtain ⟨more, rest, hmore, hsplit⟩ :=
    splitFirstWord_of_backslash plain_nil hline (isWord_written hparams) hend (by simpa using hne)
  rw [readMainParam, hmain] at hread
  simp only [hsplit, List.nil_append] at hread
  rw [if_neg (by simp [quoted])] at hread
  cases hvalue : readValue unescape param.name (quoted value.toList ++ more) with
  | error err =>
    rw [hvalue] at hread
    cases hread
  | ok v =>
    rw [hvalue] at hread
    cases hread
    have hv := readValue_more h hmore hvalue
    rw [String.ofList_toList] at hv
    exact ⟨v, hv, AList.lookup_insert _⟩

/-- What is read before the user is asked. -/
theorem parseParams_of_read {tail : List Char} {res' : CommandParams}
    (hmain : readMainParam unescape command line.toList = .ok (res, tail))
    (hread : readParams unescape command res [] tail = .ok (res', []))
    (answers : List (Except String String)) :
    parseParams unescape command line answers = some (.ok res') := by
  rw [parseParams, hmain]
  simp only [hread]
  rfl

theorem exists_of_parseParams {res' : CommandParams}
    (h : parseParams unescape command line answers = some (.ok res')) : ∃ res tail read deferred,
      readMainParam unescape command line.toList = .ok (res, tail) ∧
      readParams unescape command res [] tail = .ok (read, deferred) ∧
      askFor answers read deferred = some res' := by
  rw [parseParams] at h
  cases hmain : readMainParam unescape command line.toList with
  | error err =>
    rw [hmain] at h
    cases h
  | ok main =>
    obtain ⟨res, tail⟩ := main
    rw [hmain] at h
    dsimp only at h
    cases hread : readParams unescape command res [] tail with
    | error err =>
      rw [hread] at h
      cases h
    | ok step =>
      obtain ⟨read, deferred⟩ := step
      rw [hread] at h
      obtain ⟨asked, hasked, heq⟩ := Option.map_eq_some_iff.mp h
      cases heq
      exact ⟨res, tail, read, deferred, rfl, hread, hasked⟩

/-- A line of which all quotes are closed gives the assignment. -/
theorem parseParams_written (h : Unescapes unescape) (hcommand : command.WellNamed)
    (hline : Separated given.words line.toList) (answers : List (Except String String))
    (hclosed : ∀ value ∈ given.values.dropLast, value.toList.getLast? ≠ some '\\') :
    ∃ res, parseParams unescape command line answers = some (.ok res) ∧
      ∀ name, res.lookup name = given.entries.lookup name := by
  have hparams := given.readable hcommand
  cases hmain : command.mainParam with
  | none =>
    have hgiven := given.main_eq_none hmain
    rw [Assignment.words, hgiven] at hline
    rw [Assignment.values, hgiven] at hclosed
    have hnew : ∀ p ∈ given.params, p.1 ∉ (∅ : CommandParams) := fun p _ => AList.notMem_empty p.1
    obtain ⟨res, hread, hlookup⟩ := readParams_written h hparams given.nodup hnew hline hclosed
    refine ⟨res, parseParams_of_read (by rw [readMainParam, hmain]) hread answers, fun name => ?_⟩
    rw [hlookup, AList.lookup_empty, Option.or_none, Assignment.entries, hmain, hgiven]
    rfl
  | some param =>
    obtain ⟨value, hgiven⟩ := given.exists_main hmain
    rw [Assignment.words, hgiven] at hline
    rw [Assignment.values, hgiven] at hclosed
    obtain ⟨hclosedMain, hclosed⟩ := closed_of_dropLast hclosed
    obtain ⟨tail, hread, htail⟩ := readMainParam_of_closed h hmain hparams hline hclosedMain
    have hnew : ∀ p ∈ given.params, p.1 ∉ AList.insert param.name value (∅ : CommandParams) :=
      forall_notMem_insert (given.main_notMem hcommand hmain) fun p _ => AList.notMem_empty p.1
    obtain ⟨res, hrest, hlookup⟩ := readParams_written h hparams given.nodup hnew htail hclosed
    refine ⟨res, parseParams_of_read hread hrest answers, fun name => ?_⟩
    rw [hlookup, Assignment.entries, hmain, hgiven]
    change _ = ((param.name, value) :: given.params).lookup name
    rw [List.lookup_cons]
    by_cases hname : name = param.name
    · subst hname
      rw [lookup_eq_none (given.main_notMem hcommand hmain), AList.lookup_insert, beq_self_eq_true]
      rfl
    · rw [AList.lookup_insert_ne hname, beq_eq_false_iff_ne.mpr hname, AList.lookup_empty,
        Option.or_none]

/-- A line with quotes that are not closed does not give the assignment. -/
theorem parseParams_misread (h : Unescapes unescape) (hcommand : command.WellNamed)
    (hline : Separated given.words line.toList)
    (hopen : ∃ value ∈ given.values.dropLast, value.toList.getLast? = some '\\')
    (hparse : parseParams unescape command line answers = some (.ok res)) :
    ∃ e ∈ given.entries, ∃ v ≠ e.2, res.lookup e.1 = some v := by
  have hparams := given.readable hcommand
  obtain ⟨mainRes, tail, read, deferred, hmainRead, hread, hasked⟩ := exists_of_parseParams hparse
  have hmisread : ∀ {text}, Separated (given.params.map written) text →
      (∀ p ∈ given.params, p.1 ∉ mainRes) →
      text = tail →
      (∃ value ∈ (given.params.map Prod.snd).dropLast, value.toList.getLast? = some '\\') →
      ∃ e ∈ given.entries, ∃ v ≠ e.2, res.lookup e.1 = some v := by
    rintro text htext hnew rfl hopen
    obtain ⟨p, hp, v, hv, hlookup, hdeferred⟩ :=
      readParams_misread h hparams given.nodup hnew (fun p _ => List.not_mem_nil) htext hopen hread
    exact ⟨p, List.mem_append_right _ hp, v, hv, by rw [lookup_of_askFor hasked hdeferred, hlookup]⟩
  cases hmain : command.mainParam with
  | none =>
    have hgiven := given.main_eq_none hmain
    rw [Assignment.words, hgiven] at hline
    rw [Assignment.values, hgiven] at hopen
    rw [readMainParam, hmain] at hmainRead
    cases hmainRead
    exact hmisread hline (fun p _ => AList.notMem_empty p.1) rfl hopen
  | some param =>
    obtain ⟨value, hgiven⟩ := given.exists_main hmain
    rw [Assignment.words, hgiven] at hline
    rw [Assignment.values, hgiven] at hopen
    by_cases hclosed : Closed value given.params
    · obtain ⟨tail', hmainRead', htail⟩ := readMainParam_of_closed h hmain hparams hline hclosed
      cases hmainRead'.symm.trans hmainRead
      refine hmisread htail ?_ rfl (open_of_closed hclosed hopen)
      exact forall_notMem_insert (given.main_notMem hcommand hmain) fun p _ =>
        AList.notMem_empty p.1
    · rw [Closed, not_or, not_not] at hclosed
      obtain ⟨v, hv, hlookup⟩ :=
        readMainParam_of_open h hmain hparams hline hclosed.1 hclosed.2 hmainRead
      obtain ⟨hkept, hdeferred⟩ := lookup_of_readParams hread hlookup List.not_mem_nil
      refine ⟨(param.name, value), ?_, v, hv, by rw [lookup_of_askFor hasked hdeferred, hkept]⟩
      rw [Assignment.entries, hmain, hgiven]
      exact List.mem_append_left _ List.mem_cons_self

/-- A line gives back what was written exactly if no value but the last ends with a backslash. -/
theorem parseParams_iff (h : Unescapes unescape) (hcommand : command.WellNamed)
    (given : Assignment command)
    (hline : Separated given.words line.toList) (answers : List (Except String String)) :
    (∃ res, parseParams unescape command line answers = some (.ok res) ∧
      ∀ name, res.lookup name = given.entries.lookup name) ↔
    ∀ value ∈ given.values.dropLast, value.toList.getLast? ≠ some '\\' := by
  constructor
  · rintro ⟨res, hparse, hlookup⟩ value hvalue hend
    obtain ⟨e, he, v, hv, hread⟩ :=
      parseParams_misread h hcommand hline ⟨value, hvalue, hend⟩ hparse
    rw [hlookup, given.lookup_entries hcommand he] at hread
    exact hv (Option.some.inj hread).symm
  · exact parseParams_written h hcommand hline answers

/-- The part of the crate's function that is about backslashes and quotes. -/
def unescapeQuotes : List Char → Option (List Char)
  | [] => some []
  | c :: cs =>
    if c = '\\' then
      match cs with
      | [] => none
      | c :: cs => if c = '\\' ∨ c = '"' then (unescapeQuotes cs).map (c :: ·) else none
    else (unescapeQuotes cs).map (c :: ·)

theorem unescapes_unescapeQuotes : Unescapes unescapeQuotes where
  nil := rfl
  plain c cs h := by rw [unescapeQuotes.eq_def]; exact if_neg h
  escaped c cs h := by rw [unescapeQuotes.eq_def]; exact if_pos h

/-- Two parameters without a main one. -/
def twoParams : CommandMetadata := ⟨none, [⟨"a", false⟩, ⟨"b", false⟩]⟩

theorem wellNamed_twoParams : twoParams.WellNamed where
  nodup := by decide
  plain := by
    have hall : ∀ param ∈ twoParams.params,
        param.name.toList.all fun c => !isWhitespace c && c != '"' && c != '\\' &&
        c != '=' := by decide
    intro param hparam
    have hchars := List.all_eq_true.mp (hall param hparam)
    refine ⟨fun c hc => ?_, fun hc => ?_⟩
    · have hplain := hchars c hc
      simp only [Bool.and_eq_true, Bool.not_eq_true', bne_iff_ne] at hplain
      exact ⟨hplain.1.1.1, hplain.1.1.2, hplain.1.2⟩
    · have hequals := hchars _ hc
      simp at hequals

def twoValues (a b : String) : Assignment twoParams where
  main := none
  params := [("a", a), ("b", b)]
  main_given := rfl
  nodup := by simp
  known := by simp [twoParams]

theorem separated_twoValues (a b : String) :
    Separated (twoValues a b).words (written ("a", a) ++ [' '] ++ written ("b", b)) :=
  .cons (by simp) (List.forall_mem_singleton.mpr (by decide)) (by simp) (.last _)

theorem parseParams_two :
    (∃ res, parseParams unescapeQuotes twoParams "a=\"x y\" b=\"\\\\\"" [] = some (.ok res) ∧
      ∀ name, res.lookup name = (twoValues "x y" "\\").entries.lookup name) ↔
    ∀ value ∈ (twoValues "x y" "\\").values.dropLast, value.toList.getLast? ≠ some '\\' := by
  have hline : "a=\"x y\" b=\"\\\\\"".toList = written ("a", "x y") ++ [' '] ++
      written ("b", "\\") := by decide
  exact parseParams_iff unescapes_unescapeQuotes wellNamed_twoParams (twoValues "x y" "\\")
    (hline ▸ separated_twoValues "x y" "\\") []

/-- After a backslash the second parameter becomes a part of the first. -/
theorem not_parseParams_backslash : Unescapes unescapeQuotes ∧ twoParams.WellNamed ∧
    Separated (twoValues "\\" "x").words "a=\"\\\\\" b=\"x\"".toList ∧
    ¬ ∃ res, parseParams unescapeQuotes twoParams "a=\"\\\\\" b=\"x\"" [] = some (.ok res) ∧
      ∀ name, res.lookup name = (twoValues "\\" "x").entries.lookup name := by
  have hline : "a=\"\\\\\" b=\"x\"".toList = written ("a", "\\") ++ [' '] ++
      written ("b", "x") := by decide
  have hseparated : Separated (twoValues "\\" "x").words "a=\"\\\\\" b=\"x\"".toList :=
    hline ▸ separated_twoValues "\\" "x"
  refine ⟨unescapes_unescapeQuotes, wellNamed_twoParams, hseparated, ?_⟩
  rintro ⟨res, hparse, hlookup⟩
  have hopen : ∃ value ∈ (twoValues "\\" "x").values.dropLast, value.toList.getLast? = some '\\' :=
    ⟨"\\", by simp [Assignment.values, twoValues], by decide⟩
  obtain ⟨e, he, v, hv, hread⟩ :=
    parseParams_misread unescapes_unescapeQuotes wellNamed_twoParams hseparated hopen hparse
  rw [hlookup, Assignment.lookup_entries wellNamed_twoParams _ he] at hread
  exact hv (Option.some.inj hread).symm

end Lines

end SimpleAsset.Cli
