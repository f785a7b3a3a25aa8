import Mathlib.Data.List.Forall2
import SimpleAsset.IndyNode.Upgrader
import SimpleAsset.Library.Csv

/-! The log of upgrades: what is written of an event, and what is read back after a restart
(`action_log.py`, `upgrade_log.py`). -/
namespace SimpleAsset.IndyNode
open SimpleAsset.Library

/-- `datetime`, `dateutil` and the classes of versions: texts of times and versions, what is made of
texts, and when `==` holds. `none` is an exception. -/
structure LogTexts (ν δ : Type) where
  strTime : δ → String
  parseDt : String → Option δ
  eqTime : δ → δ → Prop
  strVersion : ν → String
  /-- `src_version_cls(pkg_name)(version)`. -/
  srcVersion (pkgName version : String) : Option ν
  eqVersion : ν → ν → Prop

structure ActionLogEvent (ν δ : Type) where
  ts : δ
  evType : ActionLogEvents
  data : UpgradeLogData ν δ
  deriving DecidableEq, Repr

/-- `APP_NAME`. -/
def appName : String := "indy-node"

namespace ActionLogEvents

/-- `str(ev_type)`. -/
def str : ActionLogEvents → String
  | scheduled => "scheduled"
  | started => "started"
  | succeeded => "succeeded"
  | failed => "failed"
  | cancelled => "cancelled"

/-- `types[ev_type]`. -/
def ofName (name : String) : Option ActionLogEvents :=
  [scheduled, started, succeeded, failed, cancelled].find? fun evType => evType.str = name

theorem ofName_str (evType : ActionLogEvents) : ofName evType.str = some evType := by
  cases evType <;> decide

end ActionLogEvents

section Log

variable {ν δ : Type} (texts : LogTexts ν δ)

/-- What `__iter__` yields of an event. -/
def ActionLogEvent.items (event : ActionLogEvent ν δ) : List String :=
  [texts.strTime event.ts, event.evType.str, texts.strTime event.data.time,
    texts.strVersion event.data.version, event.data.upgradeId, event.data.pkgName]

/-- `CsvSerializer.pack`. -/
def ActionLogEvent.pack (event : ActionLogEvent ν δ) : List Char :=
  writeRow '\t' ((event.items texts).map String.toList)

/-- `UpgradeLogData(when, *args)` with strings. -/
def newUpgradeLogData (time : String) : List String → Option (UpgradeLogData ν δ)
  | [version, upgradeId] => do
    return ⟨← texts.parseDt time, ← texts.srcVersion appName version, upgradeId, appName⟩
  | [version, upgradeId, pkgName] => do
    return ⟨← texts.parseDt time, ← texts.srcVersion pkgName version, upgradeId, pkgName⟩
  | _ => none

/-- `ActionLogEvent(*row)`. A row without a time gets the current one. -/
def newActionLogEvent (utcnow : δ) : List String → Option (ActionLogEvent ν δ)
  | ts :: evType :: data :: args => do
    let ts ← if ts = "" then some utcnow else texts.parseDt ts
    let evType ← ActionLogEvents.ofName evType
    let data ← newUpgradeLogData texts data args
    return ⟨ts, evType, data⟩
  | _ => none

/-- `CsvSerializer.unpack` of one line. -/
def unpack (utcnow : δ) (line : List Char) : Option (ActionLogEvent ν δ) := do
  let row ← (readRow '\t' line).toOption
  newActionLogEvent texts utcnow (row.map String.ofList)

/-- `UpgradeLog` with the text of its file, if there is one. -/
structure UpgradeLog (ν δ : Type) where
  file : Option (List Char)
  items : List (ActionLogEvent ν δ)

/-- `UpgradeLog(file_path)`, which loads the file line by line. -/
def UpgradeLog.open (utcnow : δ) (file : Option (List Char)) : Option (UpgradeLog ν δ) := do
  let items ← (textLines (file.getD [])).mapM (unpack texts utcnow)
  return ⟨file, items⟩

/-- `last_event`. -/
def UpgradeLog.lastEvent (log : UpgradeLog ν δ) : Option (ActionLogEvent ν δ) := log.items.getLast?

/-- `append_scheduled` and the like, at a time. -/
def UpgradeLog.append (log : UpgradeLog ν δ) (event : ActionLogEvent ν δ) : UpgradeLog ν δ where
  file := some (log.file.getD [] ++ event.pack texts)
  items := log.items ++ [event]

/-- A log that starts without a file. -/
def UpgradeLog.appendAll (events : List (ActionLogEvent ν δ)) : UpgradeLog ν δ :=
  events.foldl (UpgradeLog.append texts) ⟨none, []⟩

/-- `==` of two events. -/
structure ActionLogEvent.Same (event event' : ActionLogEvent ν δ) : Prop where
  ts : texts.eqTime event.ts event'.ts
  evType : event.evType = event'.evType
  time : texts.eqTime event.data.time event'.data.time
  version : texts.eqVersion event.data.version event'.data.version
  upgradeId : event.data.upgradeId = event'.data.upgradeId
  pkgName : event.data.pkgName = event'.data.pkgName

end Log

section Reload

variable {ν δ : Type} {texts : LogTexts ν δ}

/-- A text that stays on its line and is read. -/
def Printable (text : String) : Prop := ∀ c ∈ text.toList, isLineBreak c = false ∧ c ≠ '\x00'

/-- The texts of times are read back, and so are those of the versions of a package. -/
structure LogTexts.Faithful (texts : LogTexts ν δ) : Prop where
  time : ∀ t, ∃ t', texts.parseDt (texts.strTime t) = some t' ∧ texts.eqTime t' t
  time_ne_empty : ∀ t, texts.strTime t ≠ ""
  time_printable : ∀ t, Printable (texts.strTime t)
  version : ∀ pkgName text v, texts.srcVersion pkgName text = some v →
    ∃ v', texts.srcVersion pkgName (texts.strVersion v) = some v' ∧ texts.eqVersion v' v

theorem validDelimiter_tab : ValidDelimiter '\t' := ⟨by decide, by decide, by decide⟩

theorem printable_of_all {text : String}
    (h : (text.toList.all fun c => !isLineBreak c && c != '\x00') = true) :
    Printable text := by
  intro c hc
  have hplain := List.all_eq_true.mp h c hc
  simpa using hplain

theorem ActionLogEvents.str_printable (evType : ActionLogEvents) : Printable evType.str := by
  cases evType <;> exact printable_of_all (by decide)

theorem appendAll_concat (events : List (ActionLogEvent ν δ)) (event : ActionLogEvent ν δ) :
    UpgradeLog.appendAll texts (events ++ [event]) =
      (UpgradeLog.appendAll texts events).append texts event := by
  rw [UpgradeLog.appendAll, List.foldl_append]
  rfl

theorem items_appendAll (events : List (ActionLogEvent ν δ)) :
    (UpgradeLog.appendAll texts events).items = events := by
  induction events using List.reverseRecOn with
  | nil => rfl
  | append_singleton events event ih => rw [appendAll_concat, UpgradeLog.append, ih]

/-- The file holds the events one after another. -/
theorem file_appendAll (events : List (ActionLogEvent ν δ)) :
    (UpgradeLog.appendAll texts events).file.getD [] = events.flatMap
      (ActionLogEvent.pack texts) := by
  induction events using List.reverseRecOn with
  | nil => rfl
  | append_singleton events event ih =>
    rw [appendAll_concat, UpgradeLog.append, Option.getD_some, ih, List.flatMap_append,
      List.flatMap_singleton]

theorem textLines_flatMap_pack (events : List (ActionLogEvent ν δ)) :
    textLines (events.flatMap (ActionLogEvent.pack texts)) =
      events.flatMap fun event => textLines (event.pack texts) := by
  induction events with
  | nil => rfl
  | cons event events ih =>
    rw [List.flatMap_cons, List.flatMap_cons, ← ih, ActionLogEvent.pack, writeRow,
      List.append_assoc]
    exact linesFrom_append [] _ _

/-- A row of texts that stay on a line is one line. -/
theorem textLines_pack {event : ActionLogEvent ν δ}
    (hitems : ∀ text ∈ event.items texts, Printable text) :
    textLines (event.pack texts) = [event.pack texts] := by
  refine linesFrom_line ?_ []
  intro c hc
  rcases of_mem_rowText hc with ⟨field, hfield, hmem⟩ | rfl | rfl
  · obtain ⟨text, htext, rfl⟩ := List.mem_map.mp hfield
    exact (hitems text htext c hmem).1
  · rfl
  · rfl

/-- An event is read back from its row. -/
theorem unpack_pack (hfaithful : texts.Faithful) {event : ActionLogEvent ν δ} {version : String}
    (hversion : texts.srcVersion event.data.pkgName version = some event.data.version)
    (hitems : ∀ text ∈ event.items texts, Printable text) (utcnow : δ) :
    ∃ event', unpack texts utcnow (event.pack texts) = some event' ∧ event'.Same texts event := by
  have hread : readRow '\t' (event.pack texts) = .ok ((event.items texts).map String.toList) := by
    apply readRow_writeRow validDelimiter_tab (by simp [ActionLogEvent.items])
    intro field hfield hnul
    obtain ⟨text, htext, rfl⟩ := List.mem_map.mp hfield
    exact (hitems text htext _ hnul).2 rfl
  obtain ⟨ts, hts, htsEq⟩ := hfaithful.time event.ts
  obtain ⟨time, htime, htimeEq⟩ := hfaithful.time event.data.time
  obtain ⟨v, hv, hvEq⟩ := hfaithful.version _ _ _ hversion
  refine ⟨⟨ts, event.evType, ⟨time, v, event.data.upgradeId, event.data.pkgName⟩⟩, ?_,
    ⟨htsEq, rfl, htimeEq, hvEq, rfl, rfl⟩⟩
  have hstrings : ((event.items texts).map String.toList).map String.ofList =
      event.items texts := by
    rw [List.map_map]
    exact (List.map_congr_left fun text _ => String.ofList_toList).trans (List.map_id _)
  rw [unpack, hread]
  simp only [Except.toOption, Option.bind_eq_bind, Option.bind_some, hstrings]
  simp [ActionLogEvent.items, newActionLogEvent, newUpgradeLogData, hfaithful.time_ne_empty,
    hts, htime, hv, ActionLogEvents.ofName_str]

/-- What the texts of an event are printable comes down to. -/
theorem printable_items_iff (hfaithful : texts.Faithful) (event : ActionLogEvent ν δ) :
    (∀ text ∈ event.items texts, Printable text) ↔ Printable (texts.strVersion event.data.version) ∧
      Printable event.data.upgradeId ∧ Printable event.data.pkgName := by
  simp [ActionLogEvent.items, hfaithful.time_printable, ActionLogEvents.str_printable]

theorem open_eq_some_iff {utcnow : δ} {events items : List (ActionLogEvent ν δ)} :
    (∃ log, UpgradeLog.open texts utcnow (UpgradeLog.appendAll texts events).file = some log ∧
      log.items = items) ↔
      (events.flatMap fun event => textLines (event.pack texts)).mapM
        (unpack texts utcnow) = some items := by
  rw [← textLines_flatMap_pack, ← file_appendAll]
  simp only [UpgradeLog.open, Option.bind_eq_bind, Option.bind_eq_some_iff, Option.pure_def,
    Option.some.injEq]
  constructor
  · rintro ⟨log, ⟨items', hitems, rfl⟩, rfl⟩
    exact hitems
  · intro hitems
    exact ⟨_, ⟨items, hitems, rfl⟩, rfl⟩

/-- Every event stands on one line if there are as many lines as events. -/
theorem length_textLines_eq_one {events : List (ActionLogEvent ν δ)}
    (h : (events.flatMap fun event => textLines (event.pack texts)).length = events.length) :
    ∀ event ∈ events, (textLines (event.pack texts)).length = 1 := by
  have hone : ∀ event : ActionLogEvent ν δ, 1 ≤ (textLines (event.pack texts)).length :=
    fun event => List.length_pos_of_ne_nil (linesFrom_ne_nil [] _)
  have hle : ∀ events : List (ActionLogEvent ν δ),
      events.length ≤ (events.flatMap fun event => textLines (event.pack texts)).length := by
    intro events
    induction events with
    | nil => simp
    | cons event events ih =>
      have hevent := hone event
      rw [List.flatMap_cons, List.length_append, List.length_cons]
      omega
  induction events with
  | nil => simp
  | cons event events ih =>
    have hevent := hone event
    have hevents := hle events
    rw [List.flatMap_cons, List.length_append, List.length_cons] at h
    rw [List.forall_mem_cons]
    exact ⟨by omega, ih (by omega)⟩

theorem length_eq_of_mapM {lines : List (List Char)} {utcnow : δ}
    {items : List (ActionLogEvent ν δ)}
    (h : lines.mapM (unpack texts utcnow) = some items) : lines.length = items.length := by
  have hmap := congrArg List.length (mapM_eq_some_iff.mp h)
  rwa [List.length_map, List.length_map] at hmap

/-- A line that is read has no NUL in it. -/
theorem nul_not_mem_of_unpack {line : List Char} {utcnow : δ} {event : ActionLogEvent ν δ}
    (h : unpack texts utcnow line = some event) : '\x00' ∉ line := by
  unfold unpack at h
  cases hread : readRow '\t' line with
  | error e =>
    rw [hread] at h
    cases h
  | ok row => exact nul_not_mem_of_readFrom hread

theorem printable_of_reloaded {utcnow : δ} {events items : List (ActionLogEvent ν δ)}
    (hitems : (events.flatMap fun event => textLines (event.pack texts)).mapM
      (unpack texts utcnow) = some items)
    (hlength : items.length = events.length) {event : ActionLogEvent ν δ} (hevent : event ∈ events)
    {text : String} (htext : text ∈ event.items texts) : Printable text := by
  intro c hc
  have hone := length_textLines_eq_one ((length_eq_of_mapM hitems).trans hlength) event hevent
  have hrow : c ∈ rowText '\t' ((event.items texts).map String.toList) :=
    mem_rowText (List.mem_map_of_mem htext) hc
  constructor
  · by_contra hbreak
    rw [Bool.not_eq_false] at hbreak
    have htwo := two_le_length_linesFrom ⟨c, hrow, hbreak⟩ []
    rw [textLines, ActionLogEvent.pack, writeRow] at hone
    omega
  · rintro rfl
    -- The line with the character would not be read.
    have hmem : '\x00' ∈ (textLines (event.pack texts)).flatten := by
      rw [textLines, flatten_linesFrom, List.nil_append, ActionLogEvent.pack, writeRow]
      exact List.mem_append_left _ hrow
    obtain ⟨line, hline, hnul⟩ := List.mem_flatten.mp hmem
    have hmapped : unpack texts utcnow line ∈ items.map some := by
      rw [← mapM_eq_some_iff.mp hitems]
      exact List.mem_map_of_mem (List.mem_flatMap.mpr ⟨event, hevent, hline⟩)
    obtain ⟨event', -, hsome⟩ := List.mem_map.mp hmapped
    exact nul_not_mem_of_unpack hsome.symm hnul

theorem reloaded_of_printable (hfaithful : texts.Faithful) (utcnow : δ)
    {events : List (ActionLogEvent ν δ)} (hversions : ∀ event ∈ events, ∃ version,
      texts.srcVersion event.data.pkgName version = some event.data.version)
    (hitems : ∀ event ∈ events, ∀ text ∈ event.items texts, Printable text) :
    ∃ items, (events.flatMap fun event => textLines (event.pack texts)).mapM
      (unpack texts utcnow) = some items ∧
      List.Forall₂ (ActionLogEvent.Same texts) items events := by
  induction events with
  | nil => exact ⟨[], rfl, .nil⟩
  | cons event events ih =>
    rw [List.forall_mem_cons] at hversions hitems
    obtain ⟨version, hversion⟩ := hversions.1
    obtain ⟨event', hread, hsame⟩ := unpack_pack hfaithful hversion hitems.1 utcnow
    obtain ⟨rest, hrest, hforall⟩ := ih hversions.2 hitems.2
    refine ⟨event' :: rest, ?_, .cons hsame hforall⟩
    rw [List.flatMap_cons, textLines_pack hitems.1, List.singleton_append, List.mapM_cons,
      hread, hrest]
    rfl

/-- The last of two lists that agree. -/
theorem lastEvent_same {log log' : UpgradeLog ν δ}
    (h : List.Forall₂ (ActionLogEvent.Same texts) log.items log'.items) :
    Option.Rel (ActionLogEvent.Same texts) log.lastEvent log'.lastEvent := by
  have hreverse := List.rel_reverse h
  rw [UpgradeLog.lastEvent, UpgradeLog.lastEvent, ← List.head?_reverse, ← List.head?_reverse]
  generalize log.items.reverse = items at *
  generalize log'.items.reverse = items' at *
  cases hreverse with
  | nil => exact .none
  | cons hlast _ => exact .some hlast

/-- A log opened on the file of another has the same events. -/
structure UpgradeLog.Reloads (texts : LogTexts ν δ) (utcnow : δ)
    (log log' : UpgradeLog ν δ) : Prop where
  opened : UpgradeLog.open texts utcnow log.file = some log'
  items : List.Forall₂ (ActionLogEvent.Same texts) log'.items log.items
  lastEvent : Option.Rel (ActionLogEvent.Same texts) log'.lastEvent log.lastEvent

/-- A log that is opened again has the events that were appended if and only if the texts of their
versions, ids and packages have no line breaks and no NUL. -/
theorem action_log_reloads_iff (hfaithful : texts.Faithful) (utcnow : δ)
    {events : List (ActionLogEvent ν δ)} (hversions : ∀ event ∈ events, ∃ version,
      texts.srcVersion event.data.pkgName version = some event.data.version) :
    (∃ log, (UpgradeLog.appendAll texts events).Reloads texts utcnow log) ↔
      ∀ event ∈ events, Printable (texts.strVersion event.data.version) ∧
        Printable event.data.upgradeId ∧
        Printable event.data.pkgName := by
  simp only [← printable_items_iff hfaithful]
  constructor
  · rintro ⟨log, hreloads⟩ event hevent text htext
    have hsame := hreloads.items
    rw [items_appendAll] at hsame
    exact printable_of_reloaded (open_eq_some_iff.mp ⟨log, hreloads.opened, rfl⟩) hsame.length_eq
      hevent htext
  · intro hprintable
    obtain ⟨items, hitems, hsame⟩ := reloaded_of_printable hfaithful utcnow hversions hprintable
    obtain ⟨log, hopen, rfl⟩ := open_eq_some_iff.mpr hitems
    have happended : events = (UpgradeLog.appendAll texts events).items :=
      (items_appendAll events).symm
    rw [happended] at hsame
    exact ⟨log, hopen, hsame, lastEvent_same hsame⟩

end Reload

section Instant

def instantText : String := "2018-02-25 10:25:58.271857"

/-- One instant, and versions that are their texts. -/
def instantTexts : LogTexts String Unit where
  strTime _ := instantText
  parseDt text := if text = instantText then some () else none
  eqTime _ _ := True
  strVersion version := version
  srcVersion _ version := some version
  eqVersion version version' := version = version'

theorem instantTexts_faithful : instantTexts.Faithful where
  time _ := by
    refine ⟨(), ?_, trivial⟩
    simp [instantTexts]
  time_ne_empty _ := by
    show instantText ≠ ""
    decide
  time_printable _ := by
    show Printable instantText
    exact printable_of_all (by decide)
  version _ _ v _ := ⟨v, rfl, rfl⟩

def upgradeEvent (evType : ActionLogEvents) (pkgName : String) : ActionLogEvent String Unit :=
  ⟨(), evType, ⟨(), "1.2.3", "15", pkgName⟩⟩

theorem action_log_reloads_two :
    ∃ log, (UpgradeLog.appendAll instantTexts
      [upgradeEvent .scheduled "indy-node", upgradeEvent .started "a\t\"b"]).Reloads instantTexts
        () log := by
  refine (action_log_reloads_iff instantTexts_faithful () ?_).mpr ?_
  · intro event _
    exact ⟨event.data.version, rfl⟩
  · intro event hevent
    rcases List.mem_pair.mp hevent with rfl | rfl
    all_goals exact ⟨printable_of_all (by decide), printable_of_all (by decide),
      printable_of_all (by decide)⟩

/-- A package name that ends with a line break stands on two lines, and the second one is no
event. -/
theorem not_action_log_reloads :
    ¬ ∃ log, (UpgradeLog.appendAll instantTexts
      [upgradeEvent .scheduled "indy-node\n"]).Reloads instantTexts () log := by
  rintro ⟨log, hopened, -, -⟩
  have hnone : UpgradeLog.open instantTexts () (UpgradeLog.appendAll instantTexts
      [upgradeEvent .scheduled "indy-node\n"]).file = none := by
    decide
  rw [hnone] at hopened
  cases hopened

end Instant

end SimpleAsset.IndyNode
