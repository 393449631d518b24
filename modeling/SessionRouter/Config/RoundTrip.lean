import SessionRouter.Config.ConfigDefinition
import SessionRouter.Config.OptionRestore

/-!
# Reading a generated file
-/

namespace SessionRouter.ConfigDefinition

open Lib TextLines ConfigParser

variable {definition : ConfigDefinition}

def printedLines (name : Bytes) (option : OptionDefinition) (values : List Bytes) : List Bytes :=
  (if option.hidden then [] else option.comments.map (ascii "# " ++ ·)) ++
    if values ≠ [] then values.map fun value => name ++ 0x3d :: value
    else if option.hidden then []
    else if option.defaults ≠ [] then
      option.defaults.map fun value => 0x23 :: (name ++ 0x3d :: value)
    else [0x23 :: (name ++ [0x3d])]

def optionLines (name : Bytes) (option : OptionDefinition) (values : List Bytes) : List Bytes :=
  if printedLines name option values = [] then [] else [] :: printedLines name option values

theorem flatMap_append_eq_terminated (lines : List Bytes) :
    lines.flatMap (fun line => 0x0a :: line) ++ [0x0a] = terminated 0x0a ([] :: lines) := by
  rw [terminated_cons, List.nil_append]
  induction lines with
  | nil => rfl
  | cons line lines ih =>
    rw [List.flatMap_cons, List.append_assoc, ih, terminated_cons, List.cons_append]

theorem ascii_marks : ascii "\n" = [0x0a] ∧ ascii "\n# " = [0x0a, 0x23, 0x20] ∧
    ascii "# " = [0x23, 0x20] ∧ ascii "=" = [0x3d] ∧ ascii "#" = [0x23] ∧
    ascii "\n#" = [0x0a, 0x23] ∧ ascii "[" = [0x5b] ∧ ascii "]\n" = [0x5d, 0x0a] ∧
    ascii "\n\n" = [0x0a, 0x0a] := by
  decide

theorem optionText_eq (name : Bytes) (option : OptionDefinition) (values : List Bytes) :
    optionText true name option values = terminated 0x0a (optionLines name option values) := by
  have hlines : printedLines name option values ≠ [] →
      terminated 0x0a (optionLines name option values) =
        (printedLines name option values).flatMap (fun line => 0x0a :: line) ++ [0x0a] := by
    intro hne
    rw [optionLines, if_neg hne, flatMap_append_eq_terminated]
  cases hvalues : values with
  | cons value others =>
    rw [← hvalues, hlines (by simp [printedLines, hvalues])]
    cases hhidden : option.hidden <;>
      simp [optionText, printedLines, hhidden, hvalues, ascii_marks, List.flatMap_map]
  | nil =>
    cases hhidden : option.hidden with
    | true => simp [optionText, optionLines, printedLines, hhidden]
    | false =>
      rw [← hvalues, hlines (by simp [printedLines, hvalues, hhidden]; split <;> simp_all)]
      cases hdefaults : option.defaults with
      | nil =>
        simp [optionText, printedLines, hhidden, hvalues, hdefaults, ascii_marks,
          List.flatMap_map]
      | cons default defaults =>
        have hrequired : option.required = false := by
          by_contra hrequired
          have := option.required_defaults (by simpa using hrequired)
          rw [hdefaults] at this
          cases this
        simp [optionText, printedLines, hhidden, hvalues, hdefaults, hrequired, ascii_marks,
          List.flatMap_map]

def sectionLines (values : definition.Values) (sectionName : Bytes) (section_ : ConfigSection) :
    List Bytes :=
  section_.options.entries.flatMap fun entry =>
    optionLines entry.1 entry.2 (valuesAsString values sectionName entry.1)

theorem terminated_flatMap {α : Type*} (list : List α) (lines : α → List Bytes) :
    terminated 0x0a (list.flatMap lines) = list.flatMap fun x => terminated 0x0a (lines x) := by
  induction list with
  | nil => rfl
  | cons x list ih => rw [List.flatMap_cons, terminated_append, ih, List.flatMap_cons]

theorem sectionText_eq (values : definition.Values) (sectionName : Bytes)
    (section_ : ConfigSection) :
    sectionText values true sectionName section_ =
      terminated 0x0a (sectionLines values sectionName section_) := by
  rw [sectionLines, terminated_flatMap]
  simp only [sectionText, optionText_eq]

variable {read : Bytes → Bytes} {lines : List Bytes} {section_ : ConfigSection}
  {entry : ConfigEntry}

theorem terminated_eq_nil_iff : terminated 0x0a lines = [] ↔ lines = [] := by cases lines <;> simp

def appendLines (values : definition.Values) (state : List Bytes × Nat)
    (entry : Sigma fun _ : Bytes => ConfigSection) : List Bytes × Nat :=
  if sectionLines values entry.1 entry.2 = [] then state
  else
    (state.1 ++ (if state.2 > 0 then [[], []] else []) ++ [0x5b :: (entry.1 ++ [0x5d])] ++
      entry.2.comments.map (ascii "# " ++ ·) ++ [[]] ++ sectionLines values entry.1 entry.2,
      state.2 + 1)

def iniLines (values : definition.Values) : List Bytes :=
  (definition.sections.entries.foldl (appendLines values) ([], 0)).1

theorem appendSection_eq (values : definition.Values) (lines : List Bytes) (count : Nat)
    (entry : Sigma fun _ : Bytes => ConfigSection) :
    appendSection values true (terminated 0x0a lines, count) entry =
      (terminated 0x0a (appendLines values (lines, count) entry).1,
        (appendLines values (lines, count) entry).2) := by
  simp only [appendSection, appendLines, sectionText_eq, terminated_eq_nil_iff]
  split
  · rfl
  · have hcomments : entry.2.comments.flatMap (fun comment => ascii "# " ++ comment ++ ascii "\n") =
        terminated 0x0a (entry.2.comments.map (ascii "# " ++ ·)) := by
      simp [terminated, List.flatMap_map, ascii_marks]
    have hbreaks : (if count > 0 then ascii "\n\n" else []) =
        terminated 0x0a (if count > 0 then [[], []] else []) := by
      split <;> simp [ascii_marks]
    rw [hcomments, hbreaks]
    simp [ascii_marks]

theorem generateIniConfig_eq (values : definition.Values) :
    generateIniConfig values true = terminated 0x0a (iniLines values) := by
  have hfold (entries : List (Sigma fun _ : Bytes => ConfigSection)) (lines : List Bytes)
      (count : Nat) :
      (entries.foldl (appendSection values true) (terminated 0x0a lines, count)).1 =
        terminated 0x0a (entries.foldl (appendLines values) (lines, count)).1 := by
    induction entries generalizing lines count with
    | nil => rfl
    | cons entry entries ih => rw [List.foldl_cons, appendSection_eq, ih, List.foldl_cons]
  exact hfold definition.sections.entries [] 0

def sectionEntries (values : definition.Values) (sectionName : Bytes)
    (section_ : ConfigSection) : List ConfigEntry :=
  section_.options.entries.flatMap fun entry =>
    (valuesAsString values sectionName entry.1).map fun text => ⟨sectionName, entry.1, text⟩

def printedEntries (values : definition.Values) : List ConfigEntry :=
  definition.sections.entries.flatMap fun entry => sectionEntries values entry.1 entry.2

def readEntry (entry : ConfigEntry) : IniLine :=
  readLine (entry.key ++ 0x3d :: entry.value)

def sectionTokens (values : definition.Values) (entry : Sigma fun _ : Bytes => ConfigSection) :
    List IniLine :=
  if sectionLines values entry.1 entry.2 = [] then []
  else .header entry.1 :: (sectionEntries values entry.1 entry.2).map readEntry

theorem significant_of_ignored
    (h : ∀ line ∈ lines, readLine line = .ignored) : significant (lines.map readLine) = [] := by
  induction lines with
  | nil => rfl
  | cons line lines ih =>
    rw [List.forall_mem_cons] at h
    rw [List.map_cons, h.1, significant_ignored_cons, ih h.2]

theorem significant_comments (comments : List Bytes) :
    significant ((comments.map (ascii "# " ++ ·)).map readLine) = [] := by
  refine significant_of_ignored fun line hline => ?_
  obtain ⟨comment, -, rfl⟩ := List.mem_map.mp hline
  simp [ascii_marks, readLine_comment]

theorem significant_printedLines (sectionName name : Bytes) (option : OptionDefinition)
    (values : List Bytes) :
    significant ((printedLines name option values).map readLine) =
      significant ((values.map (ConfigEntry.mk sectionName name)).map readEntry) := by
  have hcomments : significant ((if option.hidden then []
      else option.comments.map (ascii "# " ++ ·)).map readLine) = [] := by
    split
    · rfl
    · exact significant_comments _
  rw [printedLines, List.map_append, significant_append, hcomments, List.nil_append]
  by_cases hvalues : values = []
  · -- without values there are only comments
    rw [if_neg (not_not.mpr hvalues), hvalues, List.map_nil, List.map_nil, significant_nil]
    refine significant_of_ignored fun line hline => ?_
    split_ifs at hline
    · cases hline
    · obtain ⟨value, -, rfl⟩ := List.mem_map.mp hline
      exact readLine_comment _
    · obtain rfl := List.mem_singleton.mp hline
      exact readLine_comment _
  · rw [if_pos hvalues, List.map_map, List.map_map]
    rfl

theorem significant_optionLines (sectionName name : Bytes) (option : OptionDefinition)
    (values : List Bytes) :
    significant ((optionLines name option values).map readLine) =
      significant ((values.map (ConfigEntry.mk sectionName name)).map readEntry) := by
  rw [← significant_printedLines sectionName name option values, optionLines]
  split
  · next hempty => rw [hempty]
  · rw [List.map_cons, readLine_nil, significant_ignored_cons]

theorem significant_sectionLines (values : definition.Values) (sectionName : Bytes)
    (section_ : ConfigSection) :
    significant ((sectionLines values sectionName section_).map readLine) =
      significant ((sectionEntries values sectionName section_).map readEntry) := by
  rw [sectionLines, sectionEntries, List.map_flatMap, List.map_flatMap, significant_flatMap,
    significant_flatMap]
  simp only [significant_optionLines sectionName]

theorem significant_iniLines (values : definition.Values) :
    significant ((iniLines values).map readLine) =
      significant (definition.sections.entries.flatMap (sectionTokens values)) := by
  have hfold (entries : List (Sigma fun _ : Bytes => ConfigSection)) (lines : List Bytes)
      (count : Nat) :
      significant ((entries.foldl (appendLines values) (lines, count)).1.map readLine) =
        significant (lines.map readLine) ++
          significant (entries.flatMap (sectionTokens values)) := by
    induction entries generalizing lines count with
    | nil => simp
    | cons entry entries ih =>
      rw [List.foldl_cons, List.flatMap_cons, significant_append, ← List.append_assoc,
        sectionTokens, appendLines]
      split
      · rw [ih, significant_nil, List.append_nil]
      · rw [ih]
        have hbreaks : significant ((if count > 0 then [[], []] else []).map readLine) = [] := by
          split <;> simp
        simp only [List.map_append, significant_append, significant_comments,
          significant_sectionLines, hbreaks, List.map_cons, readLine_header, readLine_nil,
          significant_header_cons, significant_ignored_cons, List.append_assoc,
          List.cons_append, List.nil_append]
  exact hfold definition.sections.entries [] 0

variable {values : definition.Values} {sectionName : Bytes}

theorem sectionEntries_eq_nil (h : sectionLines values sectionName section_ = []) :
    sectionEntries values sectionName section_ = [] := by
  rw [sectionLines, List.flatMap_eq_nil_iff] at h
  rw [sectionEntries, List.flatMap_eq_nil_iff]
  intro entry hentry
  have hlines := h entry hentry
  cases hvalues : valuesAsString values sectionName entry.1 with
  | nil => rfl
  | cons value rest =>
    rw [hvalues] at hlines
    simp [optionLines, printedLines] at hlines

theorem entriesFrom_values {printed : List ConfigEntry}
    (hread : ∀ entry ∈ printed, readEntry entry = .entry entry.key (read entry.value))
    (hsection : ∀ entry ∈ printed, entry.sectionName = sectionName) {rest : List IniLine}
    {entries : List ConfigEntry} (hrest : entriesFrom sectionName rest = some entries) :
    entriesFrom sectionName (printed.map readEntry ++ rest) =
      some (printed.map (fun entry => { entry with value := read entry.value }) ++ entries) := by
  induction printed with
  | nil => exact hrest
  | cons entry printed ih =>
    rw [List.forall_mem_cons] at hread hsection
    rw [List.map_cons, List.cons_append, hread.1, entriesFrom, ih hread.2 hsection.2]
    simp [hsection.1]

theorem sectionName_of_mem
    (h : entry ∈ sectionEntries values sectionName section_) : entry.sectionName = sectionName := by
  obtain ⟨option, -, hentry⟩ := List.mem_flatMap.mp h
  obtain ⟨text, -, rfl⟩ := List.mem_map.mp hentry
  rfl

theorem entriesFrom_sectionTokens
    (h : ∀ entry ∈ printedEntries values, readEntry entry = .entry entry.key (read entry.value)) :
    entriesFrom [] (definition.sections.entries.flatMap (sectionTokens values)) =
      some ((printedEntries values).map fun entry => { entry with value := read entry.value }) := by
  unfold printedEntries at h ⊢
  generalize ([] : Bytes) = current
  generalize definition.sections.entries = sections at h
  induction sections generalizing current with
  | nil => rfl
  | cons section_ sections ih =>
    rw [List.flatMap_cons, List.forall_mem_append] at h
    rw [List.flatMap_cons, List.flatMap_cons, List.map_append, sectionTokens]
    split
    · next hempty =>
      rw [sectionEntries_eq_nil hempty]
      exact ih current h.2
    · exact entriesFrom_values h.1 (fun _ => sectionName_of_mem) (ih section_.1 h.2)

theorem countP_sectionTokens (values : definition.Values) :
    (definition.sections.entries.flatMap (sectionTokens values)).countP isEntry =
      (printedEntries values).countP fun entry => isEntry (readEntry entry) := by
  unfold printedEntries
  induction definition.sections.entries with
  | nil => rfl
  | cons section_ sections ih =>
    rw [List.flatMap_cons, List.flatMap_cons, List.countP_append, List.countP_append, ih,
      sectionTokens]
    split
    · next hempty => rw [sectionEntries_eq_nil hempty, List.countP_nil, List.countP_nil]
    · rw [List.countP_cons_of_neg Bool.false_ne_true, List.countP_map]
      rfl

theorem textsOf_printedEntries
    (hdefined : ∀ sectionName name, definition.option sectionName name = none →
      values sectionName name = []) (read : Bytes → Bytes) (sectionName name : Bytes) :
    textsOf ((printedEntries values).map fun entry => { entry with value := read entry.value })
      sectionName name = (valuesAsString values sectionName name).map read := by
  have hundefined (h : definition.option sectionName name = none) :
      [] = (valuesAsString values sectionName name).map read := by
    simp [valuesAsString, hdefined sectionName name h]
  have hoption (inSection : Bytes) (option : Bytes) :
      ((valuesAsString values inSection option).map fun text =>
        (⟨inSection, option, text⟩ : ConfigEntry)).map
          (fun entry => { entry with value := read entry.value }) =
        ((valuesAsString values inSection option).map read).map
          (ConfigEntry.mk inSection option) := by
    simp
  simp only [printedEntries, sectionEntries, List.map_flatMap, hoption, textsOf_flatMap,
    textsOf_map]
  -- of all sections and of all options in it only the one that is asked for has entries
  rw [Table.flatMap_entries definition.sections sectionName
    (fun entry _ hne => by simp [hne])]
  cases hsection : definition.sections.find sectionName with
  | none => exact hundefined (by simp [ConfigDefinition.option, hsection])
  | some section_ =>
    rw [Option.elim_some, Table.flatMap_entries section_.options name
      (fun entry _ hne => by simp [hne])]
    cases hname : section_.options.find name with
    | none => exact hundefined (by simp [ConfigDefinition.option, hsection, hname])
    | some option => simp

theorem mem_printedEntries (h : entry ∈ printedEntries values) :
    ∃ value ∈ values entry.sectionName entry.key,
      entry.value = (definition.kindOf entry.sectionName entry.key).valueText value := by
  obtain ⟨section_, -, hsection⟩ := List.mem_flatMap.mp h
  obtain ⟨option, -, hoption⟩ := List.mem_flatMap.mp hsection
  obtain ⟨text, htext, rfl⟩ := List.mem_map.mp hoption
  obtain ⟨value, hvalue, rfl⟩ := List.mem_map.mp htext
  exact ⟨value, hvalue, rfl⟩

theorem isLine_optionLines {name : Bytes} {option : OptionDefinition} {values : List Bytes}
    (hname : IsLine isLineBreak name) (hvalues : ∀ value ∈ values, IsLine isLineBreak value) :
    ∀ line ∈ optionLines name option values, IsLine isLineBreak line := by
  have hpair {value : Bytes} (hvalue : IsLine isLineBreak value) :
      IsLine isLineBreak (name ++ 0x3d :: value) :=
    isLine_append_iff.mpr ⟨hname, isLine_cons_iff.mpr ⟨rfl, hvalue⟩⟩
  have hprinted : ∀ line ∈ printedLines name option values, IsLine isLineBreak line := by
    intro line hline
    rcases List.mem_append.mp hline with hcomment | hline
    · split at hcomment
      · cases hcomment
      · obtain ⟨comment, hmem, rfl⟩ := List.mem_map.mp hcomment
        exact isLine_append_iff.mpr ⟨by decide, option.comments_isLine comment hmem⟩
    · split_ifs at hline
      · obtain ⟨value, hvalue, rfl⟩ := List.mem_map.mp hline
        exact hpair (hvalues value hvalue)
      · cases hline
      · obtain ⟨value, hvalue, rfl⟩ := List.mem_map.mp hline
        exact isLine_cons_iff.mpr ⟨rfl, hpair (option.defaults_isLine value hvalue)⟩
      · obtain rfl := List.mem_singleton.mp hline
        exact isLine_cons_iff.mpr ⟨rfl, hpair isLine_nil⟩
  intro line hline
  rw [optionLines] at hline
  split at hline
  · cases hline
  · rcases List.mem_cons.mp hline with rfl | hline
    · exact isLine_nil
    · exact hprinted line hline

theorem isLine_iniLines (h : ∀ sectionName name, ∀ text ∈ valuesAsString values sectionName name,
      IsLine isLineBreak text) :
    ∀ line ∈ iniLines values, IsLine isLineBreak line := by
  have hsection (entry : Sigma fun _ : Bytes => ConfigSection) :
      ∀ line ∈ sectionLines values entry.1 entry.2, IsLine isLineBreak line := by
    intro line hline
    obtain ⟨option, hoption, hline⟩ := List.mem_flatMap.mp hline
    exact isLine_optionLines (entry.2.options_isLine _ (List.mem_keys_of_mem hoption))
      (h entry.1 option.1) line hline
  have hfold (entries : List (Sigma fun _ : Bytes => ConfigSection))
      (hentries : ∀ entry ∈ entries, IsLine isLineBreak entry.1) (state : List Bytes × Nat)
      (hstate : ∀ line ∈ state.1, IsLine isLineBreak line) :
      ∀ line ∈ (entries.foldl (appendLines values) state).1, IsLine isLineBreak line := by
    induction entries generalizing state with
    | nil => exact hstate
    | cons entry entries ih =>
      rw [List.forall_mem_cons] at hentries
      refine ih hentries.2 _ ?_
      rw [appendLines]
      split
      · exact hstate
      · simp only [List.forall_mem_append, List.forall_mem_singleton]
        refine ⟨⟨⟨⟨⟨hstate, ?_⟩, ?_⟩, ?_⟩, isLine_nil⟩, hsection entry⟩
        · split <;> simp [isLine_nil]
        · exact isLine_cons_iff.mpr ⟨rfl, isLine_append_iff.mpr ⟨hentries.1, by decide⟩⟩
        · intro line hline
          obtain ⟨comment, hcomment, rfl⟩ := List.mem_map.mp hline
          exact isLine_append_iff.mpr ⟨by decide, entry.2.comments_isLine comment hcomment⟩
  exact hfold _ (fun entry hentry => definition.sections_isLine _ (List.mem_keys_of_mem hentry))
    _ nofun

theorem entriesFrom_generateIniConfig
    (h : ∀ sectionName name, ∀ text ∈ valuesAsString values sectionName name,
      IsLine isLineBreak text) :
    entriesFrom [] ((split isLineBreak (generateIniConfig values true)).map readLine) =
      entriesFrom [] (definition.sections.entries.flatMap (sectionTokens values)) := by
  rw [generateIniConfig_eq, split_terminated rfl (isLine_iniLines h), ← entriesFrom_significant,
    significant_iniLines, entriesFrom_significant]

def RoundTrips (values : definition.Values) : Prop :=
  ∃ parsed, parse (generateIniConfig values true) = some parsed ∧
    ∀ calls, Visits parsed calls → definition.addConfigValues fresh calls = some values

theorem roundTrips_iff_entries : RoundTrips values ↔
      ∃ entries, entriesFrom []
          ((split isLineBreak (generateIniConfig values true)).map readLine) = some entries ∧
        definition.addConfigValues fresh entries = some values := by
  rcases parse_eq_some_iff_entries (generateIniConfig values true) with
    ⟨hnone, hparse⟩ | ⟨entries, parsed, hentries, hparse, hvalues⟩
  · simp [RoundTrips, hnone, hparse]
  · simp only [RoundTrips, hparse, hentries, Option.some.injEq, exists_eq_left']
    constructor
    · intro hall
      exact hall entries fun sectionName key => (hvalues sectionName key).symm
    · intro hadded calls hvisits
      rw [addConfigValues_fresh_iff] at hadded ⊢
      intro sectionName name
      rw [hvisits, hvalues]
      exact hadded sectionName name

structure Kept (definition : ConfigDefinition) (sectionName name : Bytes)
    (value : (definition.kindOf sectionName name).Value) : Prop where
  readable : Readable name
  restored : (definition.kindOf sectionName name).Restored value
  notHeader : ¬ HeaderLike name ((definition.kindOf sectionName name).valueText value)

theorem exists_of_forall₂ {α β : Type*} {R : α → β → Prop} {xs : List α} {ys : List β}
    (h : List.Forall₂ R xs ys) {y : β} (hy : y ∈ ys) : ∃ x ∈ xs, R x y := by
  induction h with
  | nil => cases hy
  | cons hxy _ ih =>
    rcases List.mem_cons.mp hy with rfl | hy
    · exact ⟨_, List.mem_cons_self, hxy⟩
    · obtain ⟨x, hx, hrelated⟩ := ih hy
      exact ⟨x, List.mem_cons_of_mem _ hx, hrelated⟩

namespace AcceptedValues

variable (accepted : definition.AcceptedValues)

variable {sectionName : Bytes}

theorem exists_text {name : Bytes} {value : (definition.kindOf sectionName name).Value}
    (h : value ∈ accepted.values sectionName name) :
    ∃ text, (definition.kindOf sectionName name).fromString text = some value := by
  have hread := (addConfigValues_fresh_iff.mp accepted.accepted sectionName name).1
  obtain ⟨text, -, htext⟩ := exists_of_forall₂ hread h
  exact ⟨text, htext⟩

theorem eq_nil_of_undefined (sectionName name : Bytes)
    (h : definition.option sectionName name = none) : accepted.values sectionName name = [] := by
  refine (addConfigValues_fresh_iff.mp accepted.accepted sectionName name).2.resolve_right ?_
  rintro ⟨option, hoption, -⟩
  rw [h] at hoption
  cases hoption

theorem readEntry_of_kept (h : ∀ sectionName name, ∀ value ∈ accepted.values sectionName name,
      definition.Kept sectionName name value) :
    ∀ entry ∈ printedEntries accepted.values,
      readEntry entry = .entry entry.key (trim isSpace entry.value) := by
  intro entry hentry
  obtain ⟨value, hvalue, htext⟩ := mem_printedEntries hentry
  have hkept := h _ _ value hvalue
  rcases readLine_pair hkept.readable entry.value with ⟨hheader, -⟩ | ⟨-, hread⟩
  · rw [htext, hkept.restored.isLine_trimmed.2.trim_eq] at hheader
    exact absurd hheader hkept.notHeader
  · exact hread

theorem roundTrips_of_kept (h : ∀ sectionName name, ∀ value ∈ accepted.values sectionName name,
      definition.Kept sectionName name value) : RoundTrips accepted.values := by
  have hlines : ∀ sectionName name, ∀ text ∈ valuesAsString accepted.values sectionName name,
      IsLine isLineBreak text := by
    intro sectionName name text htext
    obtain ⟨value, hvalue, rfl⟩ := List.mem_map.mp htext
    exact (h sectionName name value hvalue).restored.isLine_trimmed.1
  refine roundTrips_iff_entries.mpr ⟨_, (entriesFrom_generateIniConfig hlines).trans
    (entriesFrom_sectionTokens (accepted.readEntry_of_kept h)), ?_⟩
  rw [addConfigValues_fresh_iff]
  intro sectionName name
  refine ⟨?_, (addConfigValues_fresh_iff.mp accepted.accepted sectionName name).2⟩
  rw [textsOf_printedEntries accepted.eq_nil_of_undefined, valuesAsString,
    List.forall₂_map_left_iff, List.forall₂_map_left_iff, List.forall₂_same]
  intro value hvalue
  obtain ⟨text, htext⟩ := accepted.exists_text hvalue
  have hrestored := (h sectionName name value hvalue).restored
  exact (OptionKind.fromString_trim_iff htext hrestored.isLine_trimmed.1).mpr hrestored

variable {entries : List ConfigEntry}

theorem exists_line {data : Bytes}
    (hentries : entriesFrom [] ((split isLineBreak data).map readLine) = some entries)
    (hadded : definition.addConfigValues fresh entries = some accepted.values) {name : Bytes}
    {value : (definition.kindOf sectionName name).Value}
    (h : value ∈ accepted.values sectionName name) :
    Readable name ∧ IsLine isLineBreak ((definition.kindOf sectionName name).valueText value) := by
  have hread := (addConfigValues_fresh_iff.mp hadded sectionName name).1
  obtain ⟨text, htext, hvalue⟩ := exists_of_forall₂ hread h
  obtain ⟨line, hline, hreadLine⟩ := List.mem_map.mp
    (mem_of_entriesFrom hentries (mem_textsOf_iff.mp htext))
  exact ⟨readable_of_readLine hreadLine, OptionKind.isLine_valueText hvalue
    (isLine_of_readLine hreadLine (isLine_of_mem_split hline))⟩

theorem textsOf_printedEntries_id (sectionName name : Bytes) :
    textsOf (printedEntries accepted.values) sectionName name =
      valuesAsString accepted.values sectionName name := by
  simpa using textsOf_printedEntries accepted.eq_nil_of_undefined id sectionName name

theorem mem_printedEntries_of {name : Bytes} {value : (definition.kindOf sectionName name).Value}
    (h : value ∈ accepted.values sectionName name) :
    ⟨sectionName, name, (definition.kindOf sectionName name).valueText value⟩ ∈
      printedEntries accepted.values := by
  rw [← mem_textsOf_iff, accepted.textsOf_printedEntries_id]
  exact List.mem_map_of_mem h

theorem isEntry_of_added (hentries : entriesFrom [] (definition.sections.entries.flatMap
      (sectionTokens accepted.values)) = some entries)
    (hadded : definition.addConfigValues fresh entries = some accepted.values) :
    ∀ entry ∈ printedEntries accepted.values, isEntry (readEntry entry) = true := by
  have hperm : (entries.map fun call => (call.sectionName, call.key)).Perm
      ((printedEntries accepted.values).map fun call => (call.sectionName, call.key)) := by
    rw [List.perm_iff_count]
    rintro ⟨sectionName, name⟩
    rw [← length_textsOf, ← length_textsOf, accepted.textsOf_printedEntries_id,
      (addConfigValues_fresh_iff.mp hadded sectionName name).1.length_eq]
    simp [valuesAsString]
  have hlength := hperm.length_eq
  rw [List.length_map, List.length_map, length_of_entriesFrom hentries, countP_sectionTokens]
    at hlength
  exact List.countP_eq_length.mp hlength

theorem kept_of_roundTrips (h : RoundTrips accepted.values) :
    ∀ sectionName name, ∀ value ∈ accepted.values sectionName name,
      definition.Kept sectionName name value := by
  obtain ⟨entries, hentries, hadded⟩ := roundTrips_iff_entries.mp h
  have hline {sectionName name : Bytes} {value : (definition.kindOf sectionName name).Value}
      (hvalue : value ∈ accepted.values sectionName name) :=
    accepted.exists_line hentries hadded hvalue
  have htokens := hentries
  rw [entriesFrom_generateIniConfig] at htokens
  · have hread : ∀ entry ∈ printedEntries accepted.values,
        readEntry entry = .entry entry.key (trim isSpace entry.value) ∧
          ¬ HeaderLike entry.key (trim isSpace entry.value) := by
      intro entry hentry
      obtain ⟨value, hvalue, -⟩ := mem_printedEntries hentry
      rcases readLine_pair (hline hvalue).1 entry.value with
        ⟨-, header, hheader⟩ | ⟨hheader, hread⟩
      · have hisEntry := accepted.isEntry_of_added htokens hadded entry hentry
        rw [show readEntry entry = .header header from hheader] at hisEntry
        cases hisEntry
      · exact ⟨hread, hheader⟩
    rw [entriesFrom_sectionTokens fun entry hentry => (hread entry hentry).1,
      Option.some.injEq] at htokens
    subst htokens
    intro sectionName name value hvalue
    have hrestored : (definition.kindOf sectionName name).Restored value := by
      have htexts := (addConfigValues_fresh_iff.mp hadded sectionName name).1
      rw [textsOf_printedEntries accepted.eq_nil_of_undefined, valuesAsString,
        List.forall₂_map_left_iff, List.forall₂_map_left_iff, List.forall₂_same] at htexts
      obtain ⟨text, htext⟩ := accepted.exists_text hvalue
      exact (OptionKind.fromString_trim_iff htext (hline hvalue).2).mp (htexts value hvalue)
    have hheader := (hread _ (accepted.mem_printedEntries_of hvalue)).2
    rw [hrestored.isLine_trimmed.2.trim_eq] at hheader
    exact ⟨(hline hvalue).1, hrestored, hheader⟩
  · intro sectionName name text htext
    obtain ⟨value, hvalue, rfl⟩ := List.mem_map.mp htext
    exact (hline hvalue).2

end AcceptedValues

/-- The values that have been added to a definition come back from its generated file exactly
if every value is kept. -/
theorem generateIniConfig_roundTrips_iff (definition : ConfigDefinition)
    (accepted : definition.AcceptedValues) :
    RoundTrips accepted.values ↔
      ∀ sectionName name, ∀ value ∈ accepted.values sectionName name,
        definition.Kept sectionName name value :=
  ⟨accepted.kept_of_roundTrips, accepted.roundTrips_of_kept⟩

def buildTimeoutOption : OptionDefinition where
  kind := .milliseconds
  required := false
  multiValued := false
  hidden := false
  comments :=
    ["How long to wait for a session or path to establish before timing out the attempt.",
      "Value is in seconds, or milliseconds with an ms suffix (e.g. 2500ms)."].map ascii
  defaults := [ascii "10000ms"]
  comments_isLine := by decide
  defaults_isLine := by decide
  required_defaults := nofun

def pathsDefinition : ConfigDefinition where
  sections := (∅ : Table Bytes ConfigSection).insertOrAssign (ascii "paths")
    { comments := []
      options := (∅ : Table Bytes OptionDefinition).insertOrAssign (ascii "build-timeout")
        buildTimeoutOption
      comments_isLine := nofun
      options_isLine := by decide }
  sections_isLine := by decide

def buildTimeout : pathsDefinition.AcceptedValues where
  calls := [⟨ascii "paths", ascii "build-timeout", ascii "2500ms"⟩]
  values := (pathsDefinition.addConfigValues fresh
    [⟨ascii "paths", ascii "build-timeout", ascii "2500ms"⟩]).get (by decide +kernel)
  accepted := (Option.some_get _).symm

theorem buildTimeout_not_restored :
    OptionKind.fromString .milliseconds (ascii "2500ms") = some 2500 ∧
      entriesFrom [] ((split isLineBreak (generateIniConfig buildTimeout.values true)).map
        readLine) = some [⟨ascii "paths", ascii "build-timeout", ascii "2ms"⟩] ∧
      OptionKind.fromString .milliseconds (ascii "2ms") = some 2 ∧
      ¬ RoundTrips buildTimeout.values := by
  have hentries : entriesFrom [] ((split isLineBreak (generateIniConfig buildTimeout.values
      true)).map readLine) = some [⟨ascii "paths", ascii "build-timeout", ascii "2ms"⟩] := by
    decide +kernel
  refine ⟨by decide +kernel, hentries, by decide +kernel, fun hround => ?_⟩
  obtain ⟨entries, hread, hadded⟩ := roundTrips_iff_entries.mp hround
  rw [hentries] at hread
  cases hread
  have htexts := congrArg (Option.map fun values : pathsDefinition.Values =>
    valuesAsString values (ascii "paths") (ascii "build-timeout")) hadded
  revert htexts
  decide +kernel

end SessionRouter.ConfigDefinition
