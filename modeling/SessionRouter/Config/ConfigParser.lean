import SessionRouter.Config.OptionValue
import SessionRouter.Lib.Table

/-!
# Reading a configuration file
-/

namespace SessionRouter

open Lib TextLines

/-- A call of `add_config_value`. -/
structure ConfigEntry where
  sectionName : Bytes
  key : Bytes
  value : Bytes
deriving DecidableEq

/-- What a line of the file is. -/
inductive IniLine where
  | ignored
  | header (name : Bytes)
  | entry (key value : Bytes)
  | malformed
deriving DecidableEq

def readLine (line : Bytes) : IniLine :=
  let line := trim isSpace line
  if line = [] ∨ line.head? = some 0x3b ∨ line.head? = some 0x23 then .ignored
  else if line.head? = some 0x5b ∧ line.getLast? = some 0x5d then .header line.tail.dropLast
  else if 0x3d ∈ line then
    let key := (line.takeWhile (· != 0x3d)).rdropWhile isSpace
    let value := (line.dropWhile (· != 0x3d)).tail.dropWhile isSpace
    if key = [] then .malformed else .entry key value
  else .malformed

@[simp] theorem readLine_nil : readLine [] = .ignored := by simp [readLine, trim]

theorem readLine_comment (rest : Bytes) : readLine (0x23 :: rest) = .ignored := by
  have hkept := @rdropWhile_append_cons _ isSpace 0x23 (by decide) [] rest
  rw [List.nil_append, List.nil_append] at hkept
  have htrim : trim isSpace (0x23 :: rest) = 0x23 :: rest.rdropWhile isSpace := by
    rw [trim, List.dropWhile_cons_of_neg (by decide), hkept]
  simp [readLine, htrim]

theorem readLine_header (name : Bytes) : readLine (0x5b :: (name ++ [0x5d])) = .header name := by
  have hlast : (0x5b :: (name ++ [0x5d] : Bytes)).getLast? = some 0x5d := by
    rw [← List.cons_append]
    exact List.getLast?_concat
  have htrimmed : Trimmed isSpace (0x5b :: (name ++ [0x5d])) := by
    refine ⟨fun byte hbyte => ?_, fun byte hbyte => ?_⟩
    · cases hbyte
      decide
    · rw [hlast] at hbyte
      cases hbyte
      decide
  simp [readLine, htrimmed.trim_eq, hlast]

/-- The keys that a file can have. -/
structure Readable (name : Bytes) : Prop where
  ne_nil : name ≠ []
  noDelimiter : 0x3d ∉ name
  trimmed : Trimmed isSpace name
  noComment : name.head? ≠ some 0x3b ∧ name.head? ≠ some 0x23

def HeaderLike (name text : Bytes) : Prop :=
  name.head? = some 0x5b ∧ text.getLast? = some 0x5d

theorem readLine_pair {name : Bytes} (hname : Readable name) (text : Bytes) :
    (HeaderLike name (trim isSpace text) ∧
      ∃ header, readLine (name ++ 0x3d :: text) = .header header) ∨
    (¬ HeaderLike name (trim isSpace text) ∧
      readLine (name ++ 0x3d :: text) = .entry name (trim isSpace text)) := by
  obtain ⟨first, rest, hfirst⟩ := List.exists_cons_of_ne_nil hname.ne_nil
  have hline : trim isSpace (name ++ 0x3d :: text) = name ++ 0x3d :: text.rdropWhile isSpace := by
    rw [trim, dropWhile_eq_self, rdropWhile_append_cons (by decide)]
    intro byte hbyte
    refine hname.trimmed.front byte ?_
    rw [hfirst] at hbyte ⊢
    exact hbyte
  have hhead : (name ++ 0x3d :: text.rdropWhile isSpace).head? = name.head? := by
    rw [hfirst, List.cons_append, List.head?_cons, List.head?_cons]
  have hlast : (name ++ 0x3d :: text.rdropWhile isSpace).getLast? = some 0x5d ↔
      (trim isSpace text).getLast? = some 0x5d := by
    rw [← dropWhile_rdropWhile, getLast?_dropWhile isBlank_getLast?_rdropWhile,
      List.getLast?_append]
    cases hrest : text.rdropWhile isSpace with
    | nil => simp
    | cons byte bytes => simp [List.getLast?_cons_cons]
  have hkey : (name ++ 0x3d :: text.rdropWhile isSpace).takeWhile (· != 0x3d) = name := by
    rw [List.takeWhile_append_of_pos]
    · simp
    · intro byte hbyte
      simpa using fun heq : byte = 0x3d => hname.noDelimiter (heq ▸ hbyte)
  have hvalue : (name ++ 0x3d :: text.rdropWhile isSpace).dropWhile (· != 0x3d) =
      0x3d :: text.rdropWhile isSpace := by
    rw [List.dropWhile_append_of_pos]
    · simp
    · intro byte hbyte
      simpa using fun heq : byte = 0x3d => hname.noDelimiter (heq ▸ hbyte)
  simp only [readLine, hline, hhead, hlast, hkey, hvalue, List.tail_cons, dropWhile_rdropWhile,
    hname.noComment, rdropWhile_eq_self hname.trimmed.back, hname.ne_nil, or_false,
    List.append_eq_nil_iff, false_and, if_false, HeaderLike]
  split
  · next hheader => exact .inl ⟨hheader, _, rfl⟩
  · next hheader => exact .inr ⟨hheader, by simp⟩

variable {line key value : Bytes}

section

variable (h : readLine line = .entry key value)

include h

theorem readLine_eq_entry :
    key ≠ [] ∧ ¬ ((trim isSpace line).head? = some 0x3b ∨ (trim isSpace line).head? = some 0x23) ∧
      key = ((trim isSpace line).takeWhile (· != 0x3d)).rdropWhile isSpace ∧
      value = ((trim isSpace line).dropWhile (· != 0x3d)).tail.dropWhile isSpace := by
  simp only [readLine] at h
  split at h
  · cases h
  · next hcomment =>
    split at h
    · cases h
    · split at h
      · split at h
        · cases h
        · next hkey =>
          cases h
          exact ⟨hkey, fun hhead => hcomment (.inr hhead), rfl, rfl⟩
      · cases h

theorem readable_of_readLine : Readable key := by
  obtain ⟨hne, hcomment, hkey, -⟩ := readLine_eq_entry h
  have hfront : key <+: trim isSpace line := by
    rw [hkey]
    exact (List.rdropWhile_prefix isSpace _).trans (List.takeWhile_prefix _)
  have hhead : (trim isSpace line).head? = key.head? := by
    obtain ⟨rest, hrest⟩ := hfront
    obtain ⟨first, bytes, rfl⟩ := List.exists_cons_of_ne_nil hne
    rw [← hrest]
    rfl
  rw [hhead, not_or] at hcomment
  refine ⟨hne, fun hmem => ?_, ⟨?_, ?_⟩, hcomment⟩
  · rw [hkey] at hmem
    simpa using List.mem_takeWhile_imp ((List.rdropWhile_prefix isSpace _).subset hmem)
  · rw [← hhead]
    exact (trimmed_trim line).front
  · rw [hkey]
    exact isBlank_getLast?_rdropWhile

theorem isLine_of_readLine (hline : IsLine isLineBreak line) : IsLine isLineBreak value := by
  obtain ⟨-, -, -, rfl⟩ := readLine_eq_entry h
  intro byte hmem
  exact hline byte (mem_of_mem_trim ((List.dropWhile_suffix _).subset
    (List.mem_of_mem_tail ((List.dropWhile_suffix _).subset hmem))))

end

abbrev ConfigMap := Table Bytes (Table Bytes (List Bytes))

namespace ConfigMap

def valuesOf (config : ConfigMap) (sectionName key : Bytes) : List Bytes :=
  ((config.find sectionName).bind fun values => values.find key).getD []

def emplaceBack (config : ConfigMap) (sectionName key value : Bytes) : ConfigMap :=
  let values := (config.find sectionName).getD ∅
  config.insertOrAssign sectionName
    (values.insertOrAssign key ((values.find key).getD [] ++ [value]))

theorem valuesOf_emplaceBack (config : ConfigMap) (sectionName key value : Bytes)
    (otherName other : Bytes) :
    (config.emplaceBack sectionName key value).valuesOf otherName other =
      if otherName = sectionName ∧ other = key then config.valuesOf sectionName key ++ [value]
      else config.valuesOf otherName other := by
  simp only [valuesOf, emplaceBack, Table.find_insertOrAssign]
  by_cases hname : otherName = sectionName
  · subst hname
    by_cases hkey : other = key
    · subst hkey
      cases config.find otherName <;> simp [Table.find_insertOrAssign]
    · cases config.find otherName <;> simp [Table.find_insertOrAssign, hkey]
  · simp [hname]

end ConfigMap

namespace ConfigParser

def parseLine (state : Bytes × ConfigMap) (line : Bytes) : Option (Bytes × ConfigMap) :=
  match readLine line with
  | .ignored => some state
  | .header name => some (name, state.2)
  | .entry key value => some (state.1, state.2.emplaceBack state.1 key value)
  | .malformed => none

def parse (data : Bytes) : Option ConfigMap :=
  ((split isLineBreak data).foldlM parseLine ([], ∅)).map Prod.snd

def textsOf (calls : List ConfigEntry) (sectionName key : Bytes) : List Bytes :=
  (calls.filter fun call => call.sectionName = sectionName ∧ call.key = key).map ConfigEntry.value

def Visits (config : ConfigMap) (calls : List ConfigEntry) : Prop :=
  ∀ sectionName key, textsOf calls sectionName key = config.valuesOf sectionName key

def entriesFrom : Bytes → List IniLine → Option (List ConfigEntry)
  | _, [] => some []
  | sectionName, .ignored :: lines => entriesFrom sectionName lines
  | _, .header name :: lines => entriesFrom name lines
  | sectionName, .entry key value :: lines =>
    (entriesFrom sectionName lines).map (⟨sectionName, key, value⟩ :: ·)
  | _, .malformed :: _ => none

@[simp] theorem textsOf_nil (sectionName key : Bytes) : textsOf [] sectionName key = [] := rfl

theorem textsOf_cons (call : ConfigEntry) (calls : List ConfigEntry) (sectionName key : Bytes) :
    textsOf (call :: calls) sectionName key =
      if call.sectionName = sectionName ∧ call.key = key then
        call.value :: textsOf calls sectionName key
      else textsOf calls sectionName key := by
  unfold textsOf
  rw [List.filter_cons]
  split <;> simp_all

theorem textsOf_append (front back : List ConfigEntry) (sectionName key : Bytes) :
    textsOf (front ++ back) sectionName key =
      textsOf front sectionName key ++ textsOf back sectionName key := by
  simp [textsOf]

theorem textsOf_flatMap {α : Type*} (list : List α) (calls : α → List ConfigEntry)
    (sectionName key : Bytes) :
    textsOf (list.flatMap calls) sectionName key =
      list.flatMap fun x => textsOf (calls x) sectionName key := by
  induction list with
  | nil => rfl
  | cons x list ih => rw [List.flatMap_cons, textsOf_append, ih, List.flatMap_cons]

theorem textsOf_map (texts : List Bytes) (sectionName key otherSection other : Bytes) :
    textsOf (texts.map (ConfigEntry.mk sectionName key)) otherSection other =
      if sectionName = otherSection ∧ key = other then texts else [] := by
  induction texts with
  | nil => simp
  | cons text texts ih =>
    rw [List.map_cons, textsOf_cons, ih]
    split <;> rfl

theorem mem_textsOf_iff {calls : List ConfigEntry} {sectionName key text : Bytes} :
    text ∈ textsOf calls sectionName key ↔ ⟨sectionName, key, text⟩ ∈ calls := by
  simp only [textsOf, List.mem_map, List.mem_filter, decide_eq_true_eq]
  constructor
  · rintro ⟨call, ⟨hcall, rfl, rfl⟩, rfl⟩
    exact hcall
  · intro hcall
    exact ⟨_, ⟨hcall, rfl, rfl⟩, rfl⟩

def isIgnored : IniLine → Bool
  | .ignored => true
  | _ => false

def significant (lines : List IniLine) : List IniLine :=
  lines.filter fun line => !isIgnored line

@[simp] theorem significant_nil : significant [] = [] := rfl

@[simp] theorem significant_ignored_cons (lines : List IniLine) :
    significant (.ignored :: lines) = significant lines :=
  rfl

@[simp] theorem significant_header_cons (name : Bytes) (lines : List IniLine) :
    significant (.header name :: lines) = .header name :: significant lines :=
  rfl

@[simp] theorem significant_append (front back : List IniLine) :
    significant (front ++ back) = significant front ++ significant back :=
  List.filter_append ..

theorem significant_flatMap {α : Type*} (list : List α) (lines : α → List IniLine) :
    significant (list.flatMap lines) = list.flatMap fun x => significant (lines x) := by
  simp [significant, List.filter_flatMap]

theorem entriesFrom_significant (sectionName : Bytes) (lines : List IniLine) :
    entriesFrom sectionName (significant lines) = entriesFrom sectionName lines := by
  induction lines generalizing sectionName with
  | nil => rfl
  | cons line lines ih =>
    cases line with
    | ignored => exact ih sectionName
    | header name => exact ih name
    | malformed => rfl
    | entry key value =>
      have hcons : significant (.entry key value :: lines) =
          .entry key value :: significant lines := rfl
      rw [hcons, entriesFrom, ih, entriesFrom]

def isEntry : IniLine → Bool
  | .entry _ _ => true
  | _ => false

theorem length_of_entriesFrom {sectionName : Bytes} {lines : List IniLine}
    {entries : List ConfigEntry} (h : entriesFrom sectionName lines = some entries) :
    entries.length = lines.countP isEntry := by
  induction lines generalizing sectionName entries with
  | nil =>
    cases h
    rfl
  | cons line lines ih =>
    cases line with
    | ignored => exact ih h
    | header name => exact ih h
    | malformed => cases h
    | entry key value =>
      obtain ⟨rest, hrest, rfl⟩ := Option.map_eq_some_iff.mp h
      rw [List.length_cons, ih hrest, List.countP_cons_of_pos rfl]

theorem mem_of_entriesFrom {sectionName : Bytes} {lines : List IniLine}
    {entries : List ConfigEntry} (h : entriesFrom sectionName lines = some entries)
    {entry : ConfigEntry} (hmem : entry ∈ entries) : .entry entry.key entry.value ∈ lines := by
  induction lines generalizing sectionName entries with
  | nil =>
    cases h
    cases hmem
  | cons line lines ih =>
    cases line with
    | ignored | header => exact List.mem_cons_of_mem _ (ih h hmem)
    | malformed => cases h
    | entry key value =>
      obtain ⟨rest, hrest, rfl⟩ := Option.map_eq_some_iff.mp h
      rcases List.mem_cons.mp hmem with rfl | hmem
      · exact List.mem_cons_self
      · exact List.mem_cons_of_mem _ (ih hrest hmem)

theorem length_textsOf (calls : List ConfigEntry) (sectionName key : Bytes) :
    (textsOf calls sectionName key).length =
      (calls.map fun call => (call.sectionName, call.key)).count (sectionName, key) := by
  rw [textsOf, List.length_map, ← List.countP_eq_length_filter, List.count, List.countP_map]
  refine List.countP_congr fun call _ => ?_
  simp

theorem foldlM_parseLine (lines : List Bytes) (sectionName : Bytes) (config : ConfigMap) :
    (entriesFrom sectionName (lines.map readLine) = none ∧
      lines.foldlM parseLine (sectionName, config) = none) ∨
    ∃ entries name after, entriesFrom sectionName (lines.map readLine) = some entries ∧
      lines.foldlM parseLine (sectionName, config) = some (name, after) ∧
      ∀ other key, after.valuesOf other key =
        config.valuesOf other key ++ textsOf entries other key := by
  induction lines generalizing sectionName config with
  | nil => exact .inr ⟨[], sectionName, config, rfl, rfl, by simp⟩
  | cons line lines ih =>
    rw [List.map_cons, List.foldlM_cons, parseLine]
    cases readLine line with
    | ignored => exact ih sectionName config
    | header name => exact ih name config
    | malformed => exact .inl ⟨rfl, rfl⟩
    | entry key value =>
      rcases ih sectionName (config.emplaceBack sectionName key value) with
        ⟨hnone, hfold⟩ | ⟨entries, name, after, hentries, hfold, hvalues⟩
      · exact .inl ⟨by simp [entriesFrom, hnone], hfold⟩
      · refine .inr ⟨⟨sectionName, key, value⟩ :: entries, name, after, ?_, hfold, ?_⟩
        · simp [entriesFrom, hentries]
        · intro other otherKey
          rw [hvalues, ConfigMap.valuesOf_emplaceBack, textsOf_cons]
          by_cases hsame : other = sectionName ∧ otherKey = key
          · obtain ⟨rfl, rfl⟩ := hsame
            simp
          · rw [if_neg hsame, if_neg fun h => hsame ⟨h.1.symm, h.2.symm⟩]

theorem parse_eq_some_iff_entries (data : Bytes) :
    (entriesFrom [] ((split isLineBreak data).map readLine) = none ∧ parse data = none) ∨
    ∃ entries parsed, entriesFrom [] ((split isLineBreak data).map readLine) = some entries ∧
      parse data = some parsed ∧
      ∀ sectionName key, parsed.valuesOf sectionName key = textsOf entries sectionName key := by
  rcases foldlM_parseLine (split isLineBreak data) [] ∅ with
    ⟨hnone, hfold⟩ | ⟨entries, name, after, hentries, hfold, hvalues⟩
  · exact .inl ⟨hnone, by simp [parse, hfold]⟩
  · refine .inr ⟨entries, after, hentries, by simp [parse, hfold], ?_⟩
    intro sectionName key
    rw [hvalues]
    rfl

end ConfigParser
end SessionRouter
