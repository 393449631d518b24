import SessionRouter.Config.ConfigParser

/-!
# The definition of a configuration
-/

namespace SessionRouter

open Lib TextLines

/-- An option, up to its values and its acceptor. -/
structure OptionDefinition where
  kind : OptionKind
  required : Bool
  multiValued : Bool
  hidden : Bool
  comments : List Bytes
  defaults : List Bytes
  comments_isLine : ∀ comment ∈ comments, IsLine isLineBreak comment
  defaults_isLine : ∀ value ∈ defaults, IsLine isLineBreak value
  required_defaults : required = true → defaults = []

structure ConfigSection where
  comments : List Bytes
  options : Table Bytes OptionDefinition
  comments_isLine : ∀ comment ∈ comments, IsLine isLineBreak comment
  options_isLine : ∀ name ∈ options.keys, IsLine isLineBreak name

structure ConfigDefinition where
  sections : Table Bytes ConfigSection
  sections_isLine : ∀ name ∈ sections.keys, IsLine isLineBreak name

namespace ConfigDefinition

variable (definition : ConfigDefinition)

def option (sectionName name : Bytes) : Option OptionDefinition :=
  (definition.sections.find sectionName).bind fun section_ => section_.options.find name

def kindOf (sectionName name : Bytes) : OptionKind :=
  (definition.option sectionName name).elim .string OptionDefinition.kind

abbrev Values :=
  (sectionName name : Bytes) → List (definition.kindOf sectionName name).Value

variable {definition}

def fresh : definition.Values :=
  fun _ _ => []

variable (definition)

def parseValue (sectionName name : Bytes)
    (values : List (definition.kindOf sectionName name).Value) (text : Bytes) :
    Option (List (definition.kindOf sectionName name).Value) :=
  match definition.option sectionName name with
  | none => none
  | some option =>
    if option.multiValued = false ∧ values.length > 0 then none
    else ((definition.kindOf sectionName name).fromString text).map (values ++ [·])

def addConfigValue (values : definition.Values) (call : ConfigEntry) : Option definition.Values :=
  (definition.parseValue call.sectionName call.key (values call.sectionName call.key)
    call.value).map fun added =>
      Function.update values call.sectionName
        (Function.update (values call.sectionName) call.key added)

def addConfigValues (values : definition.Values) (calls : List ConfigEntry) :
    Option definition.Values :=
  calls.foldlM definition.addConfigValue values

structure AcceptedValues where
  values : definition.Values
  calls : List ConfigEntry
  accepted : definition.addConfigValues fresh calls = some values

def optionText (useValues : Bool) (name : Bytes) (option : OptionDefinition)
    (values : List Bytes) : Bytes :=
  let comments := if option.hidden then [] else option.comments
  comments.flatMap (fun comment => ascii "\n# " ++ comment) ++
    if useValues = true ∧ values.length > 0 then
      values.flatMap (fun value => ascii "\n" ++ name ++ ascii "=" ++ value) ++ ascii "\n"
    else if option.hidden = false then
      (if option.defaults ≠ [] then
        option.defaults.flatMap fun value =>
          ascii "\n" ++ (if option.required then [] else ascii "#") ++ name ++ ascii "=" ++ value
      else ascii "\n#" ++ name ++ ascii "=") ++ ascii "\n"
    else if comments ≠ [] then ascii "\n"
    else []

variable {definition}

def valuesAsString (values : definition.Values) (sectionName name : Bytes) : List Bytes :=
  (values sectionName name).map (definition.kindOf sectionName name).valueText

def sectionText (values : definition.Values) (useValues : Bool) (sectionName : Bytes)
    (section_ : ConfigSection) : Bytes :=
  section_.options.entries.flatMap fun entry =>
    optionText useValues entry.1 entry.2 (valuesAsString values sectionName entry.1)

def appendSection (values : definition.Values) (useValues : Bool) (state : Bytes × Nat)
    (entry : Sigma fun _ : Bytes => ConfigSection) : Bytes × Nat :=
  let text := sectionText values useValues entry.1 entry.2
  if text = [] then state
  else
    (state.1 ++ (if state.2 > 0 then ascii "\n\n" else []) ++ ascii "[" ++ entry.1 ++ ascii "]\n" ++
      entry.2.comments.flatMap (fun comment => ascii "# " ++ comment ++ ascii "\n") ++
      ascii "\n" ++ text, state.2 + 1)

def generateIniConfig (values : definition.Values) (useValues : Bool) : Bytes :=
  (definition.sections.entries.foldl (appendSection values useValues) ([], 0)).1

open ConfigParser

theorem update_update_of_ne {values : definition.Values} {sectionName name : Bytes}
    {added : List (definition.kindOf sectionName name).Value} {otherSection other : Bytes}
    (h : ¬ (sectionName = otherSection ∧ name = other)) :
    Function.update values sectionName (Function.update (values sectionName) name added)
      otherSection other = values otherSection other := by
  by_cases hsection : otherSection = sectionName
  · subst hsection
    rw [Function.update_self, Function.update_of_ne]
    rintro rfl
    exact h ⟨rfl, rfl⟩
  · rw [Function.update_of_ne hsection]

theorem addConfigValues_eq_some_iff {before after : definition.Values} {calls : List ConfigEntry} :
    definition.addConfigValues before calls = some after ↔
      ∀ sectionName name, (textsOf calls sectionName name).foldlM
        (definition.parseValue sectionName name) (before sectionName name) =
          some (after sectionName name) := by
  induction calls generalizing before with
  | nil => simp [addConfigValues, funext_iff]
  | cons call calls ih =>
    obtain ⟨callSection, callName, text⟩ := call
    have hcons : definition.addConfigValues before (⟨callSection, callName, text⟩ :: calls) =
        (definition.parseValue callSection callName (before callSection callName) text).bind
          fun added => definition.addConfigValues (Function.update before callSection
            (Function.update (before callSection) callName added)) calls := by
      simp only [addConfigValues, List.foldlM_cons, addConfigValue, Option.bind_eq_bind,
        Option.bind_map]
      rfl
    rw [hcons]
    cases hadded : definition.parseValue callSection callName (before callSection callName)
        text with
    | none =>
      refine iff_of_false (by simp) fun hall => ?_
      have hcall := hall callSection callName
      simp [textsOf_cons, hadded] at hcall
    | some added =>
      rw [Option.bind_some, ih]
      refine forall_congr' fun sectionName => forall_congr' fun name => ?_
      by_cases hsame : callSection = sectionName ∧ callName = name
      · obtain ⟨rfl, rfl⟩ := hsame
        simp [textsOf_cons, hadded]
      · rw [textsOf_cons, if_neg hsame, update_update_of_ne hsame]

def Takes (definition : ConfigDefinition) (sectionName name : Bytes) (count : Nat) : Prop :=
  ∃ option, definition.option sectionName name = some option ∧
    (option.multiValued = true ∨ count ≤ 1)

variable {sectionName name : Bytes}

theorem parseValue_eq_some_iff
    {before after : List (definition.kindOf sectionName name).Value} {text : Bytes} :
    definition.parseValue sectionName name before text = some after ↔
      definition.Takes sectionName name (before.length + 1) ∧
        ∃ value, (definition.kindOf sectionName name).fromString text = some value ∧
          after = before ++ [value] := by
  unfold parseValue Takes
  cases hoption : definition.option sectionName name with
  | none => simp
  | some option =>
    simp only [Option.some.injEq, exists_eq_left']
    split
    · next hfull =>
      refine iff_of_false (by simp) ?_
      rintro ⟨hmulti | hcount, -⟩
      · rw [hfull.1] at hmulti
        cases hmulti
      · omega
    · next hfree =>
      have htakes : option.multiValued = true ∨ before.length + 1 ≤ 1 := by
        by_cases hmulti : option.multiValued = true
        · exact .inl hmulti
        · right
          by_contra hcount
          exact hfree ⟨by simpa using hmulti, by omega⟩
      simp only [Option.map_eq_some_iff, htakes, true_and]
      exact ⟨fun ⟨value, hread, h⟩ => ⟨value, hread, h.symm⟩,
        fun ⟨value, hread, h⟩ => ⟨value, hread, h.symm⟩⟩

theorem foldlM_parseValue_iff
    {before after : List (definition.kindOf sectionName name).Value} {texts : List Bytes} :
    texts.foldlM (definition.parseValue sectionName name) before = some after ↔
      ∃ added, after = before ++ added ∧ List.Forall₂ (fun text value =>
          (definition.kindOf sectionName name).fromString text = some value) texts added ∧
        (texts = [] ∨ definition.Takes sectionName name after.length) := by
  induction texts generalizing before with
  | nil =>
    simp only [List.foldlM_nil, List.forall₂_nil_left_iff, true_or, and_true, exists_eq_right,
      List.append_nil, Option.pure_def, Option.some.injEq]
    exact eq_comm
  | cons text texts ih =>
    simp only [List.foldlM_cons, Option.bind_eq_bind, Option.bind_eq_some_iff,
      parseValue_eq_some_iff, ih, List.cons_ne_nil, false_or]
    constructor
    · rintro ⟨middle, ⟨htakes, value, hvalue, rfl⟩, added, rfl, hadded, hrest⟩
      refine ⟨value :: added, by simp, .cons hvalue hadded, ?_⟩
      rcases hrest with rfl | hrest
      · cases hadded
        simpa using htakes
      · exact hrest
    · rintro ⟨added, rfl, hadded, htakes⟩
      obtain ⟨value, rest, hvalue, hrest, rfl⟩ := List.forall₂_cons_left_iff.mp hadded
      obtain ⟨option, hoption, htakes⟩ := htakes
      simp only [List.length_append, List.length_cons] at htakes
      refine ⟨before ++ [value], ⟨⟨option, hoption, ?_⟩, value, hvalue, rfl⟩, rest, by simp,
        hrest, .inr ⟨option, hoption, ?_⟩⟩
      · exact htakes.imp_right (by omega)
      · refine htakes.imp_right fun hcount => ?_
        simp only [List.length_append, List.length_cons]
        omega

theorem addConfigValues_fresh_iff {values : definition.Values} {calls : List ConfigEntry} :
    definition.addConfigValues fresh calls = some values ↔ ∀ sectionName name,
        List.Forall₂ (fun text value =>
          (definition.kindOf sectionName name).fromString text = some value)
          (textsOf calls sectionName name) (values sectionName name) ∧
        (values sectionName name = [] ∨
          definition.Takes sectionName name (values sectionName name).length) := by
  rw [addConfigValues_eq_some_iff]
  refine forall_congr' fun sectionName => forall_congr' fun name => ?_
  simp only [foldlM_parseValue_iff, fresh, List.nil_append]
  constructor
  · rintro ⟨added, rfl, hadded, htakes⟩
    refine ⟨hadded, htakes.imp_left fun hnil => ?_⟩
    rw [hnil] at hadded
    exact List.forall₂_nil_left_iff.mp hadded
  · rintro ⟨hread, htakes⟩
    refine ⟨_, rfl, hread, htakes.imp_left fun hnil => ?_⟩
    rw [hnil] at hread
    exact List.forall₂_nil_right_iff.mp hread

end ConfigDefinition
end SessionRouter
