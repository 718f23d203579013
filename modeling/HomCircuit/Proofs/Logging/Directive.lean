import Mathlib
import HomCircuit.Logging.DebugFlags

/-!
# HomCircuit.Proofs.Logging.Directive

The filter that arguments and configured names ask for together.

```
--debug-TEXT      TEXT as it stands,                     all parts if it is  all
TEXT              TEXT without the blanks at its ends,   all parts if it is  all,  nothing if it is empty
```

The names that either sets are put in order, each once, so it is only their set that counts. The two
ways of giving a text agree exactly on those that are not empty and have no blanks at their ends: an
argument with another text sets a name that no part has, and the name may be blank.

* `Text.between_eq_splitOn` — the pieces of a text are those of the library;
* `DebugFlags.mem_names_enableAll`, `DebugFlags.ascending_enableAll` — the names as an ordered set;
* `DebugFlags.pieces_filter` — a reader that cuts the filter at its commas gets the entries back;
* `DebugFlags.directive_lists` — the entries, what they depend on, and where the two ways agree.
-/

namespace HomCircuit

/-! ## texts -/

namespace Text

theorem between_eq_splitOn (mark : Char) (cs : List Char) : between mark cs = cs.splitOn mark := by
  induction cs with
  | nil => rfl
  | cons c rest ih =>
      have some_ := List.splitOnP_ne_nil (· == mark) rest
      rw [between, ih, List.splitOn, List.splitOn, List.splitOnP_cons_eq_if_modifyHead]
      cases split : List.splitOnP (· == mark) rest with
      | nil => exact absurd split some_
      | cons front more => simp [List.modifyHead]

/-- Blanks are only taken away. -/
theorem trimChars_sublist (cs : List Char) : (trimChars cs).Sublist cs := by
  have back : ((cs.dropWhile isBlank).reverse.dropWhile isBlank).reverse.Sublist
      (cs.dropWhile isBlank).reverse.reverse :=
    (List.dropWhile_sublist isBlank).reverse
  rw [List.reverse_reverse] at back
  exact back.trans (List.dropWhile_sublist isBlank)

/-- What is left is not blank, unless nothing is. -/
theorem isBlankText_trim {s : String} (some_ : trim s ≠ "") : isBlankText (trim s) = false := by
  have left : ((s.toList.dropWhile isBlank).reverse.dropWhile isBlank) ≠ [] := by
    intro none
    exact some_ (by simp [trim, trimChars, none])
  have last := List.head?_dropWhile_not isBlank (s.toList.dropWhile isBlank).reverse
  obtain ⟨c, back, split⟩ := List.exists_cons_of_ne_nil left
  rw [split] at last
  simp only [isBlankText, trim, trimChars, split, String.toList_ofList, List.all_eq_false]
  exact ⟨c, by simp, by simpa using last⟩

end Text

namespace DebugFlags

/-! ## names in order -/

section Names

variable {name : String} {names : List String}

theorem mem_insertName {other : String} :
    other ∈ insertName name names ↔ other = name ∨ other ∈ names := by
  induction names with
  | nil => simp [insertName]
  | cons n rest ih =>
      rw [insertName]
      split
      · simp
      · split
        · next same => simp [same]
        · simp only [List.mem_cons, ih]
          tauto

theorem ascending_insertName (ascending : names.Pairwise (· < ·)) :
    (insertName name names).Pairwise (· < ·) := by
  induction names with
  | nil => simp [insertName]
  | cons n rest ih =>
      obtain ⟨least, others⟩ := List.pairwise_cons.mp ascending
      rw [insertName]
      split
      · next before =>
          refine List.pairwise_cons.mpr ⟨fun m mem => ?_, ascending⟩
          rcases List.mem_cons.mp mem with rfl | mem
          · exact before
          · exact before.trans (least m mem)
      · next after =>
          split
          · exact ascending
          · next other =>
              refine List.pairwise_cons.mpr ⟨fun m mem => ?_, ih others⟩
              rcases mem_insertName.mp mem with rfl | mem
              · exact lt_of_le_of_ne (not_lt.mp after) (Ne.symm other)
              · exact least m mem

/-- Flags with more names have those names and their own. -/
theorem mem_names_enableAll {f : DebugFlags} :
    name ∈ (f.enableAll names).names ↔ name ∈ f.names ∨ name ∈ names := by
  unfold enableAll
  induction names generalizing f with
  | nil => simp
  | cons n rest ih =>
      rw [List.foldl_cons, ih, enable, mem_insertName, List.mem_cons]
      tauto

/-- Names stay in order, and none is twice among them. -/
theorem ascending_enableAll {f : DebugFlags} (ascending : f.names.Pairwise (· < ·)) :
    (f.enableAll names).names.Pairwise (· < ·) := by
  unfold enableAll
  induction names generalizing f with
  | nil => exact ascending
  | cons n rest ih => exact ih (ascending_insertName ascending)

/-- Names in order are told by which they are. -/
theorem eq_of_ascending {names' : List String} (ascending : names.Pairwise (· < ·))
    (ascending' : names'.Pairwise (· < ·)) (same : ∀ name, name ∈ names ↔ name ∈ names') :
    names = names' := by
  have perm := (List.perm_ext_iff_of_nodup (ascending.imp ne_of_lt) (ascending'.imp ne_of_lt)).mpr same
  exact perm.eq_of_pairwise (fun a b _ _ lt gt => absurd gt lt.not_gt) ascending ascending'

end Names

/-! ## what sets a name -/

/-- The argument that gives a text. -/
def argument (text : String) : String := "--debug-" ++ text

/-- A text stands for all parts, or for itself. -/
def StandsFor (text name : String) : Prop :=
  (text = "all" ∧ name ∈ partNames) ∨ (text ≠ "all" ∧ name = text)

/-- A text sets what it stands for without the blanks at its ends; if there is nothing else,
nothing. -/
def Sets (text name : String) : Prop := Text.trim text ≠ "" ∧ StandsFor (Text.trim text) name

/-- A name is set by an argument with its text as it stands, or by a configured text. -/
def Asked (arguments names : List String) (name : String) : Prop :=
  (∃ text, argument text ∈ arguments ∧ StandsFor text name) ∨ ∃ text ∈ names, Sets text name

/-- A text is not empty and has no blanks at its ends. -/
def Trimmed (text : String) : Prop := Text.trim text = text ∧ text ≠ ""

/-- The flags of configured names and arguments together. -/
def together (arguments names : List String) : DebugFlags := (ofNames names).merge (ofArguments arguments)

/-- What a filter says of a name. -/
def entry (name : String) : String := target name ++ "=debug"

section Sources

variable {text name level : String} {arguments names : List String}

theorem toList_argument (text : String) :
    (argument text).toList = "--debug-".toList ++ text.toList := String.toList_append

theorem argument_inj {other : String} : argument text = argument other ↔ text = other := by
  rw [← String.toList_inj, toList_argument, toList_argument, List.append_cancel_left_eq,
    String.toList_inj]

/-- An argument sets what its text stands for. -/
theorem mem_namesOfArgument {a : String} :
    name ∈ namesOfArgument a ↔ ∃ text, a = argument text ∧ StandsFor text name := by
  have every : "--debug-all" = argument "all" := by decide
  rw [namesOfArgument, every]
  split
  · next same =>
      subst same
      constructor
      · intro mem
        exact ⟨"all", rfl, .inl ⟨rfl, mem⟩⟩
      · rintro ⟨text, same, stands⟩
        obtain rfl := argument_inj.mp same
        exact (stands.resolve_right fun other => other.1 rfl).2
  · next other =>
      split
      · next front =>
          obtain ⟨rest, whole⟩ := List.isPrefixOf_iff_prefix.mp front
          have given : a = argument (String.ofList rest) := by
            rw [← String.toList_inj, toList_argument, String.toList_ofList (l := rest), whole]
          subst given
          rw [toList_argument, List.drop_left, String.ofList_toList, List.mem_singleton]
          have own : String.ofList rest ≠ "all" := fun same => other (congrArg argument same)
          constructor
          · rintro rfl
            exact ⟨_, rfl, .inr ⟨own, rfl⟩⟩
          · rintro ⟨text, same, stands⟩
            obtain rfl := argument_inj.mp same
            exact (stands.resolve_left fun all => own all.1).2
      · next bare =>
          simp only [List.not_mem_nil, false_iff, not_exists, not_and]
          rintro text rfl
          exact absurd (List.isPrefixOf_iff_prefix.mpr ⟨_, (toList_argument text).symm⟩) bare

theorem mem_namesOfName : name ∈ namesOfName text ↔ Sets text name := by
  rw [namesOfName, Sets, StandsFor]
  split
  · next every =>
      rw [every]
      simp
  · next own =>
      split
      · next none => simp [none]
      · next some_ => simp [own, some_]

theorem mem_names_together : name ∈ (together arguments names).names ↔ Asked arguments names name := by
  rw [together, merge, mem_names_enableAll, ofNames, ofArguments, mem_names_enableAll,
    mem_names_enableAll, List.mem_flatMap, List.mem_flatMap, Asked]
  simp only [mem_namesOfArgument, mem_namesOfName, List.not_mem_nil, false_or]
  rw [or_comm]
  refine or_congr_left ⟨?_, ?_⟩
  · rintro ⟨a, mem, text, rfl, stands⟩
    exact ⟨text, mem, stands⟩
  · rintro ⟨text, mem, stands⟩
    exact ⟨_, mem, text, rfl, stands⟩

theorem ascending_together : (together arguments names).names.Pairwise (· < ·) :=
  ascending_enableAll (ascending_enableAll .nil)

/-- The flags are told by the names that are asked for. -/
theorem together_eq {arguments' names' : List String}
    (same : ∀ name, Asked arguments names name ↔ Asked arguments' names' name) :
    together arguments names = together arguments' names' := by
  refine congrArg DebugFlags.mk (eq_of_ascending ascending_together ascending_together fun name => ?_)
  exact mem_names_together.trans ((same name).trans mem_names_together.symm)

/-- A text without blanks at its ends sets the same, whichever way it is given. -/
theorem Trimmed.sets_iff (h : Trimmed text) : Sets text name ↔ StandsFor text name := by
  rw [Sets, h.1]
  exact and_iff_right h.2

end Sources

/-! ## the filter and its reader -/

section Filters

variable {f g : DebugFlags} {level name text : String}

theorem isBlankText_target : Text.isBlankText (target name) = Text.isBlankText name := by
  have marks : Text.isBlank '-' = false ∧ Text.isBlank '_' = false := by decide
  simp only [Text.isBlankText, target, String.toList_ofList, List.all_map]
  congr 1
  funext c
  by_cases dash : c = '-' <;> simp [dash, marks]

theorem isBlankText_of_standsFor (stands : StandsFor text name) (some_ : Text.isBlankText text = false) :
    Text.isBlankText name = false := by
  have parts : ∀ part ∈ partNames, Text.isBlankText part = false := by decide
  rcases stands with ⟨-, part⟩ | ⟨-, rfl⟩
  · exact parts name part
  · exact some_

theorem plain_of_standsFor (stands : StandsFor text name) (plain : ',' ∉ text.toList) :
    ',' ∉ name.toList := by
  have parts : ∀ part ∈ partNames, ',' ∉ part.toList := by decide
  rcases stands with ⟨-, part⟩ | ⟨-, rfl⟩
  · exact parts name part
  · exact plain

theorem plain_entry (plain : ',' ∉ name.toList) : ',' ∉ (entry name).toList := by
  simp only [entry, target, String.toList_append, String.toList_ofList, List.mem_append,
    List.mem_map, not_or]
  refine ⟨?_, by decide⟩
  rintro ⟨c, mem, same⟩
  split at same
  · exact absurd same (by decide)
  · exact plain (same ▸ mem)

/-- A reader that cuts a filter at its commas gets the entries and the level. -/
theorem pieces_filter (plain : ∀ name ∈ f.names, ',' ∉ name.toList) (plain' : ',' ∉ level.toList) :
    (Text.between ',' (f.filter level).toList).map String.ofList = f.names.map entry ++ [level] := by
  have comma : ",".toList = [','] := rfl
  have whole : (f.filter level).toList =
      [','].intercalate ((f.names.map entry ++ [level]).map String.toList) := by
    rw [← comma, ← String.toList_intercalate]
    rfl
  rw [whole, Text.between_eq_splitOn, List.splitOn_intercalate, List.map_map]
  · simp [Function.comp_def]
  · intro piece mem
    obtain ⟨part, among, rfl⟩ := List.mem_map.mp mem
    rcases List.mem_append.mp among with one | last
    · obtain ⟨name, known, rfl⟩ := List.mem_map.mp one
      exact plain_entry (plain name known)
    · rwa [List.mem_singleton.mp last]
  · simp

/-- The level ends the filter. -/
theorem filter_eq_append (f : DebugFlags) (level : String) : f.filter level = f.filter "" ++ level := by
  change ",".intercalate (f.names.map entry ++ [level]) =
    ",".intercalate (f.names.map entry ++ [""]) ++ level
  by_cases none : f.names.map entry = []
  · simp [none]
  · rw [String.intercalate_append_of_ne_nil none (by simp),
      String.intercalate_append_of_ne_nil none (by simp)]
    simp

/-- Filters tell the entries that they are made of, whatever the level is. -/
theorem entries_of_filter_eq (plain : ∀ name ∈ f.names, ',' ∉ name.toList)
    (plain' : ∀ name ∈ g.names, ',' ∉ name.toList) (same : f.filter level = g.filter level) :
    f.names.map entry = g.names.map entry := by
  rw [filter_eq_append f, filter_eq_append g, ← String.toList_inj, String.toList_append,
    String.toList_append, List.append_cancel_right_eq, String.toList_inj] at same
  have pieces := congrArg (fun s => (Text.between ',' s.toList).map String.ofList) same
  rw [pieces_filter plain (by simp), pieces_filter plain' (by simp)] at pieces
  exact List.append_cancel_right pieces

end Filters

/-! ## the two ways of giving a text -/

section Ways

variable {level text name : String} {arguments names arguments' names' : List String}

theorem plain_of_asked (plain : ∀ s ∈ arguments ++ names, ',' ∉ s.toList)
    (asked : Asked arguments names name) : ',' ∉ name.toList := by
  rcases asked with ⟨text, mem, stands⟩ | ⟨text, mem, -, stands⟩
  · have whole := plain _ (List.mem_append_left _ mem)
    rw [toList_argument, List.mem_append, not_or] at whole
    exact plain_of_standsFor stands whole.2
  · have whole := plain _ (List.mem_append_right _ mem)
    refine plain_of_standsFor stands fun inside => whole ?_
    rw [Text.trim, String.toList_ofList] at inside
    exact (Text.trimChars_sublist _).subset inside

theorem plain_together (plain : ∀ s ∈ arguments ++ names, ',' ∉ s.toList) :
    ∀ name ∈ (together arguments names).names, ',' ∉ name.toList := fun _ mem =>
  plain_of_asked plain (mem_names_together.mp mem)

/-- The names that are asked for are not blank exactly if no argument gives a blank text. -/
theorem not_blank_iff : (∀ name, Asked arguments names name → Text.isBlankText (target name) = false) ↔
    ∀ text, argument text ∈ arguments → Text.isBlankText text = false := by
  simp only [isBlankText_target]
  constructor
  · intro some_ text mem
    by_cases every : text = "all"
    · subst every
      decide
    · exact some_ text (.inl ⟨text, mem, .inr ⟨every, rfl⟩⟩)
  · rintro some_ name (⟨text, mem, stands⟩ | ⟨text, mem, left, stands⟩)
    · exact isBlankText_of_standsFor stands (some_ text mem)
    · exact isBlankText_of_standsFor stands (Text.isBlankText_trim left)

/-- Where arguments give no other texts than such without blanks at their ends, it does not matter
which way a text is given. -/
theorem asked_iff (trimmed : ∀ text, argument text ∈ arguments → Trimmed text) :
    Asked arguments names name ↔
      ∃ text, (argument text ∈ arguments ∨ text ∈ names) ∧ Sets text name := by
  constructor
  · rintro (⟨text, mem, stands⟩ | ⟨text, mem, sets⟩)
    · exact ⟨text, .inl mem, (trimmed text mem).sets_iff.mpr stands⟩
    · exact ⟨text, .inr mem, sets⟩
  · rintro ⟨text, mem | mem, sets⟩
    · exact .inl ⟨text, mem, (trimmed text mem).sets_iff.mp sets⟩
    · exact .inr ⟨text, mem, sets⟩

/-- A text that is neither empty nor has blanks at its ends may go from the arguments to the names.
-/
theorem Trimmed.together_eq (h : Trimmed text) :
    together (argument text :: arguments) names = together arguments (text :: names) := by
  refine DebugFlags.together_eq fun name => ?_
  simp only [Asked, List.mem_cons, argument_inj, or_and_right, exists_or, exists_eq_left, h.sets_iff]
  rw [or_assoc, or_left_comm]

theorem length_entry (name : String) : (entry name).toList.length = name.toList.length + 6 := by
  simp [entry, target]

/-- No other text may: its entry, alone, is not that of a name. -/
theorem trimmed_of_filter_eq (plain : ',' ∉ text.toList)
    (same : (together [argument text] []).filter level = (together [] [text]).filter level) :
    Trimmed text := by
  have plain' : ',' ∉ (argument text).toList := by
    rw [toList_argument, List.mem_append, not_or]
    exact ⟨by decide, plain⟩
  have entries := entries_of_filter_eq (plain_together (by simpa using plain'))
    (plain_together (by simpa using plain)) same
  by_cases every : text = "all"
  · subst every
    exact ⟨by decide, by decide⟩
  have names : (together [argument text] []).names = [text] := by
    refine eq_of_ascending ascending_together (by simp) fun name => ?_
    rw [mem_names_together]
    simp [Asked, argument_inj, StandsFor, every]
  rw [names] at entries
  -- the one entry is that of every name which the configured text sets
  have one {name : String} (sets : Sets text name) : entry name = entry text := by
    have mem : entry name ∈ (together [] [text]).names.map entry :=
      List.mem_map_of_mem (mem_names_together.mpr (.inr ⟨text, by simp, sets⟩))
    rw [← entries] at mem
    simpa using mem
  have some_ : Text.trim text ≠ "" := by
    intro none
    have mem : entry text ∈ (together [] [text]).names.map entry := by
      rw [← entries]
      simp
    obtain ⟨name, known, -⟩ := List.mem_map.mp mem
    obtain ⟨_, given, -⟩ | ⟨_, given, left, -⟩ := mem_names_together.mp known
    · exact absurd given List.not_mem_nil
    · rw [List.mem_singleton.mp given] at left
      exact left none
  by_cases parts : Text.trim text = "all"
  · -- all parts are set, and two of them have different entries
    have part (name : String) (mem : name ∈ partNames) : entry name = entry text :=
      one ⟨some_, .inl ⟨parts, mem⟩⟩
    have equal := (part "cipherflow-keys" (by decide)).trans (part "cipherflow-config" (by decide)).symm
    exact absurd equal (by decide)
  · have lengths := congrArg (fun s => s.toList.length) (one ⟨some_, .inr ⟨parts, rfl⟩⟩)
    simp only [length_entry, Nat.add_right_cancel_iff] at lengths
    have whole : (Text.trim text).toList = text.toList := by
      rw [Text.trim, String.toList_ofList] at lengths ⊢
      exact (Text.trimChars_sublist _).eq_of_length lengths
    have trim := String.toList_inj.mp whole
    exact ⟨trim, trim ▸ some_⟩

end Ways

/-! ## the filter that is asked for -/

/-- Of arguments and names without commas, the filter has an entry for each name that they ask for,
in order and each once, and then the level; a reader that cuts it at its commas gets these back. No
entry is blank exactly if no argument gives a blank text. Only the set of names that are asked for
counts. If arguments give no text that is empty or has blanks at its ends, these are the names that
the texts set, whichever way they are given; and only for such a text the argument and the name are
one and the same. -/
theorem directive_lists (level : String) (arguments names : List String)
    (plain : ∀ s ∈ arguments ++ names, ',' ∉ s.toList) :
    (∃ crates : List String, crates.Pairwise (· < ·) ∧
      (∀ name, name ∈ crates ↔ Asked arguments names name) ∧
      directive ⟨level, names⟩ (ofArguments arguments) =
        ",".intercalate (crates.map entry ++ [level]) ∧
      (',' ∉ level.toList →
        (Text.between ',' (directive ⟨level, names⟩ (ofArguments arguments)).toList).map
          String.ofList = crates.map entry ++ [level]) ∧
      ((∀ name ∈ crates, Text.isBlankText (target name) = false) ↔
        ∀ text, argument text ∈ arguments → Text.isBlankText text = false)) ∧
    (∀ arguments' names', (∀ name, Asked arguments names name ↔ Asked arguments' names' name) →
      directive ⟨level, names⟩ (ofArguments arguments) =
        directive ⟨level, names'⟩ (ofArguments arguments')) ∧
    ((∀ text, argument text ∈ arguments → Trimmed text) → ∀ name, Asked arguments names name ↔
      ∃ text, (argument text ∈ arguments ∨ text ∈ names) ∧ Sets text name) ∧
    ∀ text, ',' ∉ text.toList →
      ((∀ arguments names, directive ⟨level, names⟩ (ofArguments (argument text :: arguments)) =
        directive ⟨level, text :: names⟩ (ofArguments arguments)) ↔ Trimmed text) := by
  have filter (arguments names : List String) : directive ⟨level, names⟩ (ofArguments arguments) =
      (together arguments names).filter level := rfl
  simp only [filter]
  refine ⟨⟨(together arguments names).names, ascending_together, fun name => mem_names_together, rfl,
    pieces_filter (plain_together plain), ?_⟩, fun arguments' names' same => ?_,
    fun trimmed name => asked_iff trimmed, fun text single => ⟨fun same => ?_, fun h => ?_⟩⟩
  · simp only [mem_names_together]
    exact not_blank_iff
  · rw [together_eq same]
  · exact trimmed_of_filter_eq single (same [] [])
  · intro arguments names
    rw [h.together_eq]

/-- Two names, one of them twice, and a blank one. The argument may as well be a name. -/
theorem directive_lists_twice :
    let names := [" cipherflow-runtime ", "", "cipherflow-runtime"]
    (∀ s ∈ [argument "cipherflow-keys"] ++ names, ',' ∉ s.toList) ∧
      directive ⟨"warn", names⟩ (ofArguments [argument "cipherflow-keys"]) =
        directive ⟨"warn", "cipherflow-keys" :: names⟩ (ofArguments []) ∧
      Text.between ',' (directive ⟨"warn", names⟩ (ofArguments [argument "cipherflow-keys"])).toList =
        ["cipherflow_keys=debug".toList, "cipherflow_runtime=debug".toList, "warn".toList] := by
  intro names
  have plain : ∀ s ∈ [argument "cipherflow-keys"] ++ names, ',' ∉ s.toList := by decide +kernel
  obtain ⟨-, -, -, ways⟩ := directive_lists "warn" [argument "cipherflow-keys"] names plain
  have trimmed : Trimmed "cipherflow-keys" := ⟨by decide +kernel, by decide⟩
  exact ⟨plain, (ways _ (by decide)).mpr trimmed [] names, by decide +kernel⟩

/-- An argument without a text sets the blank name, which has an entry without target. The same text
sets nothing as a configured name. Blanks around the name of a part make another part of it. -/
theorem blank_argument_listed :
    (∀ s ∈ [argument ""] ++ [], ',' ∉ s.toList) ∧
      directive ⟨"info", []⟩ (ofArguments [argument ""]) = "=debug,info" ∧
      directive ⟨"info", [""]⟩ (ofArguments []) = "info" ∧
      directive ⟨"info", []⟩ (ofArguments [argument " all"]) = " all=debug,info" := by
  decide +kernel

end DebugFlags

end HomCircuit
