import ShellConfig.Config.Json
import ShellConfig.Proofs.Json.RoundTrip

/-!
Reading back a configuration from its JSON text. What a configuration is as a value determines it
(`ofJson?_toJson`), so both of its texts are read back as the configuration
(`json_readsBack`).
-/

set_option autoImplicit false

namespace ShellConfig

/-! ## Ordered maps as lists of entries -/

namespace OrderedMap

variable {α : Type}

theorem insertEntry_of_not_mem {name : String} {entries : List (String × α)}
    (h : name ∉ entries.map Prod.fst) (value : α) :
    insertEntry name value entries = entries ++ [(name, value)] := by
  induction entries with
  | nil => rfl
  | cons entry entries ih =>
    rw [List.map_cons, List.mem_cons, not_or] at h
    rw [insertEntry, if_neg (Ne.symm h.1), ih h.2, List.cons_append]

theorem entries_foldl_insert (map : OrderedMap α) {entries : List (String × α)}
    (h : ((map.entries ++ entries).map Prod.fst).Nodup) :
    (entries.foldl (fun map entry => map.insert entry.1 entry.2) map).entries =
      map.entries ++ entries := by
  induction entries generalizing map with
  | nil => exact (List.append_nil _).symm
  | cons entry entries ih =>
    have hnew : entry.1 ∉ map.entries.map Prod.fst := by
      rw [List.map_append, List.map_cons, List.nodup_append] at h
      exact fun hmem => h.2.2 _ hmem _ List.mem_cons_self rfl
    have hinsert : (map.insert entry.1 entry.2).entries = map.entries ++ [entry] :=
      insertEntry_of_not_mem hnew entry.2
    have happend : (map.insert entry.1 entry.2).entries ++ entries = map.entries ++ entry :: entries :=
      by rw [hinsert, List.append_assoc, List.singleton_append]
    rw [List.foldl_cons, ih _ (by rw [happend]; exact h), happend]

/-- The entries of a map give the map again. -/
theorem ofList_entries (map : OrderedMap α) : ofList map.entries = map :=
  ext (entries_foldl_insert empty map.nodup)

end OrderedMap

/-! ## The value of a configuration -/

namespace Json

theorem mapM_some {α : Type} (list : List α) : list.mapM some = some list := by
  simpa using List.mapM_pure (m := Option) (f := id) (l := list)

theorem strings?_ofStrings (texts : List String) : (ofStrings texts).strings? = some texts := by
  rw [ofStrings, strings?, List.mapM_map]
  exact mapM_some texts

theorem numberless_ofStrings (texts : List String) : (ofStrings texts).Numberless := by
  refine .array fun item hitem => ?_
  obtain ⟨text, -, rfl⟩ := List.mem_map.1 hitem
  exact .string _

end Json

namespace Config

theorem numberless_toJson (config : Config) : config.toJson.Numberless := by
  have hvars : (Json.object (config.vars.entries.map fun entry =>
      (some entry.1, Json.ofStrings entry.2))).Numberless := by
    refine .object fun field hfield => ?_
    obtain ⟨entry, -, rfl⟩ := List.mem_map.1 hfield
    exact Json.numberless_ofStrings entry.2
  have hlines : (Json.array (config.lines.map Json.ofStrings)).Numberless := by
    refine .array fun item hitem => ?_
    obtain ⟨words, -, rfl⟩ := List.mem_map.1 hitem
    exact Json.numberless_ofStrings words
  refine .object fun field hfield => ?_
  rw [List.mem_cons, List.mem_singleton] at hfield
  rcases hfield with rfl | rfl
  · exact hvars
  · exact hlines

theorem varsOfJson?_object (map : OrderedMap (List String)) :
    varsOfJson? (.object (map.entries.map fun entry => (some entry.1, Json.ofStrings entry.2))) =
      some map := by
  have hentry (entry : String × List String) :
      (do
        let name ← some entry.1
        let values ← (Json.ofStrings entry.2).strings?
        pure (name, values)) = some entry := by
    rw [Json.strings?_ofStrings]
    rfl
  rw [varsOfJson?, List.mapM_map]
  simp only [Function.comp_def, hentry, Json.mapM_some]
  simp [OrderedMap.ofList_entries]

theorem linesOfJson?_array (lines : List (List String)) :
    linesOfJson? (.array (lines.map Json.ofStrings)) = some lines := by
  rw [linesOfJson?, List.mapM_map]
  simp only [Function.comp_def, Json.strings?_ofStrings]
  exact Json.mapM_some lines

theorem ofJson?_toJson (config : Config) : ofJson? config.toJson = some config := by
  simp [ofJson?, toJson, uniqueField?, varsOfJson?_object, linesOfJson?_array]

/-- A configuration is read back from its text on one line, and from its text on many lines with an
end of line behind it. -/
theorem json_readsBack (config : Config) :
    parseJson? config.compactJson = some config ∧
      parseJson? (config.indentedJson ++ "\n") = some config := by
  have hread (layout : Json.Layout) (blanks : String)
      (hblanks : ∀ c ∈ blanks.toList, JsonToken.isJsonBlank c) :
      parseJson? (config.toJson.print layout ++ blanks) = some config := by
    rw [parseJson?, Json.parse?_print config.numberless_toJson layout hblanks]
    exact ofJson?_toJson config
  have hfeed : "\n".toList.all JsonToken.isJsonBlank = true := by decide +kernel
  refine ⟨?_, hread (.indented 0) "\n" (List.all_eq_true.1 hfeed)⟩
  have hcompact := hread .compact "" (by simp)
  rwa [String.append_empty] at hcompact

end Config
end ShellConfig
