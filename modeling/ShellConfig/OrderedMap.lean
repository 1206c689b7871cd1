/-!
Maps from names to values that remember the order in which their names came in. Writing to a name
that is there keeps its place; a new name goes last; erasing a name closes the gap. Main statements:
`find?_insert`, `find?_erase`, `keys_insert` and `keys_erase` say what each operation does to the
two views of a map, the lookup and the order of its names.
-/

set_option autoImplicit false

namespace ShellConfig

/-- A list of entries whose names are pairwise distinct, oldest first. -/
structure OrderedMap (α : Type) where
  /-- The names with their values, in the order of the names' arrival. -/
  entries : List (String × α)
  /-- No name occurs twice. -/
  nodup : (entries.map Prod.fst).Nodup

namespace OrderedMap

variable {α : Type}

theorem ext {left right : OrderedMap α} (h : left.entries = right.entries) : left = right := by
  cases left; cases right; simp_all

instance [DecidableEq α] : DecidableEq (OrderedMap α) := fun left right =>
  if h : left.entries = right.entries then isTrue (ext h)
  else isFalse fun e => h (e ▸ rfl)

/-! ## Entries as a plain list -/

/-- Writes a value to a name, in the name's place or at the end. -/
def insertEntry (name : String) (value : α) : List (String × α) → List (String × α)
  | [] => [(name, value)]
  | entry :: rest =>
    if entry.1 = name then (name, value) :: rest else entry :: insertEntry name value rest

theorem map_fst_insertEntry (name : String) (value : α) (entries : List (String × α)) :
    (insertEntry name value entries).map Prod.fst =
      if name ∈ entries.map Prod.fst then entries.map Prod.fst
      else entries.map Prod.fst ++ [name] := by
  induction entries with
  | nil => simp [insertEntry]
  | cons entry rest ih =>
    by_cases h : entry.1 = name
    · simp [insertEntry, h]
    · have h' : ¬ name = entry.1 := fun e => h e.symm
      by_cases hm : name ∈ rest.map Prod.fst <;> simp_all [insertEntry]

theorem lookup_cons_eq (name key : String) (value : α) (rest : List (String × α)) :
    ((key, value) :: rest).lookup name = if name = key then some value else rest.lookup name := by
  rw [List.lookup_cons]
  by_cases h : name = key
  · simp [h]
  · rw [if_neg h, beq_false_of_ne h]

theorem lookup_insertEntry (name other : String) (value : α) (entries : List (String × α)) :
    (insertEntry name value entries).lookup other =
      if other = name then some value else entries.lookup other := by
  induction entries with
  | nil => simp [insertEntry, lookup_cons_eq]
  | cons entry rest ih =>
    obtain ⟨key, old⟩ := entry
    simp only [insertEntry]
    split
    · next h => subst h; simp only [lookup_cons_eq]; split <;> rfl
    · next h =>
      simp only [lookup_cons_eq, ih]
      by_cases ho : other = key <;> simp_all

theorem nodup_insertEntry (name : String) (value : α) {entries : List (String × α)}
    (h : (entries.map Prod.fst).Nodup) : ((insertEntry name value entries).map Prod.fst).Nodup := by
  rw [map_fst_insertEntry]
  split
  · exact h
  · next hm =>
    refine List.nodup_append.2 ⟨h, by simp, ?_⟩
    intro a ha b hb e
    simp only [List.mem_singleton] at hb
    exact hm (hb ▸ e ▸ ha)

theorem map_fst_filter (name : String) (entries : List (String × α)) :
    (entries.filter (·.1 ≠ name)).map Prod.fst = (entries.map Prod.fst).filter (· ≠ name) := by
  rw [List.filter_map]
  rfl

theorem lookup_filter (name other : String) (entries : List (String × α)) :
    (entries.filter (·.1 ≠ name)).lookup other =
      if other = name then none else entries.lookup other := by
  induction entries with
  | nil => simp
  | cons entry rest ih =>
    obtain ⟨key, old⟩ := entry
    rw [List.filter_cons]
    by_cases h : key = name
    · subst h
      simp only [ne_eq, not_true_eq_false, decide_false, Bool.false_eq_true, if_false, ih,
        lookup_cons_eq]
      split <;> rfl
    · simp only [ne_eq, h, not_false_eq_true, decide_true, if_true, lookup_cons_eq, ih]
      by_cases ho : other = key <;> simp_all

/-! ## Operations -/

/-- The map without names. -/
def empty : OrderedMap α := ⟨[], by simp⟩

instance : Inhabited (OrderedMap α) := ⟨empty⟩

/-- The names, oldest first. -/
def keys (map : OrderedMap α) : List String := map.entries.map Prod.fst

/-- The number of names. -/
def size (map : OrderedMap α) : Nat := map.entries.length

/-- The value under a name. -/
def find? (map : OrderedMap α) (name : String) : Option α := map.entries.lookup name

/-- Whether a name has a value. -/
def contains (map : OrderedMap α) (name : String) : Bool := (map.find? name).isSome

/-- Writes a value to a name; a name that was there keeps its place, a new one goes last. -/
def insert (map : OrderedMap α) (name : String) (value : α) : OrderedMap α :=
  ⟨insertEntry name value map.entries, nodup_insertEntry name value map.nodup⟩

/-- Removes a name and keeps the order of the others. -/
def erase (map : OrderedMap α) (name : String) : OrderedMap α :=
  ⟨map.entries.filter (·.1 ≠ name), by
    rw [map_fst_filter]
    exact map.nodup.filter _⟩

/-- The map that writing the entries in turn to the empty map gives. -/
def ofList (entries : List (String × α)) : OrderedMap α :=
  entries.foldl (fun map entry => map.insert entry.1 entry.2) empty

/-! ## The two views -/

theorem nodup_keys (map : OrderedMap α) : map.keys.Nodup := map.nodup

@[simp] theorem find?_empty (name : String) : (empty : OrderedMap α).find? name = none := rfl

@[simp] theorem keys_empty : (empty : OrderedMap α).keys = [] := rfl

theorem find?_insert (map : OrderedMap α) (name other : String) (value : α) :
    (map.insert name value).find? other = if other = name then some value else map.find? other :=
  lookup_insertEntry name other value map.entries

theorem keys_insert (map : OrderedMap α) (name : String) (value : α) :
    (map.insert name value).keys = if name ∈ map.keys then map.keys else map.keys ++ [name] :=
  map_fst_insertEntry name value map.entries

theorem find?_erase (map : OrderedMap α) (name other : String) :
    (map.erase name).find? other = if other = name then none else map.find? other :=
  lookup_filter name other map.entries

theorem keys_erase (map : OrderedMap α) (name : String) :
    (map.erase name).keys = map.keys.filter (· ≠ name) :=
  map_fst_filter name map.entries

theorem mem_keys_iff (map : OrderedMap α) (name : String) :
    name ∈ map.keys ↔ (map.find? name).isSome := by
  simp only [keys, find?]
  induction map.entries with
  | nil => simp
  | cons entry rest ih =>
    obtain ⟨key, value⟩ := entry
    rw [lookup_cons_eq]
    by_cases h : name = key <;> simp_all

@[simp] theorem length_keys (map : OrderedMap α) : map.keys.length = map.size := by
  simp [keys, size]

end OrderedMap

end ShellConfig
