import Mathlib.Data.List.Induction
import ShellConfig.Proofs.Config.Contents
import ShellConfig.Proofs.Config.Operations

/-!
Configurations that programs fill without a text: what a history of changes makes of an empty one.
Main statement: such a configuration is a map that remembers the order of its names, and beside it a
log of the lines (`Config.mapAndLog_ofHistory`). Each change counts only for the values of its own
variable (`get?_ofHistory`), and the place of a name goes back to the change that set it when it was
not set (`pairwise_names`).
-/

set_option autoImplicit false

namespace ShellConfig

/-- A change of a configuration. -/
inductive Change where
  /-- Give a variable new values. -/
  | set (name : String) (values : List String)
  /-- Add values to a variable, and set it if need be. -/
  | append (name : String) (values : List String)
  /-- Forget a variable. -/
  | unset (name : String)
  /-- Add a line. -/
  | receiveLine (words : List String)
deriving DecidableEq

namespace Change

def apply (config : Config) : Change → Config
  | set name values => config.set name values
  | append name values => config.append name values
  | unset name => config.unset name
  | receiveLine words => config.receiveLine words

/-- The variable that is changed. -/
def target? : Change → Option String
  | set name _ | append name _ | unset name => some name
  | receiveLine _ => none

/-- The line that is added. -/
def received? : Change → Option (List String)
  | receiveLine words => some words
  | set _ _ | append _ _ | unset _ => none

/-- What the change makes of the values of its variable. -/
def update (values? : Option (List String)) : Change → Option (List String)
  | set _ values => some values
  | append _ values => some (values?.getD [] ++ values)
  | unset _ => none
  | receiveLine _ => values?

end Change

namespace Config

/-- The configuration that a history of changes leaves, which begins with an empty one. -/
def ofHistory (history : List Change) : Config := history.foldl Change.apply empty

theorem ofHistory_concat (history : List Change) (change : Change) :
    ofHistory (history ++ [change]) = change.apply (ofHistory history) := by
  rw [ofHistory, List.foldl_append]
  rfl

/-! ## One change -/

theorem get?_apply (config : Config) (change : Change) (name : String) :
    (change.apply config).get? name =
      if change.target? = some name then change.update (config.get? name)
      else config.get? name := by
  cases change with
  | set other values =>
    simp only [Change.apply, get?_set, Change.target?, Option.some.injEq, eq_comm (a := name)]
    rfl
  | append other values =>
    simp only [Change.apply, get?_append, Change.target?, Option.some.injEq, eq_comm (a := name)]
    split
    · next h => rw [h]; rfl
    · rfl
  | unset other =>
    simp only [Change.apply, get?_unset, Change.target?, Option.some.injEq, eq_comm (a := name)]
    rfl
  | receiveLine words => rfl

theorem lines_apply (config : Config) (change : Change) :
    (change.apply config).lines = config.lines ++ change.received?.toList := by
  cases change with
  | set | append | unset => exact (List.append_nil _).symm
  | receiveLine words => rfl

theorem names_unset (config : Config) (name : String) :
    (config.unset name).names = config.names.filter (· ≠ name) :=
  config.vars.keys_erase name

/-- The names stay in their order. A change leaves some of them out, or puts a new one last. -/
theorem names_apply_cases (config : Config) (change : Change) :
    (change.apply config).names.Sublist config.names ∨
      ∃ name, name ∉ config.names ∧ (change.apply config).names = config.names ++ [name] := by
  have hset (name : String) (values : List String) :
      (config.set name values).names.Sublist config.names ∨
        ∃ new, new ∉ config.names ∧ (config.set name values).names = config.names ++ [new] := by
    rw [(config.assigns_set name values).names]
    split
    · exact .inl (List.Sublist.refl _)
    · next hnew => exact .inr ⟨name, hnew, rfl⟩
  cases change with
  | set name values => exact hset name values
  | append name values => exact hset name _
  | unset name =>
    rw [Change.apply, names_unset]
    exact .inl List.filter_sublist
  | receiveLine words => exact .inl (List.Sublist.refl _)

/-! ## The values of one variable -/

/-- Only the changes of a variable count for its values. -/
theorem get?_ofHistory (history : List Change) (name : String) :
    (ofHistory history).get? name =
      (history.filter (·.target? = some name)).foldl Change.update none := by
  induction history using List.reverseRecOn with
  | nil => rfl
  | append_singleton history change ih =>
    rw [ofHistory_concat, get?_apply, ih, List.filter_append, List.foldl_append,
      List.filter_singleton]
    by_cases h : change.target? = some name <;> simp [h]

theorem lines_ofHistory (history : List Change) :
    (ofHistory history).lines = history.filterMap Change.received? := by
  induction history using List.reverseRecOn with
  | nil => rfl
  | append_singleton history change ih =>
    rw [ofHistory_concat, lines_apply, ih, List.filterMap_append]
    cases h : change.received? <;> simp [h]

/-- A variable is not set when nothing was done to it, or when the last change to it was to forget
it. -/
theorem get?_ofHistory_eq_none_iff (history : List Change) (name : String) :
    (ofHistory history).get? name = none ↔
      ∀ change, (history.filter (·.target? = some name)).getLast? = some change →
        change = .unset name := by
  have htarget : ∀ change ∈ history.filter (·.target? = some name),
      change.target? = some name := by simp
  rw [get?_ofHistory]
  generalize history.filter (·.target? = some name) = changes at htarget
  induction changes using List.reverseRecOn with
  | nil => simp
  | append_singleton changes change =>
    have hname := htarget change (by simp)
    rw [List.foldl_append, List.getLast?_concat]
    cases change with
    | set | append => simp [Change.update]
    | unset other =>
      obtain rfl : other = name := Option.some.inj hname
      simp [Change.update]
    | receiveLine words => cases hname

/-! ## The order of the names -/

/-- The change with this number sets the variable, which is not set before it. -/
def TurnsOn (history : List Change) (name : String) (index : Nat) : Prop :=
  index < history.length ∧ (ofHistory (history.take index)).get? name = none ∧
    ((ofHistory (history.take (index + 1))).get? name).isSome

/-- The change with this number is the last one that sets the variable when it is not set. -/
structure LastTurnsOn (history : List Change) (name : String) (index : Nat) : Prop where
  turnsOn : TurnsOn history name index
  last : ∀ later, TurnsOn history name later → later ≤ index

section
variable {history : List Change} {change : Change} {name : String} {index : Nat}

theorem turnsOn_concat_iff :
    TurnsOn (history ++ [change]) name index ↔ TurnsOn history name index ∨
      index = history.length ∧ (ofHistory history).get? name = none ∧
        ((change.apply (ofHistory history)).get? name).isSome := by
  unfold TurnsOn
  rw [List.length_append, List.length_singleton]
  obtain hlt | rfl | hgt := Nat.lt_trichotomy index history.length
  · rw [List.take_append_of_le_length hlt, List.take_append_of_le_length (Nat.le_of_lt hlt)]
    simp [hlt, Nat.lt_succ_of_lt hlt, Nat.ne_of_lt hlt]
  · rw [List.take_left, List.take_of_length_le (by simp), ofHistory_concat]
    simp
  · simp only [Nat.not_lt.2 (Nat.succ_le_of_lt hgt), Nat.lt_asymm hgt, Nat.ne_of_gt hgt, false_and,
      or_self]

/-- A change that does not set the variable anew leaves what set it. -/
theorem lastTurnsOn_concat_iff
    (h : (ofHistory history).get? name = none →
      (change.apply (ofHistory history)).get? name = none) :
    LastTurnsOn (history ++ [change]) name index ↔ LastTurnsOn history name index := by
  have hsame (number : Nat) :
      TurnsOn (history ++ [change]) name number ↔ TurnsOn history name number := by
    rw [turnsOn_concat_iff, or_iff_left]
    rintro ⟨-, hnone, hsome⟩
    rw [h hnone] at hsome
    cases hsome
  constructor
  · intro ⟨hturns, hlast⟩
    exact ⟨(hsame index).1 hturns, fun later hlater => hlast later ((hsame later).2 hlater)⟩
  · intro ⟨hturns, hlast⟩
    exact ⟨(hsame index).2 hturns, fun later hlater => hlast later ((hsame later).1 hlater)⟩

/-- A change that sets the variable anew is the last one to do so. -/
theorem lastTurnsOn_concat_length (hnone : (ofHistory history).get? name = none)
    (hsome : ((change.apply (ofHistory history)).get? name).isSome) :
    LastTurnsOn (history ++ [change]) name history.length := by
  refine ⟨turnsOn_concat_iff.2 (.inr ⟨rfl, hnone, hsome⟩), fun later hlater => ?_⟩
  obtain ⟨hlt, -⟩ | ⟨rfl, -⟩ := turnsOn_concat_iff.1 hlater
  · exact Nat.le_of_lt hlt
  · exact Nat.le_refl _

theorem LastTurnsOn.unique {other : Nat} (h : LastTurnsOn history name index)
    (hother : LastTurnsOn history name other) : index = other :=
  Nat.le_antisymm (hother.last index h.turnsOn) (h.last other hother.turnsOn)

/-- What is set was turned on by some change. -/
theorem exists_lastTurnsOn (h : ((ofHistory history).get? name).isSome) :
    ∃ index, LastTurnsOn history name index := by
  induction history using List.reverseRecOn with
  | nil => cases h
  | append_singleton history change ih =>
    rw [ofHistory_concat] at h
    cases hbefore : (ofHistory history).get? name with
    | none => exact ⟨_, lastTurnsOn_concat_length hbefore h⟩
    | some values =>
      obtain ⟨index, hindex⟩ := ih (by rw [hbefore]; rfl)
      refine ⟨index, (lastTurnsOn_concat_iff ?_).2 hindex⟩
      rw [hbefore]
      nofun

/-- The name that was turned on first comes first. -/
theorem pairwise_names (history : List Change) :
    (ofHistory history).names.Pairwise fun left right => ∀ first second,
      LastTurnsOn history left first → LastTurnsOn history right second → first < second := by
  induction history using List.reverseRecOn with
  | nil => exact .nil
  | append_singleton history change ih =>
    -- What was set before is not turned on again.
    have hkept {name : String} {index : Nat} (hname : name ∈ (ofHistory history).names)
        (h : LastTurnsOn (history ++ [change]) name index) : LastTurnsOn history name index := by
      refine (lastTurnsOn_concat_iff fun hnone => ?_).1 h
      rw [mem_names_iff, hnone] at hname
      cases hname
    have hold : (ofHistory history).names.Pairwise fun left right => ∀ first second,
        LastTurnsOn (history ++ [change]) left first →
          LastTurnsOn (history ++ [change]) right second → first < second :=
      ih.imp_of_mem fun hleft hright h first second hfirst hsecond =>
        h first second (hkept hleft hfirst) (hkept hright hsecond)
    rw [ofHistory_concat]
    obtain hsublist | ⟨new, hnew, hnames⟩ := names_apply_cases (ofHistory history) change
    · exact hold.sublist hsublist
    · rw [hnames]
      refine List.pairwise_append.2 ⟨hold, List.pairwise_singleton _ _, ?_⟩
      intro left hleft right hright first second hfirst hsecond
      obtain rfl := List.mem_singleton.1 hright
      have hnone : (ofHistory history).get? right = none := by
        rwa [mem_names_iff, Option.not_isSome_iff_eq_none] at hnew
      have hsome : ((change.apply (ofHistory history)).get? right).isSome := by
        rw [← mem_names_iff, hnames]
        simp
      rw [hsecond.unique (lastTurnsOn_concat_length hnone hsome)]
      exact (hkept hleft hfirst).turnsOn.1

end

/-! ## A map and a log -/

/-- What the configuration is to the history of its changes: an ordered map of variables and a log
of lines. -/
structure MapAndLog (history : List Change) (config : Config) : Prop where
  nodup : config.names.Nodup
  mem_names : ∀ name, name ∈ config.names ↔ ∃ values, config.get? name = some values
  /-- Each name is there since some change that turned it on. -/
  since : ∀ name ∈ config.names, ∃ index, LastTurnsOn history name index
  ordered : config.names.Pairwise fun left right => ∀ first second,
    LastTurnsOn history left first → LastTurnsOn history right second → first < second
  /-- A name that is set keeps its place. -/
  keeps : ∀ name values, name ∈ config.names →
    (config.set name values).names = config.names ∧
      (config.append name values).names = config.names
  goesLast : ∀ name values, name ∉ config.names →
    (config.set name values).names = config.names ++ [name] ∧
      (config.append name values).names = config.names ++ [name]
  removes : ∀ name, (config.unset name).names = config.names.filter (· ≠ name)
  /-- The values of a variable come from the changes of this variable alone. -/
  get : ∀ name, config.get? name =
    (history.filter (·.target? = some name)).foldl Change.update none
  /-- A variable without values is set. -/
  unset_iff : ∀ name, config.get? name = none ↔
    ∀ change, (history.filter (·.target? = some name)).getLast? = some change →
      change = .unset name
  lines : config.lines = history.filterMap Change.received?
  line : ∀ index, config.line? index = (history.filterMap Change.received?)[index]?
  lineCount : config.lineCount = (history.filterMap Change.received?).length

theorem mapAndLog_ofHistory (history : List Change) : MapAndLog history (ofHistory history) where
  nodup := (ofHistory history).vars.nodup_keys
  mem_names name := by rw [mem_names_iff, Option.isSome_iff_exists]
  since name hname := exists_lastTurnsOn (mem_names_iff.1 hname)
  ordered := pairwise_names history
  keeps name values hname := by
    have hset (values : List String) :
        ((ofHistory history).set name values).names = (ofHistory history).names := by
      rw [(assigns_set _ name values).names, if_pos hname]
    exact ⟨hset values, hset _⟩
  goesLast name values hname := by
    have hset (values : List String) :
        ((ofHistory history).set name values).names = (ofHistory history).names ++ [name] := by
      rw [(assigns_set _ name values).names, if_neg hname]
    exact ⟨hset values, hset _⟩
  removes name := names_unset _ name
  get := get?_ofHistory history
  unset_iff := get?_ofHistory_eq_none_iff history
  lines := lines_ofHistory history
  line index := by rw [line?, lines_ofHistory]
  lineCount := by rw [lineCount, lines_ofHistory]

example : (ofHistory [.set "A" [], .append "B" ["b"], .receiveLine ["l"], .unset "A",
    .append "C" [], .append "A" ["a"], .set "B" []]).vars.entries =
      [("B", []), ("C", []), ("A", ["a"])] := by
  decide +kernel

end Config
end ShellConfig
