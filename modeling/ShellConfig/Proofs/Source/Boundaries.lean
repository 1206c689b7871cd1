import Mathlib.Data.List.DropRight
import Mathlib.Data.Prod.Lex
import Mathlib.Data.Set.Function
import Mathlib.Order.Bounds.Defs
import Mathlib.Order.Monotone.Defs
import ShellConfig.Proofs.Source.Positions

/-!
Positions and the boundaries of characters. An offset is a boundary if a character begins there or
the text ends (`IsBoundary`). The position of any offset is that of the last boundary up to it
(`isGreatest_offset_ofOffset`), and from one boundary to the next the line and the column grow
(`strictMonoOn_lineColumn`). Main statement: `Position.charts`.
-/

set_option autoImplicit false

namespace ShellConfig

/-! ## Boundaries -/

/-- A character of the text begins at this byte, or the text ends there. -/
def IsBoundary (text : String) (offset : Nat) : Prop := String.Pos.Raw.IsValid text ⟨offset⟩

section
variable {text before after : String} {offset other : Nat}

/-- At a boundary the text can be cut in two. -/
theorem isBoundary_iff : IsBoundary text offset ↔
    ∃ before after, text = before ++ after ∧ before.utf8ByteSize = offset := by
  rw [IsBoundary, String.Pos.Raw.isValid_iff_exists_append]
  constructor
  · rintro ⟨before, after, htext, hoffset⟩
    exact ⟨before, after, htext, (congrArg String.Pos.Raw.byteIdx hoffset).symm⟩
  · rintro ⟨before, after, htext, rfl⟩
    exact ⟨before, after, htext, rfl⟩

theorem isBoundary_append (before after : String) :
    IsBoundary (before ++ after) before.utf8ByteSize :=
  isBoundary_iff.2 ⟨before, after, rfl, rfl⟩

theorem IsBoundary.le (h : IsBoundary text offset) : offset ≤ text.utf8ByteSize := by
  obtain ⟨before, after, rfl, rfl⟩ := isBoundary_iff.1 h
  rw [String.utf8ByteSize_append]
  exact Nat.le_add_right _ _

/-- What lies between two boundaries. -/
theorem IsBoundary.exists_between (h : IsBoundary text offset) (hother : IsBoundary text other)
    (hle : offset ≤ other) : ∃ before middle after, text = before ++ middle ++ after ∧
      before.utf8ByteSize = offset ∧ (before ++ middle).utf8ByteSize = other := by
  obtain ⟨before, rest, htext, rfl⟩ := isBoundary_iff.1 h
  obtain ⟨front, after, hfront, rfl⟩ := isBoundary_iff.1 hother
  have hbefore : before.toList <+: text.toList := ⟨rest.toList, by rw [htext, String.toList_append]⟩
  have hprefix : front.toList <+: text.toList :=
    ⟨after.toList, by rw [hfront, String.toList_append]⟩
  obtain ⟨middle, hmiddle⟩ | ⟨middle, hmiddle⟩ := List.prefix_or_prefix_of_prefix hbefore hprefix
  · have hsplit : before ++ String.ofList middle = front := by
      apply String.ext
      rw [String.toList_append, String.toList_ofList, hmiddle]
    exact ⟨before, String.ofList middle, after, by rw [hsplit, hfront], rfl, by rw [hsplit]⟩
  · -- The shorter text is not the second one, unless the two are the same.
    have hsplit : front ++ String.ofList middle = before := by
      apply String.ext
      rw [String.toList_append, String.toList_ofList, hmiddle]
    have hsize := congrArg String.utf8ByteSize hsplit
    rw [String.utf8ByteSize_append] at hsize
    have hempty : String.ofList middle = "" := String.utf8ByteSize_eq_zero_iff.1 (by omega)
    rw [hempty, String.append_empty] at hsplit
    exact ⟨before, "", after, by rw [String.append_empty, ← hsplit, hfront], rfl,
      by rw [String.append_empty, hsplit]⟩

end

namespace Position

/-! ## The position of an offset -/

theorem utf8ByteSize_charsWithin_le (bytes : Nat) (text : List Char) :
    (String.ofList (charsWithin bytes text)).utf8ByteSize ≤ bytes := by
  induction text generalizing bytes with
  | nil => simp [charsWithin]
  | cons c rest ih =>
    rw [charsWithin]
    split
    · have hrest := ih (bytes - c.utf8Size)
      rw [utf8ByteSize_ofList_cons]
      omega
    · simp

/-- The text before the position of an offset. -/
theorem exists_before_ofOffset (text : String) (offset : Nat) :
    ∃ before after, text = before ++ after ∧ before.utf8ByteSize ≤ offset ∧
      ofOffset text offset = start.advanceBy before.toList := by
  have hsplit := charsWithin_append_drop offset text.toList
  generalize hwithin : charsWithin offset text.toList = within at hsplit
  refine ⟨String.ofList within, String.ofList (text.toList.drop within.length), ?_, ?_, ?_⟩
  · rw [← String.ofList_append, hsplit, String.ofList_toList]
  · rw [← hwithin]
    exact utf8ByteSize_charsWithin_le offset text.toList
  · rw [ofOffset, hwithin, String.toList_ofList]

theorem offset_advanceBy_start (before : String) :
    (start.advanceBy before.toList).offset = before.utf8ByteSize := by
  rw [offset_advanceBy, String.ofList_toList]
  exact Nat.zero_add _

/-- The position of an offset is at the last boundary up to it. -/
theorem isGreatest_offset_ofOffset (text : String) (offset : Nat) :
    IsGreatest {boundary | IsBoundary text boundary ∧ boundary ≤ min offset text.utf8ByteSize}
      (ofOffset text offset).offset := by
  constructor
  · obtain ⟨before, after, rfl, hle, hposition⟩ := exists_before_ofOffset text offset
    rw [hposition, offset_advanceBy_start]
    have hboundary := isBoundary_append before after
    exact ⟨hboundary, Nat.le_min.2 ⟨hle, hboundary.le⟩⟩
  · rintro boundary ⟨hboundary, hle⟩
    obtain ⟨before, after, rfl, rfl⟩ := isBoundary_iff.1 hboundary
    exact le_offset_ofOffset before after (Nat.le_min.1 hle).1

/-! ## The order of positions -/

/-- The line and the column, where the line counts first. -/
def lineColumn (position : Position) : Nat ×ₗ Nat := toLex (position.line, position.column)

theorem lineColumn_lt_advance (position : Position) (c : Char) :
    position.lineColumn < (position.advance c).lineColumn := by
  rw [lineColumn, lineColumn, Prod.Lex.toLex_lt_toLex, advance]
  split
  · exact .inl (Nat.lt_succ_self _)
  · exact .inr ⟨rfl, Nat.lt_succ_self _⟩

theorem lineColumn_lt_advanceBy (position : Position) {text : List Char} (hne : text ≠ []) :
    position.lineColumn < (position.advanceBy text).lineColumn := by
  induction text generalizing position with
  | nil => exact absurd rfl hne
  | cons c rest ih =>
    rw [advanceBy_cons]
    have hfirst := position.lineColumn_lt_advance c
    by_cases hrest : rest = []
    · rw [hrest]
      exact hfirst
    · exact hfirst.trans (ih (position.advance c) hrest)

/-- From boundary to boundary the line grows, or it stays and the column grows. -/
theorem strictMonoOn_lineColumn (text : String) :
    StrictMonoOn (fun offset => (ofOffset text offset).lineColumn)
      {offset | IsBoundary text offset} := by
  intro offset hoffset other hother hlt
  obtain ⟨before, middle, after, rfl, rfl, rfl⟩ :=
    IsBoundary.exists_between hoffset hother (Nat.le_of_lt hlt)
  have hne : middle.toList ≠ [] := by
    intro hnil
    rw [String.toList_eq_nil_iff.1 hnil, String.append_empty] at hlt
    exact absurd hlt (Nat.lt_irrefl _)
  change (ofOffset (before ++ middle ++ after) before.utf8ByteSize).lineColumn <
    (ofOffset (before ++ middle ++ after) (before ++ middle).utf8ByteSize).lineColumn
  rw [ofOffset_append, String.append_assoc, ofOffset_append, String.toList_append, advanceBy_append]
  exact lineColumn_lt_advanceBy _ hne

/-! ## Charts -/

theorem length_le_utf8ByteSize (text : List Char) :
    text.length ≤ (String.ofList text).utf8ByteSize := by
  induction text with
  | nil => simp
  | cons c rest ih =>
    have hpos := c.utf8Size_pos
    rw [utf8ByteSize_ofList_cons, List.length_cons]
    omega

/-- A character is a line feed or stands in one line. -/
theorem count_add_length_rtakeWhile_le (text : List Char) :
    text.count '\n' + (text.rtakeWhile (· ≠ '\n')).length ≤ text.length := by
  induction text using List.reverseRecOn with
  | nil => simp
  | append_singleton text c ih =>
    rw [List.rtakeWhile_concat, List.count_append, List.length_append, List.length_singleton]
    by_cases hc : c = '\n'
    · have hle : text.count '\n' ≤ text.length := List.count_le_length
      simp [hc, hle]
    · have hnone : [c].count '\n' = 0 := by simp [hc]
      rw [if_pos (by simp [hc]), hnone, List.length_append, List.length_singleton]
      omega

/-- The position is that of the offset in the text, as the characters before it are counted. -/
structure IsAt (text : String) (offset : Nat) (position : Position) : Prop where
  /-- An offset beyond the end stands for the end, and one inside a character for its beginning. -/
  greatest : IsGreatest
    {boundary | IsBoundary text boundary ∧ boundary ≤ min offset text.utf8ByteSize} position.offset
  counted : ∃ before after, text = before ++ after ∧ before.utf8ByteSize = position.offset ∧
    position = before.toList.foldl advance start ∧
    position.line = 1 + before.toList.count '\n' ∧
    position.column = 1 + (before.toList.rtakeWhile (· ≠ '\n')).length
  /-- The line and the column do not run ahead of the bytes. -/
  bounded : position.line + position.column ≤ position.offset + 2

theorem isAt_ofOffset (text : String) (offset : Nat) :
    IsAt text offset (ofOffset text offset) := by
  obtain ⟨before, after, htext, -, hposition⟩ := exists_before_ofOffset text offset
  have hsize := offset_advanceBy_start before
  have hcounts := position_ofOffset_append before after
  rw [ofOffset_append] at hcounts
  obtain ⟨-, hline, hcolumn⟩ := hcounts
  have hlast : (before.toList.reverse.takeWhile (· ≠ '\n')).length =
      (before.toList.rtakeWhile (· ≠ '\n')).length := List.length_reverse.symm
  rw [hlast] at hcolumn
  rw [← hposition] at hsize hline hcolumn
  refine ⟨isGreatest_offset_ofOffset text offset,
    ⟨before, after, htext, hsize.symm, hposition, hline, hcolumn⟩, ?_⟩
  have hcount := count_add_length_rtakeWhile_le before.toList
  have hbytes := length_le_utf8ByteSize before.toList
  rw [String.ofList_toList] at hbytes
  omega

-- An offset inside a character stands for its beginning.
example : ofOffset "zł\n$" 2 = ⟨1, 2, 1⟩ := by decide +kernel

/-- How positions chart a text. -/
structure Charts (text : String) : Prop where
  isAt : ∀ offset, IsAt text offset (ofOffset text offset)
  /-- From any position on, the text and then more text lead where both together lead. -/
  additive : ∀ (position : Position) (more : String),
    position.advanceBy (text ++ more).toList =
      (position.advanceBy text.toList).advanceBy more.toList
  grows : StrictMonoOn (fun offset => (ofOffset text offset).lineColumn)
    {offset | IsBoundary text offset}
  /-- No two boundaries have the same line and column. -/
  identifies : Set.InjOn (fun offset => ((ofOffset text offset).line, (ofOffset text offset).column))
    {offset | IsBoundary text offset}

theorem charts (text : String) : Charts text where
  isAt offset := isAt_ofOffset text offset
  additive position more := by rw [String.toList_append, advanceBy_append]
  grows := strictMonoOn_lineColumn text
  identifies := (strictMonoOn_lineColumn text).injOn

end Position
end ShellConfig
