import ShellConfig.Source.Position
import Mathlib.Data.List.Induction
import Mathlib.Data.List.TakeWhile

/-!
Positions of the offsets at which a text can be cut. The offset behind `before` in the text
`before ++ after` has the position that is reached by advancing over `before`
(`ofOffset_append`), so what comes after it does not matter (`ofOffset_append_of_le`). Such a
position tells how many line feeds come before it and how far the last one is away
(`position_ofOffset_append`).
-/

set_option autoImplicit false

namespace ShellConfig
namespace Position

/-! ## Bytes of characters -/

theorem utf8ByteSize_ofList_cons (c : Char) (chars : List Char) :
    (String.ofList (c :: chars)).utf8ByteSize =
      c.utf8Size + (String.ofList chars).utf8ByteSize := by
  have hsplit : String.ofList (c :: chars) = String.singleton c ++ String.ofList chars := by
    rw [String.singleton_eq_ofList, ← String.ofList_append]
    rfl
  rw [hsplit, String.utf8ByteSize_append, String.utf8ByteSize_singleton]

theorem charsWithin_zero (text : List Char) : charsWithin 0 text = [] := by
  cases text with
  | nil => rfl
  | cons c rest =>
    have hpos := c.utf8Size_pos
    rw [charsWithin, if_neg (by omega)]

theorem charsWithin_append (before after : List Char) (bytes : Nat) :
    charsWithin ((String.ofList before).utf8ByteSize + bytes) (before ++ after) =
      before ++ charsWithin bytes after := by
  induction before with
  | nil => simp
  | cons c before ih =>
    have hle : c.utf8Size ≤ (String.ofList (c :: before)).utf8ByteSize + bytes := by
      rw [utf8ByteSize_ofList_cons]
      omega
    have hrest : (String.ofList (c :: before)).utf8ByteSize + bytes - c.utf8Size =
        (String.ofList before).utf8ByteSize + bytes := by
      rw [utf8ByteSize_ofList_cons]
      omega
    rw [List.cons_append, charsWithin, if_pos hle, hrest, ih, List.cons_append]

theorem charsWithin_append_of_le (before after : List Char) {bytes : Nat}
    (h : bytes ≤ (String.ofList before).utf8ByteSize) :
    charsWithin bytes (before ++ after) = charsWithin bytes before := by
  induction before generalizing bytes with
  | nil =>
    obtain rfl : bytes = 0 := by simpa using h
    rw [charsWithin_zero, charsWithin_zero]
  | cons c before ih =>
    rw [utf8ByteSize_ofList_cons] at h
    rw [List.cons_append, charsWithin, charsWithin]
    split
    · rw [ih (by omega)]
    · rfl

/-! ## Positions -/

theorem ofOffset_append (before after : String) :
    ofOffset (before ++ after) before.utf8ByteSize = start.advanceBy before.toList := by
  have h := charsWithin_append before.toList after.toList 0
  rw [String.ofList_toList, Nat.add_zero, charsWithin_zero, List.append_nil] at h
  rw [ofOffset, String.toList_append, h]

theorem ofOffset_append_of_le (before after : String) {offset : Nat}
    (h : offset ≤ before.utf8ByteSize) :
    ofOffset (before ++ after) offset = ofOffset before offset := by
  have hle : offset ≤ (String.ofList before.toList).utf8ByteSize := by rwa [String.ofList_toList]
  rw [ofOffset, ofOffset, String.toList_append, charsWithin_append_of_le _ _ hle]

theorem offset_advanceBy (position : Position) (text : List Char) :
    (position.advanceBy text).offset = position.offset + (String.ofList text).utf8ByteSize := by
  induction text generalizing position with
  | nil => simp
  | cons c text ih =>
    rw [advanceBy_cons, ih, offset_advance, utf8ByteSize_ofList_cons]
    omega

theorem line_advanceBy (position : Position) (text : List Char) :
    (position.advanceBy text).line = position.line + text.count '\n' := by
  induction text generalizing position with
  | nil => simp
  | cons c text ih =>
    rw [advanceBy_cons, ih, advance, List.count_cons]
    by_cases hc : c = '\n'
    · simp only [hc, if_true, beq_self_eq_true]
      omega
    · simp [hc]

/-- Without line feeds the column moves on, and after one it begins anew. -/
theorem column_advanceBy (position : Position) (text : List Char) :
    (position.advanceBy text).column =
      if '\n' ∈ text then 1 + (text.reverse.takeWhile (· ≠ '\n')).length
      else position.column + text.length := by
  induction text using List.reverseRecOn generalizing position with
  | nil => simp
  | append_singleton text c ih =>
    rw [advanceBy_append, advanceBy_cons, advanceBy_nil, advance]
    by_cases hc : c = '\n'
    · simp [hc]
    · have hne : ¬ '\n' = c := fun h => hc h.symm
      simp only [hc, if_false, ih, List.mem_append, List.mem_singleton, hne, or_false]
      split
      · simp [hc]
        omega
      · simp
        omega

/-- The line and the column of the offset behind the front part of a text. -/
theorem position_ofOffset_append (before after : String) :
    let position := ofOffset (before ++ after) before.utf8ByteSize
    position.offset = before.utf8ByteSize ∧ position.line = 1 + before.toList.count '\n' ∧
      position.column = 1 + (before.toList.reverse.takeWhile (· ≠ '\n')).length := by
  rw [ofOffset_append]
  refine ⟨?_, line_advanceBy _ _, ?_⟩
  · rw [offset_advanceBy, String.ofList_toList]
    exact Nat.zero_add _
  · rw [column_advanceBy]
    split
    · rfl
    · next hmem =>
      have hall : before.toList.reverse.takeWhile (· ≠ '\n') = before.toList.reverse := by
        rw [List.takeWhile_eq_self_iff]
        intro c hc
        have hne : c ≠ '\n' := by
          rintro rfl
          exact hmem (List.mem_reverse.1 hc)
        simpa using hne
      rw [hall, List.length_reverse]
      rfl

/-- An offset at or behind the front part of a text has a position there. -/
theorem le_offset_ofOffset (before after : String) {offset : Nat}
    (h : before.utf8ByteSize ≤ offset) :
    before.utf8ByteSize ≤ (ofOffset (before ++ after) offset).offset := by
  obtain ⟨bytes, rfl⟩ := Nat.exists_eq_add_of_le h
  have hw := charsWithin_append before.toList after.toList bytes
  rw [String.ofList_toList] at hw
  rw [ofOffset, String.toList_append, hw, advanceBy_append, offset_advanceBy, offset_advanceBy,
    String.ofList_toList]
  exact Nat.le_trans (Nat.le_add_left _ _) (Nat.le_add_right _ _)

end Position
end ShellConfig
