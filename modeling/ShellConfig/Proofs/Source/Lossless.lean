import ShellConfig.Proofs.Source.Boundaries
import ShellConfig.Source.Cursor

/-!
Cursors in use. Requests to a cursor come in any order, and a count in bytes goes along that knows
the sizes of what was found and nothing else of the text (`Cursor.Marks`). After any requests the
count agrees with the cursor (`Usage.Agrees`). Main statement: all that is counted is a boundary of
characters, and the lexemes handed out are the text up to the commit point (`Cursor.lossless`).
-/

set_option autoImplicit false

namespace ShellConfig
namespace Cursor

/-! ## Requests -/

/-- What can be asked of a cursor. -/
inductive Request : Type 1 where
  | peek
  | advance
  | retreat
  | commit
  | read {α : Type} (reader : Reader α)

/-- Where a cursor is, in bytes: the commit point, its own place, and the size of its last step. -/
structure Marks where
  start : Nat
  offset : Nat
  width : Nat
deriving DecidableEq

namespace Marks

def step (marks : Marks) (bytes : Nat) : Marks :=
  { marks with offset := marks.offset + bytes, width := bytes }

def retreat (marks : Marks) : Marks :=
  { marks with offset := max (marks.offset - marks.width) marks.start, width := 0 }

/-- The size of the last step stays, though the step cannot be given back any more. -/
def commit (marks : Marks) : Marks := { marks with start := marks.offset }

end Marks

/-- The number of bytes in what the reader finds at the cursor. -/
def foundBytes {α : Type} (cursor : Cursor) (reader : Reader α) : Nat :=
  (reader cursor.rest).elim 0 fun found =>
    (String.ofList (cursor.rest.take found.length)).utf8ByteSize

/-- A cursor in use, with the texts that it has handed out and its count of bytes. -/
structure Usage where
  cursor : Cursor
  lexemes : List String
  marks : Marks

namespace Usage

def begin (text : String) : Usage := ⟨.ofText text, [], ⟨0, 0, 0⟩⟩

def perform (usage : Usage) : Request → Usage
  | .peek => usage
  | .advance =>
    let (found, cursor) := usage.cursor.advance
    { usage with cursor, marks := usage.marks.step (found.elim 0 Char.utf8Size) }
  | .retreat => { usage with cursor := usage.cursor.retreat, marks := usage.marks.retreat }
  | .commit =>
    let (lexeme, cursor) := usage.cursor.commit
    ⟨cursor, usage.lexemes ++ [lexeme], usage.marks.commit⟩
  | .read reader =>
    match usage.cursor.match? reader with
    | some (_, cursor) =>
      { usage with cursor, marks := usage.marks.step (usage.cursor.foundBytes reader) }
    | none => usage

/-- The usage after requests in turn. -/
def performAll (usage : Usage) (requests : List Request) : Usage := requests.foldl perform usage

end Usage

/-! ## What a request leaves -/

section
variable {text : String} {usage : Usage}

theorem utf8ByteSize_ofList_append (front back : List Char) :
    (String.ofList (front ++ back)).utf8ByteSize =
      (String.ofList front).utf8ByteSize + (String.ofList back).utf8ByteSize := by
  rw [String.ofList_append, String.utf8ByteSize_append]

/-- The count of bytes is that of the cursor, and the size that it remembers is that of the
characters which the cursor would give back. -/
structure Usage.Agrees (text : String) (usage : Usage) : Prop where
  text_eq : usage.cursor.text = text
  lexemes : String.join usage.lexemes = usage.cursor.passed
  start : usage.marks.start = usage.cursor.start
  offset : usage.marks.offset = usage.cursor.offset
  width : ∃ front last, usage.cursor.passed.toList ++ usage.cursor.lexeme.toList = front ++ last ∧
    last.length = usage.cursor.width ∧ (String.ofList last).utf8ByteSize = usage.marks.width

theorem Usage.agrees_begin (text : String) : (begin text).Agrees text where
  text_eq := text_ofText text
  lexemes := rfl
  start := rfl
  offset := rfl
  width := ⟨[], [], rfl, rfl, rfl⟩

theorem offset_take (cursor : Cursor) (length : Nat) : (cursor.take length).offset =
    cursor.offset + (String.ofList (cursor.rest.take length)).utf8ByteSize := by
  rw [offset, offset, start_take, take, String.utf8ByteSize_append, Nat.add_assoc]

namespace Usage

theorem Agrees.take (h : usage.Agrees text) (length : Nat) :
    Agrees text { usage with
      cursor := usage.cursor.take length
      marks := usage.marks.step
        (String.ofList (usage.cursor.rest.take length)).utf8ByteSize } where
  text_eq := (text_take _ _).trans h.text_eq
  lexemes := h.lexemes
  start := h.start
  offset := by
    rw [offset_take, ← h.offset]
    rfl
  width := by
    refine ⟨usage.cursor.passed.toList ++ usage.cursor.lexeme.toList,
      usage.cursor.rest.take length, ?_, List.length_take, rfl⟩
    simp only [Cursor.take, String.toList_append, String.toList_ofList, List.append_assoc]

theorem Agrees.commit (h : usage.Agrees text) : (usage.perform .commit).Agrees text where
  text_eq := (text_commit _).trans h.text_eq
  lexemes := by
    change String.join (usage.lexemes ++ [usage.cursor.lexeme]) =
      usage.cursor.passed ++ usage.cursor.lexeme
    rw [String.join_append, h.lexemes, String.join_cons, String.join_nil, String.append_empty]
  start := h.offset.trans (start_commit _).symm
  offset := h.offset.trans (offset_commit _).symm
  width := by
    obtain ⟨front, last, hsplit, hlength, hsize⟩ := h.width
    refine ⟨front, last, ?_, hlength, hsize⟩
    simp only [perform, Cursor.commit, String.toList_append, String.toList_empty, List.append_nil]
    exact hsplit

/-- A retreat gives back the last step, or as much of it as lies behind the commit point. -/
theorem Agrees.offset_retreat (h : usage.Agrees text) :
    usage.marks.retreat.offset = usage.cursor.retreat.offset := by
  obtain ⟨front, last, hsplit, hlength, hsize⟩ := h.width
  have hpassed : (String.ofList usage.cursor.passed.toList).utf8ByteSize = usage.cursor.start := by
    rw [String.ofList_toList]
    rfl
  have hlexeme : usage.cursor.offset = usage.cursor.start +
      (String.ofList usage.cursor.lexeme.toList).utf8ByteSize := by
    rw [String.ofList_toList]
    rfl
  have hretreat : usage.cursor.retreat.offset = usage.cursor.start + (String.ofList
      (usage.cursor.lexeme.toList.take
        (usage.cursor.lexeme.toList.length - usage.cursor.width))).utf8ByteSize := rfl
  change max (usage.marks.offset - usage.marks.width) usage.marks.start = _
  rw [hretreat, h.offset, h.start, hlexeme, ← hlength, ← hsize]
  obtain ⟨earlier, hpassedEq, hlast⟩ | ⟨kept, -, hkept⟩ := List.append_eq_append_iff.1 hsplit.symm
  · -- The step began before the commit point.
    rw [hlast, List.length_append, Nat.sub_eq_zero_of_le (Nat.le_add_left _ _), List.take_zero]
    rw [hpassedEq, utf8ByteSize_ofList_append] at hpassed
    rw [utf8ByteSize_ofList_append, String.ofList_nil, String.utf8ByteSize_empty]
    omega
  · rw [hkept, List.length_append, Nat.add_sub_cancel, List.take_left, utf8ByteSize_ofList_append]
    omega

theorem Agrees.retreat (h : usage.Agrees text) : (usage.perform .retreat).Agrees text where
  text_eq := (text_retreat _).trans h.text_eq
  lexemes := h.lexemes
  start := h.start
  offset := h.offset_retreat
  width := ⟨_, [], (List.append_nil _).symm, rfl, rfl⟩

theorem perform_read {α : Type} (usage : Usage) (reader : Reader α) :
    usage.perform (.read reader) = match reader usage.cursor.rest with
      | some found => { usage with
          cursor := usage.cursor.take found.length
          marks := usage.marks.step
            (String.ofList (usage.cursor.rest.take found.length)).utf8ByteSize }
      | none => usage := by
  simp only [perform, match?, foundBytes]
  cases reader usage.cursor.rest <;> rfl

theorem Agrees.perform (h : usage.Agrees text) (request : Request) :
    (usage.perform request).Agrees text := by
  cases request with
  | peek => exact h
  | advance =>
    have hbytes : usage.cursor.peek.elim 0 Char.utf8Size =
        (String.ofList (usage.cursor.rest.take 1)).utf8ByteSize := by
      unfold Cursor.peek
      cases usage.cursor.rest <;> simp
    have htaken := h.take 1
    rw [← hbytes] at htaken
    exact htaken
  | retreat => exact h.retreat
  | commit => exact h.commit
  | read reader =>
    rw [perform_read]
    cases reader usage.cursor.rest with
    | none => exact h
    | some found => exact h.take found.length

theorem Agrees.performAll (h : usage.Agrees text) (requests : List Request) :
    (usage.performAll requests).Agrees text := by
  induction requests generalizing usage with
  | nil => exact h
  | cons request requests ih => exact ih (h.perform request)

end Usage

/-! ## Safety -/

/-- The text can be cut where the count of bytes says, and nothing of it is lost. -/
structure Usage.Safe (text : String) (usage : Usage) : Prop where
  start_eq : usage.cursor.start = usage.marks.start
  offset_eq : usage.cursor.offset = usage.marks.offset
  start_le : usage.marks.start ≤ usage.marks.offset
  offset_le : usage.marks.offset ≤ text.utf8ByteSize
  width_le : usage.marks.width ≤ usage.marks.offset
  startBoundary : IsBoundary text usage.marks.start
  offsetBoundary : IsBoundary text usage.marks.offset
  widthBoundary : IsBoundary text (usage.marks.offset - usage.marks.width)
  /-- What was handed out is the text before the commit point. -/
  handedOut : (String.join usage.lexemes).utf8ByteSize = usage.marks.start ∧
    ∃ rest, text = String.join usage.lexemes ++ rest

theorem Usage.Agrees.safe (h : usage.Agrees text) : usage.Safe text := by
  obtain ⟨cursor, lexemes, marks⟩ := usage
  obtain ⟨htext, hlexemes, hstart, hoffset, front, last, hsplit, -, hsize⟩ := h
  have hstartEq : marks.start = cursor.passed.utf8ByteSize := hstart
  have hread : marks.offset = (cursor.passed ++ cursor.lexeme).utf8ByteSize := by
    rw [String.utf8ByteSize_append]
    exact hoffset
  have hboundary : IsBoundary text marks.offset := by
    rw [← htext, hread]
    exact isBoundary_append _ _
  -- The last step is the end of the text before the cursor.
  have hback : cursor.passed ++ cursor.lexeme = String.ofList front ++ String.ofList last := by
    apply String.ext
    rw [String.toList_append, hsplit, String.toList_append, String.toList_ofList,
      String.toList_ofList]
  have hbytes : marks.offset = (String.ofList front).utf8ByteSize + marks.width := by
    rw [hread, hback, String.utf8ByteSize_append, hsize]
  have hpassed : text = cursor.passed ++ (cursor.lexeme ++ String.ofList cursor.rest) := by
    rw [← htext, Cursor.text, String.append_assoc]
  refine ⟨hstart.symm, hoffset.symm, ?_, hboundary.le, ?_, ?_, hboundary, ?_, ?_⟩
  · change marks.start ≤ marks.offset
    rw [hstart, hoffset]
    exact start_le_offset cursor
  · change marks.width ≤ marks.offset
    rw [hbytes]
    exact Nat.le_add_left _ _
  · change IsBoundary text marks.start
    rw [hstartEq, hpassed]
    exact isBoundary_append _ _
  · change IsBoundary text (marks.offset - marks.width)
    rw [hbytes, Nat.add_sub_cancel, ← htext, Cursor.text, hback, String.append_assoc]
    exact isBoundary_append _ _
  · exact ⟨by rw [hlexemes, hstartEq], _, by rw [hlexemes]; exact hpassed⟩

/-! ## Retreats -/

theorem retreat_take (cursor : Cursor) (length : Nat) :
    (cursor.take length).retreat = { cursor with width := 0 } := by
  have hlength : (cursor.rest.take length).length = min length cursor.rest.length :=
    List.length_take
  simp only [retreat, take, String.toList_append, String.toList_ofList, List.length_append,
    ← hlength, Nat.add_sub_cancel, List.take_left, List.drop_left, String.ofList_toList,
    List.take_append_drop]

theorem offset_retreat_take (cursor : Cursor) (length : Nat) :
    (cursor.take length).retreat.offset = cursor.offset := by
  rw [retreat_take]
  rfl

/-- With no step to give back, or nothing behind the commit point, a retreat leaves the place. -/
theorem offset_retreat_eq {cursor : Cursor} (h : cursor.width = 0 ∨ cursor.lexeme = "") :
    cursor.retreat.offset = cursor.offset := by
  obtain hwidth | hlexeme := h
  · simp [retreat, offset, start, hwidth]
  · simp [retreat, offset, start, hlexeme]

/-- The request moves the cursor over characters, which a retreat then gives back. -/
def Steps (cursor : Cursor) : Request → Prop
  | .advance => cursor.peek ≠ none
  | .read reader => cursor.match? reader ≠ none
  | .peek | .retreat | .commit => False

/-- After the request there is no step to give back. -/
def LeavesNoStep (cursor : Cursor) : Request → Prop
  | .advance => cursor.peek = none
  | .retreat | .commit => True
  | .peek | .read _ => False

theorem offset_retreat_of_steps {request : Request} (h : usage.cursor.Steps request) :
    ((usage.perform request).perform .retreat).cursor.offset = usage.cursor.offset := by
  cases request with
  | advance => exact offset_retreat_take usage.cursor 1
  | read reader =>
    rw [Usage.perform_read]
    cases hfound : reader usage.cursor.rest with
    | none => exact absurd (by rw [match?, hfound]; rfl) h
    | some found => exact offset_retreat_take usage.cursor found.length
  | peek | retreat | commit => exact h.elim

theorem offset_retreat_of_leavesNoStep {request : Request}
    (h : usage.cursor.LeavesNoStep request) :
    ((usage.perform request).perform .retreat).cursor.offset =
      (usage.perform request).cursor.offset := by
  cases request with
  | advance =>
    refine offset_retreat_eq (.inl ?_)
    have hrest : usage.cursor.rest = [] := List.head?_eq_none_iff.1 h
    change min 1 usage.cursor.rest.length = 0
    rw [hrest]
    rfl
  | retreat => exact offset_retreat_eq (.inl rfl)
  | commit => exact offset_retreat_eq (.inr rfl)
  | peek | read reader => exact h.elim

-- The step is remembered beyond the commit, but what was handed out stays so.
example : ((Usage.begin "łab").performAll [.advance, .commit, .retreat]).marks = ⟨2, 2, 0⟩ := by
  decide +kernel

theorem start_le_start_performAll (h : usage.Agrees text) (requests : List Request) :
    usage.marks.start ≤ (usage.performAll requests).marks.start := by
  induction requests generalizing usage with
  | nil => exact Nat.le_refl _
  | cons request requests ih =>
    refine Nat.le_trans ?_ (ih (h.perform request))
    cases request with
    | peek | advance | retreat => exact Nat.le_refl _
    | commit => exact h.safe.start_le
    | read reader =>
      rw [Usage.perform_read]
      cases reader usage.cursor.rest <;> exact Nat.le_refl _

end

/-- Whatever is asked of the cursor next, no cut goes through a character and no text is lost. -/
structure Lossless (text : String) (usage : Usage) : Prop where
  safe : usage.Safe text
  start_le : ∀ later, usage.cursor.start ≤ (usage.performAll later).cursor.start
  /-- A reader that finds nothing leaves everything as it is. -/
  unmatched : ∀ {α : Type} (reader : Reader α), usage.cursor.match? reader = none →
    usage.perform (.read reader) = usage
  /-- A retreat gives back the step that was just made. -/
  givesBack : ∀ request, usage.cursor.Steps request →
    ((usage.perform request).perform .retreat).cursor.offset = usage.cursor.offset
  /-- Only one step is remembered, and none beyond a commit or at the end of the text. -/
  givesNothingBack : ∀ request, usage.cursor.LeavesNoStep request →
    ((usage.perform request).perform .retreat).cursor.offset = (usage.perform request).cursor.offset

theorem lossless (text : String) (requests : List Request) :
    Lossless text ((Usage.begin text).performAll requests) := by
  have hagrees := (Usage.agrees_begin text).performAll requests
  generalize (Usage.begin text).performAll requests = usage at hagrees
  refine ⟨hagrees.safe, fun later => ?_, fun reader hnone => ?_,
    fun _ => offset_retreat_of_steps, fun _ => offset_retreat_of_leavesNoStep⟩
  · rw [← hagrees.start, ← (hagrees.performAll later).start]
    exact start_le_start_performAll hagrees later
  · rw [Usage.perform, hnone]

end Cursor
end ShellConfig
