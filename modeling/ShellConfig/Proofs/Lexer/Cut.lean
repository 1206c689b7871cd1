import ShellConfig.Proofs.Lexer.Locality
import ShellConfig.Proofs.Lexer.Scan
import ShellConfig.Proofs.Source.Positions

/-!
Scans of a text that is cut off. Up to the place of the cut both scans take the same steps, with
the same sessions and the same places (`step_cut`), so where a line begins in the whole text, the
text up to there is evaluated to its end (`evaluate_passed`).
-/

set_option autoImplicit false

namespace ShellConfig
namespace Lexer

/-- The state in which only so many characters are still to come. -/
def cut (lexer : Lexer) (keep : Nat) : Lexer :=
  { lexer with cursor := { lexer.cursor with rest := lexer.cursor.rest.take keep } }

section
variable {scope : Scope} {mode next : Mode} {lexer after ended : Lexer} {session last : Session}

@[simp] theorem rest_cut (lexer : Lexer) (keep : Nat) :
    (lexer.cut keep).cursor.rest = lexer.cursor.rest.take keep := rfl

theorem take_cut (lexer : Lexer) (length more : Nat) :
    (lexer.cut (length + more)).take length = (lexer.take length).cut more := by
  have hrest : (lexer.cursor.rest.take (length + more)).drop length =
      (lexer.cursor.rest.drop length).take more := by
    rw [List.drop_take, Nat.add_sub_cancel_left]
  have htaken : (lexer.cursor.rest.take (length + more)).take length =
      lexer.cursor.rest.take length := by
    rw [List.take_take, Nat.min_eq_left (Nat.le_add_right _ _)]
  have hwidth : min length (lexer.cursor.rest.take (length + more)).length =
      min length lexer.cursor.rest.length := by
    rw [List.length_take]
    omega
  simp only [cut, take, Cursor.take, Cursor.commit, hrest, htaken, hwidth]

/-- Text that comes after an offset has no part in its place. -/
theorem locate_of_text_append (scope : Scope) {longer : Lexer} {more : String} {offset : Nat}
    (htext : longer.cursor.text = lexer.cursor.text ++ more) (h : offset ≤ lexer.cursor.start) :
    longer.locate scope offset = lexer.locate scope offset := by
  have hle : offset ≤ lexer.cursor.text.utf8ByteSize := by
    have hpassed : lexer.cursor.passed.utf8ByteSize = lexer.cursor.start := rfl
    simp only [Cursor.text, String.utf8ByteSize_append]
    omega
  rw [locate, locate, Location.ofOffset, Location.ofOffset, htext,
    Position.ofOffset_append_of_le _ _ hle]

theorem locate_cut (scope : Scope) (lexer : Lexer) (keep : Nat) {offset : Nat}
    (h : offset ≤ lexer.cursor.start) :
    (lexer.cut keep).locate scope offset = lexer.locate scope offset := by
  have htext : lexer.cursor.text =
      (lexer.cut keep).cursor.text ++ String.ofList (lexer.cursor.rest.drop keep) := by
    simp only [Cursor.text, cut, String.append_assoc]
    rw [← String.ofList_append, List.take_append_drop]
  exact (locate_of_text_append scope htext h).symm

/-! ## Pieces -/

/-- What a reader finds is found also where so much of the text is kept. -/
theorem found_cut {α : Type} {reader : Reader α} {found : Match α} (hlocal : Token.Local reader)
    (hconsumes : Token.Consumes reader) (h : reader lexer.cursor.rest = some found) (more : Nat) :
    0 < found.length + more ∧
      reader (lexer.cut (found.length + more)).cursor.rest = some found :=
  ⟨Nat.add_pos_left (hconsumes _ _ h).1 more, (hlocal _ _ h).2 _ (Nat.le_add_right _ _)⟩

theorem readPiece_cut {α : Type} {reader : Reader α} {fault : LexFault}
    {use : α → Lexer → Lexer} (h : lexer.readPiece reader fault use = .ok after)
    (hlocal : Token.Local reader) (hconsumes : Token.Consumes reader) (more : Nat)
    (huse : ∀ value next, use value (cut next more) = (use value next).cut more) :
    ∃ keep, 0 < keep ∧ (lexer.cut keep).readPiece reader fault use = .ok (after.cut more) := by
  obtain ⟨found, hf, rfl⟩ := readPiece_eq_ok h
  obtain ⟨hpos, hcut⟩ := found_cut hlocal hconsumes hf more
  refine ⟨found.length + more, hpos, ?_⟩
  rw [readPiece_eq, hcut]
  simp only [take_cut, huse]

theorem readDoubleQuote_cut (h : lexer.readDoubleQuote = .ok after) (more : Nat) :
    ∃ keep, 0 < keep ∧ (lexer.cut keep).readDoubleQuote = .ok (after.cut more) := by
  rw [readDoubleQuote_eq] at h
  split at h
  · next tail hq hr =>
    obtain rfl := Except.ok.inj h
    refine ⟨1 + more, by omega, ?_⟩
    have hrest : (lexer.cut (1 + more)).cursor.rest = '"' :: tail.take more := by
      rw [rest_cut, hr, Nat.add_comm, List.take_succ_cons]
    have hquotes : (lexer.cut (1 + more)).inQuotes = true := hq
    rw [readDoubleQuote_closes hquotes hrest, take_cut]
    rfl
  · next tail hq hr =>
    obtain rfl := Except.ok.inj h
    refine ⟨2 + more, by omega, ?_⟩
    have hrest : (lexer.cut (2 + more)).cursor.rest = '"' :: '"' :: tail.take more := by
      rw [rest_cut, hr, Nat.add_comm, List.take_succ_cons, List.take_succ_cons]
    have hquotes : (lexer.cut (2 + more)).inQuotes = false := hq
    rw [readDoubleQuote_empty hquotes hrest, take_cut]
    rfl
  · next tail hno hq hr =>
    obtain rfl := Except.ok.inj h
    refine ⟨1 + more, by omega, ?_⟩
    have hrest : (lexer.cut (1 + more)).cursor.rest = '"' :: tail.take more := by
      rw [rest_cut, hr, Nat.add_comm, List.take_succ_cons]
    have hne : (tail.take more).head? ≠ some '"' := by
      rcases tail with _ | ⟨c, tail⟩
      · simp
      · rw [List.head?_take]
        split
        · simp
        · intro hc
          exact hno tail (by rw [Option.some.inj hc])
    have hquotes : (lexer.cut (1 + more)).inQuotes = false := hq
    rw [readDoubleQuote_opens hquotes hrest hne, take_cut]
    rfl
  · cases h

theorem reads_cut {read : Lexer → Except LexFailure Lexer} (hm : mode.reads? = some read)
    (h : read lexer = .ok after) (more : Nat) :
    ∃ keep, 0 < keep ∧ read (lexer.cut keep) = .ok (after.cut more) := by
  cases mode <;> cases hm
  case bareText =>
    exact readPiece_cut h (Token.local_run _) (Token.consumes_run _) more fun _ _ => rfl
  case quotedText =>
    exact readPiece_cut h (Token.local_run _) (Token.consumes_run _) more fun _ _ => rfl
  case whiteSpace =>
    exact readPiece_cut h Token.local_separator Token.consumes_separator more fun _ _ => rfl
  case backslash =>
    refine readPiece_cut h Token.local_escaped Token.consumes_escaped more ?_
    rintro (_ | c) next
    · change (if lexer.inQuotes then _ else _) = cut (if lexer.inQuotes then _ else _) more
      split <;> rfl
    · rfl
  case singleQuoted =>
    exact readPiece_cut h Token.local_singleQuoted Token.consumes_singleQuoted more fun _ _ => rfl
  case doubleQuote => exact readDoubleQuote_cut h more

theorem readReference_cut (h : lexer.readReference scope session = (.ok after, last))
    (more : Nat) :
    ∃ keep, 0 < keep ∧
      (lexer.cut keep).readReference scope session = (.ok (after.cut more), last) := by
  rw [readReference_eq] at h
  cases hf : Token.reference lexer.cursor.rest with
  | none => rw [hf] at h; cases h
  | some found =>
    obtain ⟨hpos, hcut⟩ := found_cut Token.local_reference Token.consumes_reference hf more
    have hquotes : (lexer.cut (found.length + more)).inQuotes = lexer.inQuotes := rfl
    have hplace : (lexer.cut (found.length + more)).locate scope
        (lexer.cut (found.length + more)).cursor.start =
        lexer.locate scope lexer.cursor.start := locate_cut scope lexer _ (Nat.le_refl _)
    refine ⟨found.length + more, hpos, ?_⟩
    rw [hf] at h
    rw [readReference_eq, hcut]
    simp only [hquotes, hplace, take_cut] at h ⊢
    cases hx : session.config.expand found.value lexer.inQuotes with
    | joined text =>
      rw [hx] at h
      obtain ⟨ha, rfl⟩ := Prod.mk.inj h
      obtain rfl := Except.ok.inj ha
      rfl
    | words values =>
      rw [hx] at h
      obtain ⟨ha, rfl⟩ := Prod.mk.inj h
      obtain rfl := Except.ok.inj ha
      rfl
    | undefined =>
      rw [hx] at h
      obtain ⟨_, hu, rfl⟩ := Evaluation.map_eq_ok h
      simp only [Evaluation.map, hu]
      rfl

/-! ## Steps -/

theorem beginLine_cut (lexer : Lexer) {more : Nat} (hmore : more ≠ 0) :
    (lexer.cut ((Token.lineBeginning lexer.cursor.rest).length + more)).beginLine =
      lexer.beginLine.cut more := by
  have hcut : Token.lineBeginning
      (lexer.cursor.rest.take ((Token.lineBeginning lexer.cursor.rest).length + more)) =
        Token.lineBeginning lexer.cursor.rest := Token.lineBeginning_take (Nat.le_add_right _ _)
  have hpeek : ((lexer.take (Token.lineBeginning lexer.cursor.rest).length).cut more).cursor.peek =
      (lexer.take (Token.lineBeginning lexer.cursor.rest).length).cursor.peek := by
    rw [Cursor.peek, Cursor.peek, rest_cut, List.head?_take, if_neg hmore]
  unfold beginLine
  simp only [rest_cut, hcut, take_cut, hpeek]
  split
  · rfl
  · split <;> rfl

theorem nextMode_cut (lexer : Lexer) {keep : Nat} (hkeep : keep ≠ 0) :
    (lexer.cut keep).nextMode = lexer.nextMode := by
  have hpeek : (lexer.cut keep).cursor.peek = lexer.cursor.peek := by
    rw [Cursor.peek, Cursor.peek, rest_cut, List.head?_take, if_neg hkeep]
  unfold nextMode
  rw [hpeek]
  rfl

theorem endLine_cut (h : ended.lineOffset ≤ ended.cursor.start) (keep : Nat) :
    (ended.cut keep).endLine scope session = ended.endLine scope session := by
  have hplace : (ended.cut keep).locate scope (ended.cut keep).lineOffset =
      ended.locate scope ended.lineOffset := locate_cut scope ended keep h
  rw [endLine_eq, endLine_eq, hplace]
  rfl

theorem local_of_ends {reader : Reader Unit} (hm : mode.ends? = some reader) :
    Token.Local reader ∧ Token.Consumes reader := by
  cases mode <;> cases hm
  · exact ⟨Token.local_comment, Token.consumes_comment⟩
  · exact ⟨Token.local_lineEnds, Token.consumes_lineEnds⟩

theorem Occurs.lineOffset_le_take {text : String} (h : Occurs text mode lexer) (length : Nat) :
    (lexer.take length).lineOffset ≤ (lexer.take length).cursor.start := by
  have hstart : lexer.cursor.start ≤ (lexer.take length).cursor.start := by
    rw [take, Cursor.start_commit, Cursor.offset, Cursor.start_take]
    exact Nat.le_add_right _ _
  unfold lineOffset
  cases hs : (lexer.take length).lineStart with
  | none => exact Nat.le_refl _
  | some offset => exact Nat.le_trans (h.lineStart_le offset hs) hstart

theorem readLineEnd_cut {text : String} {reader : Reader Unit} (hoccurs : Occurs text mode lexer)
    (hm : mode.ends? = some reader)
    (h : lexer.readLineEnd scope reader session = (.ok after, last)) (more : Nat) :
    ∃ keep, 0 < keep ∧
      (lexer.cut keep).readLineEnd scope reader session = (.ok (after.cut more), last) := by
  obtain ⟨hlocal, hconsumes⟩ := local_of_ends hm
  rw [readLineEnd_eq] at h
  cases hf : reader lexer.cursor.rest with
  | none => rw [hf] at h; cases h
  | some found =>
    rw [hf] at h
    obtain ⟨_, he, rfl⟩ := Evaluation.map_eq_ok h
    obtain ⟨hpos, hcut⟩ := found_cut hlocal hconsumes hf more
    refine ⟨found.length + more, hpos, ?_⟩
    rw [readLineEnd_eq, hcut]
    simp only [Evaluation.map, take_cut, endLine_cut (hoccurs.lineOffset_le_take _), he]
    rfl

/-- A step that is taken in the whole text is taken also in a text that ends behind it. At least one
more character is kept, unless a line ends. -/
theorem step_cut {text : String} (hoccurs : Occurs text mode lexer)
    (h : step scope mode lexer session = (.ok (some (next, after)), last)) {more : Nat}
    (hmore : more = 0 → next = .beginOfLine) :
    ∃ keep, (keep = 0 → mode = .beginOfLine) ∧
      step scope mode (lexer.cut keep) session = (.ok (some (next, after.cut more)), last) := by
  obtain ⟨rfl, rfl, rfl, rfl⟩ | ⟨rfl, hm, rfl, rfl⟩ | ⟨read, hm, rfl, hread, rfl⟩ |
    ⟨rfl, rfl, hread⟩ | ⟨reader, hm, rfl, hread⟩ := step_cases h
  · have hne : more ≠ 0 := fun hzero => nomatch hmore hzero
    exact ⟨_, fun _ => rfl, by rw [step, beginLine_cut lexer hne]⟩
  · have hne : more ≠ 0 := fun hzero => (nextMode_ne hm).1 (hmore hzero)
    refine ⟨more, fun hzero => absurd hzero hne, ?_⟩
    simp only [step, nextMode_cut after hne, hm]
  · obtain ⟨keep, hpos, hcut⟩ := reads_cut hm hread more
    refine ⟨keep, fun hzero => by omega, ?_⟩
    rw [step_of_reads hm, hcut]
    rfl
  · obtain ⟨keep, hpos, hcut⟩ := readReference_cut hread more
    refine ⟨keep, fun hzero => by omega, ?_⟩
    rw [step, Evaluation.map, hcut]
    rfl
  · obtain ⟨keep, hpos, hcut⟩ := readLineEnd_cut hoccurs hm hread more
    refine ⟨keep, fun hzero => by omega, ?_⟩
    rw [step_of_ends hm, Evaluation.map, hcut]
    rfl

end

end Lexer

/-! ## Scans -/

namespace Scan
open Lexer
variable {scope : Scope} {text : String} {session : Session} {scan : Scan}

/-- A scan of the whole text goes the same way in a text that ends behind it. The induction is on
the steps, from the last one back to the beginning. -/
theorem reaches_cut (h : Reaches scope (start text session) scan) {keep : Nat}
    (hkeep : keep = 0 → scan.mode = .beginOfLine) :
    Reaches scope (start (scan.lexer.cut keep).cursor.text session)
      ⟨scan.mode, scan.lexer.cut keep, scan.session⟩ := by
  induction h generalizing keep with
  | refl =>
    have hlexer : (Lexer.ofText text).cut keep =
        .ofText ((Lexer.ofText text).cut keep).cursor.text := by
      simp [Lexer.ofText, Cursor.ofText, cut, Cursor.text]
    simp only [start]
    rw [← hlexer]
    exact .refl
  | @tail middle scan hreaches hnext ih =>
    obtain ⟨found, hfound, hstep⟩ := step_cut (.of_reaches hreaches) hnext hkeep
    have htext : (scan.lexer.cut keep).cursor.text = (middle.lexer.cut found).cursor.text := by
      obtain hc | ⟨length, hc⟩ := cursor_of_step hstep
      · rw [hc]
      · rw [hc, take, Cursor.text_commit, Cursor.text_take]
    rw [htext]
    exact (ih hfound).tail hstep

/-- Where a line begins, the text before it is evaluated to its end with the session there. -/
theorem evaluate_passed (h : Reaches scope (start text session) scan)
    (hmode : scan.mode = .beginOfLine) :
    scope.evaluate scan.lexer.cursor.passed session = (.ok (), scan.session) := by
  have hoccurs := Occurs.of_reaches h
  have hfits := hoccurs.fits
  rw [hmode] at hfits
  have hcut : Reaches scope (start (scan.lexer.cut 0).cursor.text session)
      ⟨scan.mode, scan.lexer.cut 0, scan.session⟩ := reaches_cut h fun _ => hmode
  have htext : (scan.lexer.cut 0).cursor.text = scan.lexer.cursor.passed := by
    simp [Cursor.text, cut, hoccurs.lexeme_eq]
  have hfresh : (scan.lexer.cut 0).reading = Reading.fresh (scan.lexer.cut 0).cursor.rest := by
    have hreading : (scan.lexer.cut 0).reading = { scan.lexer.reading with rest := [] } := rfl
    rw [hreading, hfits]
    rfl
  rw [htext] at hcut
  rw [evaluate_eq_run, run_eq_of_reaches hcut, run]
  simp only [hmode]
  exact run_blank scope scan.session hfresh rfl

end Scan
end ShellConfig
