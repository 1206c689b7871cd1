import ShellConfig.Proofs.Lexer.Scan

/-!
How far a scan has come. A step leads from one place of the text to another, and neither the session
nor the directives nor the words so far have a say in this (`exists_of_samePlace`). So the places at
which lines begin are those of a scan that knows no variable and carries out no directive
(`Occurs.lineBegins`).
-/

set_option autoImplicit false

namespace ShellConfig
namespace Lexer

/-- The states are at the same place of one text, with the same double quote open. -/
structure SamePlace (left right : Lexer) : Prop where
  cursor : left.cursor = right.cursor
  quote : left.quote = right.quote

section
variable {scope : Scope} {mode next : Mode} {left right after : Lexer} {session last : Session}
  (h : left.SamePlace right)
include h

theorem SamePlace.take (length : Nat) : (left.take length).SamePlace (right.take length) :=
  ⟨by rw [Lexer.take, Lexer.take, h.cursor], h.quote⟩

theorem SamePlace.beginLine : left.beginLine.SamePlace right.beginLine := by
  refine ⟨?_, ?_⟩
  · rw [cursor_beginLine, cursor_beginLine, h.cursor]
    exact (h.take _).cursor
  · rw [(marks_beginLine left).2, (marks_beginLine right).2, h.quote]

theorem exists_of_reads {read : Lexer → Except LexFailure Lexer} (hm : mode.reads? = some read)
    (hread : read left = .ok after) :
    ∃ other, read right = .ok other ∧ after.SamePlace other := by
  obtain ⟨found, other, hleft, hright, hplace⟩ | ⟨failure, hleft, -⟩ :=
    reads_both hm h.cursor h.quote h.take (fun length _ _ => ⟨(h.take length).cursor, h.quote⟩)
      (fun length => ⟨(h.take length).cursor, h.quote⟩) (fun _ => ⟨(h.take 1).cursor, rfl⟩)
  · rw [hleft] at hread
    obtain rfl := Except.ok.inj hread
    exact ⟨other, hright, hplace⟩
  · rw [hleft] at hread
    cases hread

/-- A reference is read where the other state reads one, whether or not its variable is set. -/
theorem exists_of_readReference
    (hread : left.readReference scope session = (.ok after, last)) (current : Session) :
    ∃ other final, right.readReference .idle current = (.ok other, final) ∧
      after.SamePlace other := by
  obtain ⟨found, hf, rfl⟩ := eq_resolve_of_readReference hread
  have hafter : (left.resolve found.length
      (session.config.expand found.value left.inQuotes)).SamePlace (right.take found.length) := by
    cases session.config.expand found.value left.inQuotes with
    | undefined => exact h.take _
    | joined text => exact ⟨(h.take _).cursor, h.quote⟩
    | words values => exact ⟨(h.take _).cursor, h.quote⟩
  rw [h.cursor] at hf
  rw [readReference_eq, hf]
  simp only
  split
  · exact ⟨_, _, rfl, hafter.cursor, hafter.quote⟩
  · exact ⟨_, _, rfl, hafter.cursor, hafter.quote⟩
  · exact ⟨_, _, rfl, hafter⟩

theorem exists_of_readLineEnd {reader : Reader Unit}
    (hread : left.readLineEnd scope reader session = (.ok after, last)) (current : Session) :
    ∃ other final, right.readLineEnd .idle reader current = (.ok other, final) ∧
      after.SamePlace other := by
  rw [readLineEnd_eq, h.cursor] at hread
  rw [readLineEnd_eq]
  cases hf : reader right.cursor.rest with
  | none => rw [hf] at hread; cases hread
  | some found =>
    rw [hf] at hread
    obtain ⟨_, -, rfl⟩ := Evaluation.map_eq_ok hread
    have hplace := h.take found.length
    obtain ⟨final, hline⟩ := (right.take found.length).exists_endLine_idle current
    refine ⟨(right.take found.length).clearLine, final, ?_, hplace.cursor, hplace.quote⟩
    simp only [Evaluation.map, hline]
    rfl

/-- A step takes states at one place to one place, whatever each of them has to work with. -/
theorem exists_of_samePlace
    (hstep : step scope mode left session = (.ok (some (next, after)), last))
    (current : Session) :
    ∃ other final, step .idle mode right current = (.ok (some (next, other)), final) ∧
      after.SamePlace other := by
  obtain ⟨rfl, rfl, rfl, -⟩ | ⟨rfl, hm, rfl, -⟩ | ⟨read, hm, rfl, hread, -⟩ | ⟨rfl, rfl, hread⟩ |
    ⟨reader, hm, rfl, hread⟩ := step_cases hstep
  · exact ⟨_, _, rfl, h.beginLine⟩
  · have hmode : right.nextMode = .ok next := by
      rw [nextMode_eq, ← h.cursor, ← h.quote, ← nextMode_eq, hm]
    exact ⟨right, current, by simp only [step, hmode], h⟩
  · obtain ⟨other, hother, hplace⟩ := exists_of_reads h hm hread
    exact ⟨other, current, by rw [step_of_reads hm, hother]; rfl, hplace⟩
  · obtain ⟨other, final, hother, hplace⟩ := exists_of_readReference h hread current
    exact ⟨other, final, by simp only [step, Evaluation.map, hother]; rfl, hplace⟩
  · obtain ⟨other, final, hother, hplace⟩ := exists_of_readLineEnd h hread current
    exact ⟨other, final, by rw [step_of_ends hm, Evaluation.map, hother]; rfl, hplace⟩

end

end Lexer

/-- A line of the text begins behind this part of it: a scan without variables and directives comes
to the beginning of a line there. -/
def LineBegins (text before : String) : Prop :=
  ∃ scan, Scan.Reaches .idle (.start text (.ofConfig .empty)) scan ∧ scan.mode = .beginOfLine ∧
    scan.lexer.cursor.passed = before

namespace Lexer

theorem Occurs.exists_idle {text : String} {mode : Mode} {lexer : Lexer}
    (h : Occurs text mode lexer) :
    ∃ other session, Scan.Reaches .idle (.start text (.ofConfig .empty)) ⟨mode, other, session⟩ ∧
      lexer.SamePlace other := by
  induction h with
  | start => exact ⟨_, _, .refl, rfl, rfl⟩
  | step _ hstep ih =>
    obtain ⟨other, session, hreaches, hplace⟩ := ih
    obtain ⟨after, last, hnext, hafter⟩ := exists_of_samePlace hplace hstep session
    have hstepped : Scan.Next .idle ⟨_, other, session⟩ ⟨_, after, last⟩ := hnext
    exact ⟨after, last, hreaches.tail hstepped, hafter⟩

theorem Occurs.lineBegins {text : String} {lexer : Lexer} (h : Occurs text .beginOfLine lexer) :
    LineBegins text lexer.cursor.passed := by
  obtain ⟨other, session, hreaches, hplace⟩ := h.exists_idle
  exact ⟨_, hreaches, rfl, by rw [hplace.cursor]⟩

end Lexer
end ShellConfig
