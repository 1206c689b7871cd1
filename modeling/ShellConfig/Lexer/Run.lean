import ShellConfig.Lexer.Step

/-!
The whole scan of a text. Main statement: every step brings a scan nearer to its end
(`weight_lt_of_step`), because a piece takes at least one character and at most two steps come
between two pieces. So the scan of a text always ends.
-/

set_option autoImplicit false

namespace ShellConfig

namespace Mode

/-- How many steps can come before the next piece of the text is read. -/
def rank : Mode → Nat
  | beginOfLine => 2
  | dispatch => 1
  | _ => 0

end Mode

namespace Lexer

/-- A bound for the steps to come. -/
def weight (mode : Mode) (lexer : Lexer) : Nat := 3 * lexer.cursor.rest.length + mode.rank

theorem rest_of_read? {α : Type} {lexer next : Lexer} {reader : Reader α} {value : α}
    (h : lexer.read? reader = some (value, next)) :
    ∃ found, reader lexer.cursor.rest = some found ∧
      next.cursor.rest = lexer.cursor.rest.drop found.length := by
  simp only [read?, Cursor.match?, Option.map_map, Option.map_eq_some_iff] at h
  obtain ⟨found, hf, he⟩ := h
  refine ⟨found, hf, ?_⟩
  have hn := congrArg (fun p => p.2.cursor.rest) he
  exact hn.symm

theorem length_rest_of_read? {α : Type} {lexer next : Lexer} {reader : Reader α} {value : α}
    (consumes : Token.Consumes reader) (h : lexer.read? reader = some (value, next)) :
    next.cursor.rest.length < lexer.cursor.rest.length := by
  obtain ⟨found, hf, hr⟩ := rest_of_read? h
  obtain ⟨hpos, hne⟩ := consumes _ _ hf
  have hlen := List.length_pos_iff.2 hne
  rw [hr, List.length_drop]
  omega

theorem length_rest_beginLine (lexer : Lexer) :
    lexer.beginLine.cursor.rest.length ≤ lexer.cursor.rest.length := by
  have htake (length : Nat) :
      (lexer.take length).cursor.rest.length ≤ lexer.cursor.rest.length := by
    simp [take, Cursor.take, Cursor.commit]
  simp only [beginLine]
  split
  · exact htake _
  · split <;> exact htake _

theorem rank_of_nextMode {lexer : Lexer} {mode : Mode} (h : lexer.nextMode = .ok mode) :
    mode.rank = 0 := by
  unfold nextMode at h
  repeat' split at h
  all_goals first
    | (obtain rfl := Except.ok.inj h; rfl)
    | simp at h

end Lexer

theorem length_rest_of_continueIn {scope : Scope} {cursor : Cursor} {mode next : Mode}
    {result : Except LexFailure Lexer} {lexer after : Lexer}
    (h : scope.continueIn cursor mode result = .ok (some (next, after)))
    (shorter : ∀ found, result = .ok found →
      found.cursor.rest.length < lexer.cursor.rest.length) :
    after.cursor.rest.length < lexer.cursor.rest.length ∧ next = mode := by
  unfold Scope.continueIn at h
  split at h
  · next found =>
    simp only [Except.ok.injEq, Option.some.injEq, Prod.mk.injEq] at h
    exact ⟨h.2 ▸ shorter found rfl, h.1.symm⟩
  · simp at h

namespace Lexer

/-- A piece that is read leaves fewer characters, whatever is done with its value. -/
theorem length_rest_of_readPiece {α : Type} {lexer next : Lexer} {reader : Reader α}
    {fault : LexFault} {use : α → Lexer → Lexer} (h : lexer.readPiece reader fault use = .ok next)
    (consumes : Token.Consumes reader)
    (stays : ∀ value found, (use value found).cursor = found.cursor) :
    next.cursor.rest.length < lexer.cursor.rest.length := by
  unfold readPiece at h
  split at h
  · obtain rfl := Except.ok.inj h
    rw [stays]
    exact length_rest_of_read? consumes ‹_›
  · simp at h

theorem length_rest_of_readDoubleQuote {lexer next : Lexer}
    (h : lexer.readDoubleQuote = .ok next) :
    next.cursor.rest.length < lexer.cursor.rest.length := by
  unfold readDoubleQuote at h
  split at h
  · next hr =>
    obtain rfl := Except.ok.inj h
    have hlt := length_rest_of_read? Token.consumes_emptyQuotes hr
    exact hlt
  · exact length_rest_of_readPiece h Token.consumes_doubleQuote fun _ _ => rfl

theorem length_rest_of_readReference {scope : Scope} {lexer next : Lexer}
    {session after : Session} (h : lexer.readReference scope session = (.ok next, after)) :
    next.cursor.rest.length < lexer.cursor.rest.length := by
  unfold readReference at h
  split at h
  · simp at h
  · next reference found hr =>
    have hlt := length_rest_of_read? Token.consumes_reference hr
    split at h
    · simp only [Prod.mk.injEq, Except.ok.injEq] at h
      exact h.1 ▸ hlt
    · simp only [Prod.mk.injEq, Except.ok.injEq] at h
      exact h.1 ▸ hlt
    · obtain ⟨_, -, rfl⟩ := Evaluation.map_eq_ok h
      exact hlt

theorem length_rest_of_readLineEnd {scope : Scope} {reader : Reader Unit} {lexer next : Lexer}
    {session after : Session} (consumes : Token.Consumes reader)
    (h : lexer.readLineEnd scope reader session = (.ok next, after)) :
    next.cursor.rest.length < lexer.cursor.rest.length := by
  unfold readLineEnd at h
  split at h
  · simp at h
  · next found hr =>
    obtain ⟨_, -, rfl⟩ := Evaluation.map_eq_ok h
    have hlt := length_rest_of_read? consumes hr
    exact hlt

/-- Every step lowers the weight. -/
theorem weight_lt_of_step {scope : Scope} {mode next : Mode} {lexer after : Lexer}
    {session last : Session}
    (h : step scope mode lexer session = (.ok (some (next, after)), last)) :
    after.weight next < lexer.weight mode := by
  have hpiece (hlt : after.cursor.rest.length < lexer.cursor.rest.length) :
      after.weight next < lexer.weight mode := by
    have hrank : next.rank ≤ 2 := by cases next <;> simp [Mode.rank]
    unfold weight
    omega
  cases mode with
  | beginOfLine =>
    simp only [step, Prod.mk.injEq, Except.ok.injEq, Option.some.injEq] at h
    obtain ⟨⟨rfl, rfl⟩, -⟩ := h
    have hle := length_rest_beginLine lexer
    simp only [weight, Mode.rank]
    omega
  | dispatch =>
    simp only [step] at h
    split at h
    · next mode hm =>
      simp only [Prod.mk.injEq, Except.ok.injEq, Option.some.injEq] at h
      obtain ⟨⟨rfl, rfl⟩, -⟩ := h
      have hrank := rank_of_nextMode hm
      simp only [weight, hrank]
      simp only [Mode.rank]
      omega
    · simp at h
  | bareText =>
    simp only [step, Prod.mk.injEq] at h
    exact hpiece (length_rest_of_continueIn h.1 fun _ hr =>
      length_rest_of_readPiece hr (Token.consumes_run _) fun _ _ => rfl).1
  | quotedText =>
    simp only [step, Prod.mk.injEq] at h
    exact hpiece (length_rest_of_continueIn h.1 fun _ hr =>
      length_rest_of_readPiece hr (Token.consumes_run _) fun _ _ => rfl).1
  | whiteSpace =>
    simp only [step, Prod.mk.injEq] at h
    exact hpiece (length_rest_of_continueIn h.1 fun _ hr =>
      length_rest_of_readPiece hr Token.consumes_separator fun _ _ => rfl).1
  | backslash =>
    simp only [step, Prod.mk.injEq] at h
    refine hpiece (length_rest_of_continueIn h.1 fun _ hr =>
      length_rest_of_readPiece hr Token.consumes_escaped ?_).1
    rintro (_ | c) found
    · change (if lexer.inQuotes then found else found.endWord).cursor = found.cursor
      split <;> rfl
    · rfl
  | singleQuoted =>
    simp only [step, Prod.mk.injEq] at h
    exact hpiece (length_rest_of_continueIn h.1 fun _ hr =>
      length_rest_of_readPiece hr Token.consumes_singleQuoted fun _ _ => rfl).1
  | doubleQuote =>
    simp only [step, Prod.mk.injEq] at h
    exact hpiece (length_rest_of_continueIn h.1 fun _ => length_rest_of_readDoubleQuote).1
  | reference =>
    simp only [step] at h
    obtain ⟨found, hf, he⟩ := Evaluation.map_eq_ok h
    simp only [Option.some.injEq, Prod.mk.injEq] at he
    obtain ⟨rfl, rfl⟩ := he
    exact hpiece (length_rest_of_readReference hf)
  | comment =>
    simp only [step] at h
    obtain ⟨found, hf, he⟩ := Evaluation.map_eq_ok h
    simp only [Option.some.injEq, Prod.mk.injEq] at he
    obtain ⟨rfl, rfl⟩ := he
    exact hpiece (length_rest_of_readLineEnd Token.consumes_comment hf)
  | lineBreak =>
    simp only [step] at h
    obtain ⟨found, hf, he⟩ := Evaluation.map_eq_ok h
    simp only [Option.some.injEq, Prod.mk.injEq] at he
    obtain ⟨rfl, rfl⟩ := he
    exact hpiece (length_rest_of_readLineEnd Token.consumes_lineEnds hf)
  | finish =>
    simp only [step] at h
    obtain ⟨_, -, he⟩ := Evaluation.map_eq_ok h
    simp at he

/-- Takes steps until the text ends or an error arises. -/
def run (scope : Scope) (mode : Mode) (lexer : Lexer) : Evaluation Unit := fun session =>
  match _h : step scope mode lexer session with
  | (.ok (some (next, after)), session) => run scope next after session
  | (.ok none, session) => (.ok (), session)
  | (.error error, session) => (.error error, session)
termination_by lexer.weight mode
decreasing_by exact weight_lt_of_step _h

/-! ## One step of a run -/

section Unfold
variable {scope : Scope} {mode next : Mode} {lexer after : Lexer} {session last : Session}

theorem run_of_step (h : step scope mode lexer session = (.ok (some (next, after)), last)) :
    run scope mode lexer session = run scope next after last := by
  rw [run]
  split <;> simp_all

theorem run_of_step_none (h : step scope mode lexer session = (.ok none, last)) :
    run scope mode lexer session = (.ok (), last) := by
  rw [run]
  split <;> simp_all

theorem run_of_step_error {error : Error}
    (h : step scope mode lexer session = (.error error, last)) :
    run scope mode lexer session = (.error error, last) := by
  rw [run]
  split <;> simp_all

theorem run_beginOfLine :
    run scope .beginOfLine lexer session = run scope .dispatch lexer.beginLine session :=
  run_of_step rfl

theorem run_dispatch (h : lexer.nextMode = .ok mode) :
    run scope .dispatch lexer session = run scope mode lexer session :=
  run_of_step (by simp only [step, h])

theorem run_dispatch_error {failure : LexFailure} (h : lexer.nextMode = .error failure) :
    run scope .dispatch lexer session =
      (.error (scope.lexError lexer.cursor failure), session) :=
  run_of_step_error (by simp only [step, h])

end Unfold

end Lexer

/-- Evaluates a text from its beginning. -/
def Scope.evaluate (scope : Scope) (text : String) : Evaluation Unit :=
  Lexer.run scope .beginOfLine (.ofText text)

end ShellConfig
