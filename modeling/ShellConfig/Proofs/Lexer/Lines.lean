import ShellConfig.Proofs.Lexer.Following
import ShellConfig.Proofs.Lexer.Reading

/-!
Texts line by line. Main statement: when a text is evaluated to its end, a line feed and more text
after it have the effect of evaluating that text next (`evaluate_append_lineFeed`).
-/

set_option autoImplicit false

namespace ShellConfig

/-! ## Between two lines -/

/-- The reading with which a line begins. -/
def Reading.fresh (rest : List Char) : Reading := ⟨rest, false, none, [], .plain⟩

/-- The reading of the same text with a line feed and more text after it. -/
def Reading.followedBy (reading : Reading) (more : List Char) : Reading :=
  { reading with rest := reading.rest ++ '\n' :: more }

/-- The outcome of evaluating a text, apart from positions. -/
def Scope.readLines (scope : Scope) (text : List Char) (session : Session) : Outcome Unit :=
  Outcome.unplaced (scope.evaluate (String.ofList text) session)

theorem Lexer.reading_ofText (text : String) :
    (Lexer.ofText text).reading = Reading.fresh text.toList := rfl

namespace Scope
open Lexer
variable {scope : Scope} {lexer : Lexer} {s t : Session} {text : List Char}

theorem run_of_fresh (hscope : scope.IgnoresPositions) (h : lexer.reading = Reading.fresh text)
    (hs : s.unplaced = t.unplaced) :
    Outcome.unplaced (run scope .beginOfLine lexer s) = scope.readLines text t := by
  refine run_unplaced hscope .beginOfLine ?_ hs
  rw [h, reading_ofText, String.toList_ofList]

theorem readLines_congr (hscope : scope.IgnoresPositions) (hs : s.unplaced = t.unplaced) :
    scope.readLines text s = scope.readLines text t :=
  run_unplaced hscope .beginOfLine rfl hs

/-- Blank lines at the front of a text have no effect. -/
theorem readLines_drop (s : Session) (hscope : scope.IgnoresPositions) {length : Nat}
    (h : Token.blankLinesLength text = length + Token.blankLinesLength (text.drop length)) :
    scope.readLines (text.drop length) s = scope.readLines text s := by
  have hb := Token.lineBeginning_of_drop h
  have hr : (Lexer.ofText (String.ofList (text.drop length))).beginLine.reading =
      (Lexer.ofText (String.ofList text)).beginLine.reading := by
    rw [reading_beginLine_eq, reading_beginLine_eq, reading_ofText, reading_ofText]
    simp only [Lexer.ofText, Cursor.ofText, String.toList_ofList, hb, List.drop_drop]
    rfl
  unfold readLines evaluate
  rw [run_beginOfLine, run_beginOfLine]
  exact run_unplaced hscope .dispatch hr rfl

theorem readLines_drop_lineEnds (hscope : scope.IgnoresPositions) (text : List Char) :
    scope.readLines (text.drop (Token.lineEndsLength text)) s = scope.readLines text s := by
  refine readLines_drop s hscope ?_
  fun_induction Token.lineEndsLength text with
  | case1 rest ih => rw [Token.blankLinesLength, List.drop_succ_cons, ih]; omega
  | case2 rest ih =>
    rw [Token.blankLinesLength_return, List.drop_succ_cons, List.drop_succ_cons, ih]
    omega
  | case3 => simp

theorem readLines_lineFeed (hscope : scope.IgnoresPositions) (text : List Char) :
    scope.readLines ('\n' :: text) s = scope.readLines text s := by
  have hblank : Token.blankLinesLength ('\n' :: text) =
      1 + Token.blankLinesLength (('\n' :: text).drop 1) := by
    rw [Token.blankLinesLength, List.drop_one, List.tail_cons, Nat.add_comm]
  exact (readLines_drop s hscope hblank).symm

end Scope

/-! ## A piece before a line feed -/

namespace Lexer
open Correspondence

/-- What the mode tells of the state: a line begins with nothing read of it, and a piece is read
where the next character asked for it. -/
def Fits (lexer : Lexer) : Mode → Prop
  | .beginOfLine => lexer.reading = Reading.fresh lexer.cursor.rest
  | .dispatch => True
  | mode => lexer.nextMode = .ok mode

theorem fits_of_nextMode {lexer : Lexer} {mode : Mode} (h : lexer.nextMode = .ok mode) :
    lexer.Fits mode := by
  obtain ⟨hb, hd⟩ := nextMode_ne h
  cases mode <;> first | exact h | contradiction

theorem inQuotes_of_quotedText {lexer : Lexer} (h : lexer.nextMode = .ok .quotedText) :
    lexer.inQuotes = true := by
  rw [nextMode_eq] at h
  unfold inQuotes
  cases hq : lexer.quote with
  | some start => rfl
  | none =>
    rw [hq] at h
    cases hr : lexer.cursor.rest with
    | nil => rw [hr] at h; cases h
    | cons c rest =>
      rw [hr] at h
      exact absurd (Except.ok.inj h) (outsideQuotes_ne c).1

theorem inQuotes_of_ends {lexer : Lexer} {mode : Mode} {reader : Reader Unit}
    (hm : mode.ends? = some reader) (h : lexer.nextMode = .ok mode) : lexer.inQuotes = false := by
  rw [nextMode_eq] at h
  unfold inQuotes
  cases hq : lexer.quote with
  | none => rfl
  | some start =>
    rw [hq] at h
    cases hr : lexer.cursor.rest with
    | nil => rw [hr] at h; cases h
    | cons c rest =>
      rw [hr] at h
      have hc := Except.ok.inj h
      obtain ⟨hcomment, hbreak, -⟩ := insideQuotes_ne c
      cases mode <;> first | exact absurd hc hcomment | exact absurd hc hbreak | cases hm

/-- A scan that succeeds does not stand at the end of an open quote, or before a last backslash. -/
theorem rest_of_run_eq_ok {scope : Scope} {lexer : Lexer} {session last : Session}
    (h : run scope .dispatch lexer session = (.ok (), last)) :
    (lexer.inQuotes = true → lexer.cursor.rest ≠ []) ∧ lexer.cursor.rest ≠ ['\\'] := by
  constructor
  · intro hq hr
    obtain ⟨start, hs⟩ := Option.isSome_iff_exists.1 hq
    have hm : lexer.nextMode = .error ⟨.unterminatedDoubleQuote, start⟩ := by
      rw [nextMode_eq, hs, hr]
    rw [run_dispatch_error hm] at h
    cases h
  · intro hr
    have hm : lexer.nextMode = .ok .backslash := by
      rw [nextMode_eq, hr]
      cases lexer.quote <;> rfl
    have he : lexer.readEscaped = .error (lexer.failure .danglingBackslash) := by
      rw [readEscaped_eq, hr]
      rfl
    rw [run_dispatch hm, run_of_step_error (by rw [step, he]; rfl)] at h
    cases h

theorem rest_of_readSeparator {lexer after : Lexer} (h : lexer.readSeparator = .ok after) :
    after.cursor.rest = lexer.cursor.rest.drop (Token.separatorLength lexer.cursor.rest) := by
  obtain ⟨found, hf, rfl⟩ := readPiece_eq_ok h
  rw [Token.separator] at hf
  split at hf
  · cases hf
  · obtain rfl := Option.some.inj hf
    rfl

section Followed
variable {left right after : Lexer} {more : List Char}

theorem piece_eq_ok {found : Except LexFailure Lexer} {reading : Reading}
    (h : piece found = .ok reading) : ∃ lexer, found = .ok lexer ∧ lexer.reading = reading := by
  cases found with
  | error failure => cases h
  | ok lexer => exact ⟨lexer, rfl, Except.ok.inj h⟩

theorem drop_followedBy {length : Nat} (h : length ≤ left.cursor.rest.length) :
    { left.reading.followedBy more with
        rest := (left.reading.followedBy more).rest.drop length } =
      { left.reading with rest := left.reading.rest.drop length }.followedBy more := by
  have hd : (left.cursor.rest ++ '\n' :: more).drop length =
      left.cursor.rest.drop length ++ '\n' :: more := List.drop_append_of_le_length h
  simp only [Reading.followedBy]
  exact congrArg (fun rest : List Char => { left.reading with rest }) hd

section
variable (hr : right.reading = left.reading.followedBy more)
include hr

theorem rest_followedBy : right.cursor.rest = left.cursor.rest ++ '\n' :: more :=
  congrArg Reading.rest hr

theorem take_followedBy {length : Nat} (h : length ≤ left.cursor.rest.length) :
    (right.take length).reading = (left.take length).reading.followedBy more := by
  rw [reading_take, hr, drop_followedBy h, reading_take]

theorem addText_followedBy (start other : Nat) (text : String) :
    (right.addText other text).reading = (left.addText start text).reading.followedBy more := by
  rw [reading_addText, reading_addText, hr]
  rfl

theorem endWord_followedBy : right.endWord.reading = left.endWord.reading.followedBy more := by
  rw [reading_endWord, reading_endWord, hr]
  rfl

/-- A piece that is the same when a line feed follows leaves scans that differ by what follows, if
what is done with its value does. -/
theorem piece_readPiece_followedBy {α : Type} {reader : Reader α} {fault : LexFault}
    {use other : α → Lexer → Lexer}
    (hk : Token.Keeps reader left.cursor.rest ('\n' :: more))
    (h : left.readPiece reader fault use = .ok after)
    (huse : ∀ value (next longer : Lexer), longer.reading = next.reading.followedBy more →
      (other value longer).reading = (use value next).reading.followedBy more) :
    piece (right.readPiece reader fault other) = .ok (after.reading.followedBy more) := by
  obtain ⟨found, hf, rfl⟩ := readPiece_eq_ok h
  obtain ⟨ha, hle⟩ := hk found hf
  rw [readPiece_eq, rest_followedBy hr, ha]
  exact congrArg Except.ok (huse found.value _ _ (take_followedBy hr hle))

theorem piece_readDoubleQuote_followedBy (h : left.readDoubleQuote = .ok after) :
    piece right.readDoubleQuote = .ok (after.reading.followedBy more) := by
  have hq : right.inQuotes = left.inQuotes := congrArg Reading.inQuotes hr
  have hrest := rest_followedBy hr
  rw [readDoubleQuote_eq] at h
  split at h
  · next tail hi hl =>
    obtain rfl := Except.ok.inj h
    have ht := take_followedBy hr (show 1 ≤ left.cursor.rest.length by rw [hl]; simp)
    rw [hl, List.cons_append] at hrest
    rw [readDoubleQuote_closes (hq.trans hi) hrest]
    simp only [piece, reading_quote, ht]
    rfl
  · next tail hi hl =>
    obtain rfl := Except.ok.inj h
    have ht := take_followedBy hr (show 2 ≤ left.cursor.rest.length by rw [hl]; simp)
    rw [hl, List.cons_append, List.cons_append] at hrest
    rw [readDoubleQuote_empty (hq.trans hi) hrest]
    simp only [piece, reading_addText, ht]
    rfl
  · next tail hno hi hl =>
    obtain rfl := Except.ok.inj h
    have ht := take_followedBy hr (show 1 ≤ left.cursor.rest.length by rw [hl]; simp)
    have hne : (tail ++ '\n' :: more).head? ≠ some '"' := by
      rcases tail with _ | ⟨d, tail⟩
      · simp
      · intro hd
        exact hno tail (by rw [Option.some.inj hd])
    rw [hl, List.cons_append] at hrest
    rw [readDoubleQuote_opens (hq.trans hi) hrest hne]
    simp only [piece, reading_quote, ht]
    rfl
  · cases h

/-- A piece of a text whose scan goes on to its end is the same when a line feed follows. -/
theorem piece_followedBy {mode : Mode} {read : Lexer → Except LexFailure Lexer}
    (hm : mode.reads? = some read) (hfits : left.Fits mode)
    (hcr : ¬ ['\r'] <:+ left.cursor.rest) (h : read left = .ok after)
    (hopen : after.inQuotes = true → after.cursor.rest ≠ []) (hlast : after.cursor.rest ≠ ['\\']) :
    piece (read right) = .ok (after.reading.followedBy more) := by
  have hadded (text : String) (next longer : Lexer)
      (hn : longer.reading = next.reading.followedBy more) :
      (longer.addText right.cursor.start text).reading =
        (next.addText left.cursor.start text).reading.followedBy more :=
    addText_followedBy hn _ _ text
  cases mode <;> cases hm
  case bareText => exact piece_readPiece_followedBy hr (Token.keeps_run (by decide) _ _) h hadded
  case quotedText =>
    -- a run up to the end of the text would leave the quote open
    refine piece_readPiece_followedBy hr (Token.keeps_run_of_not_all ?_ _) h hadded
    rw [← Bool.not_eq_true]
    intro hall
    obtain ⟨found, hf, rfl⟩ := readPiece_eq_ok h
    have hlen := Token.length_run_of_all hall hf
    have hq : left.inQuotes = true := inQuotes_of_quotedText hfits
    exact hopen hq (List.drop_eq_nil_of_le (Nat.le_of_eq hlen.symm))
  case whiteSpace =>
    have hrest : after.cursor.rest =
        left.cursor.rest.drop (Token.separatorLength left.cursor.rest) := rest_of_readSeparator h
    refine piece_readPiece_followedBy hr (Token.keeps_separator more ?_ ?_) h
      fun _ _ _ hn => endWord_followedBy hn
    · rwa [← hrest]
    · intro he
      have hs : ['\r'] <:+ ['\\', '\r'] := List.suffix_cons _ _
      exact hcr (hs.trans (he ▸ List.drop_suffix _ _))
  case backslash =>
    have hk : Token.Keeps Token.escaped left.cursor.rest ('\n' :: more) := by
      refine Token.keeps_escaped more ?_
      intro he
      exact hcr (by rw [he]; exact List.suffix_cons _ _)
    refine piece_readPiece_followedBy hr hk h ?_
    have hq : right.inQuotes = left.inQuotes := congrArg Reading.inQuotes hr
    rintro (_ | c) next longer hn
    · change reading (if right.inQuotes then _ else _) =
        (reading (if left.inQuotes then _ else _)).followedBy more
      rw [hq]
      split
      · exact hn
      · exact endWord_followedBy hn
    · exact hadded _ next longer hn
  case singleQuoted =>
    exact piece_readPiece_followedBy hr (Token.keeps_singleQuoted _ ('\n' :: more)) h hadded
  case doubleQuote => exact piece_readDoubleQuote_followedBy hr h

theorem readReference_followedBy {scope : Scope} {s t last : Session}
    (h : left.readReference scope s = (.ok after, last)) (hs : s.unplaced = t.unplaced) :
    ∃ found finish, right.readReference scope t = (.ok found, finish) ∧
      found.reading = after.reading.followedBy more ∧ last.unplaced = finish.unplaced := by
  have hq : right.inQuotes = left.inQuotes := congrArg Reading.inQuotes hr
  have hc : t.config = s.config := (Session.unplaced_eq_iff.1 hs).1.symm
  rw [readReference_eq] at h
  rw [readReference_eq, rest_followedBy hr, hq, hc]
  cases hf : Token.reference left.cursor.rest with
  | none => rw [hf] at h; cases h
  | some found =>
    obtain ⟨ha, hle⟩ :=
      Token.keeps_reference (d := '\n') (by decide) left.cursor.rest more found hf
    rw [hf] at h
    rw [ha]
    simp only at h ⊢
    have ht := take_followedBy hr hle
    cases he : s.config.expand found.value left.inQuotes with
    | undefined =>
      rw [he] at h
      simp only [Evaluation.map, Scope.undefinedVariable] at h ⊢
      cases hu : scope.undefined with
      | warn =>
        rw [hu] at h
        obtain ⟨hl, rfl⟩ := Prod.mk.inj h
        obtain rfl := Except.ok.inj hl
        exact ⟨_, _, rfl, ht, Session.unplaced_warn hs rfl⟩
      | refuse => rw [hu] at h; cases h
    | joined text =>
      rw [he] at h
      obtain ⟨hl, rfl⟩ := Prod.mk.inj h
      obtain rfl := Except.ok.inj hl
      refine ⟨_, _, rfl, ?_, hs⟩
      simp only [reading_addText, ht]
      rfl
    | words values =>
      rw [he] at h
      obtain ⟨hl, rfl⟩ := Prod.mk.inj h
      obtain rfl := Except.ok.inj hl
      refine ⟨_, _, rfl, ?_, hs⟩
      simp only [reading_addWords, ht]
      rfl

/-- The end of a line, when a line feed and more text follow. -/
theorem readLineEnd_followedBy {scope : Scope} {reader : Reader Unit} {s t last : Session}
    (hscope : scope.IgnoresPositions) (hk : Token.Closes reader left.cursor.rest more)
    (hq : left.inQuotes = false)
    (h : left.readLineEnd scope reader s = (.ok after, last)) (hs : s.unplaced = t.unplaced) :
    ∃ found finish, right.readLineEnd scope reader t = (.ok found, finish) ∧
      last.unplaced = finish.unplaced ∧
      (if after.cursor.rest = [] then found.reading = Reading.fresh
          (('\n' :: more).drop (Token.lineEndsLength ('\n' :: more)))
        else found.reading = after.reading.followedBy more) := by
  rw [readLineEnd_eq] at h
  rw [readLineEnd_eq, rest_followedBy hr]
  cases hf : reader left.cursor.rest with
  | none => rw [hf] at h; cases h
  | some found =>
    obtain ⟨hle, ha⟩ := hk found hf
    rw [hf] at h
    rw [ha]
    obtain ⟨_, he, rfl⟩ := Evaluation.map_eq_ok h
    generalize hn : (if found.length = left.cursor.rest.length then left.cursor.rest.length +
      Token.lineEndsLength ('\n' :: more) else found.length) = length
    have hw : (left.take found.length).endWord.line = (right.take length).endWord.line :=
      (congrArg (fun lexer : Reading => lexer.line ++ lexer.word.toList) hr).symm
    have hp : (left.take found.length).pending = (right.take length).pending :=
      (congrArg Reading.pending hr).symm
    obtain ⟨finish, hfinish, hlast⟩ := endLine_eq_ok hscope hp hw hs he
    refine ⟨(right.take length).clearLine, finish, ?_, hlast.symm, ?_⟩
    · simp only [Evaluation.map, hfinish, Except.map]
    · have hrest : (left.take found.length).clearLine.cursor.rest =
          left.cursor.rest.drop found.length := rfl
      have hquote : right.inQuotes = false := (congrArg Reading.inQuotes hr).trans hq
      rw [hrest, reading_clearLine, reading_clearLine, ← hn]
      by_cases hall : found.length = left.cursor.rest.length
      · have hd : (left.cursor.rest ++ '\n' :: more).drop (left.cursor.rest.length +
            Token.lineEndsLength ('\n' :: more)) =
            ('\n' :: more).drop (Token.lineEndsLength ('\n' :: more)) := by
          rw [← List.drop_drop, List.drop_left]
        rw [if_pos hall, if_pos (List.drop_eq_nil_of_le (Nat.le_of_eq hall.symm)), reading_take]
        unfold Reading.fresh
        rw [← hd, ← rest_followedBy hr, ← hquote]
        rfl
      · rw [if_neg hall, if_neg (by rw [List.drop_eq_nil_iff]; omega), take_followedBy hr hle]
        rfl

/-- A line that is not blank begins in the same way when a line feed follows. -/
theorem beginLine_followedBy (hcr : ¬ ['\r'] <:+ left.cursor.rest)
    (hblank : Token.blankLinesLength left.cursor.rest ≠ left.cursor.rest.length) :
    right.beginLine.reading = left.beginLine.reading.followedBy more := by
  have hp : right.pending = left.pending := congrArg Reading.pending hr
  obtain ⟨ha, hle⟩ := Token.lineBeginning_append more hcr hblank
  rw [reading_beginLine_eq, reading_beginLine_eq, rest_followedBy hr, ha, hp, hr,
    List.drop_append_of_le_length hle]
  have hhead : (Token.lineBeginning left.cursor.rest).value = none →
      (left.cursor.rest.drop (Token.lineBeginning left.cursor.rest).length ++
        '\n' :: more).head? =
      (left.cursor.rest.drop (Token.lineBeginning left.cursor.rest).length).head? := by
    intro hnone
    have hlt : (Token.lineBeginning left.cursor.rest).length < left.cursor.rest.length := by
      have hb := Token.blankLinesLength_le left.cursor.rest
      unfold Token.lineBeginning at hnone ⊢
      simp only at hnone ⊢
      split at hnone
      · cases hnone
      · exact Nat.lt_of_le_of_ne hb hblank
    have hsome : (left.cursor.rest.drop
        (Token.lineBeginning left.cursor.rest).length).head?.isSome := by
      rw [List.isSome_head?, ne_eq, List.drop_eq_nil_iff]
      omega
    rw [List.head?_append, Option.or_of_isSome hsome]
  cases hv : (Token.lineBeginning left.cursor.rest).value with
  | none => rw [hhead hv]; rfl
  | some found => rfl

theorem nextMode_followedBy {mode : Mode} (h : left.nextMode = .ok mode) (hne : mode ≠ .finish) :
    right.nextMode = .ok mode := by
  have hq : right.quote.isSome = left.quote.isSome := congrArg Reading.inQuotes hr
  rw [nextMode_eq] at h
  rw [nextMode_eq, rest_followedBy hr]
  rcases hrest : left.cursor.rest with _ | ⟨c, rest⟩
  · rw [hrest] at h
    split at h <;> simp_all
  · rw [hrest] at h
    cases hl : left.quote <;> cases hright : right.quote <;> simp_all

end

/-! ## A text before a line feed -/

section
variable {scope : Scope} {s t last : Session}

theorem quote_eq_none (hq : left.inQuotes = false) : left.quote = none := by
  unfold inQuotes at hq
  cases hl : left.quote with
  | none => rfl
  | some start => rw [hl] at hq; cases hq

theorem nextMode_of_lineFeed (hq : left.inQuotes = false)
    (hrest : left.cursor.rest = '\n' :: more) :
    left.nextMode = .ok .lineBreak := by
  rw [nextMode_eq, quote_eq_none hq, hrest]
  rfl

theorem nextMode_eq_finish (h : left.nextMode = .ok .finish) :
    left.inQuotes = false ∧ left.cursor.rest = [] := by
  rw [nextMode_eq] at h
  unfold inQuotes
  cases hq : left.quote <;> cases hrest : left.cursor.rest <;> rw [hq, hrest] at h
  · exact ⟨rfl, rfl⟩
  · exact absurd (Except.ok.inj h) (outsideQuotes_ne _).2
  · cases h
  · exact absurd (Except.ok.inj h) (insideQuotes_ne _).2.2

theorem endLine_of_run_finish (h : run scope .finish left s = (.ok (), last)) :
    left.endLine scope s = (.ok (), last) := by
  cases he : left.endLine scope s with
  | mk result middle =>
    cases result with
    | error error =>
      rw [run_of_step_error (by rw [step, Evaluation.map, he]; rfl)] at h
      cases h
    | ok value =>
      rw [run_of_step_none (by rw [step, Evaluation.map, he]; rfl)] at h
      rw [(Prod.mk.inj h).2]

theorem nextMode_of_reads {mode : Mode} {read : Lexer → Except LexFailure Lexer}
    (hm : mode.reads? = some read) (h : left.Fits mode) : left.nextMode = .ok mode := by
  cases mode <;> cases hm <;> exact h

theorem nextMode_of_ends {mode : Mode} {reader : Reader Unit} (hm : mode.ends? = some reader)
    (h : left.Fits mode) : left.nextMode = .ok mode := by
  cases mode <;> cases hm <;> exact h

theorem closes_of_ends {mode : Mode} {reader : Reader Unit} {text : List Char}
    (hm : mode.ends? = some reader) (more : List Char) (hcr : ¬ ['\r'] <:+ text) :
    Token.Closes reader text more := by
  cases mode <;> cases hm
  · exact Token.closes_comment more hcr
  · exact Token.closes_lineEnds more hcr

theorem reading_of_readLineEnd {reader : Reader Unit} (hq : left.inQuotes = false)
    (h : left.readLineEnd scope reader s = (.ok after, last)) :
    after.reading = Reading.fresh after.cursor.rest := by
  rw [readLineEnd_eq] at h
  split at h
  · cases h
  · obtain ⟨_, -, rfl⟩ := Evaluation.map_eq_ok h
    unfold Reading.fresh
    rw [← hq]
    rfl

theorem endLine_of_fresh (h : left.reading = Reading.fresh []) :
    left.endLine scope s = (.ok (), s) := by
  have hw : left.endWord.line = [] :=
    congrArg (fun reading : Reading => reading.line ++ reading.word.toList) h
  have hp : left.pending = .plain := congrArg Reading.pending h
  rw [endLine, hw, hp]
  rfl

theorem nextMode_of_rest_nil (hq : left.inQuotes = false) (hrest : left.cursor.rest = []) :
    left.nextMode = .ok .finish := by
  rw [nextMode_eq, quote_eq_none hq, hrest]

/-- Nothing is done at the end of a text that is blank. -/
theorem run_blank (scope : Scope) (s : Session)
    (hl : left.reading = Reading.fresh left.cursor.rest)
    (hblank : Token.blankLinesLength left.cursor.rest = left.cursor.rest.length) :
    run scope .beginOfLine left s = (.ok (), s) := by
  have hfresh : left.beginLine.reading = Reading.fresh [] := by
    have hp : left.pending = .plain := congrArg Reading.pending hl
    rw [reading_beginLine_eq, hl]
    simp [Token.lineBeginning, hblank, Token.assignment, Reading.fresh, hp]
  have hm : left.beginLine.nextMode = .ok .finish :=
    nextMode_of_rest_nil (congrArg Reading.inQuotes hfresh) (congrArg Reading.rest hfresh)
  have hend : step scope .finish left.beginLine s = (.ok none, s) := by
    rw [step, Evaluation.map, endLine_of_fresh hfresh]
    rfl
  rw [run_beginOfLine, run_dispatch hm, run_of_step_none hend]

variable (hscope : scope.IgnoresPositions) (hr : right.reading = left.reading.followedBy more)
  (hs : s.unplaced = t.unplaced)
include hscope hr hs

/-- The end of the text, when a line feed and more text follow: the line ends there too. -/
theorem run_lineFeed (hq : left.inQuotes = false) (hrest : left.cursor.rest = [])
    (h : left.endLine scope s = (.ok (), last)) :
    Outcome.unplaced (run scope .dispatch right t) = scope.readLines more last := by
  have hquote : right.inQuotes = false := (congrArg Reading.inQuotes hr).trans hq
  have hright : right.cursor.rest = '\n' :: more := by rw [rest_followedBy hr, hrest]; rfl
  have hm : right.nextMode = .ok .lineBreak := nextMode_of_lineFeed hquote hright
  have hw : left.endWord.line =
      (right.take (Token.lineEndsLength ('\n' :: more))).endWord.line :=
    (congrArg (fun reading : Reading => reading.line ++ reading.word.toList) hr).symm
  have hp : left.pending = (right.take (Token.lineEndsLength ('\n' :: more))).pending :=
    (congrArg Reading.pending hr).symm
  obtain ⟨finish, hfinish, hlast⟩ := endLine_eq_ok hscope hp hw hs h
  have hread : right.readLineEnd scope Token.lineEnds t =
      (.ok (right.take (Token.lineEndsLength ('\n' :: more))).clearLine, finish) := by
    rw [readLineEnd_eq, hright, Token.lineEnds_lineFeed]
    simp only [Evaluation.map, hfinish, Except.map]
  have hfresh : (right.take (Token.lineEndsLength ('\n' :: more))).clearLine.reading =
      Reading.fresh (('\n' :: more).drop (Token.lineEndsLength ('\n' :: more))) := by
    rw [reading_clearLine, reading_take]
    unfold Reading.fresh
    rw [← hright, ← hquote]
    rfl
  rw [run_dispatch hm, run_of_step (by rw [step, Evaluation.map, hread]; rfl),
    Scope.run_of_fresh hscope hfresh hlast, Scope.readLines_drop_lineEnds hscope,
    Scope.readLines_lineFeed hscope]

/-- The blanks at the end of a text and the lines that follow are read in one piece. -/
theorem run_followedBy_of_blank (hl : left.reading = Reading.fresh left.cursor.rest)
    (hblank : Token.blankLinesLength left.cursor.rest = left.cursor.rest.length)
    (hcr : ¬ ['\r'] <:+ left.cursor.rest) :
    Outcome.unplaced (run scope .beginOfLine right t) = scope.readLines more s := by
  have hright : right.reading = Reading.fresh (left.cursor.rest ++ '\n' :: more) := by
    rw [hr, hl]
    rfl
  have hlength : Token.blankLinesLength (left.cursor.rest ++ '\n' :: more) =
      left.cursor.rest.length + Token.blankLinesLength
        ((left.cursor.rest ++ '\n' :: more).drop left.cursor.rest.length) := by
    rw [Token.blankLinesLength_append more hcr, if_pos hblank, List.drop_left]
  have hdrop := Scope.readLines_drop s hscope hlength
  rw [List.drop_left] at hdrop
  rw [Scope.run_of_fresh hscope hright hs.symm, ← hdrop, Scope.readLines_lineFeed hscope]

end

/-- A scan that comes to the end of the text goes on with the text after a line feed as if it began
there. The induction is on the run, and a state and its next mode fit together at every step. -/
theorem run_followedBy {scope : Scope} {mode : Mode} {s t last : Session}
    (hscope : scope.IgnoresPositions) (hne : mode ≠ .finish) (hfits : left.Fits mode)
    (hcr : ¬ ['\r'] <:+ left.cursor.rest) (hr : right.reading = left.reading.followedBy more)
    (hs : s.unplaced = t.unplaced) (h : run scope mode left s = (.ok (), last)) :
    Outcome.unplaced (run scope mode right t) = scope.readLines more last := by
  fun_induction run scope mode left s generalizing right t with
  | case1 mode left s next after middle hstep ih =>
    have hcrAfter : ¬ ['\r'] <:+ after.cursor.rest := fun hc => hcr (hc.trans (rest_of_step hstep))
    obtain ⟨rfl, rfl, rfl, rfl⟩ | ⟨rfl, hm, rfl, rfl⟩ | ⟨read, hm, rfl, hread, rfl⟩ |
      ⟨rfl, rfl, hread⟩ | ⟨reader, hm, rfl, hread⟩ := step_cases hstep
    · by_cases hblank : Token.blankLinesLength left.cursor.rest = left.cursor.rest.length
      · have hrun := run_blank scope middle hfits hblank
        rw [run_beginOfLine, h] at hrun
        obtain rfl : last = middle := (Prod.mk.inj hrun).2
        exact run_followedBy_of_blank hscope hr hs hfits hblank hcr
      · rw [run_beginOfLine]
        exact ih (by decide) trivial hcrAfter (beginLine_followedBy hr hcr hblank) hs h
    · by_cases hfinish : next = .finish
      · subst hfinish
        obtain ⟨hq, hrest⟩ := nextMode_eq_finish hm
        exact run_lineFeed hscope hr hs hq hrest (endLine_of_run_finish h)
      · rw [run_dispatch (nextMode_followedBy hr hm hfinish)]
        exact ih hfinish (fits_of_nextMode hm) hcr hr hs h
    · obtain ⟨hopen, hlast⟩ := rest_of_run_eq_ok h
      obtain ⟨found, hf, hfound⟩ :=
        piece_eq_ok (piece_followedBy hr hm hfits hcr hread hopen hlast)
      rw [run_of_step (by rw [step_of_reads hm, hf]; rfl)]
      exact ih (by decide) trivial hcrAfter hfound hs h
    · obtain ⟨found, finish, hf, hfound, hfinish⟩ := readReference_followedBy hr hread hs
      rw [run_of_step (by rw [step, Evaluation.map, hf]; rfl)]
      exact ih (by decide) trivial hcrAfter hfound hfinish h
    · have hq : left.inQuotes = false := inQuotes_of_ends hm (nextMode_of_ends hm hfits)
      have hafter := reading_of_readLineEnd hq hread
      obtain ⟨found, finish, hf, hfinish, hfound⟩ :=
        readLineEnd_followedBy hr hscope (closes_of_ends hm more hcr) hq hread hs
      rw [run_of_step (by rw [step_of_ends hm, Evaluation.map, hf]; rfl)]
      split at hfound
      · next hrest =>
        have hrun := run_blank scope middle hafter (by rw [hrest]; rfl)
        rw [h] at hrun
        obtain rfl : last = middle := (Prod.mk.inj hrun).2
        rw [Scope.run_of_fresh hscope hfound hfinish.symm, Scope.readLines_drop_lineEnds hscope,
          Scope.readLines_lineFeed hscope]
      · exact ih (by decide) hafter hcrAfter hfound hfinish h
  | case2 mode left s middle hstep => exact absurd (step_eq_none hstep).1 hne
  | case3 mode left s error middle hstep => cases h

end Followed

end Lexer

/-- When a text is evaluated to its end, a line feed and more text after it have the effect of
evaluating that text next, apart from positions. -/
theorem Scope.evaluate_append_lineFeed {scope : Scope} {text : List Char} (more : List Char)
    {session last : Session} (hscope : scope.IgnoresPositions) (hcr : ¬ ['\r'] <:+ text)
    (h : scope.evaluate (String.ofList text) session = (.ok (), last)) :
    scope.readLines (text ++ '\n' :: more) session = scope.readLines more last := by
  have hrest : (Lexer.ofText (String.ofList text)).cursor.rest = text := String.toList_ofList
  refine Lexer.run_followedBy hscope (by decide) ?_ (by rwa [hrest]) ?_ rfl h
  · rfl
  · rw [Lexer.reading_ofText, Lexer.reading_ofText, String.toList_ofList, String.toList_ofList]
    rfl

theorem Scope.readLines_append {scope : Scope} {text more : List Char} {session after : Session}
    (hscope : scope.IgnoresPositions) (hcr : ¬ ['\r'] <:+ text)
    (h : scope.readLines text session = Outcome.unplaced (.ok (), after)) :
    scope.readLines (text ++ '\n' :: more) session = scope.readLines more after := by
  obtain ⟨last, hlast, hafter⟩ := Outcome.eq_ok_of_unplaced h
  rw [evaluate_append_lineFeed more hscope hcr hlast, readLines_congr hscope hafter]

theorem Scope.readLines_nil (scope : Scope) (session : Session) :
    scope.readLines [] session = Outcome.unplaced (.ok (), session) := by
  have hrun : Lexer.run scope .beginOfLine (.ofText (String.ofList [])) session = (.ok (), session) :=
    Lexer.run_blank scope session rfl rfl
  rw [readLines, evaluate, hrun]

end ShellConfig
