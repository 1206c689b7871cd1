import ShellConfig.Proofs.Lexer.Cut
import ShellConfig.Proofs.Lexer.LineOperation

/-!
A comment at the end of a text. Where a text can end a `#` begins a comment, whatever was read last,
and the comment takes in all that follows up to a line feed. So a text that is evaluated to its end is
evaluated alike, step by step, with a comment after it (`run_withMore`).
-/

set_option autoImplicit false

namespace ShellConfig

/-! ## Pieces before a number sign -/

namespace Token

theorem separatorLength_append_hash (text more : List Char) :
    separatorLength (text ++ '#' :: more) = separatorLength text := by
  fun_induction separatorLength text with
  | case1 => rfl
  | case2 rest ih => rw [List.cons_append, List.cons_append, separatorLength, ih]
  | case3 rest ih => simp only [List.cons_append, separatorLength, ih]
  | case4 c rest _ _ hc ih => rw [List.cons_append, separatorLength_blank hc, ih]
  | case5 c rest hlf hcrlf hc =>
    rw [List.cons_append, separatorLength, if_neg hc]
    · rintro tail rfl heq
      rcases rest with _ | ⟨d, rest⟩
      · cases heq
      · obtain ⟨rfl, -⟩ := List.cons.inj heq
        exact hlf rest rfl rfl
    · rintro tail rfl heq
      rcases rest with _ | ⟨d, _ | ⟨e, rest⟩⟩
      · cases heq
      · cases heq
      · obtain ⟨rfl, hnext⟩ := List.cons.inj heq
        obtain ⟨rfl, -⟩ := List.cons.inj hnext
        exact hcrlf rest rfl rfl

theorem lineEndsLength_append_hash (text more : List Char) :
    lineEndsLength (text ++ '#' :: more) = lineEndsLength text := by
  fun_induction lineEndsLength text with
  | case1 rest ih => rw [List.cons_append, lineEndsLength, ih]
  | case2 rest ih => rw [List.cons_append, List.cons_append, lineEndsLength_return, ih]
  | case3 text hlf hcrlf =>
    rw [lineEndsLength]
    · intro rest heq
      rcases text with _ | ⟨c, text⟩
      · cases heq
      · obtain ⟨rfl, -⟩ := List.cons.inj heq
        exact hlf text rfl
    · intro rest heq
      rcases text with _ | ⟨c, _ | ⟨d, text⟩⟩
      · cases heq
      · cases heq
      · obtain ⟨rfl, hnext⟩ := List.cons.inj heq
        obtain ⟨rfl, -⟩ := List.cons.inj hnext
        exact hcrlf text rfl

theorem blankLinesLength_append_hash (text more : List Char) :
    blankLinesLength (text ++ '#' :: more) = blankLinesLength text := by
  fun_induction blankLinesLength text with
  | case1 => rfl
  | case2 rest ih => rw [List.cons_append, blankLinesLength, ih]
  | case3 rest ih => rw [List.cons_append, List.cons_append, blankLinesLength_return, ih]
  | case4 c rest _ _ hc ih => rw [List.cons_append, blankLinesLength_blank hc, ih]
  | case5 c rest hlf hcrlf hc =>
    rw [List.cons_append, blankLinesLength, if_neg hc]
    · exact hlf
    · rintro tail rfl heq
      rcases rest with _ | ⟨d, rest⟩
      · cases heq
      · obtain ⟨rfl, -⟩ := List.cons.inj heq
        exact hcrlf rest rfl rfl

theorem endsAssignment_hash : EndsAssignment '#' := ⟨by decide, by decide, by decide⟩

/-- A number sign belongs to nothing that a line begins with. -/
theorem lineBeginning_append_hash (text more : List Char) :
    lineBeginning (text ++ '#' :: more) = lineBeginning text ∧
      (lineBeginning text).length ≤ text.length := by
  have hle := blankLinesLength_le text
  unfold lineBeginning
  simp only [blankLinesLength_append_hash, List.drop_append_of_le_length hle,
    assignment_append endsAssignment_hash]
  refine ⟨trivial, ?_⟩
  cases hfound : assignment (text.drop (blankLinesLength text)) with
  | none => exact hle
  | some found =>
    have hlength := assignment_length_le hfound
    rw [List.length_drop] at hlength
    simp only
    omega

theorem keeps_separator_hash (text more : List Char) : Keeps separator text ('#' :: more) := by
  intro found hfound
  have hle := separatorLength_le text
  refine ⟨by rw [← hfound, separator, separator, separatorLength_append_hash], ?_⟩
  unfold separator at hfound
  split at hfound
  · cases hfound
  · obtain rfl := Option.some.inj hfound
    exact hle

theorem keeps_escaped_hash (text more : List Char) : Keeps escaped text ('#' :: more) := by
  intro found hfound
  unfold escaped at hfound
  split at hfound
  · obtain rfl := Option.some.inj hfound
    exact ⟨rfl, by simp⟩
  · obtain rfl := Option.some.inj hfound
    exact ⟨rfl, by simp⟩
  · next c rest hlf hcrlf =>
    obtain rfl := Option.some.inj hfound
    refine ⟨?_, by simp⟩
    rw [List.cons_append, List.cons_append, escaped]
    · exact hlf
    · rintro tail rfl heq
      rcases rest with _ | ⟨d, rest⟩
      · cases heq
      · obtain ⟨rfl, -⟩ := List.cons.inj heq
        exact hcrlf rest rfl rfl
  · cases hfound

theorem keeps_lineEnds_hash (text more : List Char) : Keeps lineEnds text ('#' :: more) := by
  intro found hfound
  have hle := lineEndsLength_le text
  refine ⟨by rw [← hfound, lineEnds, lineEnds, lineEndsLength_append_hash], ?_⟩
  unfold lineEnds at hfound
  split at hfound
  · cases hfound
  · obtain rfl := Option.some.inj hfound
    exact hle

/-- A comment without a line feed takes in the whole text. -/
theorem comment_of_not_mem {body : List Char} (h : '\n' ∉ body) :
    comment ('#' :: body) = some ⟨('#' :: body).length, ()⟩ := by
  have hbody : body.takeWhile (· ≠ '\n') = body := by
    refine List.takeWhile_eq_self_iff.2 fun c hc => ?_
    refine decide_eq_true ?_
    rintro rfl
    exact h hc
  rw [comment]
  simp only [hbody, List.drop_length, lineEndsLength, List.length_cons]
  rw [Nat.add_zero, Nat.add_comm]

/-- A comment ends within the text, or goes on to its end and beyond. -/
theorem keeps_comment_hash (text more : List Char) :
    Keeps comment text ('#' :: more) ∨ '\n' ∉ text := by
  by_cases hmem : '\n' ∈ text
  · left
    intro found hfound
    unfold comment at hfound
    split at hfound
    · next rest =>
      obtain rfl := Option.some.inj hfound
      have hle := length_takeWhile_le (· ≠ '\n') rest
      have hends := lineEndsLength_le (rest.drop (rest.takeWhile (· ≠ '\n')).length)
      have hbody : (rest ++ '#' :: more).takeWhile (· ≠ '\n') = rest.takeWhile (· ≠ '\n') := by
        have hall : rest.takeWhile (· ≠ '\n') ≠ rest := by
          intro hself
          have hlineFeed : '\n' ∈ rest := by simpa using hmem
          simpa using List.takeWhile_eq_self_iff.1 hself '\n' hlineFeed
        rw [List.takeWhile_append, if_neg]
        exact fun hlength => hall ((List.takeWhile_prefix _).eq_of_length hlength)
      refine ⟨?_, ?_⟩
      · rw [List.cons_append, comment]
        simp only [hbody, List.drop_append_of_le_length hle, lineEndsLength_append_hash]
      · rw [List.length_drop] at hends
        simp only [List.length_cons]
        omega
    · cases hfound
  · exact .inr hmem

end Token

/-! ## States before a comment -/

namespace Lexer

/-- The state in which more of the text is to come. -/
def withMore (lexer : Lexer) (more : List Char) : Lexer :=
  { lexer with cursor := { lexer.cursor with rest := lexer.cursor.rest ++ more } }

section
variable {scope : Scope} {mode next : Mode} {lexer after : Lexer} {session last : Session}
  {more comment : List Char}

@[simp] theorem rest_withMore (lexer : Lexer) (more : List Char) :
    (lexer.withMore more).cursor.rest = lexer.cursor.rest ++ more := rfl

theorem text_withMore (lexer : Lexer) (more : List Char) :
    (lexer.withMore more).cursor.text = lexer.cursor.text ++ String.ofList more := by
  simp only [withMore, Cursor.text, String.ofList_append, String.append_assoc]

theorem take_withMore {length : Nat} (h : length ≤ lexer.cursor.rest.length) (more : List Char) :
    (lexer.withMore more).take length = (lexer.take length).withMore more := by
  have hwidth : min length (lexer.cursor.rest ++ more).length =
      min length lexer.cursor.rest.length := by
    rw [List.length_append]
    omega
  simp only [withMore, take, Cursor.take, Cursor.commit, List.take_append_of_le_length h,
    List.drop_append_of_le_length h, hwidth]

theorem locate_withMore (scope : Scope) (lexer : Lexer) (more : List Char) {offset : Nat}
    (h : offset ≤ lexer.cursor.start) :
    (lexer.withMore more).locate scope offset = lexer.locate scope offset :=
  locate_of_text_append scope (text_withMore lexer more) h

/-! ## Pieces -/

theorem readPiece_withMore {α : Type} {reader : Reader α} {fault : LexFault}
    {use : α → Lexer → Lexer} (h : lexer.readPiece reader fault use = .ok after)
    (hkeeps : Token.Keeps reader lexer.cursor.rest more)
    (huse : ∀ value next, use value (withMore next more) = (use value next).withMore more) :
    (lexer.withMore more).readPiece reader fault use = .ok (after.withMore more) := by
  obtain ⟨found, hf, rfl⟩ := readPiece_eq_ok h
  obtain ⟨hfound, hle⟩ := hkeeps found hf
  rw [readPiece_eq, rest_withMore, hfound]
  simp only [take_withMore hle, huse]

theorem readDoubleQuote_withMore (h : lexer.readDoubleQuote = .ok after) :
    (lexer.withMore ('#' :: comment)).readDoubleQuote = .ok (after.withMore ('#' :: comment)) := by
  rw [readDoubleQuote_eq] at h
  split at h
  · next tail hquotes hrest =>
    obtain rfl := Except.ok.inj h
    have hle : 1 ≤ lexer.cursor.rest.length := by rw [hrest]; simp
    have hmore : (lexer.withMore ('#' :: comment)).cursor.rest = '"' :: (tail ++ '#' :: comment) := by
      rw [rest_withMore, hrest, List.cons_append]
    have hsame : (lexer.withMore ('#' :: comment)).inQuotes = true := hquotes
    rw [readDoubleQuote_closes hsame hmore, take_withMore hle]
    rfl
  · next tail hquotes hrest =>
    obtain rfl := Except.ok.inj h
    have hle : 2 ≤ lexer.cursor.rest.length := by rw [hrest]; simp
    have hmore : (lexer.withMore ('#' :: comment)).cursor.rest =
        '"' :: '"' :: (tail ++ '#' :: comment) := by
      rw [rest_withMore, hrest, List.cons_append, List.cons_append]
    have hsame : (lexer.withMore ('#' :: comment)).inQuotes = false := hquotes
    rw [readDoubleQuote_empty hsame hmore, take_withMore hle]
    rfl
  · next tail hnot hquotes hrest =>
    obtain rfl := Except.ok.inj h
    have hle : 1 ≤ lexer.cursor.rest.length := by rw [hrest]; simp
    have hmore : (lexer.withMore ('#' :: comment)).cursor.rest = '"' :: (tail ++ '#' :: comment) := by
      rw [rest_withMore, hrest, List.cons_append]
    have hsame : (lexer.withMore ('#' :: comment)).inQuotes = false := hquotes
    have hhead : (tail ++ '#' :: comment).head? ≠ some '"' := by
      rcases tail with _ | ⟨c, tail⟩
      · simp
      · intro hc
        exact hnot tail (by rw [Option.some.inj hc])
    rw [readDoubleQuote_opens hsame hmore hhead, take_withMore hle]
    rfl
  · cases h

/-- A piece after which the text may end is read alike before a comment. -/
theorem reads_withMore {read : Lexer → Except LexFailure Lexer} (hm : mode.reads? = some read)
    (hfits : lexer.Fits mode) (h : read lexer = .ok after)
    (hopen : after.inQuotes = true → after.cursor.rest ≠ []) :
    read (lexer.withMore ('#' :: comment)) = .ok (after.withMore ('#' :: comment)) := by
  cases mode <;> cases hm
  case bareText =>
    exact readPiece_withMore h (Token.keeps_run (by decide) _ _) fun _ _ => rfl
  case quotedText =>
    -- Between double quotes `#` is text, but there the text may not end.
    refine readPiece_withMore h (Token.keeps_run_of_not_all ?_ _) fun _ _ => rfl
    rw [← Bool.not_eq_true]
    intro hall
    obtain ⟨found, hf, rfl⟩ := readPiece_eq_ok h
    have hlength := Token.length_run_of_all hall hf
    have hquotes : lexer.inQuotes = true := inQuotes_of_quotedText hfits
    exact hopen hquotes (List.drop_eq_nil_of_le (Nat.le_of_eq hlength.symm))
  case whiteSpace =>
    exact readPiece_withMore h (Token.keeps_separator_hash _ comment) fun _ _ => rfl
  case backslash =>
    refine readPiece_withMore h (Token.keeps_escaped_hash _ comment) ?_
    rintro (_ | c) next
    · change (if lexer.inQuotes then _ else _) = withMore (if lexer.inQuotes then _ else _) _
      split <;> rfl
    · rfl
  case singleQuoted =>
    exact readPiece_withMore h (Token.keeps_singleQuoted _ ('#' :: comment)) fun _ _ => rfl
  case doubleQuote => exact readDoubleQuote_withMore h

theorem readReference_withMore (h : lexer.readReference scope session = (.ok after, last)) :
    (lexer.withMore ('#' :: comment)).readReference scope session =
      (.ok (after.withMore ('#' :: comment)), last) := by
  rw [readReference_eq] at h
  cases hf : Token.reference lexer.cursor.rest with
  | none => rw [hf] at h; cases h
  | some found =>
    obtain ⟨hfound, hle⟩ := Token.keeps_reference (d := '#') (by decide) _ comment found hf
    have hsame : (lexer.withMore ('#' :: comment)).inQuotes = lexer.inQuotes := rfl
    have hplace : (lexer.withMore ('#' :: comment)).locate scope
        (lexer.withMore ('#' :: comment)).cursor.start =
        lexer.locate scope lexer.cursor.start := locate_withMore scope lexer _ (Nat.le_refl _)
    rw [hf] at h
    rw [readReference_eq, rest_withMore, hfound]
    simp only [hsame, hplace, take_withMore hle] at h ⊢
    cases hx : session.config.expand found.value lexer.inQuotes with
    | joined text =>
      rw [hx] at h
      obtain ⟨hafter, rfl⟩ := Prod.mk.inj h
      obtain rfl := Except.ok.inj hafter
      rfl
    | words values =>
      rw [hx] at h
      obtain ⟨hafter, rfl⟩ := Prod.mk.inj h
      obtain rfl := Except.ok.inj hafter
      rfl
    | undefined =>
      rw [hx] at h
      obtain ⟨_, hwarn, rfl⟩ := Evaluation.map_eq_ok h
      simp only [Evaluation.map, hwarn]
      rfl

theorem beginLine_withMore (lexer : Lexer) (comment : List Char) :
    (lexer.withMore ('#' :: comment)).beginLine = lexer.beginLine.withMore ('#' :: comment) := by
  obtain ⟨hsame, hle⟩ := Token.lineBeginning_append_hash lexer.cursor.rest comment
  have hpeek : ((lexer.take (Token.lineBeginning lexer.cursor.rest).length).withMore
      ('#' :: comment)).cursor.peek = some '.' ↔
      (lexer.take (Token.lineBeginning lexer.cursor.rest).length).cursor.peek = some '.' := by
    rw [Cursor.peek, Cursor.peek, rest_withMore]
    rcases (lexer.take (Token.lineBeginning lexer.cursor.rest).length).cursor.rest with _ | ⟨c, tail⟩
    · simp
    · simp
  unfold beginLine
  simp only [rest_withMore, hsame, take_withMore hle, hpeek]
  split
  · rfl
  · split <;> rfl

theorem nextMode_withMore (h : lexer.nextMode = .ok mode) (hne : mode ≠ .finish) :
    (lexer.withMore more).nextMode = .ok mode := by
  obtain ⟨c, tail, hrest, -⟩ := exists_accepts_of_nextMode h hne
  have hpeek : (lexer.withMore more).cursor.peek = lexer.cursor.peek := by
    rw [Cursor.peek, Cursor.peek, rest_withMore, hrest]
    rfl
  unfold nextMode at h ⊢
  rw [hpeek]
  exact h

/-! ## Ends of lines -/

/-- Where a line that calls a directive is closed, its first word has begun. -/
theorem Occurs.exists_lineStart {text : String} (h : Occurs text mode lexer)
    (hmode : mode.closesLine) (hp : lexer.pending = .directive) :
    ∃ offset, lexer.lineStart = some offset := by
  obtain ⟨first, tail, hbegins, -, hstart | ⟨-, hcursor⟩⟩ := h.dot hp
  · exact ⟨_, hstart⟩
  · have haccepts := accepts_of_fits h.fits (hcursor ▸ hbegins.rest)
      (by cases mode <;> first | rfl | cases hmode)
    cases mode <;> first | exact absurd haccepts (by decide) | cases hmode

/-- What a line asks for does not depend on how much is read to close it, nor on what comes then. -/
theorem Occurs.endLine_of_cursor {text : String} (h : Occurs text mode lexer)
    (hmode : mode.closesLine) (cursor : Cursor)
    (htext : ∃ more, cursor.text = lexer.cursor.text ++ more) :
    { lexer with cursor }.endLine scope session = lexer.endLine scope session := by
  have hcalled : { lexer with cursor }.called? = lexer.called? := rfl
  rw [endLine_eq, endLine_eq, hcalled]
  cases hcall : lexer.called? with
  | none => rfl
  | some call =>
    obtain ⟨offset, hoffset⟩ := h.exists_lineStart hmode (called?_eq_some hcall).1
    obtain ⟨more, hmore⟩ := htext
    have hplace : { lexer with cursor }.locate scope offset = lexer.locate scope offset :=
      locate_of_text_append scope hmore (h.lineStart_le offset hoffset)
    have hline : lexer.lineOffset = offset ∧ { lexer with cursor }.lineOffset = offset := by
      simp only [lineOffset, hoffset, Option.getD_some, and_self]
    simp only [hline.1, hline.2, hplace]

theorem Occurs.endLine_take {text : String} (h : Occurs text mode lexer) (hmode : mode.closesLine)
    (length : Nat) : (lexer.take length).endLine scope session = lexer.endLine scope session := by
  refine h.endLine_of_cursor hmode (lexer.take length).cursor ⟨"", ?_⟩
  rw [String.append_empty, take, Cursor.text_commit, Cursor.text_take]

theorem Occurs.endLine_withMore {text : String} (h : Occurs text mode lexer)
    (hmode : mode.closesLine) (more : List Char) (length : Nat) :
    ((lexer.withMore more).take length).endLine scope session = lexer.endLine scope session := by
  refine h.endLine_of_cursor hmode ((lexer.withMore more).take length).cursor
    ⟨String.ofList more, ?_⟩
  rw [take, Cursor.text_commit, Cursor.text_take, text_withMore]

theorem closesLine_of_ends {reader : Reader Unit} (hm : mode.ends? = some reader) :
    mode.closesLine := by
  cases mode <;> first | rfl | cases hm

theorem readLineEnd_withMore {text : String} {reader : Reader Unit} (hoccurs : Occurs text mode lexer)
    (hm : mode.ends? = some reader) (hkeeps : Token.Keeps reader lexer.cursor.rest more)
    (h : lexer.readLineEnd scope reader session = (.ok after, last)) :
    (lexer.withMore more).readLineEnd scope reader session = (.ok (after.withMore more), last) := by
  rw [readLineEnd_eq] at h
  cases hf : reader lexer.cursor.rest with
  | none => rw [hf] at h; cases h
  | some found =>
    obtain ⟨hfound, hle⟩ := hkeeps found hf
    rw [hf] at h
    obtain ⟨_, hend, rfl⟩ := Evaluation.map_eq_ok h
    rw [hoccurs.endLine_take (closesLine_of_ends hm),
      ← hoccurs.endLine_withMore (closesLine_of_ends hm) more found.length, take_withMore hle] at hend
    rw [readLineEnd_eq, rest_withMore, hfound]
    simp only [Evaluation.map, take_withMore hle, hend]
    rfl

/-- Behind a comment that takes in the whole text nothing is left to do. -/
theorem run_after_comment (hrest : lexer.cursor.rest = '#' :: comment) (hcomment : '\n' ∉ comment)
    (hquotes : lexer.inQuotes = false)
    (hread : lexer.readLineEnd scope Token.comment session = (.ok after, last)) :
    run scope .beginOfLine after last = (.ok (), last) := by
  have hfresh := reading_of_readLineEnd hquotes hread
  rw [readLineEnd_eq, hrest, Token.comment_of_not_mem hcomment] at hread
  obtain ⟨_, -, rfl⟩ := Evaluation.map_eq_ok hread
  have hnil : (lexer.take ('#' :: comment).length).clearLine.cursor.rest = [] := by
    have hdrop : (lexer.take ('#' :: comment).length).clearLine.cursor.rest =
        lexer.cursor.rest.drop ('#' :: comment).length := rfl
    rw [hdrop, hrest, List.drop_length]
  exact run_blank scope last hfresh (by rw [hnil]; rfl)

theorem run_comment (hrest : lexer.cursor.rest = '#' :: comment) (hcomment : '\n' ∉ comment)
    (hquotes : lexer.inQuotes = false)
    (hend : ∀ length, (lexer.take length).endLine scope session = (.ok (), last)) :
    run scope .comment lexer session = (.ok (), last) := by
  have hread : lexer.readLineEnd scope Token.comment session =
      (.ok (lexer.take ('#' :: comment).length).clearLine, last) := by
    rw [readLineEnd_eq, hrest, Token.comment_of_not_mem hcomment]
    simp only [Evaluation.map, hend]
    rfl
  rw [run_of_step (by rw [step, Evaluation.map, hread]; rfl)]
  exact run_after_comment hrest hcomment hquotes hread

/-- A line is closed alike before a comment, if it is not the last comment that closes it. -/
theorem keeps_of_ends {reader : Reader Unit} (hm : mode.ends? = some reader)
    (text more : List Char) :
    Token.Keeps reader text ('#' :: more) ∨ mode = .comment ∧ '\n' ∉ text := by
  cases mode <;> cases hm
  case comment => exact (Token.keeps_comment_hash text more).imp_right fun hnone => ⟨rfl, hnone⟩
  case lineBreak => exact .inl (Token.keeps_lineEnds_hash text more)

/-- A comment that goes on to the end of the text goes on with one that follows. -/
theorem run_comment_withMore {text : String} {final : Session} (hcomment : '\n' ∉ comment)
    (hoccurs : Occurs text .comment lexer) (hnone : '\n' ∉ lexer.cursor.rest)
    (hread : lexer.readLineEnd scope Token.comment session = (.ok after, last))
    (h : run scope .beginOfLine after last = (.ok (), final)) :
    run scope .comment (lexer.withMore ('#' :: comment)) session = (.ok (), final) := by
  have hquotes : lexer.inQuotes = false := inQuotes_of_ends rfl hoccurs.fits
  obtain ⟨c, tail, hrest, hc⟩ := exists_accepts_of_nextMode hoccurs.fits (by decide)
  obtain rfl : c = '#' := of_decide_eq_true hc
  rw [hrest] at hnone
  have htail : '\n' ∉ tail := fun hmem => hnone (List.mem_cons_of_mem _ hmem)
  have hblank := run_after_comment hrest htail hquotes hread
  obtain rfl : last = final := (Prod.mk.inj (hblank.symm.trans h)).2
  rw [readLineEnd_eq, hrest, Token.comment_of_not_mem htail] at hread
  obtain ⟨_, hend, rfl⟩ := Evaluation.map_eq_ok hread
  have hmore : (lexer.withMore ('#' :: comment)).cursor.rest = '#' :: (tail ++ '#' :: comment) := by
    rw [rest_withMore, hrest, List.cons_append]
  have hlong : '\n' ∉ tail ++ '#' :: comment := by simp [htail, hcomment]
  rw [hoccurs.endLine_take rfl] at hend
  exact run_comment hmore hlong hquotes fun length => by rw [hoccurs.endLine_withMore rfl, hend]

/-! ## Runs -/

/-- A scan that comes to the end of the text does so also when a comment follows, with the same
session. -/
theorem run_withMore {text : String} (hcomment : '\n' ∉ comment) (hoccurs : Occurs text mode lexer)
    (hne : mode ≠ .finish) (h : run scope mode lexer session = (.ok (), last)) :
    run scope mode (lexer.withMore ('#' :: comment)) session = (.ok (), last) := by
  fun_induction run scope mode lexer session with
  | case1 mode lexer session next after middle hstep ih =>
    have hafter := hoccurs.step hstep
    obtain ⟨rfl, rfl, rfl, rfl⟩ | ⟨rfl, hm, rfl, rfl⟩ | ⟨read, hm, rfl, hread, rfl⟩ |
      ⟨rfl, rfl, hread⟩ | ⟨reader, hm, rfl, hread⟩ := step_cases hstep
    · rw [run_beginOfLine, beginLine_withMore]
      exact ih hafter (by decide) h
    · by_cases hfinish : next = .finish
      · -- Where the text ended, the comment closes the line.
        subst hfinish
        obtain ⟨hquotes, hrest⟩ := nextMode_eq_finish hm
        have hmore : (after.withMore ('#' :: comment)).cursor.rest = '#' :: comment := by
          rw [rest_withMore, hrest, List.nil_append]
        have hnext : (after.withMore ('#' :: comment)).nextMode = .ok .comment := by
          have hquote : (after.withMore ('#' :: comment)).quote = none := quote_eq_none hquotes
          rw [nextMode_eq, hquote, hmore]
          rfl
        have hend := endLine_of_run_finish h
        rw [run_dispatch hnext]
        exact run_comment hmore hcomment hquotes fun length => by
          rw [hafter.endLine_withMore rfl, hend]
      · rw [run_dispatch (nextMode_withMore hm hfinish)]
        exact ih hafter hfinish h
    · obtain ⟨hopen, -⟩ := rest_of_run_eq_ok h
      have hmore : read (lexer.withMore ('#' :: comment)) = .ok (after.withMore ('#' :: comment)) :=
        reads_withMore hm hoccurs.fits hread hopen
      rw [run_of_step (by rw [step_of_reads hm, hmore]; rfl)]
      exact ih hafter (by decide) h
    · rw [run_of_step (by rw [step, Evaluation.map, readReference_withMore hread]; rfl)]
      exact ih hafter (by decide) h
    · obtain hkeeps | ⟨rfl, hnone⟩ := keeps_of_ends hm lexer.cursor.rest comment
      · have hmore := readLineEnd_withMore hoccurs hm hkeeps hread
        rw [run_of_step (by rw [step_of_ends hm, Evaluation.map, hmore]; rfl)]
        exact ih hafter (by decide) h
      · cases hm
        exact run_comment_withMore hcomment hoccurs hnone hread h
  | case2 mode lexer session middle hstep => exact absurd (step_eq_none hstep).1 hne
  | case3 mode lexer session error middle hstep => cases h

end

end Lexer

/-- A text that is evaluated to its end is evaluated alike with a comment after it. -/
theorem Scope.evaluate_append_comment {scope : Scope} {text : String} {comment : List Char}
    {session last : Session} (hcomment : '\n' ∉ comment)
    (h : scope.evaluate text session = (.ok (), last)) :
    scope.evaluate (text ++ String.ofList ('#' :: comment)) session = (.ok (), last) := by
  have hmore : (Lexer.ofText text).withMore ('#' :: comment) =
      .ofText (text ++ String.ofList ('#' :: comment)) := by
    simp [Lexer.ofText, Lexer.withMore, Cursor.ofText]
  have hrun := Lexer.run_withMore hcomment .start (by decide) h
  rwa [hmore] at hrun

end ShellConfig
