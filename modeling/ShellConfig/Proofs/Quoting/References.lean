import Mathlib.Data.List.TakeDrop
import ShellConfig.Proofs.Interpreter.Composition
import ShellConfig.Proofs.Lexer.LineBeginning

/-!
References among literal text. Outside quotes the values of a variable are words of their own, and
only literal text goes on with a word; between double quotes they are joined, and all of the text is
one word. Main statement: what a line of such segments gives a variable (`evalNamed_segments`).
-/

set_option autoImplicit false

namespace ShellConfig
open Scope (extend extend_extend)

/-! ## Segments -/

/-- What stands between braces after a dollar sign: the first `|` begins the glue. -/
structure BracedReference where
  name : List Char
  glue? : Option (List Char)
  name_noBar : '|' ∉ name
  name_noBrace : '}' ∉ name
  glue_noBrace : ∀ glue ∈ glue?, '}' ∉ glue

namespace BracedReference

def body (braced : BracedReference) : List Char :=
  match braced.glue? with
  | none => braced.name
  | some glue => braced.name ++ '|' :: glue

def text (braced : BracedReference) : List Char := '$' :: '{' :: (braced.body ++ ['}'])

/-- The variable and its glue, which is a space if none is written. -/
def meaning (braced : BracedReference) : Reference :=
  ⟨String.ofList braced.name, (braced.glue?.map String.ofList).getD " "⟩

end BracedReference

/-- A part of a word: literal characters of a class, or a reference. -/
inductive Segment (accepts : Char → Bool) where
  | literal (chars : List Char) (nonempty : chars ≠ []) (accepted : ∀ c ∈ chars, accepts c)
  | reference (braced : BracedReference)

namespace Segment
variable {accepts : Char → Bool}

def text : Segment accepts → List Char
  | literal chars _ _ => chars
  | reference braced => braced.text

/-- The variable that the segment refers to although it is not set. -/
def unset? (config : Config) : Segment accepts → Option String
  | literal _ _ _ => none
  | reference braced =>
    if (config.get? braced.meaning.name).isNone then some braced.meaning.name else none

end Segment

def segmentsText {accepts : Char → Bool} (segments : List (Segment accepts)) : String :=
  String.ofList (segments.flatMap Segment.text)

/-! ## What segments stand for -/

/-- Words of which the last one may still go on. -/
structure OpenWords where
  complete : List String
  current : Option String

namespace OpenWords

def empty : OpenWords := ⟨[], none⟩

def words (line : OpenWords) : List String := line.complete ++ line.current.toList

/-- The current word goes on with the characters, or else they begin one. -/
def addText (line : OpenWords) (chars : List Char) : OpenWords :=
  { line with current := extend line.current chars }

/-- The current word is closed, and the values come after it. -/
def addWords (line : OpenWords) (values : List String) : OpenWords := ⟨line.words ++ values, none⟩

end OpenWords

section
variable {accepts : Char → Bool} (config : Config)

/-- The words with one more segment outside quotes. -/
def OpenWords.addSegment (line : OpenWords) : Segment accepts → OpenWords
  | .literal chars _ _ => line.addText chars
  | .reference braced =>
    match config.get? braced.meaning.name with
    | none => line
    | some values => line.addWords values

/-- The words that segments stand for outside quotes. -/
def unquotedWords (segments : List (Segment accepts)) : List String :=
  (segments.foldl (OpenWords.addSegment config) .empty).words

/-- The text that a segment stands for between double quotes. -/
def Segment.quotedText? : Segment accepts → Option String
  | .literal chars _ _ => some (String.ofList chars)
  | .reference braced =>
    (config.get? braced.meaning.name).map (String.intercalate braced.meaning.glue)

/-- The word that segments stand for between double quotes, if there is one. -/
def quotedWord (segments : List (Segment accepts)) : Option String :=
  match segments.filterMap (Segment.quotedText? config) with
  | [] => none
  | texts => some (String.join texts)

/-- The variables that segments refer to although they are not set. -/
def unsetNames (segments : List (Segment accepts)) : List String :=
  segments.filterMap (Segment.unset? config)

end

theorem unsetNames_cons {accepts : Char → Bool} (config : Config) (segment : Segment accepts)
    (segments : List (Segment accepts)) :
    unsetNames config (segment :: segments) =
      (segment.unset? config).toList ++ unsetNames config segments := by
  unfold unsetNames
  cases hname : segment.unset? config with
  | none =>
    rw [List.filterMap_cons_none hname]
    rfl
  | some name =>
    rw [List.filterMap_cons_some hname]
    rfl

/-- The words with one more segment between double quotes. -/
def OpenWords.addQuoted {accepts : Char → Bool} (config : Config) (line : OpenWords)
    (segment : Segment accepts) : OpenWords :=
  match segment.quotedText? config with
  | none => line
  | some text => line.addText text.toList

/-- Only the segments that stand for some text make a word, and it is the text of all of them. -/
theorem OpenWords.foldl_addQuoted {accepts : Char → Bool} (config : Config)
    (segments : List (Segment accepts)) (start : OpenWords) :
    segments.foldl (addQuoted config) start =
      match segments.filterMap (Segment.quotedText? config) with
      | [] => start
      | texts => start.addText (String.join texts).toList := by
  induction segments generalizing start with
  | nil => rfl
  | cons segment segments ih =>
    rw [List.foldl_cons, ih, addQuoted]
    cases htext : segment.quotedText? config with
    | none => rw [List.filterMap_cons_none htext]
    | some text =>
      rw [List.filterMap_cons_some htext]
      cases segments.filterMap (Segment.quotedText? config) with
      | nil => simp
      | cons other texts => simp [addText, extend_extend]

theorem OpenWords.words_foldl_addQuoted {accepts : Char → Bool} (config : Config)
    (segments : List (Segment accepts)) :
    (segments.foldl (addQuoted config) empty).words = (quotedWord config segments).toList := by
  rw [foldl_addQuoted, quotedWord]
  cases segments.filterMap (Segment.quotedText? config) with
  | nil => rfl
  | cons text texts => simp [words, empty, addText, extend, -String.toList_join]

/-! ## Reading references -/

namespace BracedReference

theorem braced_body (braced : BracedReference) :
    Reference.braced (String.ofList braced.body) = braced.meaning := by
  have haccepted : ∀ c ∈ braced.name, decide (c ≠ '|') = true := by
    intro c hc
    rw [decide_eq_true_iff]
    rintro rfl
    exact braced.name_noBar hc
  unfold Reference.braced meaning body
  rw [String.toList_ofList, List.span_eq_takeWhile_dropWhile]
  cases braced.glue? with
  | none =>
    have hend : ([] : List Char).head?.any (fun c => decide (c ≠ '|')) = false := rfl
    obtain ⟨htake, hdrop⟩ := Token.takeWhile_append_of_head haccepted hend
    rw [List.append_nil] at htake hdrop
    rw [htake, hdrop]
    rfl
  | some glue =>
    have hend : ('|' :: glue).head?.any (fun c => decide (c ≠ '|')) = false := rfl
    obtain ⟨htake, hdrop⟩ := Token.takeWhile_append_of_head haccepted hend
    rw [htake, hdrop]
    rfl

theorem body_noBrace (braced : BracedReference) : '}' ∉ braced.body := by
  unfold body
  cases hglue : braced.glue? with
  | none => exact braced.name_noBrace
  | some glue =>
    have hnone : '}' ∉ glue := braced.glue_noBrace glue hglue
    simp [braced.name_noBrace, hnone]

/-- A brace is neither a name by itself nor the beginning of one, so the reference is read up to its
closing brace. -/
theorem reference_text (braced : BracedReference) (rest : List Char) :
    Token.reference (braced.text ++ rest) = some ⟨braced.text.length, braced.meaning⟩ := by
  have htext : braced.text ++ rest = '$' :: '{' :: (braced.body ++ '}' :: rest) := by simp [text]
  have hupTo : Token.upTo '}' (braced.body ++ '}' :: rest) = some braced.body :=
    Token.upTo_eq_some_iff.2 ⟨braced.body_noBrace, rest, rfl⟩
  have hspecial : Token.isSpecialName '{' = false := by decide
  have hstart : isIdentifierStart '{' = false := by decide
  rw [htext, Token.reference, hspecial, hstart, hupTo, Option.map_some, braced_body]
  simp [text]

end BracedReference

/-- No segment between double quotes begins with one, so the first one opens. -/
theorem Segment.head?_texts {segments : List (Segment Token.isQuotedChar)} (hne : segments ≠ [])
    (rest : List Char) : (segments.flatMap text ++ rest).head? ≠ some '"' := by
  obtain ⟨segment, segments, rfl⟩ := List.exists_cons_of_ne_nil hne
  cases segment with
  | literal chars nonempty accepted =>
    obtain ⟨c, chars, rfl⟩ := List.exists_cons_of_ne_nil nonempty
    have hc : Token.isQuotedChar c := accepted c List.mem_cons_self
    intro heq
    obtain rfl : c = '"' := Option.some.inj heq
    exact absurd hc (by decide)
  | reference braced => simp [text, BracedReference.text]

/-- The session after warnings about variables that are not set, apart from positions. -/
def Session.warnUnset (session : Session) (source : String) (names : List String) : Session :=
  { session with
    warnings := session.warnings ++ names.map fun name => ⟨name, ⟨source, Position.start⟩⟩ }

theorem Session.warnUnset_nil (session : Session) (source : String) :
    session.warnUnset source [] = session := by
  simp [warnUnset]

theorem Session.warnUnset_append (session : Session) (source : String) (names more : List String) :
    (session.warnUnset source names).warnUnset source more =
      session.warnUnset source (names ++ more) := by
  simp [warnUnset]

section
variable {scope : Scope} {session : Session} {inQuotes : Bool} {word : Option String}
  {line : List String} {pending : Operation} {rest : List Char}
  (hscope : scope.IgnoresPositions) (hwarn : scope.undefined = .warn)
include hscope

namespace Scope

theorem read_of_readReference {reading : Reading} {next : Lexer} {last after : Session}
    (hrest : reading.rest = '$' :: rest)
    (h : reading.lexer.readReference scope session = (.ok next, last))
    (hafter : last.unplaced = after.unplaced) :
    scope.read reading session = scope.read next.reading after := by
  have hm : reading.lexer.nextMode = .ok .reference := by
    rw [Lexer.nextMode_eq, rest_lexer, hrest]
    unfold Reading.lexer
    cases reading.inQuotes <;> rfl
  have hstep : Lexer.step scope .reference reading.lexer session =
      (.ok (some (.dispatch, next)), last) := by
    rw [Lexer.step, Evaluation.map, h]
    rfl
  rw [read, Lexer.run_dispatch hm, Lexer.run_of_step hstep, read]
  exact Lexer.run_unplaced hscope .dispatch (Reading.reading_lexer _).symm hafter

include hwarn in
/-- What a reference stands for decides what becomes of the current word. -/
theorem read_reference (braced : BracedReference) :
    scope.read ⟨braced.text ++ rest, inQuotes, word, line, pending⟩ session =
      match session.config.expand braced.meaning inQuotes with
      | .undefined =>
        scope.read ⟨rest, inQuotes, word, line, pending⟩
          (session.warnUnset scope.source [braced.meaning.name])
      | .joined text =>
        scope.read ⟨rest, inQuotes, extend word text.toList, line, pending⟩ session
      | .words values =>
        scope.read ⟨rest, inQuotes, none, line ++ word.toList ++ values, pending⟩ session := by
  let reading : Reading := ⟨braced.text ++ rest, inQuotes, word, line, pending⟩
  have hquotes : reading.lexer.inQuotes = inQuotes :=
    congrArg Reading.inQuotes (Reading.reading_lexer reading)
  have hreference := Lexer.readReference_eq scope reading.lexer session
  rw [rest_lexer, braced.reference_text rest, hquotes] at hreference
  have hrest : (reading.lexer.take braced.text.length).reading =
      ⟨rest, inQuotes, word, line, pending⟩ := by
    simp [reading]
  have hread {next : Lexer} {last after : Session}
      (h : reading.lexer.readReference scope session = (.ok next, last))
      (hafter : last.unplaced = after.unplaced) :
      scope.read reading session = scope.read next.reading after :=
    read_of_readReference hscope rfl h hafter
  cases hexpand : session.config.expand braced.meaning inQuotes with
  | undefined =>
    simp only [hexpand, Evaluation.map, Scope.undefinedVariable, hwarn] at hreference
    have hwarned : (session.warn ⟨braced.meaning.name,
        reading.lexer.locate scope reading.lexer.cursor.start⟩).unplaced =
        (session.warnUnset scope.source [braced.meaning.name]).unplaced :=
      Session.unplaced_warn rfl rfl
    exact (hread hreference hwarned).trans (by rw [hrest])
  | joined text =>
    simp only [hexpand] at hreference
    rw [hread hreference rfl, Lexer.reading_addText, hrest]
    simp [extend]
  | words values =>
    simp only [hexpand] at hreference
    rw [hread hreference rfl, Lexer.reading_addWords, hrest]

end Scope

/-! ## Reading segments -/

section
variable {accepts : Char → Bool} {config : Config}

omit hscope in
/-- The fold that reads segments one by one: the warnings leave the configuration as it is, so every
segment finds the values from before the line. -/
theorem read_segments {add : OpenWords → Segment accepts → OpenWords}
    (hread : ∀ (segment : Segment accepts) (line : OpenWords) (rest : List Char)
      (session : Session), session.config = config →
        scope.read ⟨segment.text ++ rest, inQuotes, line.current, line.complete, pending⟩ session =
          scope.read ⟨rest, inQuotes, (add line segment).current, (add line segment).complete,
            pending⟩ (session.warnUnset scope.source (segment.unset? config).toList))
    (segments : List (Segment accepts)) (start : OpenWords) (hconfig : session.config = config) :
    scope.read ⟨segments.flatMap Segment.text ++ rest, inQuotes, start.current, start.complete,
        pending⟩ session =
      scope.read ⟨rest, inQuotes, (segments.foldl add start).current,
          (segments.foldl add start).complete, pending⟩
        (session.warnUnset scope.source (unsetNames config segments)) := by
  induction segments generalizing start session with
  | nil =>
    rw [unsetNames, List.filterMap_nil, Session.warnUnset_nil]
    rfl
  | cons segment segments ih =>
    have hkept : (session.warnUnset scope.source (segment.unset? config).toList).config = config :=
      hconfig
    rw [List.flatMap_cons, List.append_assoc, hread segment start _ session hconfig,
      ih (add start segment) hkept, Session.warnUnset_append, ← unsetNames_cons,
      List.foldl_cons]

include hwarn

theorem Segment.read_unquoted (segment : Segment isBareChar) (start : OpenWords)
    (hconfig : session.config = config) :
    scope.read ⟨segment.text ++ rest, false, start.current, start.complete, pending⟩ session =
      scope.read ⟨rest, false, (start.addSegment config segment).current,
          (start.addSegment config segment).complete, pending⟩
        (session.warnUnset scope.source (segment.unset? config).toList) := by
  subst hconfig
  cases segment with
  | literal chars nonempty accepted =>
    rw [text, unset?, Option.toList_none, Session.warnUnset_nil,
      Scope.read_bare hscope nonempty accepted]
    rfl
  | reference braced =>
    rw [text, Scope.read_reference hscope hwarn, Config.expand, unset?, OpenWords.addSegment]
    cases session.config.get? braced.meaning.name with
    | none => rfl
    | some values =>
      rw [if_neg (by simp), Option.toList_none, Session.warnUnset_nil]
      rfl

theorem Segment.read_quoted (segment : Segment Token.isQuotedChar) (start : OpenWords)
    (hconfig : session.config = config) :
    scope.read ⟨segment.text ++ rest, true, start.current, start.complete, pending⟩ session =
      scope.read ⟨rest, true, (start.addQuoted config segment).current,
          (start.addQuoted config segment).complete, pending⟩
        (session.warnUnset scope.source (segment.unset? config).toList) := by
  subst hconfig
  cases segment with
  | literal chars nonempty accepted =>
    rw [text, unset?, Option.toList_none, Session.warnUnset_nil,
      Scope.read_quoted hscope nonempty accepted, OpenWords.addQuoted, quotedText?]
    simp [OpenWords.addText]
  | reference braced =>
    rw [text, Scope.read_reference hscope hwarn, Config.expand, unset?, OpenWords.addQuoted,
      quotedText?]
    cases session.config.get? braced.meaning.name with
    | none => rfl
    | some values =>
      rw [if_neg (by simp), Option.toList_none, Session.warnUnset_nil]
      rfl

theorem read_unquotedSegments (segments : List (Segment isBareChar)) :
    scope.read ⟨segments.flatMap Segment.text ++ rest, false, none, [], pending⟩ session =
      scope.read ⟨rest, false,
          (segments.foldl (OpenWords.addSegment session.config) .empty).current,
          (segments.foldl (OpenWords.addSegment session.config) .empty).complete, pending⟩
        (session.warnUnset scope.source (unsetNames session.config segments)) :=
  read_segments (fun segment line _ _ => segment.read_unquoted hscope hwarn line) segments .empty
    rfl

theorem read_quotedSegments {segments : List (Segment Token.isQuotedChar)} (hne : segments ≠ []) :
    scope.read ⟨'"' :: (segments.flatMap Segment.text ++ '"' :: rest), false, none, [], pending⟩
        session =
      scope.read ⟨rest, false,
          (segments.foldl (OpenWords.addQuoted session.config) .empty).current,
          (segments.foldl (OpenWords.addQuoted session.config) .empty).complete, pending⟩
        (session.warnUnset scope.source (unsetNames session.config segments)) := by
  have hread : scope.read ⟨segments.flatMap Segment.text ++ '"' :: rest, true, none, [], pending⟩
      session = _ :=
    read_segments (fun segment line _ _ => segment.read_quoted hscope hwarn line) segments .empty
      rfl
  rw [Scope.read_doubleQuote_opens hscope (Segment.head?_texts hne _), hread,
    Scope.read_doubleQuote_closes hscope]

end

end

/-! ## Lines -/

namespace Interpreter

section
variable (interpreter : Interpreter) (hmode : interpreter.undefined = .warn) (files : FileTree)
  (source : String) {name : String} (hname : isIdentifier name) (config : Config)
include hmode hname

/-- After the equals sign, what is read as words with some warnings gives the variable these
words. -/
theorem evalNamed_of_read {values : List Char} {last : OpenWords} {names : List String}
    (hread : ∀ scope : Scope, scope.IgnoresPositions → scope.undefined = .warn →
      scope.read ⟨values, false, none, [], .set name⟩ (.ofConfig config) =
        scope.read ⟨[], false, last.current, last.complete, .set name⟩
          ((Session.ofConfig config).warnUnset scope.source names)) :
    ∃ warnings,
      interpreter.evalNamed files source (name ++ " = " ++ String.ofList values) config =
          (.ok warnings, config.set name last.words) ∧
        warnings.map Warning.name = names := by
  obtain ⟨nested, hscope, heval⟩ :=
    evaluate_eq_scope interpreter files interpreter.maxIncludeDepth [] source
  have hline : (interpreter.scope files nested [] source).readLines
      (name ++ " = " ++ String.ofList values).toList (.ofConfig config) = _ :=
    Scope.readLines_set hscope hname values
  rw [hread _ hscope hmode, Scope.read_nil rfl] at hline
  obtain ⟨warnings, hresult, hwarnings⟩ := exists_warnings_of_readLines heval hline
  rw [String.ofList_toList] at hresult
  refine ⟨warnings, hresult, ?_⟩
  have hnames := congrArg (List.map Warning.name) hwarnings
  simpa [Session.warnUnset, Session.ofConfig, Function.comp_def, Warning.unplaced] using hnames

/-- Literal text and references give a variable the words that they stand for before the line, also
if it refers to itself. Outside quotes these are the words of a fold over the segments; between
double quotes they are at most one word. Variables that are not set stand for nothing, with a warning
for each reference to them. -/
theorem evalNamed_segments :
    (∀ segments : List (Segment isBareChar), ∃ warnings,
      interpreter.evalNamed files source (name ++ " = " ++ segmentsText segments) config =
          (.ok warnings, config.set name (unquotedWords config segments)) ∧
        warnings.map Warning.name = unsetNames config segments) ∧
      ∀ segments : List (Segment Token.isQuotedChar), segments ≠ [] → ∃ warnings,
        interpreter.evalNamed files source (name ++ " = \"" ++ segmentsText segments ++ "\"")
            config =
            (.ok warnings, config.set name (quotedWord config segments).toList) ∧
          warnings.map Warning.name = unsetNames config segments := by
  constructor
  · intro segments
    refine evalNamed_of_read interpreter hmode files source hname config ?_
    intro scope hscope hwarn
    rw [← List.append_nil (segments.flatMap Segment.text)]
    exact read_unquotedSegments hscope hwarn segments
  · intro segments hne
    have htext : name ++ " = \"" ++ segmentsText segments ++ "\"" =
        name ++ " = " ++ String.ofList ('"' :: (segments.flatMap Segment.text ++ ['"'])) := by
      rw [← String.toList_inj]
      simp [segmentsText]
    rw [htext, ← OpenWords.words_foldl_addQuoted]
    refine evalNamed_of_read interpreter hmode files source hname config ?_
    intro scope hscope hwarn
    exact read_quotedSegments hscope hwarn hne

end

/-- A variable that refers to itself, one that is not set, one without values, one with characters
that mean something in a text, and names that only braces can hold. -/
theorem evalNamed_segments_names :
    let config := Config.ofLists
      [("NAME", ["old", "a b"]), ("NONE", []), ("TWO", ["$NAME", "'"]), ("", ["x"]),
        ("c\n d", ["\""])] []
    standard.undefined = .warn ∧ isIdentifier "NAME" ∧
      (∃ warnings, standard.evalNamed .empty "main"
          "NAME = p${NAME}q${UNSET}r${NONE}s${TWO|+}${}$\x7bc\n d\x7d" config =
          (.ok warnings,
            config.set "NAME" ["p", "old", "a b", "qr", "s", "$NAME", "'", "x", "\""]) ∧
        warnings.map Warning.name = ["UNSET"]) ∧
      ∃ warnings, standard.evalNamed .empty "main"
          "NAME = \" #${NAME}q${UNSET}r${NONE}s${TWO|+}${}$\x7bc\n d|\x7d\"" config =
          (.ok warnings, config.set "NAME" [" #old a bqrs$NAME+'x\""]) ∧
        warnings.map Warning.name = ["UNSET"] := by
  intro config
  let own : BracedReference := ⟨"NAME".toList, none, by simp, by simp, by simp⟩
  let unset : BracedReference := ⟨"UNSET".toList, none, by simp, by simp, by simp⟩
  let valueless : BracedReference := ⟨"NONE".toList, none, by simp, by simp, by simp⟩
  let glued : BracedReference := ⟨"TWO".toList, some ['+'], by simp, by simp, by simp⟩
  let nameless : BracedReference := ⟨[], none, by simp, by simp, by simp⟩
  let broken (glue? : Option (List Char)) (h : ∀ glue ∈ glue?, '}' ∉ glue) : BracedReference :=
    ⟨"c\n d".toList, glue?, by simp, by simp, h⟩
  let char {accepts : Char → Bool} (c : Char) (h : accepts c) : Segment accepts :=
    .literal [c] (List.cons_ne_nil _ _) (List.forall_mem_singleton.2 h)
  let bare : List (Segment isBareChar) :=
    [char 'p' (by decide), .reference own, char 'q' (by decide), .reference unset,
      char 'r' (by decide), .reference valueless, char 's' (by decide), .reference glued,
      .reference nameless, .reference (broken none (by simp))]
  let quoted : List (Segment Token.isQuotedChar) :=
    [char ' ' (by decide), char '#' (by decide), .reference own, char 'q' (by decide),
      .reference unset, char 'r' (by decide), .reference valueless, char 's' (by decide),
      .reference glued, .reference nameless, .reference (broken (some []) (by simp))]
  have hname : isIdentifier "NAME" := by decide
  have hbareText : "NAME" ++ " = " ++ segmentsText bare =
      "NAME = p${NAME}q${UNSET}r${NONE}s${TWO|+}${}$\x7bc\n d\x7d" := by decide +kernel
  have hbareWords : unquotedWords config bare =
      ["p", "old", "a b", "qr", "s", "$NAME", "'", "x", "\""] := by decide +kernel
  have hbareNames : unsetNames config bare = ["UNSET"] := by decide +kernel
  have hquotedText : "NAME" ++ " = \"" ++ segmentsText quoted ++ "\"" =
      "NAME = \" #${NAME}q${UNSET}r${NONE}s${TWO|+}${}$\x7bc\n d|\x7d\"" := by decide +kernel
  have hquotedWord : (quotedWord config quoted).toList = [" #old a bqrs$NAME+'x\""] := by
    decide +kernel
  have hquotedNames : unsetNames config quoted = ["UNSET"] := by decide +kernel
  obtain ⟨hbare, hquoted⟩ := evalNamed_segments standard rfl .empty "main" hname config
  refine ⟨rfl, hname, ?_, ?_⟩
  · rw [← hbareText, ← hbareWords, ← hbareNames]
    exact hbare bare
  · rw [← hquotedText, ← hquotedWord, ← hquotedNames]
    exact hquoted quoted (List.cons_ne_nil _ _)

end Interpreter

end ShellConfig
