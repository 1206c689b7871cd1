import ShellConfig.Proofs.Config.RoundTrip
import ShellConfig.Proofs.Interpreter.Growth
import ShellConfig.Proofs.Quoting.Directive

/-!
Only a configuration that can be written is read back. A line that looks like a directive fails, when
no file can be read, and a line that looks like an assignment receives no line, so the lines that were
read are fewer than those that were written (`length_lines_of_readLines`). Together with what
evaluation can add at all, this makes the limits of the text exact (`parse_serialize_iff`).
-/

set_option autoImplicit false

namespace ShellConfig

/-! ## Lines that look like assignments -/

/-- The end of a bare word, with the escaped words after it, is a written line. -/
theorem exists_written_of_bare {chars : List Char} (hchars : ∀ c ∈ chars, isBareChar c)
    (words : List String) : ∃ line : WrittenLine, line.text =
      chars ++ ((gapBefore words).flatMap Separator.text ++ (escapeLine words).toList) := by
  by_cases hne : chars = []
  · exact ⟨.ofWords (gapBefore words) words, by rw [WrittenLine.text_ofWords, hne, List.nil_append]⟩
  · have hcounts : ∃ fragment ∈ [Fragment.bare chars hne hchars], fragment.counts :=
      ⟨_, List.mem_cons_self, rfl⟩
    refine ⟨.cons ⟨[.bare chars hne hchars], hcounts⟩ words, ?_⟩
    rw [WrittenLine.text_cons]
    simp [WrittenWord.text, Fragment.text]

/-- The rest of an escaped line, when no quote comes before it, is a written line. -/
theorem exists_written_of_append {words : List String} {front rest : List Char}
    (h : (escapeLine words).toList = front ++ rest) (hfront : '\'' ∉ front) :
    ∃ line : WrittenLine, line.text = rest := by
  induction words generalizing front with
  | nil =>
    have hrest : rest = [] := (List.append_eq_nil_iff.1 h.symm).2
    exact ⟨⟨[], [], by simp⟩, hrest.symm⟩
  | cons word words ih =>
    rcases front with _ | ⟨c, front⟩
    · exact ⟨.ofWords [] (word :: words), by rw [WrittenLine.text_ofWords, h]; rfl⟩
    · have hbare : isBareWord word := by
        rw [← Bool.not_eq_false]
        intro hquoted
        rw [escapeLine_cons, escape, if_neg (by simp [hquoted]), String.toList_ofList] at h
        obtain ⟨rfl, -⟩ := List.cons.inj h
        exact hfront List.mem_cons_self
      have hchars := (isBareWord_iff.1 hbare).2
      rw [escapeLine_cons, escape_eq_self_of_isBareWord hbare] at h
      -- the front ends within the word, or reaches beyond it
      rcases List.append_eq_append_iff.1 h with ⟨later, hlater, hgap⟩ | ⟨chars, hword, hrest⟩
      · have hquote : '\'' ∉ later := fun hmem =>
          hfront (hlater ▸ List.mem_append_right _ hmem)
        rcases words with _ | ⟨other, words⟩
        · have hrest : rest = [] := (List.append_eq_nil_iff.1 hgap.symm).2
          exact ⟨⟨[], [], by simp⟩, hrest.symm⟩
        · rcases later with _ | ⟨d, later⟩
          · rw [List.nil_append] at hgap
            rw [← hgap]
            exact @exists_written_of_bare [] (by simp) (other :: words)
          · have htail : (escapeLine (other :: words)).toList = later ++ rest :=
              (List.cons.inj hgap).2
            exact ih htail fun hmem => hquote (List.mem_cons_of_mem _ hmem)
      · rw [hrest]
        refine exists_written_of_bare (fun d hd => hchars d ?_) words
        rw [hword]
        exact List.mem_append_right _ hd

section
variable {scope : Scope} (hscope : scope.IgnoresPositions) (session : Session)
include hscope

/-- A line that looks like an assignment is evaluated as one, and is not received. -/
theorem Scope.readLines_of_beginsAssignment {words : List String}
    (h : Token.BeginsAssignment (escapeLine words).toList) :
    ∃ config : Config, config.lines = session.config.lines ∧
      scope.readLines (escapeLine words).toList session =
        Outcome.unplaced (.ok (), { session with config }) := by
  obtain ⟨name, gap, sign, values, hname, hgap, hsign, htext⟩ := h
  obtain ⟨line, hline⟩ : ∃ line : WrittenLine, line.text = values := by
    have hsplit : (escapeLine words).toList = name ++ (gap ++ (sign ++ ['='])) ++ values := by
      simp [htext]
    refine exists_written_of_append hsplit ?_
    obtain ⟨c, tail, rfl, hc, htail⟩ := Token.isIdentifierText_iff.1 hname
    have hname : '\'' ∉ c :: tail := by
      intro hmem
      rcases List.mem_cons.1 hmem with rfl | hmem
      · exact absurd hc (by decide)
      · exact absurd (htail _ hmem) (by decide)
    have hgap : '\'' ∉ gap := fun hmem => absurd (hgap _ hmem) (by decide)
    have hsign : '\'' ∉ sign := by rcases hsign with rfl | rfl | rfl <;> decide
    simp only [List.mem_append, not_or]
    exact ⟨hname, hgap, hsign, by decide⟩
  rw [htext, readLines_assignment hscope hname hgap hsign, ← hline]
  have htarget := Operation.target?_assignment (String.ofList name) (String.ofList sign)
  obtain ⟨hlines, hnone⟩ := Operation.apply_of_target htarget line.values session.config
  exact ⟨_, hlines, line.read_line hscope (Prod.ext rfl hnone)⟩

end

/-! ## Lines that look like directives -/

section
variable {scope : Scope} (session : Session)

/-- No directive can be carried out. -/
def Scope.RefusesDirectives (scope : Scope) : Prop :=
  ∀ (call : DirectiveCall) (location : Location) (session : Session),
    ∃ error last, scope.perform call location session = (.error error, last)

/-- A line that looks like a directive fails, whatever follows it. -/
theorem Scope.readLines_of_directive (hscope : scope.IgnoresPositions)
    (hrefuses : scope.RefusesDirectives) {first : String} (hbare : isBareWord first)
    (hdot : first.toList.head? = some '.') (words : List String) {rest : List Char}
    (hrest : rest = [] ∨ ∃ more, rest = '\n' :: more) :
    ∃ error last, scope.readLines ((escapeLine (first :: words)).toList ++ rest) session =
      (.error error, last) := by
  obtain ⟨c, chars, htext, -, hc⟩ := head_escapeLine first words
  obtain rfl : c = '.' := hc.2 ⟨hbare, hdot⟩
  obtain ⟨more, htail⟩ : ∃ more, LineTail rest more := by
    rcases hrest with rfl | ⟨more, rfl⟩
    · exact ⟨[], .finish⟩
    · exact ⟨_, lineTail_lineFeed more⟩
  have hline := WrittenLine.text_ofWords [] (first :: words)
  rw [List.flatMap_nil, List.nil_append] at hline
  have hhead : (WrittenLine.ofWords [] (first :: words)).text.head? = some '.' := by
    rw [hline, htext]
    rfl
  obtain ⟨call, hcall⟩ : ∃ call,
      DirectiveCall.ofWords? (WrittenLine.ofWords [] (first :: words)).values = some call := by
    rw [WrittenLine.values_ofWords]
    exact ⟨_, rfl⟩
  obtain ⟨location, hread⟩ := readLines_called hscope session hhead hcall htail
  obtain ⟨error, last, hperform⟩ := hrefuses call location session
  refine ⟨error.unplaced, last.unplaced, ?_⟩
  rw [← hline, hread, hperform]
  rfl

end

/-! ## Counting lines -/

theorem intercalate_cons_eq (text : List Char) (more : List (List Char)) :
    ∃ rest, ['\n'].intercalate (text :: more) = text ++ rest ∧
      (rest = [] ∨ ∃ tail, rest = '\n' :: tail) := by
  by_cases hnil : more = []
  · exact ⟨[], by rw [hnil, List.intercalate_singleton, List.append_nil], .inl rfl⟩
  · exact ⟨'\n' :: ['\n'].intercalate more,
      by rw [List.intercalate_cons_of_ne_nil hnil, List.append_assoc]; rfl, .inr ⟨_, rfl⟩⟩

/-- Reading the texts of lines receives no more lines than there are, and fewer if one of them cannot
be written. -/
theorem Scope.length_lines_of_readLines {scope : Scope} (hscope : scope.IgnoresPositions)
    (hrefuses : scope.RefusesDirectives) {lines : List (List String)}
    (hne : ∀ words ∈ lines, words ≠ []) {session last : Session}
    (h : scope.readLines (['\n'].intercalate (lines.map fun words => (escapeLine words).toList))
      session = Outcome.unplaced (.ok (), last)) :
    last.config.lines.length ≤ session.config.lines.length + lines.length ∧
      (last.config.lines.length = session.config.lines.length + lines.length →
        ∀ words ∈ lines, WritableLine words) := by
  induction lines generalizing session with
  | nil =>
    rw [List.map_nil, List.intercalate_nil, readLines_nil] at h
    have hconfig : session.config = last.config := congrArg (fun outcome => outcome.2.config) h
    simp [hconfig]
  | cons words lines ih =>
    have hrest := fun session => @ih (fun other hother =>
      hne other (List.mem_cons_of_mem _ hother)) session
    have hcr := not_return_suffix_escapeLine words
    rw [List.map_cons] at h
    -- an assignment receives no line, a directive fails, and any other line can be written
    by_cases hassignment : Token.BeginsAssignment (escapeLine words).toList
    · obtain ⟨config, hlines, hread⟩ :=
        readLines_of_beginsAssignment hscope session hassignment
      rw [readLines_cons hscope hcr hread] at h
      have hle := (hrest _ h).1
      simp only [hlines, List.length_cons] at hle ⊢
      exact ⟨by omega, fun heq => by omega⟩
    · by_cases hdirective : ∃ first ∈ words.head?, isBareWord first ∧ first.toList.head? = some '.'
      · obtain ⟨first, hfirst, hbare, hdot⟩ := hdirective
        obtain ⟨arguments, rfl⟩ := List.head?_eq_some_iff.1 hfirst
        obtain ⟨rest, htext, htail⟩ := intercalate_cons_eq (escapeLine (first :: arguments)).toList
          (lines.map fun words => (escapeLine words).toList)
        obtain ⟨error, finish, hread⟩ :=
          readLines_of_directive session hscope hrefuses hbare hdot arguments htail
        rw [htext, hread] at h
        cases (Prod.mk.inj h).1
      · have hwritable : WritableLine words :=
          ⟨hne words List.mem_cons_self, fun first hfirst hdot => hdirective ⟨first, hfirst, hdot⟩,
            hassignment⟩
        rw [readLines_cons hscope hcr (readLines_escapeLine hscope session hwritable)] at h
        obtain ⟨hle, hall⟩ := hrest _ h
        simp only [Config.lines_receiveLine, List.length_append, List.length_cons,
          List.length_nil] at hle hall ⊢
        refine ⟨by omega, fun heq other hother => ?_⟩
        rcases List.mem_cons.1 hother with rfl | hother
        · exact hwritable
        · exact hall (by omega) other hother

/-! ## The limits of the text -/

namespace Interpreter

/-- When no file can be read, the interpreter as it comes carries out no directive. -/
theorem refusesDirectives_standard {files : FileTree}
    (hfiles : ∀ path, ∃ fault, files.openText path = .error fault) (nested : TextEvaluation)
    (active : List Identity) (source : String) :
    (standard.scope files nested active source).RefusesDirectives := by
  intro call location session
  change ∃ error last, standard.perform files nested active source call location session =
    (.error error, last)
  unfold perform
  split
  · split
    · unfold includeFile
      split
      · exact ⟨_, _, rfl⟩
      · split
        · exact ⟨_, _, rfl⟩
        · unfold openFile
          next path _ _ _ =>
            obtain ⟨fault, hfault⟩ := hfiles (Path.resolve source path)
            rw [hfault]
            exact ⟨_, _, rfl⟩
    · exact ⟨_, _, rfl⟩
  · exact ⟨_, _, rfl⟩

theorem evaluate_of_parse_eq_ok {files : FileTree} {text : String} {parsed : Config}
    (h : Config.parse files text = .ok parsed) :
    ∃ last, standard.evaluate files standard.maxIncludeDepth [] unnamedSource text
        (.ofConfig .empty) =
      (.ok (), last) ∧ last.config = parsed := by
  unfold Config.parse at h
  split at h
  · next warnings after heval =>
    obtain rfl := Except.ok.inj h
    exact ⟨_, outcome_eq_ok heval, rfl⟩
  · cases h

/-- When no file can be read, the configurations that are read back from their texts are those that
can be written. -/
theorem parse_serialize_iff {files : FileTree}
    (hfiles : ∀ path, ∃ fault, files.openText path = .error fault) (config : Config) :
    (∃ parsed, Config.parse files config.serialize = .ok parsed ∧ parsed.sameContents config) ↔
      config.Writable := by
  constructor
  · rintro ⟨parsed, hparse, hsame⟩
    obtain ⟨hget, hlines⟩ := Config.sameContents_iff.1 hsame
    obtain ⟨nested, hscope, heval⟩ :=
      evaluate_eq_scope standard files standard.maxIncludeDepth [] unnamedSource
    have hrefuses := refusesDirectives_standard hfiles nested [] unnamedSource
    obtain ⟨last, hlast, hconfig⟩ := evaluate_of_parse_eq_ok hparse
    have hgrows := onlyAdds_evaluate standard (fun _ => rfl) files standard.maxIncludeDepth []
      unnamedSource config.serialize (.ofConfig .empty)
    rw [hlast, hconfig] at hgrows
    have hnames : ∀ name ∈ config.names, isIdentifier name := by
      intro name hname
      rw [Config.mem_names_iff, ← hget] at hname
      refine hgrows.changed name fun heq => ?_
      rw [heq] at hname
      cases hname
    have hne : ∀ words ∈ config.lines, words ≠ [] := by
      obtain ⟨added, hadded, hwords⟩ := hgrows.lines
      rw [← hlines, hadded]
      exact hwords
    refine ⟨hnames, ?_⟩
    have hread : (standard.scope files nested [] unnamedSource).readLines
        config.serialize.toList (.ofConfig .empty) = Outcome.unplaced (.ok (), last) := by
      rw [Scope.readLines, String.ofList_toList, ← heval, hlast]
    rw [Config.toList_serialize, Scope.readLines_vars hscope fun entry hentry =>
      hnames entry.1 (Config.mem_sortedVars_names hentry)] at hread
    obtain ⟨-, hall⟩ := Scope.length_lines_of_readLines hscope hrefuses hne hread
    refine hall ?_
    rw [hconfig, hlines, Config.lines_setAll]
    exact (Nat.zero_add _).symm
  · intro h
    exact ⟨_, parse_serialize h files, Config.sameContents_merge_empty config⟩

/-- A name with a line feed in it, which makes two lines of its text. -/
theorem parse_serialize_iff_lineFeed :
    (∀ path, ∃ fault, FileTree.empty.openText path = .error fault) ∧
      ¬ ∃ parsed, Config.parse .empty (Config.empty.set "A = 1\nB" ["2"]).serialize = .ok parsed ∧
        parsed.sameContents (Config.empty.set "A = 1\nB" ["2"]) := by
  refine ⟨FileTree.openText_empty, ?_⟩
  rw [parse_serialize_iff FileTree.openText_empty]
  intro h
  exact absurd (h.names "A = 1\nB" List.mem_cons_self) (by decide)

end Interpreter

end ShellConfig
