import ShellConfig.Proofs.Lexer.LineOperation
import ShellConfig.Proofs.Lexer.Locality

/-!
How many characters the words of a line can have. Without variables no piece puts more characters
into a word than it takes from the text, and only text that stands for itself puts in as many
(`Lexer.size_lt_of_reads`). Main statement: the values that a line gives to a variable have no more
characters than the line, and if they have as many, then all of it is bare
(`Lexer.exists_yields_of_run`).
-/

set_option autoImplicit false

namespace ShellConfig

/-- The number of characters in words. -/
def charCount (words : List String) : Nat := (words.flatMap String.toList).length

theorem charCount_singleton (word : String) : charCount [word] = word.length := by
  rw [charCount, List.flatMap_singleton, String.length_toList]

theorem charCount_append (front back : List String) :
    charCount (front ++ back) = charCount front + charCount back := by
  rw [charCount, List.flatMap_append, List.length_append]
  rfl

namespace Token

theorem length_of_escaped {text : List Char} {length : Nat} {c : Char}
    (h : escaped text = some ⟨length, some c⟩) : length = 2 := by
  unfold escaped at h
  split at h <;> cases h
  rfl

theorem length_of_singleQuoted {text : List Char} {found : Match String}
    (h : singleQuoted text = some found) : found.length = found.value.length + 2 := by
  unfold singleQuoted at h
  split at h
  · obtain ⟨body, -, rfl⟩ := Option.map_eq_some_iff.1 h
    rw [String.length_ofList]
  · cases h

end Token

namespace Lexer

/-- The number of characters in the words of the line, if all the text to come is put into them. -/
def size (lexer : Lexer) : Nat := charCount lexer.endWord.line + lexer.cursor.rest.length

section
variable {lexer after : Lexer} {mode : Mode}

theorem size_take {length : Nat} (h : length ≤ lexer.cursor.rest.length) :
    (lexer.take length).size + length = lexer.size := by
  have hrest : (lexer.take length).cursor.rest = lexer.cursor.rest.drop length := rfl
  have hline : (lexer.take length).endWord.line = lexer.endWord.line := rfl
  rw [size, size, hrest, hline, List.length_drop]
  omega

theorem size_take_lt {length : Nat} (h : length ≤ lexer.cursor.rest.length) (hpos : 0 < length) :
    (lexer.take length).size < lexer.size := by
  have htake := size_take h
  omega

theorem size_addText (lexer : Lexer) (start : Nat) (text : String) :
    (lexer.addText start text).size = lexer.size + text.length := by
  have hword : charCount [lexer.word.getD "" ++ text] =
      charCount lexer.word.toList + text.length := by
    rw [charCount_singleton, String.length_append]
    cases lexer.word with
    | none => rfl
    | some word => rw [Option.toList_some, charCount_singleton, Option.getD_some]
  have hbefore : lexer.size =
      charCount (lexer.line ++ lexer.word.toList) + lexer.cursor.rest.length := rfl
  have hafter : (lexer.addText start text).size =
      charCount (lexer.line ++ [lexer.word.getD "" ++ text]) + lexer.cursor.rest.length := rfl
  rw [hbefore, hafter, charCount_append, charCount_append, hword]
  omega

theorem size_endWord (lexer : Lexer) : lexer.endWord.size = lexer.size := by
  have hrest : lexer.endWord.cursor.rest = lexer.cursor.rest := rfl
  have hline : lexer.endWord.endWord.line = lexer.endWord.line ++ [] := rfl
  rw [size, size, hrest, hline, List.append_nil]

theorem size_quote (lexer : Lexer) (quote : Option Nat) :
    { lexer with quote }.size = lexer.size := rfl

/-! ## Pieces -/

/-- Text that stands for itself loses no character. -/
theorem size_of_readText {accepts : Char → Bool} {what : String}
    (h : lexer.readText (Token.run accepts) what = .ok after) :
    after.size = lexer.size ∧ after.inQuotes = lexer.inQuotes ∧
      ∃ chars, lexer.cursor.rest = chars ++ after.cursor.rest ∧ ∀ c ∈ chars, accepts c := by
  obtain ⟨found, hf, rfl⟩ := readPiece_eq_ok h
  have hle := (Token.local_run accepts _ _ hf).1
  unfold Token.run at hf
  split at hf
  · cases hf
  · obtain rfl := Option.some.inj hf
    have htake : (lexer.take _).size + _ = lexer.size := size_take hle
    refine ⟨?_, rfl, lexer.cursor.rest.takeWhile accepts, ?_, ?_⟩
    · rw [size_addText, ← htake, String.length_ofList]
    · have hrest := Scope.drop_length_takeWhile accepts lexer.cursor.rest
      change _ = _ ++ lexer.cursor.rest.drop _
      rw [hrest, List.takeWhile_append_dropWhile]
    · exact List.all_eq_true.1 List.all_takeWhile

/-- Any other piece that needs nothing but the text loses a character. -/
theorem size_lt_of_reads {read : Lexer → Except LexFailure Lexer} (hm : mode.reads? = some read)
    (hbare : mode ≠ .bareText) (hquoted : mode ≠ .quotedText) (h : read lexer = .ok after) :
    after.size < lexer.size := by
  cases mode <;> cases hm
  case bareText => exact absurd rfl hbare
  case quotedText => exact absurd rfl hquoted
  case whiteSpace =>
    obtain ⟨found, hf, rfl⟩ := readPiece_eq_ok h
    rw [size_endWord]
    exact size_take_lt (Token.local_separator _ _ hf).1 (Token.consumes_separator _ _ hf).1
  case backslash =>
    obtain ⟨⟨length, _ | c⟩, hf, rfl⟩ := readPiece_eq_ok h
    · have hlt := size_take_lt (Token.local_escaped _ _ hf).1 (Token.consumes_escaped _ _ hf).1
      change size (if lexer.inQuotes then _ else _) < _
      split
      · exact hlt
      · rw [size_endWord]
        exact hlt
    · obtain rfl := Token.length_of_escaped hf
      have htake := size_take (Token.local_escaped _ _ hf).1
      rw [size_addText, ← htake, String.length_singleton]
      exact Nat.lt_succ_self _
  case singleQuoted =>
    obtain ⟨found, hf, rfl⟩ := readPiece_eq_ok h
    have htake := size_take (Token.local_singleQuoted _ _ hf).1
    have hlength := Token.length_of_singleQuoted hf
    rw [size_addText]
    omega
  case doubleQuote =>
    rw [readDoubleQuote_eq] at h
    split at h
    · next hrest =>
      obtain rfl := Except.ok.inj h
      rw [size_quote]
      exact size_take_lt (by rw [hrest]; exact Nat.le_add_left 1 _) Nat.one_pos
    · next hrest =>
      obtain rfl := Except.ok.inj h
      rw [size_addText]
      exact size_take_lt (by rw [hrest]; exact Nat.le_add_left 2 _) Nat.two_pos
    · next hrest =>
      obtain rfl := Except.ok.inj h
      rw [size_quote]
      exact size_take_lt (by rw [hrest]; exact Nat.le_add_left 1 _) Nat.one_pos
    · cases h

/-- A reference to a variable that is not set is left out. -/
theorem size_lt_of_readReference {scope : Scope} {session last : Session}
    (hunset : ∀ name, session.config.get? name = none)
    (h : lexer.readReference scope session = (.ok after, last)) : after.size < lexer.size := by
  obtain ⟨found, hf, rfl⟩ := eq_resolve_of_readReference h
  rw [expand_eq_undefined_iff.2 (hunset _)]
  exact size_take_lt (Token.local_reference _ _ hf).1 (Token.consumes_reference _ _ hf).1

end

/-! ## Values -/

/-- The values that the line of this state can give: they have no more characters than it, and as
many only if what is still to be read is bare. -/
structure Yields (lexer : Lexer) (values : List String) : Prop where
  charCount_le : charCount values ≤ lexer.size
  bare : charCount values = lexer.size → lexer.inQuotes = false →
    ∀ c ∈ lexer.cursor.rest, isBareChar c

section
variable {scope : Scope} {mode next : Mode} {lexer after ended : Lexer} {session last : Session}
  {continuation : Continuation} {values : List String} {name : String}

theorem Yields.of_size_lt (h : after.Yields values) (hlt : after.size < lexer.size) :
    lexer.Yields values := by
  have hle := h.charCount_le
  exact ⟨by omega, fun hcount => by omega⟩

/-- A piece that needs nothing but the text. Outside quotes only bare text loses no character. -/
theorem Yields.of_reads {read : Lexer → Except LexFailure Lexer} (hfits : lexer.Fits mode)
    (hm : mode.reads? = some read) (hread : read lexer = .ok after) (h : after.Yields values) :
    lexer.Yields values := by
  by_cases hbare : mode = .bareText
  · subst hbare
    obtain rfl := Option.some.inj hm
    obtain ⟨hsize, hquotes, chars, hrest, hchars⟩ := size_of_readText hread
    refine ⟨hsize ▸ h.charCount_le, fun hcount hnone c hc => ?_⟩
    rw [hrest] at hc
    obtain hc | hc := List.mem_append.1 hc
    · exact hchars c hc
    · exact h.bare (hcount.trans hsize.symm) (hquotes.trans hnone) c hc
  · by_cases hquoted : mode = .quotedText
    · subst hquoted
      obtain rfl := Option.some.inj hm
      obtain ⟨hsize, -⟩ := size_of_readText hread
      refine ⟨hsize ▸ h.charCount_le, fun _ hnone => ?_⟩
      rw [inQuotes_of_quotedText hfits] at hnone
      cases hnone
    · exact h.of_size_lt (size_lt_of_reads hm hbare hquoted hread)

theorem Yields.of_step (hfits : lexer.Fits mode)
    (hunset : ∀ name, session.config.get? name = none) (hmode : mode ≠ .beginOfLine)
    (hnext : next ≠ .beginOfLine)
    (hstep : step scope mode lexer session = (.ok (some (next, after)), last))
    (h : after.Yields values) : lexer.Yields values := by
  obtain ⟨hbegin, -⟩ | ⟨-, -, rfl, -⟩ | ⟨read, hm, -, hread, -⟩ | ⟨-, -, hread⟩ |
    ⟨reader, -, hbegins, -⟩ := step_cases hstep
  · exact absurd hbegin hmode
  · exact h
  · exact h.of_reads hfits hm hread
  · exact h.of_size_lt (size_lt_of_readReference hunset hread)
  · exact absurd hbegins hnext

theorem yields_line (lexer : Lexer) : lexer.Yields lexer.endWord.line := by
  refine ⟨Nat.le_add_right _ _, fun hcount _ c hc => ?_⟩
  rw [size, Nat.left_eq_add, List.length_eq_zero_iff] at hcount
  rw [hcount] at hc
  cases hc

/-- Where there is no line feed, nothing is left to do behind a line. -/
theorem run_after_line (hfits : lexer.Fits mode) (hline : '\n' ∉ lexer.cursor.rest)
    (hstep : step scope mode lexer session = (.ok (some (.beginOfLine, after)), last)) :
    run scope .beginOfLine after last = (.ok (), last) := by
  have hfresh : after.reading = Reading.fresh after.cursor.rest := fits_of_step hfits hstep
  have hnil : after.cursor.rest = [] := by
    obtain ⟨-, ended, hended, rfl⟩ | ⟨hne, -⟩ := ended?_of_step hstep
    · obtain ⟨-, -, hnone⟩ | ⟨reader, found, hm, hf, rfl, -⟩ := ended?_cases hended
      · cases hnone
      · obtain hnil | hlast := Token.getLast?_of_ends hm hf
        · exact hnil
        · exact absurd (List.mem_of_mem_take (List.mem_of_getLast? hlast)) hline
    · exact absurd rfl hne
  exact run_blank scope last hfresh (by rw [hnil]; rfl)

theorem pending_of_step_within (hmode : mode ≠ .beginOfLine) (hnext : next ≠ .beginOfLine)
    (hstep : step scope mode lexer session = (.ok (some (next, after)), last)) :
    after.pending = lexer.pending := by
  obtain ⟨hbegin, -⟩ | ⟨-, -, rfl, -⟩ | ⟨read, hm, -, hread, -⟩ | ⟨-, -, hread⟩ |
    ⟨reader, -, hbegins, -⟩ := step_cases hstep
  · exact absurd hbegin hmode
  · rfl
  · exact (cursor_of_reads hm hread).2
  · exact (cursor_of_readReference hread).2
  · exact absurd hbegins hnext

theorem config_of_set {found : Continuation} (hpending : lexer.pending = .set name)
    (hended : lexer.ended? mode = some (ended, continuation))
    (hstep : step scope mode lexer session = (.ok found, last)) :
    last.config = session.config.set name lexer.endWord.line := by
  obtain ⟨hwords, hsame⟩ := line_of_ended hended
  have hset : ended.pending = .set name := hsame.trans hpending
  have hcalled : ended.called? = none := called?_eq_none (by rw [hset]; nofun)
  rw [step_of_applied hended hcalled] at hstep
  rw [← (Prod.mk.inj hstep).2, ← hwords, applied, hset]
  rfl

/-- Without variables, an assignment on the last line of a text gives its variable values that the
line can yield. -/
theorem exists_yields_of_run (hfits : lexer.Fits mode) (hmode : mode ≠ .beginOfLine)
    (hpending : lexer.pending = .set name) (hline : '\n' ∉ lexer.cursor.rest)
    (hunset : ∀ name, session.config.get? name = none)
    (h : run scope mode lexer session = (.ok (), last)) :
    ∃ values, last.config = session.config.set name values ∧ lexer.Yields values := by
  -- The induction is on the run. Within the line a step hands `Yields` back to the state before it.
  fun_induction run scope mode lexer session with
  | case1 mode lexer before next after middle hstep ih =>
    obtain ⟨rfl, ended, hended, rfl⟩ | ⟨hnext, hended⟩ := ended?_of_step hstep
    · -- The line ends, and behind it the text does.
      have hblank := run_after_line hfits hline hstep
      obtain rfl : middle = last := (Prod.mk.inj (hblank.symm.trans h)).2
      exact ⟨_, config_of_set hpending hended hstep, yields_line lexer⟩
    · have hmiddle : middle.config = before.config := by
        have hkept : (step scope mode lexer before).2.config = before.config :=
          config_of_not_ended hended
        rwa [hstep] at hkept
      have hrest : '\n' ∉ after.cursor.rest := fun hmem => hline ((rest_of_step hstep).mem hmem)
      obtain ⟨values, hvalues, hyields⟩ := ih (fits_of_step hfits hstep) hnext
        ((pending_of_step_within hmode hnext hstep).trans hpending) hrest
        (fun name => by rw [hmiddle, hunset]) h
      exact ⟨values, by rw [hvalues, hmiddle], hyields.of_step hfits hunset hmode hnext hstep⟩
  | case2 mode lexer before middle hstep =>
    obtain ⟨rfl, -⟩ := step_eq_none hstep
    obtain ⟨-, rfl⟩ := Prod.mk.inj h
    exact ⟨_, config_of_set hpending rfl hstep, yields_line lexer⟩
  | case3 mode lexer before found middle hstep => cases h

end
end Lexer
end ShellConfig
