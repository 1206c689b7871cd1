import ShellConfig.Proofs.Lexer.Characters

/-!
Written words: the ways in which the words of a line can be quoted, and what they stand for. A word
is one or more fragments in any of the four styles, with no blank between them; words stand apart by
blanks and joined lines. Main statement: a written line is read as the words that it stands for
(`WrittenLine.read_text`).
-/

set_option autoImplicit false

namespace ShellConfig
open Scope (extend extend_extend)

/-! ## Fragments -/

/-- A backslash before a line end, which joins two lines. -/
inductive Joint where
  | lineFeed
  | returnLineFeed

def Joint.text : Joint → List Char
  | lineFeed => ['\\', '\n']
  | returnLineFeed => ['\\', '\r', '\n']

/-- What stands between two double quotes. -/
inductive QuotedItem where
  | plain (c : Char) (accepted : Token.isQuotedChar c)
  | escaped (c : Char) (noReturn : c ≠ '\r') (noLineFeed : c ≠ '\n')
  | joined (joint : Joint)

namespace QuotedItem

def text : QuotedItem → List Char
  | .plain c _ => [c]
  | .escaped c _ _ => ['\\', c]
  | .joined joint => joint.text

/-- The characters that the item stands for. -/
def meaning : QuotedItem → List Char
  | .plain c _ => [c]
  | .escaped c _ _ => [c]
  | .joined _ => []

/-- Whether the item stands for a character. -/
def counts : QuotedItem → Bool
  | .joined _ => false
  | _ => true

theorem meaning_of_not_counts {item : QuotedItem} (h : item.counts = false) :
    item.meaning = [] := by
  cases item <;> first | rfl | cases h

end QuotedItem

/-- A part of a word in one style of quoting. -/
inductive Fragment where
  | bare (chars : List Char) (nonempty : chars ≠ []) (accepted : ∀ c ∈ chars, isBareChar c)
  | escaped (c : Char) (noReturn : c ≠ '\r') (noLineFeed : c ≠ '\n')
  | single (body : List Char) (noQuote : '\'' ∉ body)
  | double (items : List QuotedItem)

namespace Fragment

def text : Fragment → List Char
  | bare chars _ _ => chars
  | escaped c _ _ => ['\\', c]
  | single body _ => '\'' :: (body ++ ['\''])
  | double items => '"' :: (items.flatMap QuotedItem.text ++ ['"'])

/-- The characters that the fragment stands for. -/
def meaning : Fragment → List Char
  | bare chars _ _ => chars
  | escaped c _ _ => [c]
  | single body _ => body
  | double items => items.flatMap QuotedItem.meaning

/-- Whether the fragment belongs to a word even if it stands for no characters: double quotes with
nothing but joined lines between them do not. -/
def counts : Fragment → Bool
  | double items => items.isEmpty || items.any QuotedItem.counts
  | _ => true

theorem meaning_of_not_counts {fragment : Fragment} (h : fragment.counts = false) :
    fragment.meaning = [] := by
  cases fragment with
  | double items =>
    obtain ⟨-, hitems⟩ := Bool.or_eq_false_iff.1 h
    refine List.flatMap_eq_nil_iff.2 fun item hitem => QuotedItem.meaning_of_not_counts ?_
    rw [List.any_eq_false] at hitems
    simpa using hitems item hitem
  | bare | escaped | single => cases h

end Fragment

/-- Fragments of which at least one makes a word. -/
structure WrittenWord where
  fragments : List Fragment
  counts : ∃ fragment ∈ fragments, fragment.counts

namespace WrittenWord

def text (word : WrittenWord) : List Char := word.fragments.flatMap Fragment.text

/-- The word that is written. -/
def value (word : WrittenWord) : String :=
  String.ofList (word.fragments.flatMap Fragment.meaning)

end WrittenWord

/-! ## Lines -/

/-- What can stand between two words. -/
inductive Separator where
  | blank (c : Char) (accepted : isInlineBlank c)
  | joined (joint : Joint)

def Separator.text : Separator → List Char
  | .blank c _ => [c]
  | .joined joint => joint.text

/-- Words with what stands after each of them, and what stands before the first one. -/
structure WrittenLine where
  before : List Separator
  words : List (WrittenWord × List Separator)
  apart : ∀ entry ∈ words.dropLast, entry.2 ≠ []

namespace WrittenLine

def text (line : WrittenLine) : List Char :=
  line.before.flatMap Separator.text ++
    line.words.flatMap fun entry => entry.1.text ++ entry.2.flatMap Separator.text

/-- The words that are written. -/
def values (line : WrittenLine) : List String := line.words.map fun entry => entry.1.value

end WrittenLine

/-! ## Reading words -/

/-- The word with the characters that a part of it stands for, if that part counts. -/
def extendIf (counts : Bool) (word : Option String) (chars : List Char) : Option String :=
  if counts then extend word chars else word

theorem extendIf_extendIf {first second : Bool} {word : Option String} {chars more : List Char}
    (hfirst : first = false → chars = []) (hsecond : second = false → more = []) :
    extendIf second (extendIf first word chars) more =
      extendIf (first || second) word (chars ++ more) := by
  cases first <;> cases second <;> simp_all [extendIf, extend_extend]

section
variable {scope : Scope} {session : Session} {inQuotes : Bool} {word : Option String}
  {line : List String} {pending : Operation} (rest : List Char)

/-- Parts that are read one by one are read in turn. -/
theorem read_flatMap {α : Type} {text meaning : α → List Char} {counts : α → Bool}
    (hmeaning : ∀ part, counts part = false → meaning part = [])
    (hread : ∀ part word rest,
      scope.read ⟨text part ++ rest, inQuotes, word, line, pending⟩ session =
        scope.read ⟨rest, inQuotes, extendIf (counts part) word (meaning part), line, pending⟩
          session)
    (parts : List α) :
    scope.read ⟨parts.flatMap text ++ rest, inQuotes, word, line, pending⟩ session =
      scope.read ⟨rest, inQuotes, extendIf (parts.any counts) word (parts.flatMap meaning), line,
        pending⟩ session := by
  induction parts generalizing word with
  | nil => rfl
  | cons part parts ih =>
    have hrest : parts.any counts = false → parts.flatMap meaning = [] := by
      intro h
      refine List.flatMap_eq_nil_iff.2 fun other hother => hmeaning other ?_
      rw [List.any_eq_false] at h
      simpa using h other hother
    rw [List.flatMap_cons, List.append_assoc, hread, ih, extendIf_extendIf (hmeaning part) hrest,
      List.any_cons, List.flatMap_cons]

variable (hscope : scope.IgnoresPositions)
include hscope

theorem Joint.read_text (joint : Joint) :
    scope.read ⟨joint.text ++ rest, inQuotes, word, line, pending⟩ session =
      scope.read ⟨rest, inQuotes, if inQuotes then word else none,
        if inQuotes then line else line ++ word.toList, pending⟩ session := by
  cases joint with
  | lineFeed =>
    have hf : Token.escaped ('\\' :: '\n' :: rest) = some ⟨2, none⟩ := rfl
    rw [Joint.text, List.cons_append, List.cons_append, List.nil_append,
      Scope.read_joined hscope hf]
    rfl
  | returnLineFeed =>
    have hf : Token.escaped ('\\' :: '\r' :: '\n' :: rest) = some ⟨3, none⟩ := rfl
    rw [Joint.text, List.cons_append, List.cons_append, List.cons_append, List.nil_append,
      Scope.read_joined hscope hf]
    rfl

theorem QuotedItem.read_text (item : QuotedItem) :
    scope.read ⟨item.text ++ rest, true, word, line, pending⟩ session =
      scope.read ⟨rest, true, extendIf item.counts word item.meaning, line, pending⟩ session := by
  cases item with
  | plain c accepted =>
    exact Scope.read_quoted hscope (List.cons_ne_nil _ _) (List.forall_mem_singleton.2 accepted)
  | escaped c noReturn noLineFeed => exact Scope.read_escaped hscope noReturn noLineFeed
  | joined joint => exact joint.read_text rest hscope

theorem QuotedItem.read_texts (items : List QuotedItem) :
    scope.read ⟨items.flatMap text ++ rest, true, word, line, pending⟩ session =
      scope.read ⟨rest, true, extendIf (items.any counts) word (items.flatMap meaning), line,
        pending⟩ session :=
  read_flatMap rest (fun _ => meaning_of_not_counts) (fun item _ _ => item.read_text _ hscope) items

theorem Fragment.read_double (items : List QuotedItem) :
    scope.read ⟨(double items).text ++ rest, false, word, line, pending⟩ session =
      scope.read ⟨rest, false, extendIf (double items).counts word (double items).meaning, line,
        pending⟩ session := by
  rcases items with _ | ⟨item, items⟩
  · exact Scope.read_doubleQuote_empty hscope
  · have hhead : ((item :: items).flatMap QuotedItem.text ++ '"' :: rest).head? ≠ some '"' := by
      cases item with
      | plain c accepted =>
        rintro heq
        obtain rfl : c = '"' := Option.some.inj heq
        exact absurd accepted (by decide)
      | escaped => simp [QuotedItem.text]
      | joined joint => cases joint <;> simp [QuotedItem.text, Joint.text]
    have htext : (double (item :: items)).text ++ rest =
        '"' :: ((item :: items).flatMap QuotedItem.text ++ '"' :: rest) := by
      simp [text]
    rw [htext, Scope.read_doubleQuote_opens hscope hhead, QuotedItem.read_texts _ hscope,
      Scope.read_doubleQuote_closes hscope]
    rfl

theorem Fragment.read_text (fragment : Fragment) :
    scope.read ⟨fragment.text ++ rest, false, word, line, pending⟩ session =
      scope.read ⟨rest, false, extendIf fragment.counts word fragment.meaning, line, pending⟩
        session := by
  cases fragment with
  | bare chars nonempty accepted => exact Scope.read_bare hscope nonempty accepted
  | escaped c noReturn noLineFeed => exact Scope.read_escaped hscope noReturn noLineFeed
  | single body noQuote =>
    have htext : (single body noQuote).text ++ rest = '\'' :: (body ++ '\'' :: rest) := by
      simp [text]
    rw [htext]
    exact Scope.read_singleQuoted hscope noQuote
  | double items => exact read_double rest hscope items

theorem Fragment.read_texts (fragments : List Fragment) :
    scope.read ⟨fragments.flatMap text ++ rest, false, word, line, pending⟩ session =
      scope.read ⟨rest, false, extendIf (fragments.any counts) word (fragments.flatMap meaning),
        line, pending⟩ session :=
  read_flatMap rest (fun _ => meaning_of_not_counts) (fun fragment _ _ => fragment.read_text _ hscope)
    fragments

theorem WrittenWord.read_text (written : WrittenWord) :
    scope.read ⟨written.text ++ rest, false, none, line, pending⟩ session =
      scope.read ⟨rest, false, some written.value, line, pending⟩ session := by
  have hcounts : written.fragments.any Fragment.counts = true := List.any_eq_true.2 written.counts
  rw [text, Fragment.read_texts _ hscope, hcounts]
  simp [extendIf, extend, value]

/-! ## Reading lines -/

theorem Separator.read_text (separator : Separator) :
    scope.read ⟨separator.text ++ rest, false, word, line, pending⟩ session =
      scope.read ⟨rest, false, none, line ++ word.toList, pending⟩ session := by
  cases separator with
  | blank c accepted => exact Scope.read_blank hscope accepted
  | joined joint => exact joint.read_text rest hscope

theorem Separator.read_texts (separators : List Separator) (hne : separators ≠ []) :
    scope.read ⟨separators.flatMap text ++ rest, false, word, line, pending⟩ session =
      scope.read ⟨rest, false, none, line ++ word.toList, pending⟩ session := by
  induction separators generalizing word line with
  | nil => exact absurd rfl hne
  | cons separator separators ih =>
    rw [List.flatMap_cons, List.append_assoc, separator.read_text _ hscope]
    rcases separators with _ | ⟨other, separators⟩
    · rfl
    · rw [ih (by simp)]
      simp

section
variable (session line pending)

theorem WrittenLine.read_words (words : List (WrittenWord × List Separator))
    (hapart : ∀ entry ∈ words.dropLast, entry.2 ≠ []) :
    ∃ word finished, finished ++ word.toList = line ++ words.map (·.1.value) ∧
      scope.read ⟨words.flatMap (fun entry => entry.1.text ++ entry.2.flatMap Separator.text) ++
          rest, false, none, line, pending⟩ session =
        scope.read ⟨rest, false, word, finished, pending⟩ session := by
  induction words generalizing line with
  | nil => exact ⟨none, line, rfl, rfl⟩
  | cons entry words ih =>
    rw [List.flatMap_cons, List.append_assoc, List.append_assoc, entry.1.read_text _ hscope]
    by_cases hgap : entry.2 = []
    · -- only the last word of the line has nothing after it
      rcases words with _ | ⟨other, words⟩
      · exact ⟨some entry.1.value, line, rfl, by simp [hgap]⟩
      · exact absurd hgap (hapart entry (by simp))
    · rw [Separator.read_texts _ hscope entry.2 hgap]
      obtain ⟨word, finished, hvalues, hread⟩ := @ih (line ++ [entry.1.value])
        fun other hother => hapart other (by
          rcases words with _ | ⟨next, words⟩
          · cases hother
          · exact List.mem_cons_of_mem _ hother)
      exact ⟨word, finished, by simpa using hvalues, hread⟩

/-- A written line is read as the words that it stands for: the last of them may still be open. -/
theorem WrittenLine.read_text (written : WrittenLine) :
    ∃ word finished, finished ++ word.toList = written.values ∧
      scope.read ⟨written.text ++ rest, false, none, [], pending⟩ session =
        scope.read ⟨rest, false, word, finished, pending⟩ session := by
  obtain ⟨word, finished, hvalues, hread⟩ :=
    read_words session [] pending rest hscope written.words written.apart
  refine ⟨word, finished, hvalues, ?_⟩
  rw [← hread, text, List.append_assoc]
  by_cases hbefore : written.before = []
  · rw [hbefore, List.flatMap_nil, List.nil_append]
  · rw [Separator.read_texts _ hscope written.before hbefore]
    rfl

end

/-- What a written line does at the end of a text. -/
theorem WrittenLine.read_line (written : WrittenLine) {config : Config}
    (h : pending.apply written.values session.config = (config, none)) :
    scope.read ⟨written.text, false, none, [], pending⟩ session =
      Outcome.unplaced (.ok (), { session with config }) := by
  obtain ⟨word, finished, hvalues, hread⟩ := written.read_text session pending [] hscope
  rw [List.append_nil] at hread
  rw [hread, Scope.read_nil (by rw [hvalues, h])]

end

end ShellConfig
