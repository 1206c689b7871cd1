import ShellConfig.Config.Word
import ShellConfig.Proofs.Quoting.Words

/-!
Escaped words as written words. An escaped word is one bare fragment, or single quotes that are
closed and opened again around each quote in the word. Main statements: the escaped form of a list of
words is a written line (`text_ofWords`), it stands for these words (`values_ofWords`), and it does
not end in a return (`not_return_suffix_escapeLine`).
-/

set_option autoImplicit false

namespace ShellConfig

/-! ## Words -/

/-- The fragments between the single quotes of an escaped word, when those for `body` are read and
`rest` is to come. -/
def quotedFragments (body : List Char) (hbody : '\'' ∉ body) : List Char → List Fragment
  | [] => [.single body hbody]
  | c :: rest =>
    if h : c = '\'' then
      .single body hbody :: .escaped '\'' (by decide) (by decide) ::
        quotedFragments [] List.not_mem_nil rest
    else quotedFragments (body ++ [c]) (by simp [hbody, Ne.symm h]) rest

theorem text_quotedFragments (body : List Char) (hbody : '\'' ∉ body) (rest : List Char) :
    (quotedFragments body hbody rest).flatMap Fragment.text =
      '\'' :: (body ++ rest.flatMap escapeChar ++ ['\'']) := by
  fun_induction quotedFragments body hbody rest with
  | case1 body hbody => simp [Fragment.text]
  | case2 body hbody rest ih => simp [ih, Fragment.text, escapeChar]
  | case3 body hbody c rest h ih => simp [ih, escapeChar, h]

theorem meaning_quotedFragments (body : List Char) (hbody : '\'' ∉ body) (rest : List Char) :
    (quotedFragments body hbody rest).flatMap Fragment.meaning = body ++ rest := by
  fun_induction quotedFragments body hbody rest with
  | case1 body hbody => simp [Fragment.meaning]
  | case2 body hbody rest ih => simp [ih, Fragment.meaning]
  | case3 body hbody c rest h ih => simp [ih]

theorem counts_quotedFragments (body : List Char) (hbody : '\'' ∉ body) (rest : List Char) :
    ∃ fragment ∈ quotedFragments body hbody rest, fragment.counts := by
  fun_induction quotedFragments body hbody rest with
  | case1 body hbody => exact ⟨_, List.mem_cons_self, rfl⟩
  | case2 body hbody rest ih => exact ⟨_, List.mem_cons_self, rfl⟩
  | case3 body hbody c rest h ih => exact ih

theorem isBareWord_iff {word : String} :
    isBareWord word ↔ word.toList ≠ [] ∧ ∀ c ∈ word.toList, isBareChar c := by
  simp [isBareWord]

namespace WrittenWord

/-- A word as it is escaped. -/
def ofWord (word : String) : WrittenWord :=
  if h : isBareWord word then
    ⟨[.bare word.toList (isBareWord_iff.1 h).1 (isBareWord_iff.1 h).2],
      ⟨_, List.mem_cons_self, rfl⟩⟩
  else ⟨quotedFragments [] List.not_mem_nil word.toList, counts_quotedFragments _ _ _⟩

theorem text_ofWord (word : String) : (ofWord word).text = (escape word).toList := by
  unfold ofWord escape text
  split
  · simp [Fragment.text]
  · rw [text_quotedFragments, String.toList_ofList, List.nil_append]
    rfl

theorem value_ofWord (word : String) : (ofWord word).value = word := by
  unfold ofWord value
  split
  · simp [Fragment.meaning]
  · rw [meaning_quotedFragments, List.nil_append, String.ofList_toList]

end WrittenWord

/-! ## Lines -/

/-- What stands before the words that are still to come on a line. -/
def gapBefore (words : List String) : List Separator :=
  if words = [] then [] else [.blank ' ' rfl]

/-- Escaped words with a space after each of them but the last. -/
def spacedWords : List String → List (WrittenWord × List Separator)
  | [] => []
  | word :: rest => (.ofWord word, gapBefore rest) :: spacedWords rest

theorem apart_cons_spacedWords {word : WrittenWord} {words : List String}
    (hwords : ∀ entry ∈ (spacedWords words).dropLast, entry.2 ≠ []) :
    ∀ entry ∈ ((word, gapBefore words) :: spacedWords words).dropLast, entry.2 ≠ [] := by
  rcases words with _ | ⟨other, words⟩
  · simp [spacedWords]
  · intro entry hentry
    rw [spacedWords, List.dropLast_cons_cons] at hentry
    rcases List.mem_cons.1 hentry with rfl | hentry
    · simp [gapBefore]
    · exact hwords entry hentry

theorem spacedWords_apart (words : List String) :
    ∀ entry ∈ (spacedWords words).dropLast, entry.2 ≠ [] := by
  induction words with
  | nil => simp [spacedWords]
  | cons word rest ih => exact apart_cons_spacedWords ih

theorem escapeLine_cons (word : String) (words : List String) :
    (escapeLine (word :: words)).toList = (escape word).toList ++
      ((gapBefore words).flatMap Separator.text ++ (escapeLine words).toList) := by
  rcases words with _ | ⟨other, words⟩
  · simp [escapeLine, gapBefore]
  · simp [escapeLine, gapBefore, Separator.text]

namespace WrittenLine

/-- A written word before escaped ones. -/
def cons (word : WrittenWord) (words : List String) : WrittenLine :=
  ⟨[], (word, gapBefore words) :: spacedWords words,
    apart_cons_spacedWords (spacedWords_apart words)⟩

/-- The words of a line as they are escaped, after separators. -/
def ofWords (before : List Separator) (words : List String) : WrittenLine :=
  ⟨before, spacedWords words, spacedWords_apart words⟩

theorem text_ofWords (before : List Separator) (words : List String) :
    (ofWords before words).text = before.flatMap Separator.text ++ (escapeLine words).toList := by
  change before.flatMap Separator.text ++ (spacedWords words).flatMap _ = _
  congr 1
  induction words with
  | nil => rfl
  | cons word rest ih =>
    rw [spacedWords, List.flatMap_cons, ih, escapeLine_cons, WrittenWord.text_ofWord,
      List.append_assoc]

theorem text_cons (word : WrittenWord) (words : List String) :
    (cons word words).text =
      word.text ++ ((gapBefore words).flatMap Separator.text ++ (escapeLine words).toList) := by
  have hwords : (spacedWords words).flatMap _ = (escapeLine words).toList := text_ofWords [] words
  change [] ++ ((word, gapBefore words) :: spacedWords words).flatMap _ = _
  rw [List.nil_append, List.flatMap_cons, hwords, List.append_assoc]

theorem values_ofWords (before : List Separator) (words : List String) :
    (ofWords before words).values = words := by
  change (spacedWords words).map _ = words
  induction words with
  | nil => rfl
  | cons word rest ih => rw [spacedWords, List.map_cons, ih, WrittenWord.value_ofWord]

end WrittenLine

/-! ## The last character -/

theorem escape_ne_nil (word : String) : (escape word).toList ≠ [] := by
  unfold escape
  split
  · next h => exact (isBareWord_iff.1 h).1
  · simp

theorem escapeLine_ne_nil (word : String) (rest : List String) :
    (escapeLine (word :: rest)).toList ≠ [] := by
  rw [escapeLine_cons]
  exact List.append_ne_nil_of_left_ne_nil (escape_ne_nil word) _

theorem not_return_suffix_escape (word : String) : ¬ ['\r'] <:+ (escape word).toList := by
  rintro ⟨front, hfront⟩
  unfold escape at hfront
  split at hfront
  · next h =>
    have hbare := (isBareWord_iff.1 h).2 '\r' (by rw [← hfront]; simp)
    exact absurd hbare (by decide)
  · rw [String.toList_ofList] at hfront
    have hlast : ['\r'] = ['\''] := List.append_inj_right' hfront rfl
    exact absurd hlast (by decide)

/-- What follows decides whether a text ends in a return. -/
theorem not_return_suffix_append (front : List Char) {back : List Char} (hne : back ≠ [])
    (h : ¬ ['\r'] <:+ back) : ¬ ['\r'] <:+ front ++ back := by
  have hlast : (front ++ back).getLast? = back.getLast? := by
    rw [List.getLast?_append, Option.or_of_isSome (by simpa using hne)]
  rwa [Token.return_suffix_iff, hlast, ← Token.return_suffix_iff]

theorem not_return_suffix_escapeLine (words : List String) :
    ¬ ['\r'] <:+ (escapeLine words).toList := by
  induction words with
  | nil => simp [escapeLine]
  | cons word rest ih =>
    rw [escapeLine_cons]
    rcases rest with _ | ⟨other, rest⟩
    · simpa [gapBefore, escapeLine] using not_return_suffix_escape word
    · have hne := escapeLine_ne_nil other rest
      rw [← List.append_assoc]
      exact not_return_suffix_append _ hne ih

end ShellConfig
