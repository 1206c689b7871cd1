import ShellConfig.Proofs.Lexer.LineBeginning

/-!
Texts with a return before each line feed. In a text without returns, quotes and braced references
a line feed can only be part of a line end, of a joined line or of a comment's end, and all of these
take in the return. So every reader finds the same there, over the same characters with their
returns (`Token.Respects`).
-/

set_option autoImplicit false

namespace ShellConfig

/-- The text with a return before each of its line feeds. -/
def withReturns (text : List Char) : List Char :=
  text.flatMap fun c => if c = '\n' then ['\r', '\n'] else [c]

/-- A text in which a return before a line feed cannot become part of a word or of a name. -/
structure ReturnSafe (text : List Char) : Prop where
  noReturn : '\r' ∉ text
  noSingleQuote : '\'' ∉ text
  noDoubleQuote : '"' ∉ text
  noBrace : ¬ ['$', '{'] <:+: text

theorem ReturnSafe.suffix {text rest : List Char} (h : ReturnSafe text) (hrest : rest <:+ text) :
    ReturnSafe rest where
  noReturn hmem := h.noReturn (hrest.subset hmem)
  noSingleQuote hmem := h.noSingleQuote (hrest.subset hmem)
  noDoubleQuote hmem := h.noDoubleQuote (hrest.subset hmem)
  noBrace hinside := h.noBrace (hinside.trans hrest.isInfix)

section
variable {c : Char} {text rest : List Char}

@[simp] theorem withReturns_nil : withReturns [] = [] := rfl

@[simp] theorem withReturns_lineFeed (rest : List Char) :
    withReturns ('\n' :: rest) = '\r' :: '\n' :: withReturns rest := rfl

@[simp] theorem withReturns_append (text rest : List Char) :
    withReturns (text ++ rest) = withReturns text ++ withReturns rest :=
  List.flatMap_append

theorem withReturns_cons (h : c ≠ '\n') (rest : List Char) :
    withReturns (c :: rest) = c :: withReturns rest := by
  rw [withReturns, List.flatMap_cons, if_neg h]
  rfl

theorem withReturns_eq_self (h : '\n' ∉ text) : withReturns text = text := by
  induction text with
  | nil => rfl
  | cons c text ih =>
    rw [List.mem_cons, not_or] at h
    rw [withReturns_cons (Ne.symm h.1), ih h.2]

theorem withReturns_eq_nil_iff : withReturns text = [] ↔ text = [] := by
  rcases text with _ | ⟨c, text⟩
  · simp
  · by_cases hc : c = '\n'
    · subst hc
      simp
    · simp [withReturns_cons hc]

theorem exists_append_of_withReturns {front back : List Char} (h : '\r' ∉ front)
    (htext : withReturns text = front ++ back) : ∃ rest, text = front ++ rest := by
  induction front generalizing text with
  | nil => exact ⟨text, rfl⟩
  | cons d front ih =>
    rw [List.mem_cons, not_or] at h
    rcases text with _ | ⟨c, text⟩
    · cases htext
    · by_cases hc : c = '\n'
      · subst hc
        exact absurd (List.cons.inj htext).1 h.1
      · rw [withReturns_cons hc] at htext
        obtain ⟨rfl, htail⟩ := List.cons.inj htext
        obtain ⟨rest, rfl⟩ := ih h.2 htail
        exact ⟨rest, rfl⟩

theorem withReturns_take_append_drop (text : List Char) (length : Nat) :
    withReturns (text.take length) ++ withReturns (text.drop length) = withReturns text := by
  rw [← withReturns_append, List.take_append_drop]

theorem drop_withReturns (text : List Char) (length : Nat) :
    (withReturns text).drop (withReturns (text.take length)).length =
      withReturns (text.drop length) := by
  rw [← withReturns_take_append_drop text length, List.drop_left]

theorem take_withReturns (text : List Char) (length : Nat) :
    (withReturns text).take (withReturns (text.take length)).length =
      withReturns (text.take length) := by
  rw [← withReturns_take_append_drop text length, List.take_left]

/-- The characters of a class without line feeds are as many as before. -/
theorem takeWhile_withReturns {accepts : Char → Bool} (hlf : accepts '\n' = false)
    (hcr : accepts '\r' = false) (text : List Char) :
    (withReturns text).takeWhile accepts = text.takeWhile accepts := by
  induction text with
  | nil => rfl
  | cons c text ih =>
    by_cases hc : c = '\n'
    · subst hc
      simp [hlf, hcr]
    · rw [withReturns_cons hc, List.takeWhile_cons, List.takeWhile_cons, ih]

theorem not_mem_takeWhile {accepts : Char → Bool} (hlf : accepts '\n' = false) (text : List Char) :
    '\n' ∉ text.takeWhile accepts := by
  intro hmem
  have hall := List.all_eq_true.1 (List.all_takeWhile (p := accepts) (l := text)) _ hmem
  rw [hlf] at hall
  cases hall

/-- A front part without line feeds is as long as before. -/
theorem length_withReturns_take {front : List Char} (h : '\n' ∉ front) (rest : List Char) :
    (withReturns ((front ++ rest).take front.length)).length = front.length := by
  rw [List.take_left, withReturns_eq_self h]

theorem length_withReturns_takeWhile {accepts : Char → Bool} (hlf : accepts '\n' = false)
    (text : List Char) : (withReturns (text.take (text.takeWhile accepts).length)).length =
      (text.takeWhile accepts).length := by
  have hsplit := length_withReturns_take (not_mem_takeWhile hlf text) (text.dropWhile accepts)
  rwa [List.takeWhile_append_dropWhile] at hsplit

end

namespace Token

/-! ## Lengths of runs -/

section
variable {text : List Char} (h : '\r' ∉ text)
include h

theorem lineEndsLength_withReturns : lineEndsLength (withReturns text) =
    (withReturns (text.take (lineEndsLength text))).length := by
  fun_induction lineEndsLength text with
  | case1 rest ih =>
    have hrest : '\r' ∉ rest := fun hmem => h (List.mem_cons_of_mem _ hmem)
    simp [lineEndsLength, ih hrest]
  | case2 rest ih => exact absurd List.mem_cons_self h
  | case3 text hlf hcrlf =>
    rcases text with _ | ⟨c, rest⟩
    · rfl
    · have hc : c ≠ '\n' := by rintro rfl; exact hlf rest rfl
      have hcr : c ≠ '\r' := by rintro rfl; exact h List.mem_cons_self
      rw [withReturns_cons hc]
      simp [lineEndsLength, hc, hcr]

theorem blankLinesLength_withReturns : blankLinesLength (withReturns text) =
    (withReturns (text.take (blankLinesLength text))).length := by
  fun_induction blankLinesLength text with
  | case1 => rfl
  | case2 rest ih =>
    have hrest : '\r' ∉ rest := fun hmem => h (List.mem_cons_of_mem _ hmem)
    simp [blankLinesLength, ih hrest]
  | case3 rest ih => exact absurd List.mem_cons_self h
  | case4 c rest hlf hcrlf hb ih =>
    have hrest : '\r' ∉ rest := fun hmem => h (List.mem_cons_of_mem _ hmem)
    rw [withReturns_cons hlf, List.take_succ_cons, withReturns_cons hlf,
      blankLinesLength_blank hb, ih hrest, List.length_cons]
  | case5 c rest hlf hcrlf hb =>
    have hcr : c ≠ '\r' := by rintro rfl; exact h List.mem_cons_self
    rw [withReturns_cons hlf]
    simp [blankLinesLength, hcr, hb]

theorem separatorLength_withReturns : separatorLength (withReturns text) =
    (withReturns (text.take (separatorLength text))).length := by
  fun_induction separatorLength text with
  | case1 => rfl
  | case2 rest ih =>
    have hrest : '\r' ∉ rest := fun hmem =>
      h (List.mem_cons_of_mem _ (List.mem_cons_of_mem _ hmem))
    rw [withReturns_cons (by decide), withReturns_lineFeed, List.take_succ_cons,
      List.take_succ_cons, withReturns_cons (by decide), withReturns_lineFeed]
    simp [separatorLength, ih hrest]
  | case3 rest ih => exact absurd (List.mem_cons_of_mem _ List.mem_cons_self) h
  | case4 c rest hlf hcrlf hb ih =>
    have hrest : '\r' ∉ rest := fun hmem => h (List.mem_cons_of_mem _ hmem)
    have hc : c ≠ '\n' := by rintro rfl; revert hb; decide
    rw [withReturns_cons hc, List.take_succ_cons, withReturns_cons hc,
      separatorLength_blank hb, ih hrest, List.length_cons]
  | case5 c rest hlf hcrlf hb =>
    by_cases hc : c = '\n'
    · subst hc
      rfl
    · have hhead : ∀ tail, withReturns rest ≠ '\n' :: tail ∧
          (c = '\\' → withReturns rest ≠ '\r' :: '\n' :: tail) := by
        intro tail
        rcases rest with _ | ⟨d, rest⟩
        · simp
        · by_cases hd : d = '\n'
          · subst hd
            exact ⟨by simp, fun hslash => absurd rfl (hlf rest hslash)⟩
          · have hcr : d ≠ '\r' := by
              rintro rfl
              exact h (List.mem_cons_of_mem _ List.mem_cons_self)
            rw [withReturns_cons hd]
            simp [hd, hcr]
      rw [withReturns_cons hc, separatorLength, if_neg hb]
      · simp
      · exact fun tail _ => (hhead tail).1
      · exact fun tail hslash => (hhead tail).2 hslash

end

/-! ## Readers -/

/-- The reader finds the same with returns before the line feeds. -/
def Respects {α : Type} (reader : Reader α) (text : List Char) : Prop :=
  reader (withReturns text) = (reader text).map fun found =>
    ⟨(withReturns (text.take found.length)).length, found.value⟩

theorem respects_run {accepts : Char → Bool} (hlf : accepts '\n' = false)
    (hcr : accepts '\r' = false) (text : List Char) : Respects (run accepts) text := by
  have hlength := length_withReturns_takeWhile hlf text
  rw [Respects, run, run, takeWhile_withReturns hlf hcr]
  cases hfound : text.takeWhile accepts with
  | nil => rfl
  | cons c found =>
    rw [hfound] at hlength
    simp only [Option.map_some, hlength]

/-- A reader that finds a run of some length, unless the run is empty. -/
theorem respects_of_length {reader : Reader Unit} (measure : List Char → Nat) {text : List Char}
    (hreader : ∀ text, reader text = if measure text = 0 then none else some ⟨measure text, ()⟩)
    (hle : measure text ≤ text.length)
    (hmeasure : measure (withReturns text) = (withReturns (text.take (measure text))).length) :
    Respects reader text := by
  have hzero : (withReturns (text.take (measure text))).length = 0 ↔ measure text = 0 := by
    rw [List.length_eq_zero_iff, withReturns_eq_nil_iff, List.take_eq_nil_iff]
    refine ⟨fun hnil => hnil.elim id ?_, .inl⟩
    rintro rfl
    exact Nat.le_zero.1 hle
  rw [Respects, hreader, hreader, hmeasure]
  by_cases hm : measure text = 0
  · rw [if_pos (hzero.2 hm), if_pos hm, Option.map_none]
  · rw [if_neg (mt hzero.1 hm), if_neg hm, Option.map_some]

/-- A reader of what begins with one character has nothing to find at another one. -/
theorem respects_of_opening {α : Type} {reader : Reader α} (opening : Char) {text : List Char}
    (hlf : opening ≠ '\n') (hcr : opening ≠ '\r') (hnil : reader [] = none)
    (hnone : ∀ c rest, c ≠ opening → reader (c :: rest) = none)
    (h : ∀ rest, text = opening :: rest → reader (opening :: withReturns rest) =
      (reader text).map fun found =>
        ⟨(withReturns (text.take found.length)).length, found.value⟩) : Respects reader text := by
  rcases text with _ | ⟨c, rest⟩
  · rw [Respects, withReturns_nil, hnil, Option.map_none]
  · by_cases hopening : c = opening
    · subst hopening
      rw [Respects, withReturns_cons hlf]
      exact h rest rfl
    · rw [Respects, hnone c rest hopening, Option.map_none]
      by_cases hc : c = '\n'
      · subst hc
        exact hnone _ _ hcr.symm
      · rw [withReturns_cons hc, hnone c _ hopening]

theorem comment_append {body tail : List Char} (hbody : '\n' ∉ body)
    (htail : tail.head?.any (· ≠ '\n') = false) :
    comment ('#' :: (body ++ tail)) = some ⟨1 + body.length + lineEndsLength tail, ()⟩ := by
  have hall : ∀ c ∈ body, decide (c ≠ '\n') = true := by
    intro c hc
    rw [decide_eq_true_iff]
    rintro rfl
    exact hbody hc
  rw [comment, (takeWhile_append_of_head hall htail).1, List.drop_left]

section
variable {text : List Char} (h : '\r' ∉ text)
include h

theorem respects_separator : Respects separator text := by
  refine respects_of_length separatorLength (fun text => ?_) (separatorLength_le text)
    (separatorLength_withReturns h)
  unfold separator
  split <;> simp_all

theorem respects_lineEnds : Respects lineEnds text := by
  refine respects_of_length lineEndsLength (fun text => ?_) (lineEndsLength_le text)
    (lineEndsLength_withReturns h)
  unfold lineEnds
  split <;> simp_all

theorem respects_escaped : Respects escaped text := by
  refine respects_of_opening '\\' (by decide) (by decide) rfl
    (fun c rest hc => by simp [escaped, hc]) ?_
  rintro rest rfl
  rcases rest with _ | ⟨c, rest⟩
  · rfl
  · by_cases hc : c = '\n'
    · subst hc
      rfl
    · have hcr : c ≠ '\r' := by rintro rfl; simp at h
      rw [withReturns_cons hc]
      simp [escaped, hc, hcr, withReturns_cons]

/-- The return before the line feed is taken in as a part of the comment. -/
theorem respects_comment : Respects comment text := by
  refine respects_of_opening '#' (by decide) (by decide) rfl
    (fun c rest hc => by simp [comment, hc]) ?_
  rintro rest rfl
  have hbody : '\n' ∉ rest.takeWhile (· ≠ '\n') := not_mem_takeWhile (by decide) rest
  have hend := List.head?_dropWhile_not (· ≠ '\n') rest
  have hrest := List.takeWhile_append_dropWhile (p := (· ≠ '\n')) (l := rest)
  generalize rest.takeWhile (· ≠ '\n') = body at hbody hrest
  generalize rest.dropWhile (· ≠ '\n') = tail at hend hrest
  subst hrest
  rcases tail with _ | ⟨c, tail⟩
  · rw [List.append_nil, withReturns_eq_self hbody, ← List.append_nil body,
      comment_append hbody rfl]
    simp [withReturns_cons, withReturns_eq_self hbody, lineEndsLength, Nat.add_comm 1]
  · obtain rfl : c = '\n' := by simpa using hend
    have hreturn : '\n' ∉ body ++ ['\r'] := by simpa using hbody
    have hsplit : withReturns (body ++ '\n' :: tail) =
        (body ++ ['\r']) ++ '\n' :: withReturns tail := by
      simp [withReturns_eq_self hbody]
    have htail : '\r' ∉ tail := by simp_all
    have hlength := lineEndsLength_withReturns htail
    have htake : ('#' :: (body ++ '\n' :: tail)).take
        (1 + body.length + (lineEndsLength tail + 1)) =
          '#' :: (body ++ '\n' :: tail.take (lineEndsLength tail)) := by
      rw [Nat.add_comm 1, Nat.add_right_comm, ← Nat.add_assoc, List.take_succ_cons, Nat.add_assoc,
        List.take_length_add_append, List.take_succ_cons]
    rw [hsplit, comment_append hreturn rfl, comment_append hbody rfl, Option.map_some]
    simp only [lineEndsLength, htake, hlength, withReturns_cons (c := '#') (by decide),
      withReturns_append, withReturns_eq_self hbody, withReturns_lineFeed, List.length_append,
      List.length_cons, List.length_nil]
    congr 2
    omega

end

theorem respects_reference {text : List Char} (h : ReturnSafe text) : Respects reference text := by
  refine respects_of_opening '$' (by decide) (by decide) rfl
    (fun c rest hc => by simp [reference, hc]) ?_
  rintro rest rfl
  rcases rest with _ | ⟨c, rest⟩
  · rfl
  · by_cases hc : c = '\n'
    · subst hc
      rfl
    · have hbrace : c ≠ '\x7b' := by
        rintro rfl
        exact h.noBrace (List.prefix_append ['$', '\x7b'] rest).isInfix
      have htail : (withReturns rest).takeWhile isIdentifierRest = rest.takeWhile isIdentifierRest :=
        takeWhile_withReturns (by decide) (by decide) rest
      have hfeed : isIdentifierRest '\n' = false := by decide
      have hlength := length_withReturns_takeWhile hfeed rest
      rw [withReturns_cons hc, reference, reference]
      by_cases hspecial : isSpecialName c
      · simp [hspecial, withReturns_cons hc, withReturns_cons]
      · by_cases hstart : isIdentifierStart c
        · simp [hspecial, hstart, withReturns_cons hc, withReturns_cons, htail, hlength]
        · simp [hspecial, hstart, hbrace]

/-! ## The beginning of a line -/

/-- The name, the sign and the blanks between them lie on one line. -/
theorem ne_of_mem_parts {name gap sign : List Char} (hname : isIdentifierText name)
    (hgap : ∀ d ∈ gap, isPlainBlank d) (hsign : IsSign sign) :
    ∀ d ∈ name ++ (gap ++ (sign ++ ['='])), d ≠ '\n' ∧ d ≠ '\r' := by
  have hrest {d : Char} (hd : isIdentifierRest d) : d ≠ '\n' ∧ d ≠ '\r' := by
    refine ⟨?_, ?_⟩ <;> rintro rfl <;> revert hd <;> decide
  have hblank {d : Char} (hd : isPlainBlank d) : d ≠ '\n' ∧ d ≠ '\r' := by
    refine ⟨?_, ?_⟩ <;> rintro rfl <;> revert hd <;> decide
  obtain ⟨c, tail, rfl, hc, htail⟩ := isIdentifierText_iff.1 hname
  intro d hd
  simp only [List.mem_append, List.mem_cons, List.not_mem_nil, or_false] at hd
  rcases hd with (rfl | hd) | hd | hd | rfl
  · exact hrest (isIdentifierRest_of_start hc)
  · exact hrest (htail d hd)
  · exact hblank (hgap d hd)
  · rcases hsign with rfl | rfl | rfl <;> simp at hd <;> subst hd <;> decide
  · decide

theorem beginsAssignment_of_withReturns {text : List Char}
    (h : BeginsAssignment (withReturns text)) : BeginsAssignment text := by
  obtain ⟨name, gap, sign, values, hname, hgap, hsign, htext⟩ := h
  have hsplit : withReturns text = name ++ (gap ++ (sign ++ ['='])) ++ values := by
    rw [htext]
    simp
  have hreturn : '\r' ∉ name ++ (gap ++ (sign ++ ['='])) := fun hmem =>
    (ne_of_mem_parts hname hgap hsign _ hmem).2 rfl
  obtain ⟨others, rfl⟩ := exists_append_of_withReturns hreturn hsplit
  exact ⟨name, gap, sign, others, hname, hgap, hsign, by simp⟩

theorem respects_assignment (text : List Char) : Respects assignment text := by
  cases hfound : assignment text with
  | none =>
    have hnone : assignment (withReturns text) = none := by
      rw [← Option.not_isSome_iff_eq_none, assignment_isSome_iff] at hfound ⊢
      exact mt beginsAssignment_of_withReturns hfound
    rw [Respects, hnone, hfound, Option.map_none]
  | some found =>
    obtain ⟨name, gap, sign, values, hname, hgap, hsign, rfl⟩ :=
      (beginsAssignment_of_eq_some hfound).1
    have hfront : '\n' ∉ name ++ (gap ++ (sign ++ ['='])) := fun hmem =>
      (ne_of_mem_parts hname hgap hsign _ hmem).1 rfl
    obtain ⟨c, tail, rfl, hc, htail⟩ := isIdentifierText_iff.1 hname
    have hsplit (values : List Char) : c :: tail ++ (gap ++ (sign ++ '=' :: values)) =
        c :: tail ++ (gap ++ (sign ++ ['='])) ++ values := by simp
    have hwith : withReturns (c :: tail ++ (gap ++ (sign ++ '=' :: values))) =
        c :: tail ++ (gap ++ (sign ++ '=' :: withReturns values)) := by
      rw [hsplit, withReturns_append, withReturns_eq_self hfront, ← hsplit]
    have hvalues : (withReturns values).takeWhile isPlainBlank = values.takeWhile isPlainBlank :=
      takeWhile_withReturns (by decide) (by decide) values
    have hpieces : c :: tail ++ (gap ++ (sign ++ '=' :: values)) =
        (c :: tail ++ (gap ++ (sign ++ ['='])) ++ values.takeWhile isPlainBlank) ++
          values.dropWhile isPlainBlank := by
      rw [hsplit, List.append_assoc _ (values.takeWhile _), List.takeWhile_append_dropWhile]
    have hfree : '\n' ∉
        c :: tail ++ (gap ++ (sign ++ ['='])) ++ values.takeWhile isPlainBlank :=
      List.not_mem_append hfront (not_mem_takeWhile (by decide) values)
    have hlength := length_withReturns_take hfree (values.dropWhile isPlainBlank)
    have hsize : (c :: tail ++ (gap ++ (sign ++ ['='])) ++ values.takeWhile isPlainBlank).length =
        1 + tail.length + gap.length + sign.length + 1 +
          (values.takeWhile isPlainBlank).length := by
      simp
      omega
    rw [← hpieces, hsize] at hlength
    rw [Respects, hwith, List.cons_append, List.cons_append,
      assignment_of_parts hc htail hgap hsign, assignment_of_parts hc htail hgap hsign, hvalues,
      Option.map_some, ← List.cons_append, hlength]

/-- The beginning of a line has the same meaning. -/
theorem lineBeginning_withReturns {text : List Char} (h : '\r' ∉ text) :
    lineBeginning (withReturns text) =
      ⟨(withReturns (text.take (lineBeginning text).length)).length,
        (lineBeginning text).value⟩ := by
  have hblanks := blankLinesLength_withReturns h
  have hdrop := drop_withReturns text (blankLinesLength text)
  have hassignment := respects_assignment (text.drop (blankLinesLength text))
  simp only [lineBeginning, hblanks, hdrop]
  rw [Respects] at hassignment
  rw [hassignment]
  cases assignment (text.drop (blankLinesLength text)) with
  | none => rfl
  | some found =>
    simp only [Option.map_some]
    rw [List.take_add, withReturns_append, List.length_append]

end Token
end ShellConfig
