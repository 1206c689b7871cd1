import ShellConfig.Lexer.Run

/-!
The pieces of a text that is followed by a line feed and more text. A reader `Keeps` its find when
the line feed is nothing that the piece could take in; the readers that end a line (`Closes`) and the
one at its beginning take in more blank lines, and nothing else. A return at the end of the text is
left out, since the line feed would join it.
-/

set_option autoImplicit false

namespace ShellConfig
namespace Token

/-! ## Runs of characters -/

theorem return_suffix_iff {text : List Char} :
    ['\r'] <:+ text ↔ text.getLast? = some '\r' := by
  rw [List.getLast?_eq_some_iff]
  exact ⟨fun ⟨front, h⟩ => ⟨front, h.symm⟩, fun ⟨front, h⟩ => ⟨front, h.symm⟩⟩

/-- A run of characters does not go on beyond one that it does not accept. -/
theorem takeWhile_append_stop {accepts : Char → Bool} {c : Char} (h : accepts c = false)
    (text more : List Char) :
    (text ++ c :: more).takeWhile accepts = text.takeWhile accepts := by
  induction text with
  | nil => simp [h]
  | cons d rest ih => cases hd : accepts d <;> simp [hd, ih]

theorem dropWhile_append_stop {accepts : Char → Bool} {c : Char} (h : accepts c = false)
    (text more : List Char) :
    (text ++ c :: more).dropWhile accepts = text.dropWhile accepts ++ c :: more := by
  induction text with
  | nil => simp [h]
  | cons d rest ih => cases hd : accepts d <;> simp [hd, ih]

/-- What the reader finds in the text does not reach beyond it, and stays the same when more text
follows. -/
def Keeps {α : Type} (reader : Reader α) (text more : List Char) : Prop :=
  ∀ found, reader text = some found →
    reader (text ++ more) = some found ∧ found.length ≤ text.length

theorem length_takeWhile_le (accepts : Char → Bool) (text : List Char) :
    (text.takeWhile accepts).length ≤ text.length :=
  (List.takeWhile_sublist accepts).length_le

theorem keeps_run {accepts : Char → Bool} {c : Char} (h : accepts c = false)
    (text more : List Char) : Keeps (run accepts) text (c :: more) := by
  intro found hf
  refine ⟨?_, ?_⟩
  · rw [← hf, run, run, takeWhile_append_stop h]
  · have hle := length_takeWhile_le accepts text
    unfold run at hf
    split at hf
    · simp at hf
    · obtain rfl := Option.some.inj hf
      exact hle

/-- A run that ends within the text is not changed by what follows. -/
theorem keeps_run_of_not_all {accepts : Char → Bool} {text : List Char}
    (h : text.all accepts = false) (more : List Char) : Keeps (run accepts) text more := by
  have ht : (text ++ more).takeWhile accepts = text.takeWhile accepts := by
    rw [List.takeWhile_append, if_neg]
    intro hl
    have he := (List.takeWhile_prefix accepts).eq_of_length hl
    have hall := List.all_takeWhile (p := accepts) (l := text)
    rw [he, h] at hall
    exact absurd hall (by decide)
  intro found hf
  refine ⟨by rw [← hf, run, run, ht], ?_⟩
  have hle := length_takeWhile_le accepts text
  unfold run at hf
  split at hf
  · simp at hf
  · obtain rfl := Option.some.inj hf
    exact hle

theorem length_run_of_all {accepts : Char → Bool} {text : List Char} {found : Match String}
    (h : text.all accepts = true) (hf : run accepts text = some found) :
    found.length = text.length := by
  have ht : (text ++ []).takeWhile accepts = text ++ [].takeWhile accepts :=
    List.takeWhile_append_of_pos (List.all_eq_true.1 h)
  rw [List.append_nil, List.takeWhile_nil, List.append_nil] at ht
  unfold run at hf
  split at hf
  · simp at hf
  · next hne =>
    obtain rfl := Option.some.inj hf
    rw [ht]

theorem separatorLength_blank {c : Char} (h : isInlineBlank c) (text : List Char) :
    separatorLength (c :: text) = separatorLength text + 1 := by
  have hc : c ≠ '\\' := by rintro rfl; revert h; decide
  rw [separatorLength, if_pos h]
  · simp [hc]
  · simp [hc]

theorem separatorLength_le (text : List Char) : separatorLength text ≤ text.length := by
  fun_induction separatorLength text <;> simp_all

/-- A backslash at the end of the text, or before a return there, could join what follows. -/
theorem separatorLength_append {text : List Char} (more : List Char)
    (hone : text.drop (separatorLength text) ≠ ['\\'])
    (htwo : text.drop (separatorLength text) ≠ ['\\', '\r']) :
    separatorLength (text ++ '\n' :: more) = separatorLength text := by
  fun_induction separatorLength text with
  | case1 => rfl
  | case2 rest ih =>
    rw [List.drop_succ_cons, List.drop_succ_cons] at hone htwo
    simp only [List.cons_append, separatorLength, ih hone htwo]
  | case3 rest ih =>
    rw [List.drop_succ_cons, List.drop_succ_cons, List.drop_succ_cons] at hone htwo
    simp only [List.cons_append, separatorLength, ih hone htwo]
  | case4 c rest hlf hcr hb ih =>
    rw [List.drop_succ_cons] at hone htwo
    rw [List.cons_append, separatorLength_blank hb, ih hone htwo]
  | case5 c rest hlf hcr hb =>
    rw [List.drop_zero] at hone htwo
    rw [List.cons_append, separatorLength, if_neg hb]
    · intro tail hc ht
      subst hc
      rcases rest with _ | ⟨d, rest⟩
      · exact hone rfl
      · simp at ht
        exact hlf _ rfl (by rw [ht.1])
    · intro tail hc ht
      subst hc
      rcases rest with _ | ⟨d, _ | ⟨e, rest⟩⟩
      · exact hone rfl
      · simp at ht
        exact htwo (by rw [ht.1])
      · simp at ht
        exact hcr _ rfl (by rw [ht.1, ht.2.1])

theorem keeps_separator {text : List Char} (more : List Char)
    (hone : text.drop (separatorLength text) ≠ ['\\'])
    (htwo : text.drop (separatorLength text) ≠ ['\\', '\r']) :
    Keeps separator text ('\n' :: more) := by
  intro found hf
  have hl := separatorLength_append more hone htwo
  refine ⟨by rw [← hf, separator, separator, hl], ?_⟩
  have hle := separatorLength_le text
  unfold separator at hf
  split at hf
  · simp at hf
  · obtain rfl := Option.some.inj hf
    exact hle

theorem keeps_escaped {text : List Char} (more : List Char) (h : text ≠ ['\\', '\r']) :
    Keeps escaped text ('\n' :: more) := by
  intro found hf
  unfold escaped at hf
  split at hf
  · obtain rfl := Option.some.inj hf
    exact ⟨rfl, by simp⟩
  · obtain rfl := Option.some.inj hf
    exact ⟨rfl, by simp⟩
  · next c rest hlf hcr =>
    obtain rfl := Option.some.inj hf
    refine ⟨?_, by simp⟩
    rw [List.cons_append, List.cons_append, escaped]
    · exact hlf
    · rintro tail rfl ht
      rcases rest with _ | ⟨d, rest⟩
      · exact h rfl
      · exact hcr rest rfl (by rw [(List.cons.inj ht).1])
  · simp at hf

theorem upTo_eq_some_iff {closing : Char} {text body : List Char} :
    upTo closing text = some body ↔ closing ∉ body ∧ ∃ tail, text = body ++ closing :: tail := by
  constructor
  · intro h
    unfold upTo at h
    split at h
    · next hm =>
      obtain rfl := Option.some.inj h
      refine ⟨fun hbody => ?_, ?_⟩
      · have hall := List.all_takeWhile (p := (· ≠ closing)) (l := text)
        simpa using List.all_eq_true.1 hall closing hbody
      · clear h
        induction text with
        | nil => cases hm
        | cons c rest ih =>
          by_cases hc : c = closing
          · exact ⟨rest, by simp [hc]⟩
          · have hrest : closing ∈ rest := (List.mem_cons.1 hm).resolve_left fun he => hc he.symm
            obtain ⟨tail, htail⟩ := ih hrest
            refine ⟨tail, ?_⟩
            rw [List.takeWhile_cons_of_pos (by simpa using hc), List.cons_append, ← htail]
    · cases h
  · rintro ⟨hbody, tail, rfl⟩
    have hall : ∀ c ∈ body, decide (c ≠ closing) = true := fun c hc => by
      have hne : c ≠ closing := fun he => hbody (he ▸ hc)
      simpa using hne
    rw [upTo, if_pos (by simp), List.takeWhile_append_of_pos hall]
    simp

theorem upTo_append {closing : Char} {text body : List Char} (more : List Char)
    (h : upTo closing text = some body) :
    upTo closing (text ++ more) = some body ∧ body.length < text.length := by
  obtain ⟨hbody, tail, rfl⟩ := upTo_eq_some_iff.1 h
  refine ⟨upTo_eq_some_iff.2 ⟨hbody, tail ++ more, by simp⟩, by simp⟩

/-- A text between single quotes is found as a whole. -/
theorem singleQuoted_of_not_mem {body : List Char} (hbody : '\'' ∉ body) (rest : List Char) :
    singleQuoted ('\'' :: (body ++ '\'' :: rest)) =
      some ⟨body.length + 2, String.ofList body⟩ := by
  rw [singleQuoted, upTo_eq_some_iff.2 ⟨hbody, rest, rfl⟩]
  rfl

theorem keeps_singleQuoted (text more : List Char) : Keeps singleQuoted text more := by
  intro found hf
  unfold singleQuoted at hf
  split at hf
  · next rest =>
    obtain ⟨body, hb, rfl⟩ := Option.map_eq_some_iff.1 hf
    obtain ⟨ha, hlt⟩ := upTo_append more hb
    refine ⟨?_, by simp; omega⟩
    rw [List.cons_append, singleQuoted, ha]
    rfl
  · simp at hf

theorem keeps_reference {d : Char} (h : isIdentifierRest d = false) (text more : List Char) :
    Keeps reference text (d :: more) := by
  intro found hf
  unfold reference at hf
  split at hf
  · next c rest =>
    rw [List.cons_append, List.cons_append, reference]
    split at hf
    · next hc =>
      obtain rfl := Option.some.inj hf
      exact ⟨if_pos hc, by simp⟩
    · next hc =>
      rw [if_neg hc]
      split at hf
      · next hi =>
        obtain rfl := Option.some.inj hf
        have hle := length_takeWhile_le isIdentifierRest rest
        refine ⟨?_, by simp; omega⟩
        rw [if_pos hi, takeWhile_append_stop h]
      · next hi =>
        rw [if_neg hi]
        split at hf
        · next hb =>
          obtain ⟨body, hu, rfl⟩ := Option.map_eq_some_iff.1 hf
          obtain ⟨ha, hlt⟩ := upTo_append (d :: more) hu
          refine ⟨?_, by simp; omega⟩
          rw [if_pos hb, ha]
          rfl
        · simp at hf
  · simp at hf

/-! ## The end of a line -/

theorem lineEndsLength_le (text : List Char) : lineEndsLength text ≤ text.length := by
  fun_induction lineEndsLength text <;> simp_all

theorem lineEndsLength_return (text : List Char) :
    lineEndsLength ('\r' :: '\n' :: text) = lineEndsLength text + 2 := by rw [lineEndsLength]

theorem lineEnds_lineFeed (more : List Char) :
    lineEnds ('\n' :: more) = some ⟨lineEndsLength ('\n' :: more), ()⟩ := by
  rw [lineEnds, lineEndsLength]
  rfl

/-- Where line ends take up the whole text, those that follow join them. -/
theorem lineEndsLength_append {text : List Char} (more : List Char) (hcr : ¬ ['\r'] <:+ text) :
    lineEndsLength (text ++ '\n' :: more) =
      if lineEndsLength text = text.length then text.length + lineEndsLength ('\n' :: more)
      else lineEndsLength text := by
  fun_induction lineEndsLength text with
  | case1 rest ih =>
    have hrest : ¬ ['\r'] <:+ rest := fun h => hcr (h.trans (List.suffix_cons _ _))
    have hi := ih hrest
    rw [List.cons_append, lineEndsLength, hi]
    simp only [List.length_cons, Nat.add_right_cancel_iff]
    split <;> omega
  | case2 rest ih =>
    have hrest : ¬ ['\r'] <:+ rest := fun h =>
      hcr (h.trans ((List.suffix_cons _ _).trans (List.suffix_cons _ _)))
    have hi := ih hrest
    rw [List.cons_append, List.cons_append, lineEndsLength_return, hi]
    simp only [List.length_cons]
    split <;> split <;> omega
  | case3 text hlf hcrlf =>
    rcases text with _ | ⟨c, rest⟩
    · simp
    · rw [if_neg (by simp), List.cons_append, lineEndsLength]
      · intro tail ht
        exact hlf rest (by rw [(List.cons.inj ht).1])
      · intro tail ht
        obtain ⟨rfl, ht⟩ := List.cons.inj ht
        rcases rest with _ | ⟨d, rest⟩
        · exact hcr (List.suffix_refl _)
        · rw [List.cons_append] at ht
          obtain ⟨-, hd⟩ := List.cons.inj ht
          obtain ⟨rfl, -⟩ := List.cons.inj hd
          exact hcrlf rest rfl

/-- What the reader finds ends the line: if it takes up the whole text, it takes the line ends that
follow too, and else it stays the same when a line feed and more text follow. -/
def Closes (reader : Reader Unit) (text more : List Char) : Prop :=
  ∀ found, reader text = some found → found.length ≤ text.length ∧
    reader (text ++ '\n' :: more) =
      some ⟨if found.length = text.length then text.length + lineEndsLength ('\n' :: more)
        else found.length, ()⟩

theorem closes_lineEnds {text : List Char} (more : List Char) (hcr : ¬ ['\r'] <:+ text) :
    Closes lineEnds text more := by
  intro found hf
  have hle := lineEndsLength_le text
  have ha := lineEndsLength_append more hcr
  unfold lineEnds at hf
  split at hf
  · simp at hf
  · next length hne =>
    obtain rfl := Option.some.inj hf
    have hne' : lineEndsLength text ≠ 0 := hne
    refine ⟨hle, ?_⟩
    rw [lineEnds, ha]
    split
    · next h =>
      revert h
      split <;> intro h <;> omega
    · rfl

theorem closes_comment {text : List Char} (more : List Char) (hcr : ¬ ['\r'] <:+ text) :
    Closes comment text more := by
  intro found hf
  unfold comment at hf
  split at hf
  · next rest =>
    obtain rfl := Option.some.inj hf
    have hbody := length_takeWhile_le (· ≠ '\n') rest
    have hle := lineEndsLength_le (rest.drop (rest.takeWhile (· ≠ '\n')).length)
    have htail : ¬ ['\r'] <:+ rest.drop (rest.takeWhile (· ≠ '\n')).length := fun h =>
      hcr (h.trans ((List.drop_suffix _ _).trans (List.suffix_cons _ _)))
    have ha := lineEndsLength_append more htail
    rw [List.length_drop] at hle ha
    refine ⟨by simp only [List.length_cons]; omega, ?_⟩
    rw [List.cons_append, comment, takeWhile_append_stop (by decide)]
    simp only
    rw [List.drop_append_of_le_length hbody, ha]
    simp only [List.length_cons, Option.some.injEq, Match.mk.injEq, and_true]
    split <;> split <;> omega
  · simp at hf

theorem blankLinesLength_le (text : List Char) : blankLinesLength text ≤ text.length := by
  fun_induction blankLinesLength text <;> simp_all

theorem blankLinesLength_return (text : List Char) :
    blankLinesLength ('\r' :: '\n' :: text) = blankLinesLength text + 2 := by
  rw [blankLinesLength]

theorem blankLinesLength_blank {c : Char} (h : isInlineBlank c) (text : List Char) :
    blankLinesLength (c :: text) = blankLinesLength text + 1 := by
  rw [blankLinesLength, if_pos h]
  · rintro rfl; revert h; decide
  · rintro _ rfl _; revert h; decide

theorem blankLinesLength_append {text : List Char} (more : List Char) (hcr : ¬ ['\r'] <:+ text) :
    blankLinesLength (text ++ '\n' :: more) =
      if blankLinesLength text = text.length then text.length + blankLinesLength ('\n' :: more)
      else blankLinesLength text := by
  fun_induction blankLinesLength text with
  | case1 => simp
  | case2 rest ih =>
    have hrest : ¬ ['\r'] <:+ rest := fun h => hcr (h.trans (List.suffix_cons _ _))
    have hi := ih hrest
    rw [List.cons_append, blankLinesLength, hi]
    simp only [List.length_cons, Nat.add_right_cancel_iff]
    split <;> omega
  | case3 rest ih =>
    have hrest : ¬ ['\r'] <:+ rest := fun h =>
      hcr (h.trans ((List.suffix_cons _ _).trans (List.suffix_cons _ _)))
    have hi := ih hrest
    rw [List.cons_append, List.cons_append, blankLinesLength_return, hi]
    simp only [List.length_cons]
    split <;> split <;> omega
  | case4 c rest hlf hcrlf hb ih =>
    have hrest : ¬ ['\r'] <:+ rest := fun h => hcr (h.trans (List.suffix_cons _ _))
    have hi := ih hrest
    rw [List.cons_append, blankLinesLength_blank hb, hi]
    simp only [List.length_cons, Nat.add_right_cancel_iff]
    split <;> omega
  | case5 c rest hlf hcrlf hb =>
    rw [if_neg (by simp), List.cons_append, blankLinesLength, if_neg hb]
    · exact hlf
    · intro tail hc ht
      subst hc
      rcases rest with _ | ⟨d, rest⟩
      · exact hcr (List.suffix_refl _)
      · exact hcrlf rest rfl (by rw [(List.cons.inj ht).1])

theorem length_assignmentSign_le (text : List Char) :
    (assignmentSign text).length ≤ text.length := by
  unfold assignmentSign
  split <;> simp

/-- The character belongs to no assignment before its values. -/
structure EndsAssignment (c : Char) : Prop where
  rest : isIdentifierRest c = false
  blank : isPlainBlank c = false
  sign : c ≠ '+' ∧ c ≠ '?' ∧ c ≠ '='

theorem assignmentSign_append {c : Char} (hc : EndsAssignment c) (text more : List Char) :
    assignmentSign (text ++ c :: more) = assignmentSign text := by
  have hsign := hc.sign
  unfold assignmentSign
  rcases text with _ | ⟨d, rest⟩
  · split <;> simp_all
  · split <;> split <;> simp_all

theorem assignment_append {d : Char} (hd : EndsAssignment d) (text more : List Char) :
    assignment (text ++ d :: more) = assignment text := by
  rcases text with _ | ⟨c, rest⟩
  · have hstart : ¬ isIdentifierStart d := by
      intro h
      have hrest := hd.rest
      rw [isIdentifierRest_of_start h] at hrest
      cases hrest
    have hnil : assignment [] = none := rfl
    rw [List.nil_append, hnil, assignment, if_neg hstart]
  · rw [List.cons_append, assignment, assignment]
    simp only [takeWhile_append_stop hd.rest, dropWhile_append_stop hd.rest,
      takeWhile_append_stop hd.blank, dropWhile_append_stop hd.blank, assignmentSign_append hd]
    generalize (rest.dropWhile isIdentifierRest).dropWhile isPlainBlank = afterGap
    rw [List.drop_append_of_le_length (length_assignmentSign_le afterGap)]
    cases afterGap.drop (assignmentSign afterGap).length with
    | nil => simp [hd.sign]
    | cons e values =>
      by_cases he : e = '='
      · subst he
        simp only [List.cons_append, takeWhile_append_stop hd.blank]
      · simp [he]

theorem assignment_length_le {text : List Char} {found : Match (String × String)}
    (h : assignment text = some found) : found.length ≤ text.length := by
  rcases text with _ | ⟨c, rest⟩
  · cases h
  · rw [assignment] at h
    simp only at h
    split at h
    · have hname := congrArg List.length
        (List.takeWhile_append_dropWhile (p := isIdentifierRest) (l := rest))
      generalize rest.dropWhile isIdentifierRest = afterName at h hname
      have hgap := congrArg List.length
        (List.takeWhile_append_dropWhile (p := isPlainBlank) (l := afterName))
      generalize afterName.dropWhile isPlainBlank = afterGap at h hgap
      split at h
      · next values heq =>
        obtain rfl := Option.some.inj h
        have hsign := congrArg List.length heq
        have hblanks := length_takeWhile_le isPlainBlank values
        simp only [List.length_append, List.length_drop, List.length_cons] at *
        omega
      · cases h
    · cases h

/-- The beginning of a line that is not blank. -/
theorem lineBeginning_append {text : List Char} (more : List Char) (hcr : ¬ ['\r'] <:+ text)
    (h : blankLinesLength text ≠ text.length) :
    lineBeginning (text ++ '\n' :: more) = lineBeginning text ∧
      (lineBeginning text).length ≤ text.length := by
  have hle := blankLinesLength_le text
  have hb : blankLinesLength (text ++ '\n' :: more) = blankLinesLength text := by
    rw [blankLinesLength_append more hcr, if_neg h]
  unfold lineBeginning
  simp only [hb, List.drop_append_of_le_length hle,
    assignment_append (d := '\n') ⟨by decide, by decide, by decide⟩]
  refine ⟨trivial, ?_⟩
  cases ha : assignment (text.drop (blankLinesLength text)) with
  | none => exact hle
  | some found =>
    have hlen := assignment_length_le ha
    rw [List.length_drop] at hlen
    simp only
    omega

theorem lineBeginning_of_drop {text : List Char} {length : Nat}
    (h : blankLinesLength text = length + blankLinesLength (text.drop length)) :
    lineBeginning text = ⟨length + (lineBeginning (text.drop length)).length,
      (lineBeginning (text.drop length)).value⟩ := by
  unfold lineBeginning
  simp only [h, ← List.drop_drop]
  cases assignment ((text.drop length).drop (blankLinesLength (text.drop length)))
  · rfl
  · simp only [Nat.add_assoc]

end Token
end ShellConfig
