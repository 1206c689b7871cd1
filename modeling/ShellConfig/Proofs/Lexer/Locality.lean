import ShellConfig.Proofs.Lexer.Following
import ShellConfig.Proofs.Lexer.LineBeginning

/-!
What a reader finds does not depend on the text behind its find. A reader is `Local` if it never
takes more than the text holds, and finds the same where the text is cut anywhere behind the find.
The beginning of a line has this property too (`lineBeginning_take`).
-/

set_option autoImplicit false

namespace ShellConfig
namespace Token

/-- The reader takes no more than there is, and what it takes is found also where the rest is cut
off. -/
def Local {α : Type} (reader : Reader α) : Prop :=
  ∀ (text : List Char) (found : Match α), reader text = some found →
    found.length ≤ text.length ∧
      ∀ length, found.length ≤ length → reader (text.take length) = some found

/-! ## Runs of characters -/

theorem takeWhile_take {accepts : Char → Bool} {text : List Char} {length : Nat}
    (h : (text.takeWhile accepts).length ≤ length) :
    (text.take length).takeWhile accepts = text.takeWhile accepts := by
  induction text generalizing length with
  | nil => simp
  | cons c rest ih =>
    by_cases hc : accepts c
    · rw [List.takeWhile_cons_of_pos hc, List.length_cons] at h
      obtain ⟨more, rfl⟩ := Nat.exists_eq_add_of_le' (Nat.le_of_add_left_le h)
      rw [List.take_succ_cons, List.takeWhile_cons_of_pos hc, List.takeWhile_cons_of_pos hc,
        ih (by omega)]
    · rw [List.takeWhile_cons_of_neg hc]
      cases length with
      | zero => rfl
      | succ more => rw [List.take_succ_cons, List.takeWhile_cons_of_neg hc]

theorem local_run (accepts : Char → Bool) : Local (run accepts) := by
  intro text found hf
  have hle := length_takeWhile_le accepts text
  unfold run at hf
  split at hf
  · cases hf
  · next hne =>
    obtain rfl := Option.some.inj hf
    refine ⟨hle, fun length hlength => ?_⟩
    rw [run, takeWhile_take hlength]
    split
    · next hnil => exact absurd hnil hne
    · rfl

theorem separatorLength_take {text : List Char} {length : Nat}
    (h : separatorLength text ≤ length) :
    separatorLength (text.take length) = separatorLength text := by
  fun_induction separatorLength text generalizing length with
  | case1 => rw [List.take_nil, separatorLength]
  | case2 rest ih =>
    obtain ⟨more, rfl⟩ := Nat.exists_eq_add_of_le' (Nat.le_of_add_left_le h)
    rw [List.take_succ_cons, List.take_succ_cons, separatorLength, ih (by omega)]
  | case3 rest ih =>
    obtain ⟨more, rfl⟩ := Nat.exists_eq_add_of_le' (Nat.le_of_add_left_le h)
    rw [List.take_succ_cons, List.take_succ_cons, List.take_succ_cons, separatorLength,
      ih (by omega)]
  | case4 c rest hlf hcr hb ih =>
    obtain ⟨more, rfl⟩ := Nat.exists_eq_add_of_le' (Nat.le_of_add_left_le h)
    rw [List.take_succ_cons, separatorLength_blank hb, ih (by omega)]
  | case5 c rest hlf hcr hb =>
    rcases length with _ | more
    · rfl
    · rw [List.take_succ_cons, separatorLength, if_neg hb]
      · intro tail hc ht
        have hrest := List.take_append_drop more rest
        rw [ht, List.cons_append] at hrest
        exact hlf _ hc hrest.symm
      · intro tail hc ht
        have hrest := List.take_append_drop more rest
        rw [ht, List.cons_append, List.cons_append] at hrest
        exact hcr _ hc hrest.symm

theorem local_separator : Local separator := by
  intro text found hf
  have hle := separatorLength_le text
  unfold separator at hf
  split at hf
  · cases hf
  · next length hne =>
    obtain rfl := Option.some.inj hf
    refine ⟨hle, fun length hlength => ?_⟩
    rw [separator, separatorLength_take hlength]
    split
    · next hzero => exact absurd hzero hne
    · rfl

theorem upTo_take {closing : Char} {text body : List Char} {length : Nat}
    (h : upTo closing text = some body) (hlength : body.length < length) :
    upTo closing (text.take length) = some body := by
  obtain ⟨hbody, tail, rfl⟩ := upTo_eq_some_iff.1 h
  refine upTo_eq_some_iff.2 ⟨hbody, tail.take (length - body.length - 1), ?_⟩
  obtain ⟨more, hmore⟩ : ∃ more, length - body.length = more + 1 :=
    Nat.exists_eq_add_of_le' (by omega)
  rw [List.take_append, List.take_of_length_le (Nat.le_of_lt hlength), hmore, List.take_succ_cons]
  rfl

theorem local_escaped : Local escaped := by
  intro text found hf
  unfold escaped at hf
  split at hf
  · obtain rfl := Option.some.inj hf
    refine ⟨by simp, fun length hlength => ?_⟩
    obtain ⟨more, rfl⟩ := Nat.exists_eq_add_of_le' hlength
    rfl
  · obtain rfl := Option.some.inj hf
    refine ⟨by simp, fun length hlength => ?_⟩
    obtain ⟨more, rfl⟩ := Nat.exists_eq_add_of_le' hlength
    rfl
  · next c rest hlf hcr =>
    obtain rfl := Option.some.inj hf
    refine ⟨by simp, fun length hlength => ?_⟩
    obtain ⟨more, rfl⟩ : ∃ more, length = more + 2 := Nat.exists_eq_add_of_le' hlength
    rw [List.take_succ_cons, List.take_succ_cons, escaped]
    · exact hlf
    · rintro tail rfl ht
      have hrest := List.take_append_drop more rest
      rw [ht, List.cons_append] at hrest
      exact hcr _ rfl hrest.symm
  · cases hf

theorem local_singleQuoted : Local singleQuoted := by
  intro text found hf
  unfold singleQuoted at hf
  split at hf
  · next rest =>
    obtain ⟨body, hb, rfl⟩ := Option.map_eq_some_iff.1 hf
    have hlt := (upTo_append [] hb).2
    refine ⟨by simp; omega, fun length hlength => ?_⟩
    obtain ⟨more, rfl⟩ := Nat.exists_eq_add_of_le' (Nat.le_of_add_left_le hlength)
    rw [List.take_succ_cons, singleQuoted, upTo_take hb (by simp at hlength; omega)]
    rfl
  · cases hf

theorem local_reference : Local reference := by
  intro text found hf
  unfold reference at hf
  split at hf
  · next c rest =>
    split at hf
    · next hc =>
      obtain rfl := Option.some.inj hf
      refine ⟨by simp, fun length hlength => ?_⟩
      obtain ⟨more, rfl⟩ : ∃ more, length = more + 2 := Nat.exists_eq_add_of_le' hlength
      rw [List.take_succ_cons, List.take_succ_cons, reference, if_pos hc]
    · next hc =>
      split at hf
      · next hi =>
        obtain rfl := Option.some.inj hf
        have hle := length_takeWhile_le isIdentifierRest rest
        refine ⟨by simp; omega, fun length hlength => ?_⟩
        obtain ⟨more, rfl⟩ := Nat.exists_eq_add_of_le' (Nat.le_of_add_left_le hlength)
        have htake : (rest.take more).takeWhile isIdentifierRest =
            rest.takeWhile isIdentifierRest := takeWhile_take (by simp at hlength; omega)
        rw [List.take_succ_cons, List.take_succ_cons, reference, if_neg hc, if_pos hi, htake]
      · next hi =>
        split at hf
        · next hb =>
          obtain ⟨body, hu, rfl⟩ := Option.map_eq_some_iff.1 hf
          have hlt := (upTo_append [] hu).2
          refine ⟨by simp; omega, fun length hlength => ?_⟩
          obtain ⟨more, rfl⟩ := Nat.exists_eq_add_of_le' (Nat.le_of_add_left_le hlength)
          rw [List.take_succ_cons, List.take_succ_cons, reference, if_neg hc, if_neg hi, if_pos hb,
            upTo_take hu (by simp at hlength; omega)]
          rfl
        · cases hf
  · cases hf

/-! ## The end of a line -/

theorem lineEndsLength_take {text : List Char} {length : Nat}
    (h : lineEndsLength text ≤ length) :
    lineEndsLength (text.take length) = lineEndsLength text := by
  fun_induction lineEndsLength text generalizing length with
  | case1 rest ih =>
    obtain ⟨more, rfl⟩ := Nat.exists_eq_add_of_le' (Nat.le_of_add_left_le h)
    rw [List.take_succ_cons, lineEndsLength, ih (by omega)]
  | case2 rest ih =>
    obtain ⟨more, rfl⟩ := Nat.exists_eq_add_of_le' (Nat.le_of_add_left_le h)
    rw [List.take_succ_cons, List.take_succ_cons, lineEndsLength_return, ih (by omega)]
  | case3 text hlf hcrlf =>
    rw [lineEndsLength]
    · intro tail ht
      have htext := List.take_append_drop length text
      rw [ht, List.cons_append] at htext
      exact hlf _ htext.symm
    · intro tail ht
      have htext := List.take_append_drop length text
      rw [ht, List.cons_append, List.cons_append] at htext
      exact hcrlf _ htext.symm

theorem local_lineEnds : Local lineEnds := by
  intro text found hf
  have hle := lineEndsLength_le text
  unfold lineEnds at hf
  split at hf
  · cases hf
  · next length hne =>
    obtain rfl := Option.some.inj hf
    refine ⟨hle, fun length hlength => ?_⟩
    rw [lineEnds, lineEndsLength_take hlength]
    split
    · next hzero => exact absurd hzero hne
    · rfl

theorem local_comment : Local comment := by
  intro text found hf
  unfold comment at hf
  split at hf
  · next rest =>
    obtain rfl := Option.some.inj hf
    have hbody := length_takeWhile_le (· ≠ '\n') rest
    have hle := lineEndsLength_le (rest.drop (rest.takeWhile (· ≠ '\n')).length)
    refine ⟨?_, fun length hlength => ?_⟩
    · rw [List.length_drop] at hle
      simp only [List.length_cons]
      omega
    · simp only at hlength
      obtain ⟨more, rfl⟩ : ∃ more, length = more + 1 := Nat.exists_eq_add_of_le' (by omega)
      have htake : (rest.take more).takeWhile (· ≠ '\n') = rest.takeWhile (· ≠ '\n') :=
        takeWhile_take (by omega)
      rw [List.take_succ_cons, comment, htake, List.drop_take, lineEndsLength_take (by omega)]
  · cases hf

/-! ## The beginning of a line -/

theorem blankLinesLength_take {text : List Char} {length : Nat}
    (h : blankLinesLength text ≤ length) :
    blankLinesLength (text.take length) = blankLinesLength text := by
  fun_induction blankLinesLength text generalizing length with
  | case1 => rw [List.take_nil, blankLinesLength]
  | case2 rest ih =>
    obtain ⟨more, rfl⟩ := Nat.exists_eq_add_of_le' (Nat.le_of_add_left_le h)
    rw [List.take_succ_cons, blankLinesLength, ih (by omega)]
  | case3 rest ih =>
    obtain ⟨more, rfl⟩ := Nat.exists_eq_add_of_le' (Nat.le_of_add_left_le h)
    rw [List.take_succ_cons, List.take_succ_cons, blankLinesLength_return, ih (by omega)]
  | case4 c rest hlf hcrlf hb ih =>
    obtain ⟨more, rfl⟩ := Nat.exists_eq_add_of_le' (Nat.le_of_add_left_le h)
    rw [List.take_succ_cons, blankLinesLength_blank hb, ih (by omega)]
  | case5 c rest hlf hcrlf hb =>
    rcases length with _ | more
    · rfl
    · rw [List.take_succ_cons, blankLinesLength, if_neg hb]
      · exact hlf
      · intro tail hc ht
        have hrest := List.take_append_drop more rest
        rw [ht, List.cons_append] at hrest
        exact hcrlf _ hc hrest.symm

/-- An assignment has its parts, and ends before the first character that is no blank. -/
theorem assignment_parts {text : List Char} {found : Match (String × String)}
    (h : assignment text = some found) :
    ∃ front values, text = front ++ values ∧ front.length ≤ found.length ∧
      ∀ values' : List Char, (values'.takeWhile isPlainBlank) = values.takeWhile isPlainBlank →
        found.length = front.length + (values.takeWhile isPlainBlank).length ∧
        assignment (front ++ values') = some found := by
  obtain ⟨name, gap, sign, values, hname, hgap, hsign, rfl⟩ := (beginsAssignment_of_eq_some h).1
  obtain ⟨c, tail, rfl, hc, htail⟩ := isIdentifierText_iff.1 hname
  rw [List.cons_append, assignment_of_parts hc htail hgap hsign] at h
  obtain rfl := Option.some.inj h
  refine ⟨c :: (tail ++ (gap ++ (sign ++ ['=']))), values, by simp, ?_, fun values' hvalues => ?_⟩
  · simp
    omega
  · have hsplit : c :: (tail ++ (gap ++ (sign ++ ['=']))) ++ values' =
        c :: (tail ++ (gap ++ (sign ++ '=' :: values'))) := by simp
    rw [hsplit, assignment_of_parts hc htail hgap hsign, hvalues]
    simp
    omega

theorem local_assignment : Local assignment := by
  intro text found hf
  refine ⟨assignment_length_le hf, fun length hlength => ?_⟩
  obtain ⟨front, values, rfl, hfront, hparts⟩ := assignment_parts hf
  have hfound := (hparts values rfl).1
  have htake : (front ++ values).take length = front ++ values.take (length - front.length) := by
    rw [List.take_append, List.take_of_length_le (by omega)]
  rw [htake]
  exact (hparts _ (takeWhile_take (by omega))).2

theorem assignment_take_eq_none {text : List Char} (h : assignment text = none) (length : Nat) :
    assignment (text.take length) = none := by
  rw [← Option.not_isSome_iff_eq_none, assignment_isSome_iff] at h ⊢
  rintro ⟨name, gap, sign, values, hname, hgap, hsign, htake⟩
  refine h ⟨name, gap, sign, values ++ text.drop length, hname, hgap, hsign, ?_⟩
  calc text = text.take length ++ text.drop length := (List.take_append_drop length text).symm
    _ = name ++ (gap ++ (sign ++ '=' :: (values ++ text.drop length))) := by
      rw [htake]
      simp

theorem lineBeginning_take {text : List Char} {length : Nat}
    (h : (lineBeginning text).length ≤ length) :
    lineBeginning (text.take length) = lineBeginning text := by
  unfold lineBeginning at h ⊢
  simp only at h ⊢
  cases hf : assignment (text.drop (blankLinesLength text)) with
  | none =>
    rw [hf] at h
    rw [blankLinesLength_take h, List.drop_take, assignment_take_eq_none hf]
  | some found =>
    rw [hf] at h
    simp only at h
    rw [blankLinesLength_take (by omega), List.drop_take,
      (local_assignment _ _ hf).2 _ (by omega)]

end Token
end ShellConfig
