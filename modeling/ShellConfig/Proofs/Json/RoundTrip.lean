import Mathlib.Data.List.Forall2
import ShellConfig.Json.Parser

/-!
Reading back JSON. A text shows pieces if it is read as these pieces whatever follows it
(`Shows`), and the pieces read as a value if the value comes out wherever one is expected
(`ReadAs`). Both are put together as the values are, so what `Json.print` writes is read as the
value that was written (`Json.parse?_print`). Numbers are left out: they are not delimited by
themselves.
-/

set_option autoImplicit false

namespace ShellConfig

/-! ## Strings -/

namespace JsonToken

theorem hexUnit?_digits {n : Nat} (h : n < 0x20) :
    hexUnit? '0' '0' (Nat.digitChar (n / 16)) (Nat.digitChar (n % 16)) = some n := by
  have hall : ∀ n < 0x20,
      hexUnit? '0' '0' (Nat.digitChar (n / 16)) (Nat.digitChar (n % 16)) = some n := by
    decide
  exact hall n h

theorem joinParts_unit {n : Nat} (h : n < 0xD800) (parts : List StringPart) :
    joinParts (.unit n :: parts) = (joinParts parts).map (Char.ofNat n :: ·) := by
  have hhigh : isHighSurrogate n = false := by
    simp only [isHighSurrogate, Bool.and_eq_false_iff, decide_eq_false_iff_not]
    omega
  have hlow : isLowSurrogate n = false := by
    simp only [isLowSurrogate, Bool.and_eq_false_iff, decide_eq_false_iff_not]
    omega
  rcases parts with _ | ⟨part, parts⟩
  · simp [joinParts, hhigh, hlow]
  · cases part <;> simp [joinParts, hhigh, hlow]

/-- The part of a string that a written character is read as. -/
def partOf (c : Char) : StringPart :=
  if c.toNat < 0x20 ∧ c ∉ ['\x08', '\x0c', '\n', '\r', '\t'] then .unit c.toNat else .char c

theorem joinParts_partOf (c : Char) (parts : List StringPart) :
    joinParts (partOf c :: parts) = (joinParts parts).map (c :: ·) := by
  unfold partOf
  split
  · next h =>
    rw [joinParts_unit (Nat.lt_trans h.1 (by decide)), Char.ofNat_toNat]
  · rfl

theorem joinParts_map_partOf (text : List Char) : joinParts (text.map partOf) = some text := by
  induction text with
  | nil => rfl
  | cons c text ih => rw [List.map_cons, joinParts_partOf, ih, Option.map_some]

theorem stringParts_shortEscape {e c : Char} (he : e ≠ 'u') (h : shortEscape? e = some c)
    (rest : List Char) :
    stringParts ('\\' :: e :: rest) = (stringParts rest).map fun found =>
      ⟨found.length + 2, .char c :: found.value⟩ := by
  rw [stringParts, h]
  · cases stringParts rest <;> rfl
  · rintro a b c d rest rfl
    exact absurd rfl he

theorem stringParts_unit {a b c d : Char} {unit : Nat} (h : hexUnit? a b c d = some unit)
    (rest : List Char) :
    stringParts ('\\' :: 'u' :: a :: b :: c :: d :: rest) = (stringParts rest).map fun found =>
      ⟨found.length + 6, .unit unit :: found.value⟩ := by
  rw [stringParts, h]
  cases stringParts rest <;> rfl

theorem stringParts_char {c : Char} (hquote : c ≠ '"') (hescape : c ≠ '\\')
    (hcontrol : ¬ c.toNat < 0x20) (rest : List Char) :
    stringParts (c :: rest) = (stringParts rest).map fun found =>
      ⟨found.length + 1, .char c :: found.value⟩ := by
  rw [stringParts, if_neg (by simp [hescape, hcontrol])]
  all_goals simp [hquote, hescape]

theorem stringParts_stringChar (c : Char) (rest : List Char) :
    stringParts (Json.stringChar c ++ rest) = (stringParts rest).map fun found =>
      ⟨found.length + (Json.stringChar c).length, partOf c :: found.value⟩ := by
  have hshort (e c : Char) (he : e ≠ 'u') (h : shortEscape? e = some c)
      (hwritten : Json.stringChar c = ['\\', e]) (hpart : partOf c = .char c) :
      stringParts (Json.stringChar c ++ rest) = (stringParts rest).map fun found =>
        ⟨found.length + (Json.stringChar c).length, partOf c :: found.value⟩ := by
    rw [hwritten, hpart]
    exact stringParts_shortEscape he h rest
  by_cases hmem : c ∈ ['"', '\\', '\x08', '\x0c', '\n', '\r', '\t']
  · simp only [List.mem_cons, List.not_mem_nil, or_false] at hmem
    rcases hmem with rfl | rfl | rfl | rfl | rfl | rfl | rfl
    · exact hshort '"' _ (by decide) rfl rfl rfl
    · exact hshort '\\' _ (by decide) rfl rfl rfl
    · exact hshort 'b' _ (by decide) rfl rfl rfl
    · exact hshort 'f' _ (by decide) rfl rfl rfl
    · exact hshort 'n' _ (by decide) rfl rfl rfl
    · exact hshort 'r' _ (by decide) rfl rfl rfl
    · exact hshort 't' _ (by decide) rfl rfl rfl
  · simp only [List.mem_cons, List.not_mem_nil, or_false, not_or] at hmem
    by_cases hcontrol : c.toNat < 0x20
    · have hpart : partOf c = .unit c.toNat := if_pos (by simp [hcontrol, hmem])
      simp only [Json.stringChar, hmem, if_false, hcontrol, if_true, hpart]
      exact stringParts_unit (hexUnit?_digits hcontrol) rest
    · have hpart : partOf c = .char c := if_neg (fun h => hcontrol h.1)
      simp only [Json.stringChar, hmem, if_false, hcontrol, hpart]
      exact stringParts_char hmem.1 hmem.2.1 hcontrol rest

theorem stringParts_flatMap (text rest : List Char) :
    stringParts (text.flatMap Json.stringChar ++ '"' :: rest) =
      some ⟨(text.flatMap Json.stringChar).length + 1, text.map partOf⟩ := by
  induction text with
  | nil => rw [List.flatMap_nil, List.nil_append, stringParts]; rfl
  | cons c text ih =>
    rw [List.flatMap_cons, List.append_assoc, stringParts_stringChar, ih, Option.map_some,
      List.length_append, List.map_cons]
    congr 2
    dsimp only
    omega

/-- A string is read back, also one that stands for no text. -/
theorem token?_stringText (text : JsonText) (rest : List Char) :
    token? ((Json.stringText text).toList ++ rest) =
      some ⟨(Json.stringText text).toList.length, .string text⟩ := by
  rcases text with _ | text
  · rfl
  · have htext : (Json.stringText (some text)).toList =
        '"' :: (text.toList.flatMap Json.stringChar ++ ['"']) := by
      simp [Json.stringText]
    rw [htext, List.cons_append, List.append_assoc, List.singleton_append, token?, string?,
      stringParts_flatMap]
    simp [joinParts_map_partOf]

/-! ## Pieces -/

theorem tokens?_of_token? {text : List Char} {found : Match JsonToken}
    (h : token? (text.dropWhile isJsonBlank) = some found) :
    tokens? text =
      (tokens? ((text.dropWhile isJsonBlank).drop found.length)).map (found.value :: ·) := by
  rw [tokens?]
  split
  · next other hother =>
    rw [h] at hother
    obtain rfl := Option.some.inj hother
    rfl
  · next hnone =>
    rw [h] at hnone
    exact absurd hnone (by simp)

theorem tokens?_of_dropWhile {text other : List Char}
    (h : text.dropWhile isJsonBlank = other.dropWhile isJsonBlank) :
    tokens? text = tokens? other := by
  rw [tokens?, tokens?, h]

/-- The text is read as these pieces whatever follows it. -/
def Shows (text : List Char) (tokens : List JsonToken) : Prop :=
  ∀ rest, tokens? (text ++ rest) = (tokens? rest).map (tokens ++ ·)

namespace Shows

theorem append {text more : List Char} {tokens others : List JsonToken} (h : Shows text tokens)
    (hmore : Shows more others) : Shows (text ++ more) (tokens ++ others) := by
  intro rest
  rw [List.append_assoc, h, hmore, Option.map_map]
  congr 1
  funext last
  exact (List.append_assoc tokens others last).symm

theorem of_blank {text : List Char} (h : ∀ c ∈ text, isJsonBlank c) : Shows text [] := by
  intro rest
  rw [tokens?_of_dropWhile (List.dropWhile_append_of_pos h)]
  simp

theorem of_token {text : List Char} {token : JsonToken}
    (hhead : text.head?.any (fun c => !isJsonBlank c))
    (h : ∀ rest, token? (text ++ rest) = some ⟨text.length, token⟩) : Shows text [token] := by
  intro rest
  have hdrop : (text ++ rest).dropWhile isJsonBlank = text ++ rest := by
    rcases text with _ | ⟨c, text⟩
    · simp at hhead
    · rw [List.cons_append, List.dropWhile_cons_of_neg (by simpa using hhead)]
  rw [tokens?_of_token? (by rw [hdrop]; exact h rest), hdrop, List.drop_left]
  rfl

theorem of_stringText (text : JsonText) : Shows (Json.stringText text).toList [.string text] := by
  refine of_token ?_ (token?_stringText text)
  cases text <;> simp [Json.stringText, isJsonBlank]

theorem of_intercalate {separator : List Char} {token : JsonToken} (h : Shows separator [token])
    {texts : List (List Char)} {pieces : List (List JsonToken)}
    (hparts : List.Forall₂ Shows texts pieces) :
    Shows (separator.intercalate texts) ([token].intercalate pieces) := by
  induction hparts with
  | nil => exact of_blank (by simp)
  | @cons text tokens texts pieces htext hparts ih =>
    cases hparts with
    | nil => simpa using htext
    | cons hnext hparts =>
      rw [List.intercalate_cons_cons, List.intercalate_cons_cons]
      exact (htext.append h).append ih

end Shows

end JsonToken

/-! ## Values -/

namespace Json

/-- The pieces give the value wherever a value is expected, and nothing but them is taken. -/
def ReadAs (tokens : List JsonToken) (value : Json) : Prop :=
  ∀ stack rest, ofTokens? (.value, stack) (tokens ++ rest) = ofTokens? (.after value, stack) rest

theorem ofTokens?_of_advance {token : JsonToken} {reading next : Reading}
    (h : advance token reading = some next) (rest : List JsonToken) :
    ofTokens? reading (token :: rest) = ofTokens? next rest := by
  rw [ofTokens?, h]

theorem readAs_singleton {token : JsonToken} {value : Json}
    (h : ∀ stack, beginValue token stack = some (.after value, stack)) : ReadAs [token] value :=
  fun stack rest =>
    have hadvance : advance token (.value, stack) = some (.after value, stack) := h stack
    ofTokens?_of_advance hadvance rest

theorem ReadAs.exists_cons {tokens : List JsonToken} {value : Json} (h : ReadAs tokens value) :
    ∃ token more, tokens = token :: more ∧ token ≠ .closeBracket := by
  have hvalue : ofTokens? (.value, []) tokens = some value := by
    simpa [ofTokens?] using h [] []
  rcases tokens with _ | ⟨token, more⟩
  · simp [ofTokens?] at hvalue
  · refine ⟨token, more, rfl, ?_⟩
    rintro rfl
    simp [ofTokens?, advance, beginValue] at hvalue

/-- The first item of a list is read as any other. -/
theorem ReadAs.firstItem {tokens : List JsonToken} {value : Json} (h : ReadAs tokens value)
    (stack : List Frame) (rest : List JsonToken) :
    ofTokens? (.firstItem, stack) (tokens ++ rest) =
      ofTokens? (.after value, .array [] :: stack) rest := by
  rw [← h (.array [] :: stack) rest]
  obtain ⟨token, more, rfl, hne⟩ := h.exists_cons
  have hadvance : advance token (.firstItem, stack) = advance token (.value, .array [] :: stack) :=
    if_neg hne
  rw [List.cons_append, ofTokens?, ofTokens?, hadvance]

theorem intercalate_comma (first : List JsonToken) (others : List (List JsonToken)) :
    [JsonToken.comma].intercalate (first :: others) = first ++ others.flatMap (.comma :: ·) := by
  induction others generalizing first with
  | nil => simp
  | cons next others ih =>
    rw [List.intercalate_cons_cons, ih, List.append_assoc, List.flatMap_cons]
    rfl

theorem ofTokens?_items {tokens : List (List JsonToken)} {items : List Json}
    (h : List.Forall₂ ReadAs tokens items) (value : Json) (done : List Json) (stack : List Frame)
    (rest : List JsonToken) :
    ofTokens? (.after value, .array done :: stack)
        (tokens.flatMap (.comma :: ·) ++ .closeBracket :: rest) =
      ofTokens? (.after (.array (done.reverse ++ value :: items)), stack) rest := by
  induction h generalizing value done with
  | nil =>
    rw [List.flatMap_nil, List.nil_append, ofTokens?_of_advance rfl, List.reverse_cons]
  | @cons piece item tokens items hpiece _ ih =>
    rw [List.flatMap_cons, List.cons_append, List.cons_append, ofTokens?_of_advance rfl,
      List.append_assoc, hpiece, ih, List.reverse_cons, List.append_assoc, List.singleton_append]

theorem readAs_array {tokens : List (List JsonToken)} {items : List Json}
    (h : List.Forall₂ ReadAs tokens items) :
    ReadAs (.openBracket :: [.comma].intercalate tokens ++ [.closeBracket]) (.array items) := by
  intro stack rest
  rw [List.cons_append, List.cons_append, List.append_assoc, ofTokens?_of_advance rfl]
  cases h with
  | nil => exact ofTokens?_of_advance rfl rest
  | @cons piece item tokens items hpiece hrest =>
    rw [intercalate_comma, List.append_assoc, hpiece.firstItem]
    exact ofTokens?_items hrest item [] stack rest

/-- The pieces of a field are its name, a colon, and the pieces of its value. -/
def FieldReadAs (tokens : List JsonToken) (field : JsonText × Json) : Prop :=
  ∃ others, tokens = .string field.1 :: .colon :: others ∧ ReadAs others field.2

theorem FieldReadAs.field {tokens : List JsonToken} {field : JsonText × Json}
    (h : FieldReadAs tokens field) (fields : List (JsonText × Json)) (stack : List Frame)
    (rest : List JsonToken) :
    ofTokens? (.field fields, stack) (tokens ++ rest) =
      ofTokens? (.after field.2, .object fields field.1 :: stack) rest := by
  obtain ⟨others, rfl, hvalue⟩ := h
  rw [List.cons_append, List.cons_append, ofTokens?_of_advance rfl, ofTokens?_of_advance rfl,
    hvalue]

theorem FieldReadAs.firstField {tokens : List JsonToken} {field : JsonText × Json}
    (h : FieldReadAs tokens field) (stack : List Frame) (rest : List JsonToken) :
    ofTokens? (.firstField, stack) (tokens ++ rest) =
      ofTokens? (.after field.2, .object [] field.1 :: stack) rest := by
  rw [← h.field []]
  obtain ⟨others, rfl, -⟩ := h
  rw [List.cons_append, ofTokens?_of_advance rfl, ofTokens?_of_advance rfl]

theorem ofTokens?_fields {tokens : List (List JsonToken)} {fields : List (JsonText × Json)}
    (h : List.Forall₂ FieldReadAs tokens fields) (field : JsonText × Json)
    (done : List (JsonText × Json)) (stack : List Frame) (rest : List JsonToken) :
    ofTokens? (.after field.2, .object done field.1 :: stack)
        (tokens.flatMap (.comma :: ·) ++ .closeBrace :: rest) =
      ofTokens? (.after (.object (done.reverse ++ field :: fields)), stack) rest := by
  induction h generalizing field done with
  | nil =>
    rw [List.flatMap_nil, List.nil_append, ofTokens?_of_advance rfl, List.reverse_cons]
  | @cons piece next tokens fields hpiece _ ih =>
    rw [List.flatMap_cons, List.cons_append, List.cons_append, ofTokens?_of_advance rfl,
      List.append_assoc, hpiece.field, ih, List.reverse_cons, List.append_assoc,
      List.singleton_append]

theorem readAs_object {tokens : List (List JsonToken)} {fields : List (JsonText × Json)}
    (h : List.Forall₂ FieldReadAs tokens fields) :
    ReadAs (.openBrace :: [.comma].intercalate tokens ++ [.closeBrace]) (.object fields) := by
  intro stack rest
  rw [List.cons_append, List.cons_append, List.append_assoc, ofTokens?_of_advance rfl]
  cases h with
  | nil => exact ofTokens?_of_advance rfl rest
  | @cons piece field tokens fields hpiece hrest =>
    rw [intercalate_comma, List.append_assoc, hpiece.firstField]
    exact ofTokens?_fields hrest field [] stack rest

/-! ## What is written -/

theorem isJsonBlank_lineStart (layout : Layout) :
    ∀ c ∈ layout.lineStart.toList, JsonToken.isJsonBlank c := by
  intro c hc
  cases layout with
  | compact => simp [Layout.lineStart] at hc
  | indented depth =>
    have hc' : c = '\n' ∨ c = ' ' := by
      simp only [Layout.lineStart, String.toList_append, String.toList_ofList, List.mem_append,
        List.mem_replicate] at hc
      exact hc.imp (fun h => by simpa using h) And.right
    rcases hc' with rfl | rfl <;> rfl

open JsonToken (Shows)

theorem shows_colon (layout : Layout) : Shows layout.colon.toList [.colon] := by
  have hcolon : Shows [':'] [.colon] := Shows.of_token rfl fun _ => rfl
  cases layout with
  | compact => exact hcolon
  | indented depth =>
    have hblank : Shows [' '] [] := Shows.of_blank (List.forall_mem_singleton.2 (by decide))
    simpa [Layout.colon] using hcolon.append hblank

/-- Parts between brackets are shown as their pieces between brackets, in any layout. -/
theorem shows_bracket (layout : Layout) {opening closing : String} {first last : JsonToken}
    (hopening : Shows opening.toList [first]) (hclosing : Shows closing.toList [last])
    {parts : List String} {tokens : List (List JsonToken)}
    (h : List.Forall₂ (fun part piece => Shows part.toList piece) parts tokens) :
    Shows (layout.bracket opening closing parts).toList
      (first :: [.comma].intercalate tokens ++ [last]) := by
  have hline (layout : Layout) : Shows layout.lineStart.toList [] :=
    Shows.of_blank (isJsonBlank_lineStart layout)
  have hcomma : Shows ",".toList [.comma] := Shows.of_token rfl fun _ => rfl
  cases h with
  | nil =>
    rw [Layout.bracket, List.isEmpty_nil, if_pos rfl, String.toList_append]
    exact hopening.append hclosing
  | @cons part piece parts tokens hpart hrest =>
    have hparts := Shows.of_intercalate (hcomma.append (hline layout.inner))
      (List.forall₂_map_left_iff.2 (List.Forall₂.cons hpart hrest))
    rw [Layout.bracket, if_neg (by simp)]
    simp only [String.toList_append, String.toList_intercalate]
    simpa using
      (((hopening.append (hline _)).append hparts).append (hline _)).append hclosing

/-- The text is the value in writing: its pieces read as the value. -/
def Writes (text : List Char) (value : Json) : Prop :=
  ∃ tokens, Shows text tokens ∧ ReadAs tokens value

/-- A value that has no number in it. -/
inductive Numberless : Json → Prop where
  | null : Numberless .null
  | bool (value : Bool) : Numberless (.bool value)
  | string (text : JsonText) : Numberless (.string text)
  | array {items : List Json} (h : ∀ item ∈ items, Numberless item) : Numberless (.array items)
  | object {fields : List (JsonText × Json)} (h : ∀ field ∈ fields, Numberless field.2) :
      Numberless (.object fields)

theorem exists_forall₂_items {layout : Layout} {items : List Json}
    (h : ∀ item ∈ items, Writes (item.print layout).toList item) :
    ∃ tokens, List.Forall₂ (fun part piece => Shows part.toList piece)
        (printItems layout items) tokens ∧ List.Forall₂ ReadAs tokens items := by
  induction items with
  | nil => exact ⟨[], .nil, .nil⟩
  | cons item items ih =>
    obtain ⟨piece, hshows, hreads⟩ := h item List.mem_cons_self
    obtain ⟨tokens, hrest, hvalues⟩ := ih fun other hother => h other (List.mem_cons_of_mem _ hother)
    exact ⟨piece :: tokens, .cons hshows hrest, .cons hreads hvalues⟩

theorem exists_forall₂_fields {layout : Layout} {fields : List (JsonText × Json)}
    (h : ∀ field ∈ fields, Writes (field.2.print layout).toList field.2) :
    ∃ tokens, List.Forall₂ (fun part piece => Shows part.toList piece)
        (printFields layout fields) tokens ∧ List.Forall₂ FieldReadAs tokens fields := by
  induction fields with
  | nil => exact ⟨[], .nil, .nil⟩
  | cons field fields ih =>
    obtain ⟨piece, hshows, hreads⟩ := h field List.mem_cons_self
    obtain ⟨tokens, hrest, hvalues⟩ := ih fun other hother => h other (List.mem_cons_of_mem _ hother)
    have hfield : Shows (stringText field.1 ++ layout.colon ++ field.2.print layout).toList
        (.string field.1 :: .colon :: piece) := by
      rw [String.toList_append, String.toList_append]
      exact ((Shows.of_stringText field.1).append (shows_colon layout)).append hshows
    exact ⟨_ :: tokens, .cons hfield hrest, .cons ⟨piece, rfl, hreads⟩ hvalues⟩

theorem writes_print {value : Json} (h : value.Numberless) (layout : Layout) :
    Writes (value.print layout).toList value := by
  induction h generalizing layout with
  | null =>
    rw [print]
    exact ⟨[.null], Shows.of_token rfl fun _ => rfl, readAs_singleton fun _ => rfl⟩
  | bool value =>
    have hreads : ReadAs [.bool value] (.bool value) := readAs_singleton fun _ => rfl
    cases value with
    | false =>
      rw [print]
      exact ⟨_, Shows.of_token rfl fun _ => rfl, hreads⟩
    | true =>
      rw [print]
      exact ⟨_, Shows.of_token rfl fun _ => rfl, hreads⟩
  | string text => exact ⟨_, Shows.of_stringText text, readAs_singleton fun _ => rfl⟩
  | array h ih =>
    obtain ⟨tokens, hshows, hreads⟩ :=
      exists_forall₂_items fun item hitem => ih item hitem layout.inner
    have hopening : Shows "[".toList [.openBracket] := Shows.of_token rfl fun _ => rfl
    have hclosing : Shows "]".toList [.closeBracket] := Shows.of_token rfl fun _ => rfl
    exact ⟨_, shows_bracket layout hopening hclosing hshows, readAs_array hreads⟩
  | object h ih =>
    obtain ⟨tokens, hshows, hreads⟩ :=
      exists_forall₂_fields fun field hfield => ih field hfield layout.inner
    have hopening : Shows "\x7b".toList [.openBrace] := Shows.of_token rfl fun _ => rfl
    have hclosing : Shows "\x7d".toList [.closeBrace] := Shows.of_token rfl fun _ => rfl
    exact ⟨_, shows_bracket layout hopening hclosing hshows, readAs_object hreads⟩

/-- What is written in any layout is read back as the value, also with blanks behind it. -/
theorem parse?_print {value : Json} (h : value.Numberless) (layout : Layout) {blanks : String}
    (hblanks : ∀ c ∈ blanks.toList, JsonToken.isJsonBlank c) :
    parse? (value.print layout ++ blanks) = some value := by
  obtain ⟨tokens, hshows, hreads⟩ := writes_print h layout
  have hnil : JsonToken.tokens? [] = some [] := by rw [JsonToken.tokens?]; rfl
  have htokens : JsonToken.tokens? (value.print layout ++ blanks).toList = some tokens := by
    have hall := hshows.append (Shows.of_blank hblanks) []
    rw [List.append_nil, List.append_nil, hnil] at hall
    rw [String.toList_append, hall]
    simp
  have hread : ofTokens? (.value, []) tokens = some value := by
    simpa [ofTokens?] using hreads [] []
  rw [parse?, htokens]
  exact hread

end Json
end ShellConfig
