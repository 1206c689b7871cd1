import ShellConfig.Json.Basic
import ShellConfig.Source.Cursor

/-!
The pieces of a JSON text: brackets, commas, colons, and values that have no parts. Blanks between
them are left out. Main statement: a piece has at least one character (`length_token_pos`), so the
pieces of a text come to an end.
-/

set_option autoImplicit false

namespace ShellConfig

/-- A piece of a JSON text. -/
inductive JsonToken where
  /-- The beginning of an object. -/
  | openBrace
  /-- The end of an object. -/
  | closeBrace
  /-- The beginning of a list. -/
  | openBracket
  /-- The end of a list. -/
  | closeBracket
  /-- A comma. -/
  | comma
  /-- A colon. -/
  | colon
  /-- The value `null`. -/
  | null
  /-- A truth value. -/
  | bool (value : Bool)
  /-- A number as it is written. -/
  | number (digits : String)
  /-- A string. -/
  | string (text : JsonText)
deriving DecidableEq

namespace JsonToken

/-! ## Strings -/

/-- What stands for itself in a string, or a number of 16 bits that an escape gives. -/
inductive StringPart where
  /-- A character. -/
  | char (c : Char)
  /-- A character or half of a surrogate pair, by its number. -/
  | unit (value : Nat)
deriving DecidableEq

/-- The value of a hexadecimal digit. -/
def hexDigit? (c : Char) : Option Nat :=
  if c.isDigit then some (c.toNat - '0'.toNat)
  else if 'a' ≤ c && c ≤ 'f' then some (c.toNat - 'a'.toNat + 10)
  else if 'A' ≤ c && c ≤ 'F' then some (c.toNat - 'A'.toNat + 10)
  else none

/-- The number that four hexadecimal digits give. -/
def hexUnit? (a b c d : Char) : Option Nat :=
  match hexDigit? a, hexDigit? b, hexDigit? c, hexDigit? d with
  | some a, some b, some c, some d => some (((a * 16 + b) * 16 + c) * 16 + d)
  | _, _, _, _ => none

/-- The character that a short escape gives. -/
def shortEscape? (c : Char) : Option Char :=
  if c = '"' || c = '\\' || c = '/' then some c
  else if c = 'b' then some '\x08'
  else if c = 'f' then some '\x0c'
  else if c = 'n' then some '\n'
  else if c = 'r' then some '\r'
  else if c = 't' then some '\t'
  else none

/-- The parts of a string up to its closing quote. The length counts that quote too. -/
def stringParts : List Char → Option (Match (List StringPart))
  | [] => none
  | '"' :: _ => some ⟨1, []⟩
  | '\\' :: 'u' :: a :: b :: c :: d :: rest =>
    match hexUnit? a b c d, stringParts rest with
    | some unit, some found => some ⟨found.length + 6, .unit unit :: found.value⟩
    | _, _ => none
  | '\\' :: c :: rest =>
    match shortEscape? c, stringParts rest with
    | some c, some found => some ⟨found.length + 2, .char c :: found.value⟩
    | _, _ => none
  | c :: rest =>
    if c = '\\' || c.toNat < 0x20 then none
    else (stringParts rest).map fun found => ⟨found.length + 1, .char c :: found.value⟩

/-- Whether the number is the first half of a surrogate pair. -/
def isHighSurrogate (unit : Nat) : Bool := 0xD800 ≤ unit && unit < 0xDC00

/-- Whether the number is the second half of a surrogate pair. -/
def isLowSurrogate (unit : Nat) : Bool := 0xDC00 ≤ unit && unit < 0xE000

/-- The characters that the parts of a string stand for. The halves of a pair have to meet. -/
def joinParts : List StringPart → Option (List Char)
  | [] => some []
  | .char c :: rest => (joinParts rest).map (c :: ·)
  | .unit high :: .unit low :: rest =>
    if isHighSurrogate high then
      if isLowSurrogate low then
        (joinParts rest).map
          (Char.ofNat (0x10000 + (high - 0xD800) * 0x400 + (low - 0xDC00)) :: ·)
      else none
    else if isLowSurrogate high then none
    else (joinParts (.unit low :: rest)).map (Char.ofNat high :: ·)
  | .unit value :: rest =>
    if isHighSurrogate value || isLowSurrogate value then none
    else (joinParts rest).map (Char.ofNat value :: ·)

/-- A string from behind its opening quote. -/
def string? : Reader JsonToken := fun text =>
  (stringParts text).map fun found =>
    ⟨found.length, .string ((joinParts found.value).map String.ofList)⟩

/-! ## Numbers -/

/-- The number of characters in a fraction at the front of the text; none if a point has no digits.
-/
def fractionLength? : List Char → Option Nat
  | '.' :: rest =>
    match (rest.takeWhile Char.isDigit).length with
    | 0 => none
    | digits => some (digits + 1)
  | _ => some 0

/-- The number of characters in an exponent at the front of the text; none if it has no digits. -/
def exponentLength? : List Char → Option Nat
  | [] => some 0
  | c :: rest =>
    if c = 'e' || c = 'E' then
      let sign := match rest with
        | '+' :: _ | '-' :: _ => 1
        | _ => 0
      match ((rest.drop sign).takeWhile Char.isDigit).length with
      | 0 => none
      | digits => some (1 + sign + digits)
    else some 0

/-- The number of digits before the point. A zero stands alone. -/
def integerLength? : List Char → Option Nat
  | '0' :: _ => some 1
  | text =>
    match (text.takeWhile Char.isDigit).length with
    | 0 => none
    | digits => some digits

/-- A number. -/
def number? : Reader JsonToken := fun text =>
  let sign := match text with
    | '-' :: _ => 1
    | _ => 0
  match integerLength? (text.drop sign) with
  | none => none
  | some integer =>
    match fractionLength? (text.drop (sign + integer)) with
    | none => none
    | some fraction =>
      match exponentLength? (text.drop (sign + integer + fraction)) with
      | none => none
      | some exponent =>
        let length := sign + integer + fraction + exponent
        some ⟨length, .number (String.ofList (text.take length))⟩

/-! ## Texts -/

/-- A piece that begins with a given character. -/
def token? : Reader JsonToken
  | [] => none
  | '\x7b' :: _ => some ⟨1, .openBrace⟩
  | '\x7d' :: _ => some ⟨1, .closeBrace⟩
  | '[' :: _ => some ⟨1, .openBracket⟩
  | ']' :: _ => some ⟨1, .closeBracket⟩
  | ',' :: _ => some ⟨1, .comma⟩
  | ':' :: _ => some ⟨1, .colon⟩
  | 'n' :: 'u' :: 'l' :: 'l' :: _ => some ⟨4, .null⟩
  | 't' :: 'r' :: 'u' :: 'e' :: _ => some ⟨4, .bool true⟩
  | 'f' :: 'a' :: 'l' :: 's' :: 'e' :: _ => some ⟨5, .bool false⟩
  | '"' :: rest => (string? rest).map fun found => ⟨found.length + 1, found.value⟩
  | text => number? text

/-- Whether the character is a blank between pieces. -/
def isJsonBlank (c : Char) : Bool := c = ' ' || c = '\n' || c = '\t' || c = '\r'

theorem integerLength_pos {text : List Char} {length : Nat}
    (h : integerLength? text = some length) : 0 < length ∧ text ≠ [] := by
  unfold integerLength? at h
  split at h
  · obtain rfl := Option.some.inj h
    simp
  · split at h
    · simp at h
    · next digits hne =>
      obtain rfl := Option.some.inj h
      refine ⟨Nat.pos_of_ne_zero hne, ?_⟩
      rintro rfl
      simp at hne

/-- A piece has at least one character. -/
theorem length_token_pos {text : List Char} {found : Match JsonToken}
    (h : token? text = some found) : 0 < found.length ∧ text ≠ [] := by
  have hnumber {text : List Char} {found : Match JsonToken} (h : number? text = some found) :
      0 < found.length ∧ text ≠ [] := by
    simp only [number?] at h
    split at h
    · simp at h
    · next integer hi =>
      have hpos := integerLength_pos hi
      split at h
      · simp at h
      · split at h
        · simp at h
        · obtain rfl := Option.some.inj h
          refine ⟨?_, ?_⟩
          · simp only
            omega
          · rintro rfl
            simp at hpos
  unfold token? at h
  split at h
  case h_12 => exact hnumber h
  case h_11 =>
    obtain ⟨_, -, rfl⟩ := Option.map_eq_some_iff.1 h
    simp
  all_goals first
    | (obtain rfl := Option.some.inj h; simp)
    | simp at h

/-- The pieces of a text. -/
def tokens? (text : List Char) : Option (List JsonToken) :=
  match _h : token? (text.dropWhile isJsonBlank) with
  | some found =>
    (tokens? ((text.dropWhile isJsonBlank).drop found.length)).map (found.value :: ·)
  | none => if (text.dropWhile isJsonBlank).isEmpty then some [] else none
termination_by text.length
decreasing_by
  obtain ⟨hpos, hne⟩ := length_token_pos _h
  have hlen := List.length_pos_iff.2 hne
  have hle := (List.dropWhile_sublist isJsonBlank (l := text)).length_le
  rw [List.length_drop]
  omega

end JsonToken

end ShellConfig
