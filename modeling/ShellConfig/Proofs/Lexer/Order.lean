import ShellConfig.Proofs.Interpreter.DirectiveLines
import ShellConfig.Proofs.Source.Boundaries

/-!
What the states of a scan have in common. A state that occurs is in order (`Lexer.Orderly`): its
cursor has committed to whole characters, a double quote is open in few modes only, a line begins
with nothing left of the one before, and a directive line begins with its dot. An open double quote
is that of the region in which the scan is (`Scan.InRegion`), and what is to be done with a line
stays from its beginning to its end. Main statement: `Scan.keepsOrder`.
-/

set_option autoImplicit false

namespace ShellConfig

/-- Whether a double quote can be open in this mode. -/
def Mode.canBeQuoted : Mode → Bool
  | .dispatch | .quotedText | .backslash | .reference | .doubleQuote => true
  | _ => false

namespace Lexer

/-- The first word of the line, which is the current one while no word of the line is complete. -/
def firstWord? (lexer : Lexer) : Option String := lexer.line.head?.or lexer.word

theorem head?_endWord (lexer : Lexer) : lexer.endWord.line.head? = lexer.firstWord? := by
  change (lexer.line ++ lexer.word.toList).head? = _
  rw [List.head?_append, firstWord?]
  cases lexer.word <;> rfl

/-- Nothing is known of a line. -/
structure Fresh (lexer : Lexer) : Prop where
  quote : lexer.inQuotes = false
  word : lexer.word = none
  line : lexer.line = []
  lineStart : lexer.lineStart = none
  pending : lexer.pending = .plain

/-- A state between two steps of the scan of a text. -/
structure Orderly (text : String) (mode : Mode) (lexer : Lexer) : Prop where
  text_eq : lexer.cursor.text = text
  committed : lexer.cursor.start = lexer.cursor.offset
  boundary : IsBoundary text lexer.cursor.start
  quoted : lexer.inQuotes → mode.canBeQuoted
  fresh : mode = .beginOfLine → lexer.Fresh
  dot : lexer.pending = .directive → ∀ word, lexer.firstWord? = some word →
    word.toList.head? = some '.'

section
variable {text : String} {mode : Mode} {lexer : Lexer}

theorem canBeQuoted_of_fits (hfits : lexer.Fits mode) (hquotes : lexer.inQuotes) :
    mode.canBeQuoted := by
  obtain ⟨offset, hoffset⟩ := Option.isSome_iff_exists.1 hquotes
  have hnext (h : lexer.nextMode = .ok mode) : mode.canBeQuoted := by
    obtain rfl | rfl | rfl | rfl := mode_of_quote hoffset h <;> rfl
  cases mode with
  | beginOfLine =>
    have hfalse : lexer.inQuotes = false := congrArg Reading.inQuotes hfits
    rw [hfalse] at hquotes
    cases hquotes
  | dispatch => rfl
  | bareText | quotedText | whiteSpace | backslash | singleQuoted | doubleQuote | reference
  | comment | lineBreak | finish => exact hnext hfits

theorem Occurs.isBoundary (h : Occurs text mode lexer) : IsBoundary text lexer.cursor.start := by
  have hboundary := isBoundary_append lexer.cursor.passed (String.ofList lexer.cursor.rest)
  rwa [← h.text_eq_append] at hboundary

theorem Occurs.fresh (h : Occurs text .beginOfLine lexer) : lexer.Fresh where
  quote := congrArg Reading.inQuotes h.fits
  word := congrArg Reading.word h.fits
  line := congrArg Reading.line h.fits
  lineStart := h.lineStart_of_beginOfLine
  pending := congrArg Reading.pending h.fits

theorem Occurs.head?_firstWord (h : Occurs text mode lexer) (hp : lexer.pending = .directive)
    {word : String} (hword : lexer.firstWord? = some word) : word.toList.head? = some '.' := by
  rw [← head?_endWord] at hword
  obtain ⟨name, arguments, hline⟩ | ⟨hnil, -⟩ := h.dot_first hp
  · rw [hline, List.head?_cons] at hword
    rw [← Option.some.inj hword, String.toList_ofList]
    rfl
  · rw [hnil] at hword
    cases hword

theorem Occurs.orderly (h : Occurs text mode lexer) : Orderly text mode lexer where
  text_eq := h.text_eq
  committed := h.offset_eq.symm
  boundary := h.isBoundary
  quoted := canBeQuoted_of_fits h.fits
  fresh hmode := by
    subst hmode
    exact h.fresh
  dot hp _ hword := h.head?_firstWord hp hword

end

end Lexer

namespace Scan
open Lexer

/-! ## The region between double quotes -/

/-- The second scan is between the double quotes that the step of the first one opens. -/
inductive InRegion (scope : Scope) (opening : Scan) : Scan → Prop
  | opens {scan : Scan} (hmode : opening.mode = .doubleQuote)
    (hclosed : opening.lexer.inQuotes = false) (hnext : Next scope opening scan)
    (hopen : scan.lexer.inQuotes) : InRegion scope opening scan
  | step {scan next : Scan} (h : InRegion scope opening scan) (hnext : Next scope scan next)
    (hopen : next.lexer.inQuotes) : InRegion scope opening next

/-- What the scan of a text keeps from step to step. -/
structure KeepsOrder (scope : Scope) (text : String) (session : Session) : Prop where
  orderly : ∀ scan, Reaches scope (start text session) scan →
    Orderly text scan.mode scan.lexer
  /-- The quote that is open is the one with which its region begins. -/
  inRegion : ∀ scan offset, Reaches scope (start text session) scan →
    scan.lexer.quote = some offset → ∃ opening, Reaches scope (start text session) opening ∧
      InRegion scope opening scan ∧ opening.lexer.cursor.start = offset ∧
      opening.lexer.cursor.peek = some '"'
  inLine : ∀ scan, Reaches scope (start text session) scan →
    ∃ first, Reaches scope (start text session) first ∧ InLine scope first scan
  /-- The step that begins a line settles what is done with it. -/
  pending : ∀ first scan, Reaches scope (start text session) first → InLine scope first scan →
    scan.mode ≠ .beginOfLine → scan.lexer.pending = first.lexer.beginLine.pending
  /-- That is what is done where the line ends. -/
  ended : ∀ first scan, Reaches scope (start text session) first → InLine scope first scan →
    ∀ ended continuation, scan.lexer.ended? scan.mode = some (ended, continuation) →
      ended.pending = first.lexer.beginLine.pending

section
variable {scope : Scope} {text : String} {session : Session} {first scan : Scan}

/-- An open quote was read at its offset, and has been open since then. -/
theorem exists_inRegion (h : Reaches scope (start text session) scan) :
    ∀ offset, scan.lexer.quote = some offset → ∃ opening,
      Reaches scope (start text session) opening ∧ InRegion scope opening scan ∧
      opening.lexer.cursor.start = offset ∧ opening.lexer.cursor.peek = some '"' := by
  induction h with
  | refl => exact fun _ hquote => nomatch hquote
  | @tail scan next hreaches hnext ih =>
    intro offset hquote
    have hopen : next.lexer.inQuotes := Option.isSome_iff_exists.2 ⟨offset, hquote⟩
    obtain hbefore | ⟨hmode, hnone, rfl⟩ := (marks_of_step hnext).2 offset hquote
    · obtain ⟨opening, hopening, hregion, hstart, hpeek⟩ := ih offset hbefore
      exact ⟨opening, hopening, hregion.step hnext hopen, hstart, hpeek⟩
    · have hclosed : scan.lexer.inQuotes = false := by rw [inQuotes, hnone]; rfl
      have hfits := (Occurs.of_reaches hreaches).fits
      rw [hmode] at hfits
      obtain ⟨c, tail, hrest, hc⟩ := exists_accepts_of_nextMode hfits (by decide)
      obtain rfl : c = '"' := of_decide_eq_true hc
      refine ⟨scan, hreaches, .opens hmode hclosed hnext hopen, rfl, ?_⟩
      rw [Cursor.peek, hrest]
      rfl

theorem pending_of_inLine (hfirst : Reaches scope (start text session) first)
    (hline : InLine scope first scan) (hmode : scan.mode ≠ .beginOfLine) :
    scan.lexer.pending = first.lexer.beginLine.pending := by
  have hfits := (Occurs.of_reaches hfirst).fits
  rw [hline.begins_mode] at hfits
  have hplain : first.lexer.pending = .plain := congrArg Reading.pending hfits
  obtain rfl | ⟨-, hpending⟩ := hline.pending_eq hplain
  · exact absurd hline.begins_mode hmode
  · rw [hpending, pending_beginLine hplain]

theorem keepsOrder (scope : Scope) (text : String) (session : Session) :
    KeepsOrder scope text session where
  orderly _ hreaches := (Occurs.of_reaches hreaches).orderly
  inRegion _ _ hreaches := exists_inRegion hreaches _
  inLine _ hreaches := exists_inLine hreaches
  pending _ _ hfirst hline := pending_of_inLine hfirst hline
  ended _ _ hfirst hline _ _ hended := by
    rw [(line_of_ended hended).2]
    refine pending_of_inLine hfirst hline fun hmode => ?_
    rw [hmode] at hended
    cases hended

end

end Scan
end ShellConfig
