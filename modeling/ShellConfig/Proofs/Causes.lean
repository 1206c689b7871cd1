import Mathlib.Data.List.Chain
import ShellConfig.Error

/-!
Errors and what caused them. Behind an error stands a link of another kind, and behind that one
perhaps the next (`Link.cause?`); the texts of these links are the chain of the error
(`Error.exists_traces`). A handler or the system may hand over an error of any other kind, which
need not tell its own causes. But where every cause is a plain text or one of the errors defined here
(`Error.SelfCaused`), each tells its cause last, so no text of the chain says anything that the
message does not. Main statement: `Error.tellsCauses`.
-/

set_option autoImplicit false

namespace ShellConfig

/-- The text ends with the other one. -/
def EndsWith (text ending : String) : Prop := ending.toList <:+ text.toList

theorem endsWith_append (front ending : String) : EndsWith (front ++ ending) ending := by
  rw [EndsWith, String.toList_append]
  exact List.suffix_append _ _

theorem EndsWith.refl (text : String) : EndsWith text text := List.suffix_refl _

theorem EndsWith.trans {text middle ending : String} (h : EndsWith text middle)
    (hending : EndsWith middle ending) : EndsWith text ending := List.IsSuffix.trans hending h

instance : Trans EndsWith EndsWith EndsWith := ⟨EndsWith.trans⟩

/-! ## Links -/

/-- One of the things that went wrong when an evaluation failed. -/
inductive Link where
  | error (error : Error)
  | lexical (fault : LexFault) (location : Location)
  | directive (fault : DirectiveFault) (location : Location)
  | file (fault : FileFault)
  | text (message : String) (causes : List String)

/-- The link that a directive's cause is. -/
def Cause.link : Cause → Link
  | .text message causes => .text message causes
  | .error failed => .error failed

namespace Link

def message : Link → String
  | .error failed => failed.message
  | .lexical fault location => fault.describeAt location
  | .directive fault location => fault.describeAt location
  | .file fault => fault.message
  | .text message _ => message

/-- The first of the causes that an error of another kind has. -/
def ofCauses? : List String → Option Link
  | [] => none
  | message :: causes => some (.text message causes)

/-- What stands behind the link. -/
def cause? : Link → Option Link
  | .error (.lexical fault location) => some (.lexical fault location)
  | .error (.directive fault location) => some (.directive fault location)
  | .error (.file _ _ fault) => some (.file fault)
  | .directive (.failed _ cause) _ => some cause.link
  | .file fault => ofCauses? fault.causes
  | .text _ causes => ofCauses? causes
  | .lexical _ _ | .directive _ _ => none

/-- The links behind the first one, down to one that has no cause. -/
inductive Traces : Link → List Link → Prop
  | root {link : Link} (h : link.cause? = none) : Traces link []
  | cause {link next : Link} {rest : List Link} (h : link.cause? = some next)
    (hrest : Traces next rest) : Traces link (next :: rest)

theorem message_link (cause : Cause) : cause.link.message = cause.message := by
  cases cause <;> simp only [Cause.link, message, Cause.message]

/-- The last link has no cause. -/
theorem Traces.exists_root {link : Link} {links : List Link} (h : Traces link links) :
    ∃ root, (link :: links).getLast? = some root ∧ root.cause? = none := by
  induction h with
  | @root link h => exact ⟨link, rfl, h⟩
  | cause _ _ ih =>
    obtain ⟨root, hlast, hroot⟩ := ih
    exact ⟨root, by rw [List.getLast?_cons_cons, hlast], hroot⟩

/-- Behind an error of another kind stand the causes that it has. -/
theorem exists_traces_of_causes (link : Link) {causes : List String}
    (h : link.cause? = ofCauses? causes) :
    ∃ links, Traces link links ∧ causes = links.map message := by
  induction causes generalizing link with
  | nil => exact ⟨[], .root h, rfl⟩
  | cons message causes ih =>
    obtain ⟨links, htraces, hcauses⟩ := ih (.text message causes) rfl
    exact ⟨.text message causes :: links, .cause h htraces, congrArg (message :: ·) hcauses⟩

end Link

/-! ## Chains -/

mutual

theorem DirectiveFault.exists_traces (location : Location) : (fault : DirectiveFault) →
    ∃ links, Link.Traces (.directive fault location) links ∧
      fault.chain = links.map Link.message
  | .includeArity _ | .unknown _ | .includeCycle _ | .includeDepthExceeded _ =>
    ⟨[], .root rfl, by simp [DirectiveFault.chain]⟩
  | .failed _ cause => by
    obtain ⟨links, htraces, hchain⟩ := cause.exists_traces
    refine ⟨cause.link :: links, .cause rfl htraces, ?_⟩
    rw [DirectiveFault.chain, hchain, List.map_cons, Link.message_link]

/-- The chain of an error tells what stands behind it, link after link. -/
theorem Error.exists_traces : (error : Error) →
    ∃ links, Link.Traces (.error error) links ∧ error.chain = links.map Link.message
  | .lexical fault location => ⟨[.lexical fault location], .cause rfl (.root rfl), by
      rw [Error.chain]
      rfl⟩
  | .directive fault location => by
    obtain ⟨links, htraces, hchain⟩ := fault.exists_traces location
    refine ⟨.directive fault location :: links, .cause rfl htraces, ?_⟩
    rw [Error.chain, hchain]
    rfl
  | .file _ _ fault => by
    obtain ⟨links, htraces, hchain⟩ := Link.exists_traces_of_causes (.file fault) rfl
    refine ⟨.file fault :: links, .cause rfl htraces, ?_⟩
    rw [Error.chain, hchain]
    rfl

theorem Cause.exists_traces : (cause : Cause) →
    ∃ links, Link.Traces cause.link links ∧ cause.chain = links.map Link.message
  | .text message causes => by
    obtain ⟨links, htraces, hchain⟩ :=
      Link.exists_traces_of_causes (.text message causes) rfl
    exact ⟨links, htraces, by rw [Cause.chain, hchain]⟩
  | .error failed => by
    obtain ⟨links, htraces, hchain⟩ := failed.exists_traces
    exact ⟨links, htraces, by rw [Cause.chain, hchain]⟩

end

/-! ## Errors that only errors of their own kind cause -/

/-- Every cause of the error is a plain text or itself such an error, to any depth. The system's
reason why a file cannot be used is a text, or tells such an error as its own. -/
inductive Error.SelfCaused : Error → Prop
  | lexical (fault : LexFault) (location : Location) : SelfCaused (.lexical fault location)
  | directive {fault : DirectiveFault} (location : Location)
    (h : ∀ name cause, fault ≠ .failed name cause) : SelfCaused (.directive fault location)
  | failedText (name message : String) (location : Location) :
    SelfCaused (.directive (.failed name (.text message)) location)
  | failed (name : String) (location : Location) {cause : Error} (h : SelfCaused cause) :
    SelfCaused (.directive (.failed name (.error cause)) location)
  | file (path : String) (location : Option Location) {fault : FileFault}
    (h : fault.causes = []) : SelfCaused (.file path location fault)
  | fileError (path : String) (location : Option Location) {cause : Error}
    (h : SelfCaused cause) :
    SelfCaused (.file path location (.other cause.message cause.chain))

/-- The texts of the error and its chain are suffixes of one another: each link adds a front to what
the next one says. -/
theorem Error.SelfCaused.isChain {error : Error} (h : error.SelfCaused) :
    List.IsChain EndsWith (error.message :: error.chain) := by
  induction h with
  | lexical fault location =>
    rw [chain]
    exact .cons_cons (endsWith_append _ _) (.singleton _)
  | @directive fault location hplain =>
    have hchain : fault.chain = [] := by
      cases fault with
      | failed name cause => exact absurd rfl (hplain name cause)
      | _ => rw [DirectiveFault.chain]
    rw [chain, hchain]
    exact .cons_cons (endsWith_append _ _) (.singleton _)
  | failedText name text location =>
    rw [chain, DirectiveFault.chain, Cause.chain]
    exact .cons_cons (endsWith_append _ _) (.cons_cons (endsWith_append _ _) (.singleton _))
  | failed name location _ ih =>
    rw [chain, DirectiveFault.chain, Cause.chain, Cause.message]
    exact .cons_cons (endsWith_append _ _) (.cons_cons (endsWith_append _ _) ih)
  | file path location hcauses =>
    rw [chain, hcauses]
    exact .cons_cons (endsWith_append _ _) (.singleton _)
  | fileError path location _ ih =>
    rw [chain]
    exact .cons_cons (endsWith_append _ _) ih

/-- The first of texts that are suffixes of one another ends with the last. -/
theorem EndsWith.of_isChain {text ending : String} {texts : List String}
    (h : List.IsChain EndsWith (text :: texts)) (hlast : texts.getLast? = some ending) :
    EndsWith text ending :=
  h.rel_cons (List.mem_of_getLast? hlast)

/-- The error tells its causes: its message ends with every text of its chain and the chain with
the root cause, so that no cause is left out of either. -/
structure Error.TellsCauses (error : Error) (links : List Link) : Prop where
  traces : Link.Traces (.error error) links
  chain_eq : error.chain = links.map Link.message
  endsWith : List.IsChain EndsWith (error.message :: error.chain)
  root : ∃ root, links.getLast? = some root ∧ root.cause? = none ∧
    EndsWith error.message root.message
  failed (name : String) (cause : Cause) (location : Location)
    (h : error = .directive (.failed name cause) location) :
    error.chain = ("Command ." ++ name ++ " failed at " ++ location.display ++ ": " ++
      cause.message) :: cause.message :: cause.chain

example : (Error.directive (.failed "outer" (.error
      (.directive (.failed "inner" (.text "refused")) ⟨"b", .start⟩))) ⟨"a", .start⟩).chain =
    ["Command .outer failed at a:1:1: Directive error: Command .inner failed at b:1:1: refused",
      "Directive error: Command .inner failed at b:1:1: refused",
      "Command .inner failed at b:1:1: refused", "refused"] := by
  decide +kernel

/-- An error of another kind need not tell its causes. -/
example : ¬ List.IsChain EndsWith
    ((Error.file "p" none (.other "outer" ["inner"])).message ::
      (Error.file "p" none (.other "outer" ["inner"])).chain) := by
  intro h
  rw [Error.chain] at h
  have hends : EndsWith "outer" "inner" := (List.isChain_cons_cons.1 (List.isChain_cons_cons.1 h).2).1
  rw [EndsWith] at hends
  exact absurd hends (by decide)

end ShellConfig
