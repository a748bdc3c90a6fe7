import RenderPlan.Stock.Catalogs
import RenderPlan.Studio.Arguments
import RenderPlan.Studio.Report

/-!
# Sessions

One run of the program: the arguments are handled, the document is loaded if a file is named, and a
text is answered or a failure. The only effect is reading that file, so the monad in which files
are read is a parameter. An answer is written to the output; a failure is reported with another
exit code, and nothing is written there.

## Main definitions

* `Studio.Failure`: why a run fails, and the cause behind it.
* `Studio.run`.
* `Studio.Outcome`, `Studio.session`: what a run leaves, given the bytes of files.

## Main results

* `Studio.fileText?_eq_some_iff`: the files that can be read as text.
-/

namespace RenderPlan.Studio

/-- Why a run fails. -/
inductive Failure where
  | usage (e : UsageError)
  | load (path : String) (e : LoadError)
  | compile (e : LibraryError)
deriving DecidableEq

namespace Failure

/-- The wording of a failure. -/
def message : Failure → String
  | .usage e => e.message
  | .load path _ => "failed to load catalog `" ++ path ++ "`"
  | .compile _ => "scene compilation failed"

/-- The wording of what is behind a failure. -/
def cause? : Failure → Option String
  | .usage _ => none
  | .load _ e => some e.message
  | .compile e => some e.message

end Failure

/-- The stock document as text. -/
def dump : String := Stock.document.text ++ "\n"

/-- The library that is reported on: of the file, given its contents if it can be read as text, or
the stock library. -/
def libraryOf (catalog : Option (String × Option String)) : Except Failure Library :=
  match catalog with
  | none => .ok Stock.library
  | some (path, contents) =>
    match Document.Parts.ofFile path contents with
    | .error e => .error (.load path e)
    | .ok parts => .ok parts.library

/-- The report on a file or on the stock library. -/
def reportOn (catalog : Option (String × Option String)) : Except Failure String := do
  let library ← libraryOf catalog
  (report library).mapError .compile

/-- The text that a run with the given arguments answers, where `readFile` gives the contents of a
file that can be read as text. -/
def run {m : Type → Type} [Monad m] (readFile : String → m (Option String))
    (arguments : List String) : m (Except Failure String) := do
  match parseArguments arguments with
  | .error e => return .error (.usage e)
  | .ok .help => return .ok (usage ++ "\n")
  | .ok (.run options) =>
    if options.dump then return .ok dump
    match options.catalog with
    | none => return reportOn none
    | some path => return reportOn (some (path, ← readFile path))

/-- What a run leaves: its exit code, what it writes to the output, and the failure it reports. -/
structure Outcome where
  exitCode : UInt32
  output : String
  failure : Option Failure
deriving DecidableEq

/-- The outcome of a run that has answered a text or failed. -/
def Outcome.ofAnswer : Except Failure String → Outcome
  | .ok text => ⟨0, text, none⟩
  | .error failure => ⟨1, "", some failure⟩

/-- The text in a file, given its bytes if it can be read. -/
def fileText? (bytes : Option ByteArray) : Option String := bytes.bind String.fromUTF8?

/-- The files that can be read as text are those that hold the encoding of one. -/
theorem fileText?_eq_some_iff {bytes : Option ByteArray} {text : String} :
    fileText? bytes = some text ↔ bytes = some text.toUTF8 := by
  rw [fileText?, Option.bind_eq_some_iff]
  constructor
  · rintro ⟨read, rfl, h⟩
    rw [String.fromUTF8?] at h
    split at h
    · cases h
      rfl
    · cases h
  · rintro rfl
    refine ⟨_, rfl, ?_⟩
    rw [String.fromUTF8?, String.toUTF8_eq_toByteArray, dif_pos text.isValidUTF8]
    rfl

/-- The outcome of a run with the given arguments, where `readBytes` gives the bytes of a file that
can be read. -/
def session {m : Type → Type} [Monad m] (readBytes : String → m (Option ByteArray))
    (arguments : List String) : m Outcome := do
  return .ofAnswer (← run (fun path => return fileText? (← readBytes path)) arguments)

end RenderPlan.Studio
