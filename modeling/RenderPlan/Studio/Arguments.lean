/-!
# Command-line arguments

The arguments are handled from left to right. One that asks for help or that cannot be handled
settles the outcome, and nothing to its right matters.

## Main definitions

* `Studio.Options`, `Studio.Request`, `Studio.UsageError`.
* `Studio.Argument.ofString`, `Studio.parseArguments`.
-/

namespace RenderPlan.Studio

/-- What the arguments set. -/
structure Options where
  /-- More is logged. The report does not depend on it. -/
  verbose : Bool := false
  /-- The stock document is written instead of a report. -/
  dump : Bool := false
  /-- The file of the document to report on. -/
  catalog : Option String := none
deriving DecidableEq

/-- What is asked for. -/
inductive Request where
  | help
  | run (options : Options)
deriving DecidableEq

/-- Why arguments are refused. -/
inductive UsageError where
  | unknownFlag (flag : String)
  | secondCatalog
deriving DecidableEq

/-- The line that explains the arguments. -/
def usage : String := "usage: strand-studio [--verbose] [--dump] [CATALOG.json]"

namespace UsageError

/-- What is wrong, without the explanation. -/
def complaint : UsageError → String
  | .unknownFlag flag => "unknown flag `" ++ flag ++ "`"
  | .secondCatalog => "more than one catalog given"

/-- The wording of the error. -/
def message (e : UsageError) : String := e.complaint ++ "\n" ++ usage

end UsageError

/-- What one argument says. -/
inductive Argument where
  | verbose
  | dump
  | help
  | unknownFlag (flag : String)
  | catalog (path : String)
deriving DecidableEq

namespace Argument

/-- The spelled-out meaning of an argument. Everything else that begins with a dash is taken for a
flag, and what does not is a file. -/
def ofString (s : String) : Argument :=
  if s = "-v" ∨ s = "--verbose" then .verbose
  else if s = "--dump" then .dump
  else if s = "-h" ∨ s = "--help" then .help
  else if s.toList.head? = some '-' then .unknownFlag s
  else .catalog s

end Argument

/-- Handles arguments from left to right, given what those before have set. -/
def parseFrom : List Argument → Options → Except UsageError Request
  | [], options => .ok (.run options)
  | .verbose :: rest, options => parseFrom rest { options with verbose := true }
  | .dump :: rest, options => parseFrom rest { options with dump := true }
  | .help :: _, _ => .ok .help
  | .unknownFlag flag :: _, _ => .error (.unknownFlag flag)
  | .catalog path :: rest, options =>
    match options.catalog with
    | none => parseFrom rest { options with catalog := some path }
    | some _ => .error .secondCatalog

/-- What the arguments ask for. -/
def parseArguments (arguments : List String) : Except UsageError Request :=
  parseFrom (arguments.map Argument.ofString) {}

end RenderPlan.Studio
