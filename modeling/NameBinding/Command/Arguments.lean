import NameBinding.Command

/-!
# Arguments of the command

`resolve`, then the files of units and the flags in any order. A flag with a value takes it from
the next argument or behind an equals sign; two hyphens end the flags.
-/

namespace NameBinding

/-- What is wrong with the arguments. -/
inductive ArgumentError where
  | noCommand
  | unknownCommand (word : String)
  | unknownFlag (word : String)
  | missingValue (flag : String)
  | format (message : String)
  | noFiles
deriving DecidableEq, Repr

/-- How the command is used. -/
def usage : String :=
  "Usage: resolve [--manifest FILE] [--format text|json] [--no-shadow-warnings] " ++
    "[--report-unresolved] UNITS..."

/-- The wording of an argument error. -/
def ArgumentError.message : ArgumentError → String
  | noCommand => "error: a subcommand is required"
  | unknownCommand word => "error: unrecognized subcommand '" ++ word ++ "'"
  | unknownFlag word => "error: unexpected argument '" ++ word ++ "' found"
  | missingValue flag => "error: a value is required for '" ++ flag ++ "'"
  | format message => "error: " ++ message
  | noFiles => "error: at least one file of units is required"

namespace Request

/-- A flag of the form `--name=value`, split at its first equals sign. -/
def splitFlag (word : String) : String × Option String :=
  match word.toList.dropWhile (· != '=') with
  | [] => (word, none)
  | _ :: value => (String.ofList (word.toList.takeWhile (· != '=')), some (String.ofList value))

/-- Takes over a flag that has a value. -/
def withValue (request : Request) (flag value : String) : Except ArgumentError Request :=
  if flag = "--manifest" then .ok { request with manifest := some value }
  else
    match OutputFormat.ofText value with
    | .ok format => .ok { request with format }
    | .error message => .error (.format message)

/-- A request needs at least one file. -/
def complete (request : Request) : Except ArgumentError Request :=
  if request.units.isEmpty then .error .noFiles else .ok request

/-- Takes over the arguments behind the word `resolve`. -/
def takeArguments (request : Request) : List String → Except ArgumentError Request
  | [] => request.complete
  | "--" :: files => complete { request with units := request.units ++ files }
  | "--no-shadow-warnings" :: rest => takeArguments { request with noShadowWarnings := true } rest
  | "--report-unresolved" :: rest => takeArguments { request with reportUnresolved := true } rest
  | word :: rest =>
    match splitFlag word with
    | (flag, value) =>
      if flag = "--manifest" ∨ flag = "--format" then
        match value, rest with
        | some value, rest =>
          match request.withValue flag value with
          | .ok request => takeArguments request rest
          | .error problem => .error problem
        | none, value :: rest =>
          match request.withValue flag value with
          | .ok request => takeArguments request rest
          | .error problem => .error problem
        | none, [] => .error (.missingValue flag)
      else if word.toList.head? = some '-' ∧ word ≠ "-" then .error (.unknownFlag word)
      else takeArguments { request with units := request.units ++ [word] } rest

/-- The request that a list of arguments makes. -/
def ofArguments : List String → Except ArgumentError Request
  | [] => .error .noCommand
  | "resolve" :: rest => takeArguments { units := [] } rest
  | word :: _ => .error (.unknownCommand word)

/-- The files that the command may look at. -/
def paths (request : Request) : List String :=
  request.manifest.getD defaultManifest :: request.units

end Request

end NameBinding
