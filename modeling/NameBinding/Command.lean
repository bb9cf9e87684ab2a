import NameBinding.Manifest
import NameBinding.Json.Text
import NameBinding.Report
import NameBinding.Syntax.Decode

/-!
# The command

The command reads a manifest and files of units, analyses all units together and reports on each
of them. Files are looked up by a function, so that the command itself is pure. It fails on the
first file that cannot be read, and at the end if any unit failed.
-/

namespace NameBinding

/-- How reports are written. -/
inductive OutputFormat where
  /-- Lines of text; issues go to the error output. -/
  | text
  /-- One JSON object on a line for each unit. -/
  | json
deriving DecidableEq, Repr

/-- A format by its name, or what is wrong with the name. -/
def OutputFormat.ofText (name : String) : Except String OutputFormat :=
  if name = "text" then .ok .text
  else if name = "json" then .ok .json
  else .error ("unknown format '" ++ name ++ "': expected 'text' or 'json'")

/-- What the command is asked to do. -/
structure Request where
  /-- The files of units, in order. -/
  units : List String
  /-- The manifest to read instead of the default one. -/
  manifest : Option String := none
  /-- How reports are written. -/
  format : OutputFormat := .text
  /-- Do not warn of ambiguous shadows, whatever the manifest says. -/
  noShadowWarnings : Bool := false
  /-- Note unresolved uses, whatever the manifest says. -/
  reportUnresolved : Bool := false
deriving DecidableEq, Repr

/-- What a file lookup meets. -/
inductive FileState where
  | absent
  | unreadable
  | text (content : String)
deriving DecidableEq, Repr

/-- Why the command fails. -/
inductive Failure where
  | manifestNotRead (path : String)
  | manifestInvalid (path : String)
  | unitsNotRead (path : String)
  | unitsInvalid (path : String)
  | noUnits
  | unitsFailed (count : Nat)
deriving DecidableEq, Repr

/-- The wording of a failure. -/
def Failure.message : Failure → String
  | manifestNotRead path => "Failed to read manifest '" ++ path ++ "'"
  | manifestInvalid path => "Failed to parse manifest '" ++ path ++ "'"
  | unitsNotRead path => "Failed to read '" ++ path ++ "'"
  | unitsInvalid path => "Failed to parse translation units in '" ++ path ++ "'"
  | noUnits => "No translation units found in the given files"
  | unitsFailed count =>
    toString count ++ " unit" ++ (if count = 1 then "" else "s") ++ " failed resolution"

/-- What the command leaves behind. -/
structure Outcome where
  /-- Why it failed, if it did. -/
  failure : Option Failure
  /-- Lines of the standard output. -/
  stdout : List String := []
  /-- Lines of the error output. -/
  stderr : List String := []
deriving DecidableEq, Repr

namespace Request

/-- The manifest that is read, if there is one, unless another is asked for. -/
def defaultManifest : String := "./scopegraph.toml"

/-- Reads the manifest at a path. -/
def readManifest (files : String → FileState) (path : String) : Except Failure Manifest :=
  match files path with
  | .text content =>
    match Manifest.parse? content with
    | some manifest => .ok manifest
    | none => .error (.manifestInvalid path)
  | _ => .error (.manifestNotRead path)

/-- The manifest in force; without a manifest everything has its default. -/
def manifestOf (request : Request) (files : String → FileState) : Except Failure Manifest :=
  match request.manifest with
  | some path => readManifest files path
  | none =>
    if files defaultManifest = .absent then .ok {} else readManifest files defaultManifest

/-- The options in force: those of the manifest, overridden by the request. -/
def optionsOf (request : Request) (manifest : Manifest) : Options where
  reportAmbiguousShadows := manifest.options.reportAmbiguousShadows && !request.noShadowWarnings
  reportUnresolved := manifest.options.reportUnresolved || request.reportUnresolved

/-- The units that a text holds: one unit or a list of units, read leniently. -/
def unitsOfText? (content : String) : Option (List TranslationUnit) :=
  match Json.parse? content with
  | some (.arr items) => items.mapM (TranslationUnit.ofJson? .lenient)
  | some value => (TranslationUnit.ofJson? .lenient value).map ([·])
  | none => none

/-- The units of one file. -/
def unitsOfFile (files : String → FileState) (path : String) :
    Except Failure (List TranslationUnit) :=
  match files path with
  | .text content =>
    match unitsOfText? content with
    | some units => .ok units
    | none => .error (.unitsInvalid path)
  | _ => .error (.unitsNotRead path)

/-- The units of several files, in order. -/
def unitsOfFiles (files : String → FileState) : List String → Except Failure (List TranslationUnit)
  | [] => .ok []
  | path :: rest => do
    let first ← unitsOfFile files path
    .ok (first ++ (← unitsOfFiles files rest))

/-- The output about analysed units. -/
def output (request : Request) (results : List (TranslationUnit × Except Issue UnitAnalysis)) :
    List String × List String :=
  match request.format with
  | .json => (results.map fun (unit, result) => (unit.report result).inKeyOrder.render, [])
  | .text =>
    (results.map fun (unit, result) => unit.summary result,
      results.flatMap fun (unit, result) => (resultIssues result).map (·.plainLine unit.name))

/-- Reads, analyses and reports. -/
def run (request : Request) (files : String → FileState) : Outcome :=
  let inputs := do
    let manifest ← request.manifestOf files
    let units ← unitsOfFiles files request.units
    if units.isEmpty then .error .noUnits else .ok (manifest, units)
  match inputs with
  | .error failure => { failure := some failure }
  | .ok (manifest, units) =>
    let index := RecordIndex.ofProgram units manifest.externals
    let results := analyseProgram units index (request.optionsOf manifest)
    let failed := (results.filter fun (_, result) => resultFailed result).length
    let (stdout, stderr) := request.output results
    { failure := if failed = 0 then none else some (.unitsFailed failed), stdout, stderr }

end Request

end NameBinding
