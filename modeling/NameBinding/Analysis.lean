import NameBinding.Declaration.Register
import NameBinding.Record.Collect
import NameBinding.Resolution.Unit
import NameBinding.Shadow

/-!
# Analysing units and programs

A unit goes through three phases: its scopes are opened, its names are declared, its uses are
resolved against an index over the whole program. A malformed unit is left as it is; otherwise
the findings are written into its slots. Options choose among the issues that are reported and
have no other effect.
-/

namespace NameBinding

open Json

/-- Which of the dispensable issues are reported. -/
structure Options where
  /-- Warn of uses that share their name with a local in a sibling scope. -/
  reportAmbiguousShadows : Bool := true
  /-- Note every use that denotes nothing known. -/
  reportUnresolved : Bool := false
deriving DecidableEq, Repr

/-- The names that options go by in data. -/
def Options.keys : List String := ["report_ambiguous_shadows", "report_unresolved"]

/-- Options are read from an object without other keys. -/
def Options.ofJson? (value : Json) : Option Options := do
  let entries ← value.entries?
  let reportAmbiguousShadows ← defaulted? entries "report_ambiguous_shadows" true bool?
  let reportUnresolved ← defaulted? entries "report_unresolved" false bool?
  if onlyKeys entries Options.keys then some { reportAmbiguousShadows, reportUnresolved } else none

/-- Options as an object. -/
def Options.toJson (options : Options) : Json :=
  .obj [("report_ambiguous_shadows", .bool options.reportAmbiguousShadows),
    ("report_unresolved", .bool options.reportUnresolved)]

/-- What the analysis of a unit yields. -/
structure UnitAnalysis where
  /-- Name of the unit. -/
  unit : String
  /-- Its scopes with the names bound in them. -/
  tree : ScopeTree
  /-- Its declarations. -/
  declarations : DeclTable
  /-- What goes into its slots. -/
  resolutions : Resolutions
  /-- The issues of all phases, in source order. -/
  issues : List Issue
deriving DecidableEq, Repr

/-- The issues of one severity. -/
def UnitAnalysis.issuesWith (analysis : UnitAnalysis) (severity : Severity) : List Issue :=
  analysis.issues.filter (·.severity == severity)

/-- Whether any issue is an error. -/
def UnitAnalysis.hasErrors (analysis : UnitAnalysis) : Bool :=
  analysis.issues.any (·.severity == .error)

/-- The issue of a record of the unit whose name a record of another unit has taken. -/
def collisionIssue? (tree : ScopeTree) (index : RecordIndex) (collision : RecordCollision) :
    Option Issue :=
  if (tree.scopeOf? collision.dropped).isSome && (tree.scopeOf? collision.kept).isNone then
    (index.recordById? collision.dropped).map fun dropped =>
      ⟨.duplicate collision.name collision.keptSpan, dropped.span⟩
  else none

/-- The issues of records whose names other units have taken. Clashes inside the unit are
reported as duplicate declarations already. -/
def collisionIssues (tree : ScopeTree) (index : RecordIndex) : List Issue :=
  index.collisions.filterMap (collisionIssue? tree index)

/-- Issues in the order in which they start, those that start alike in the order given. -/
def inSourceOrder (issues : List Issue) : List Issue :=
  issues.mergeSort fun first second => first.span.start ≤ second.span.start

/-- Takes a unit through all phases without touching it. -/
def resolveUnit (unit : TranslationUnit) (index : RecordIndex) (options : Options) :
    Except Issue UnitAnalysis := do
  let empty ← ScopeTree.build unit
  let registered ← registerDeclarations unit empty
  let log ← resolveReferences unit registered.tree registered.table index
  let shadows :=
    if options.reportAmbiguousShadows then registered.tree.shadowIssues log.references else []
  .ok
    { unit := unit.name
      tree := registered.tree
      declarations := registered.table
      resolutions := .ofLog log
      issues := inSourceOrder (registered.issues ++ log.issues options.reportUnresolved ++
        collisionIssues registered.tree index ++ shadows) }

/-- Analyses a unit and fills its slots; a malformed unit stays as it is. -/
def analyseUnit (unit : TranslationUnit) (index : RecordIndex) (options : Options) :
    TranslationUnit × Except Issue UnitAnalysis :=
  match resolveUnit unit index options with
  | .ok analysis => (analysis.resolutions.apply unit, .ok analysis)
  | .error issue => (unit, .error issue)

/-- Analyses several units against one index, each on its own. -/
def analyseProgram (units : List TranslationUnit) (index : RecordIndex) (options : Options) :
    List (TranslationUnit × Except Issue UnitAnalysis) :=
  units.map fun unit => analyseUnit unit index options

end NameBinding
