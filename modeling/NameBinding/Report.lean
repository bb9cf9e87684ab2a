import NameBinding.Analysis
import NameBinding.Syntax.Encode

/-!
# Reports on analysed units

What a user is told about a unit: a line with the counts of its uses and a line for each issue,
or one JSON object that also lists what every use denotes.
-/

namespace NameBinding

open Json

/-- An issue on one line: unit, byte range, severity and wording. -/
def Issue.plainLine (issue : Issue) (unit : String) : String :=
  unit ++ ":" ++ toString issue.span.start.toNat ++ ".." ++ toString issue.span.stop.toNat ++ ": " ++
    issue.severity.text ++ ": " ++ issue.message

/-- An issue as it is shown beside the source text. -/
structure Diagnostic where
  /-- Severity of the issue. -/
  severity : Severity
  /-- Wording of the issue. -/
  message : String
  /-- Where the marked text starts. -/
  offset : UInt32
  /-- How long the marked text is. -/
  length : UInt32
  /-- What stands below the marked text. -/
  label : String
deriving DecidableEq, Repr

/-- The diagnostic of an issue; its label repeats the severity. -/
def Issue.diagnostic (issue : Issue) : Diagnostic where
  severity := issue.severity
  message := issue.message
  offset := issue.span.start
  length := issue.span.length
  label := issue.severity.text ++ " here"

/-- An issue as an object. -/
def Issue.toJson (issue : Issue) : Json :=
  .obj [("severity", .str issue.severity.text), ("message", .str issue.message),
    ("span_start", ofWord issue.span.start), ("span_end", ofWord issue.span.stop)]

/-- The slots of a bare name or member access as an object. -/
def Expr.bindingJson? : Expr → Option Json
  | .reference use =>
    some (.obj [("id", use.id.toJson), ("name", .str use.name),
      ("resolved", ofOption Resolution.toJson use.resolved),
      ("implicit_base", ofOption Resolution.toJson use.implicitBase)])
  | .member _ access =>
    some (.obj [("id", access.id.toJson), ("member", .str access.name),
      ("resolved", ofOption Resolution.toJson access.resolved)])
  | _ => none

/-- The report on a unit as an object. -/
def TranslationUnit.report (unit : TranslationUnit) : Except Issue UnitAnalysis → Json
  | .error issue =>
    .obj [("unit", .str unit.name), ("status", .str "aborted"), ("issues", .arr [issue.toJson])]
  | .ok analysis =>
    .obj [("unit", .str unit.name), ("status", .str "ok"),
      ("references", ofNat analysis.resolutions.visitedCount),
      ("resolved", ofNat analysis.resolutions.resolvedCount),
      ("bindings", .arr (unit.expressions.filterMap Expr.bindingJson?)),
      ("issues", .arr (analysis.issues.map Issue.toJson))]

/-- The report on a unit as a line of text. -/
def TranslationUnit.summary (unit : TranslationUnit) : Except Issue UnitAnalysis → String
  | .error _ => unit.name ++ ": aborted"
  | .ok analysis =>
    unit.name ++ ": " ++ toString analysis.resolutions.resolvedCount ++ "/" ++
      toString analysis.resolutions.visitedCount ++ " references resolved"

/-- The issues that a result carries: all of them, or the one that ended the analysis. -/
def resultIssues : Except Issue UnitAnalysis → List Issue
  | .error issue => [issue]
  | .ok analysis => analysis.issues

/-- Whether a result counts as failed. -/
def resultFailed : Except Issue UnitAnalysis → Bool
  | .error _ => true
  | .ok analysis => analysis.hasErrors

end NameBinding
