import NameBinding.Identity
import NameBinding.Span

/-!
# Issues found while binding names

An issue is a cause and the span it is attached to. Causes are data; `Cause.message` holds the
wording of every one of them. A malformed tree ends the analysis of its unit, all other issues
are reported beside a complete result.
-/

namespace NameBinding

/-- How serious an issue is. -/
inductive Severity where
  | note
  | warning
  | error
deriving DecidableEq, Repr

/-- The lower-case word for a severity. -/
def Severity.text : Severity → String
  | note => "note"
  | warning => "warning"
  | error => "error"

/-- Why a use was left without a declaration. -/
inductive UnresolvedReason where
  /-- No scope around the use offers the name. -/
  | noBinding
  /-- The type of the base is not a known record. -/
  | unknownType
  /-- The search came upon a record whose fields are not available. -/
  | externalRecord
  /-- The record and all its ancestors are known and declare no such field. -/
  | noSuchMember
deriving DecidableEq, Repr

/-- The wording of a reason. -/
def UnresolvedReason.text : UnresolvedReason → String
  | noBinding => "no declaration in scope"
  | unknownType => "type of the base is unknown"
  | externalRecord => "declared in an external record"
  | noSuchMember => "no such field in the record or its ancestors"

/-- What makes a tree unfit for analysis. -/
inductive Defect where
  /-- A record without a name. -/
  | namelessRecord
  /-- A node that opens a scope although it has opened `existing` before. -/
  | scopeTaken (node : NodeId) (existing : ScopeId)
  /-- A variable or field without a name. -/
  | namelessDeclaration (node : NodeId)
  /-- A node id carried by two declarations. -/
  | declaresTwice (node : NodeId)
  /-- A node that should own a scope of the tree and owns none. -/
  | noScope (node : NodeId)
  /-- A node that is left although its scope is not the innermost open one. -/
  | unmatchedExit (node : NodeId)
  /-- Scopes that are still open at the end of the unit. -/
  | leftOpen (count : Nat)
  /-- A bare name that is empty. -/
  | namelessReference (node : NodeId)
  /-- A member access with an empty member name. -/
  | namelessMember (node : NodeId)
  /-- A defect that a front end describes in its own words. -/
  | described (detail : String)
deriving DecidableEq, Repr

/-- The wording of a defect. -/
def Defect.text : Defect → String
  | namelessRecord => "record without a name"
  | scopeTaken node existing => "node " ++ node.text ++ " already owns " ++ existing.text
  | namelessDeclaration node => "declaration " ++ node.text ++ " without a name"
  | declaresTwice node => "node " ++ node.text ++ " declares more than one name"
  | noScope node => "no scope opened by " ++ node.text
  | unmatchedExit node => "scope exit for " ++ node.text ++ " without a matching enter"
  | leftOpen count => toString count ++ " scope(s) left open"
  | namelessReference node => "reference " ++ node.text ++ " without a name"
  | namelessMember node => "member access " ++ node.text ++ " without a member name"
  | described detail => detail

/-- What an issue is about. -/
inductive Cause where
  /-- A name declared again where it is taken; `first` is the declaration that keeps it. -/
  | duplicate (name : String) (first : Span)
  /-- A use that denotes nothing known. -/
  | unresolved (name : String) (reason : UnresolvedReason)
  /-- A tree that cannot be analysed. -/
  | malformed (defect : Defect)
  /-- A use whose name also belongs to a local in a sibling scope, declared at `other`. -/
  | ambiguousShadow (name : String) (other : Span)
  /-- An instance member reached without a receiver. -/
  | staticContext (name : String)
deriving DecidableEq, Repr

namespace Cause

/-- Severity is a matter of the cause alone. -/
def severity : Cause → Severity
  | duplicate .. | malformed .. => .error
  | ambiguousShadow .. | staticContext .. => .warning
  | unresolved .. => .note

/-- Only malformed trees end the analysis of a unit. -/
def isFatal : Cause → Bool
  | malformed .. => true
  | _ => false

/-- The wording of a cause. -/
def message : Cause → String
  | duplicate name _ => "'" ++ name ++ "' is already declared in this scope"
  | unresolved name reason => "unresolved reference '" ++ name ++ "': " ++ reason.text
  | malformed defect => "malformed scope nesting: " ++ defect.text
  | ambiguousShadow name _ => "'" ++ name ++ "' also names a local in a sibling scope"
  | staticContext name => "instance member '" ++ name ++ "' used from a static context"

end Cause

/-- A cause attached to the place it was found at. -/
structure Issue where
  /-- What was found. -/
  cause : Cause
  /-- Where it was found. -/
  span : Span
deriving DecidableEq, Repr

namespace Issue

/-- Severity of the cause. -/
def severity (issue : Issue) : Severity := issue.cause.severity

/-- Whether the issue ends the analysis of its unit. -/
def isFatal (issue : Issue) : Bool := issue.cause.isFatal

/-- Wording of the cause. -/
def message (issue : Issue) : String := issue.cause.message

/-- The issue raised by a defect of the tree. -/
def malformed (defect : Defect) (span : Span) : Issue := ⟨.malformed defect, span⟩

end Issue

end NameBinding
