import NameBinding.Issue
import NameBinding.Syntax.Edit

/-!
# Uses and the slots they fill

Resolving a unit yields a log: one entry for each bare name and each member access that was
looked at, in the order in which they were looked at, with what was found. The log does not
depend on which issues are reported; `UseLog.issues` derives them. `Resolutions` collects what is to be
written into the slots of the unit, by node id, and `apply` writes it.
-/

namespace NameBinding

/-- What a bare name is found to denote. -/
structure Hit where
  /-- The declaration. -/
  resolved : Resolution
  /-- The receiver that is understood before the name of a field. -/
  implicitBase : Option Resolution := none
  /-- An instance member was reached where there is no receiver. -/
  staticContext : Bool := false
deriving DecidableEq, Repr

/-- A bare name that was looked up. -/
structure ReferenceSite where
  /-- Identity of the use. -/
  id : NodeId
  /-- The name. -/
  name : String
  /-- The scope it was looked up from. -/
  scope : ScopeId
  /-- Where it was written. -/
  span : Span
  /-- What it denotes; `none` if nothing known. -/
  hit : Option Hit
deriving DecidableEq, Repr

/-- What the bare name denotes. -/
def ReferenceSite.resolved (site : ReferenceSite) : Option Resolution := site.hit.map (·.resolved)

/-- What is found about a member access. -/
inductive MemberFinding where
  /-- The whole access is the qualified name of a record. -/
  | recordName (record : NodeId)
  /-- The member is found; `staticContext` is set if an instance member lacks a receiver. -/
  | member (resolution : Resolution) (staticContext : Bool)
  /-- Nothing is found. -/
  | missing (reason : UnresolvedReason)
deriving DecidableEq, Repr

/-- What a member access denotes. -/
def MemberFinding.resolved : MemberFinding → Option Resolution
  | recordName record => some ⟨record, .record⟩
  | member resolution _ => some resolution
  | missing _ => none

/-- A member access that was looked up. -/
structure MemberSite where
  /-- Identity of the access. -/
  id : NodeId
  /-- The name that issues call it by. -/
  label : String
  /-- The scope it was looked up from. -/
  scope : ScopeId
  /-- Where the whole access was written. -/
  span : Span
  /-- What was found. -/
  finding : MemberFinding
deriving DecidableEq, Repr

/-- One entry of the log. -/
inductive UseEntry where
  | reference (site : ReferenceSite)
  | member (site : MemberSite)
deriving DecidableEq, Repr

/-- What the resolution of a unit looked at, in order. -/
abbrev UseLog := List UseEntry

/-- The issues of a bare name: one if it lacks a receiver; one if it denotes nothing known and
such names are reported. -/
def ReferenceSite.issues (site : ReferenceSite) (reportUnresolved : Bool) : List Issue :=
  match site.hit with
  | some hit => if hit.staticContext then [⟨.staticContext site.name, site.span⟩] else []
  | none => if reportUnresolved then [⟨.unresolved site.name .noBinding, site.span⟩] else []

/-- The issues of a member access, after the same rule. -/
def MemberSite.issues (site : MemberSite) (reportUnresolved : Bool) : List Issue :=
  match site.finding with
  | .recordName _ => []
  | .member _ staticContext =>
    if staticContext then [⟨.staticContext site.label, site.span⟩] else []
  | .missing reason =>
    if reportUnresolved then [⟨.unresolved site.label reason, site.span⟩] else []

/-- The issues of one entry. -/
def UseEntry.issues (reportUnresolved : Bool) : UseEntry → List Issue
  | reference site => site.issues reportUnresolved
  | member site => site.issues reportUnresolved

/-- The bare name of an entry. -/
def UseEntry.reference? : UseEntry → Option ReferenceSite
  | reference site => some site
  | member _ => none

/-- The member access of an entry. -/
def UseEntry.member? : UseEntry → Option MemberSite
  | reference _ => none
  | member site => some site

namespace UseLog

/-- The bare names that were looked up, in order. -/
def references (log : UseLog) : List ReferenceSite := log.filterMap UseEntry.reference?

/-- The member accesses that were looked up, in order. -/
def members (log : UseLog) : List MemberSite := log.filterMap UseEntry.member?

/-- The issues of all entries, in order. -/
def issues (log : UseLog) (reportUnresolved : Bool) : List Issue :=
  log.flatMap (UseEntry.issues reportUnresolved)

end UseLog

/-- Sets the value under a key; a key that is there keeps its position. -/
def putEntry {α β : Type} [DecidableEq α] (key : α) (value : β) : List (α × β) → List (α × β)
  | [] => [(key, value)]
  | (k, v) :: rest => if k = key then (key, value) :: rest else (k, v) :: putEntry key value rest

/-- The value under a key. -/
def valueAt? {α β : Type} [DecidableEq α] (key : α) : List (α × β) → Option β
  | [] => none
  | (k, v) :: rest => if k = key then some v else valueAt? key rest

/-- A value that was set is found under its key, and nothing else is disturbed. -/
theorem valueAt?_putEntry {α β : Type} [DecidableEq α] (key other : α) (value : β)
    (entries : List (α × β)) :
    valueAt? other (putEntry key value entries) =
      if key = other then some value else valueAt? other entries := by
  induction entries with
  | nil => simp [putEntry, valueAt?]
  | cons entry rest ih =>
    obtain ⟨k, v⟩ := entry
    by_cases same : k = key
    · subst same
      by_cases hit : k = other <;> simp [putEntry, valueAt?, hit]
    · by_cases hit : k = other
      · subst hit
        simp [putEntry, valueAt?, same, Ne.symm same]
      · simp [putEntry, valueAt?, same, hit, ih]

/-- What goes into the two slots of a bare name. -/
structure ReferenceSlots where
  /-- What the name denotes. -/
  resolved : Option Resolution := none
  /-- The receiver that is understood before the name of a field. -/
  implicitBase : Option Resolution := none
deriving DecidableEq, Repr

/-- What goes into the slots of a unit, by node id. -/
structure Resolutions where
  /-- Slots of the bare names that were looked up. -/
  references : List (NodeId × ReferenceSlots) := []
  /-- Slots of the member accesses that denote something. -/
  members : List (NodeId × Resolution) := []
deriving DecidableEq, Repr

namespace Resolutions

/-- The slots of a bare name. -/
def reference? (resolutions : Resolutions) (id : NodeId) : Option ReferenceSlots :=
  valueAt? id resolutions.references

/-- What a member access denotes. -/
def member? (resolutions : Resolutions) (id : NodeId) : Option Resolution :=
  valueAt? id resolutions.members

/-- Takes over one entry of a log. -/
def record (resolutions : Resolutions) : UseEntry → Resolutions
  | .reference site =>
    let slots := ⟨site.resolved, site.hit.bind (·.implicitBase)⟩
    { resolutions with references := putEntry site.id slots resolutions.references }
  | .member site =>
    match site.finding.resolved with
    | none => resolutions
    | some resolution =>
      { resolutions with members := putEntry site.id resolution resolutions.members }

/-- What the entries of a log leave behind; of several entries with one id the last one counts. -/
def ofLog (log : UseLog) : Resolutions := log.foldl record {}

/-- Number of bare names looked at and of member accesses that denote something. -/
def visitedCount (resolutions : Resolutions) : Nat :=
  resolutions.references.length + resolutions.members.length

/-- Number of bare names and member accesses that denote something. -/
def resolvedCount (resolutions : Resolutions) : Nat :=
  (resolutions.references.filter fun entry => entry.2.resolved.isSome).length +
    resolutions.members.length

/-- The edit that fills the slots of one expression and clears those nothing is known about. -/
def edit (resolutions : Resolutions) : Edit where
  reference use :=
    let slots := (resolutions.reference? use.id).getD {}
    { use with resolved := slots.resolved, implicitBase := slots.implicitBase }
  member access := { access with resolved := resolutions.member? access.id }
  call name := name

/-- Writes all slots that a walk of the unit reaches. -/
def apply (resolutions : Resolutions) (unit : TranslationUnit) : TranslationUnit :=
  unit.edit fun _ => resolutions.edit

end Resolutions

end NameBinding
