import NameBinding.Identity

/-!
# Record names

A qualified record name is a package, the enclosing records and the simple name, joined by dots.
A record declared in a method body is named after the record around it, a dollar sign and its
own node id, so that records of one simple name in different methods stay apart.
-/

namespace NameBinding.RecordName

/-- Joins a qualifier and a name by a dot; an empty qualifier counts as none. -/
def qualify (qualifier : Option String) (name : String) : String :=
  match qualifier with
  | none => name
  | some qualifier => if qualifier = "" then name else qualifier ++ "." ++ name

/-- The qualified name of a record declared in a method body of the record `outer`. -/
def ofLocal (outer : String) (id : NodeId) (name : String) : String :=
  outer ++ "$" ++ (id.digits ++ name)

/-- The part of a name before its first dot, and the part behind that dot if there is one. -/
def splitHead (name : String) : String × Option String :=
  match name.toList.dropWhile (· != '.') with
  | [] => (name, none)
  | _ :: rest => (String.ofList (name.toList.takeWhile (· != '.')), some (String.ofList rest))

/-- The part of a name behind its last dot. -/
def lastSegment (name : String) : String :=
  String.ofList (name.toList.reverse.takeWhile (· != '.')).reverse

/-- What stands before the given ending of a name, if the name ends in it. -/
def dropEnding? (ending name : String) : Option String :=
  if ending.toList.isSuffixOf name.toList then
    some (String.ofList (name.toList.take (name.toList.length - ending.toList.length)))
  else none

end NameBinding.RecordName
