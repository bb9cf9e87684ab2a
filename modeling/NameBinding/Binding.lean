import NameBinding.Identity
import NameBinding.Span

/-!
# Bindings and resolutions

A `Binding` ties a name to a declaration inside one scope. A `Resolution` is what a use of a name
is found to denote: the declaration and the way it was reached, so that a record reached through
a receiver is told apart from the same record named outright.
-/

namespace NameBinding

/-- How a name was introduced, and hence how a use of it reaches its declaration. -/
inductive BindingKind where
  /-- An instance field. -/
  | field
  /-- A static field. -/
  | staticField
  /-- A parameter of a method. -/
  | parameter
  /-- A local, loop or caught variable. -/
  | localVar
  /-- The receiver of a record inside itself. -/
  | this
  /-- The receiver of an enclosing record. -/
  | outerThis
  /-- A record named outright. -/
  | record
deriving DecidableEq, Repr, Inhabited

namespace BindingKind

/-- All kinds, in the order of their declaration. -/
def all : List BindingKind :=
  [field, staticField, parameter, localVar, this, outerThis, record]

/-- Receivers are the two kinds that no source text declares. -/
def isReceiver : BindingKind → Bool
  | this | outerThis => true
  | _ => false

/-- Instance and static fields. -/
def isField : BindingKind → Bool
  | field | staticField => true
  | _ => false

/-- The words used for a kind in messages. -/
def text : BindingKind → String
  | field => "field"
  | staticField => "static field"
  | parameter => "parameter"
  | localVar => "local"
  | this => "this"
  | outerThis => "outer this"
  | record => "record"

/-- The word that stands for a kind in data: one identifier, without blanks. -/
def tag : BindingKind → String
  | field => "field"
  | staticField => "static_field"
  | parameter => "parameter"
  | localVar => "local"
  | this => "this"
  | outerThis => "outer_this"
  | record => "record"

/-- The kind that a data word stands for. -/
def ofTag? (word : String) : Option BindingKind := all.find? (·.tag == word)

/-- Reading the data word of a kind gives the kind back. -/
theorem ofTag?_tag (kind : BindingKind) : ofTag? kind.tag = some kind := by
  cases kind <;> decide +kernel

end BindingKind

/-- What a use of a name denotes. -/
structure Resolution where
  /-- Id of the declaration; receivers denote their record. -/
  target : NodeId
  /-- How the declaration was reached. -/
  kind : BindingKind
deriving DecidableEq, Repr

/-- A name bound in one scope. -/
structure Binding where
  /-- The name. -/
  name : String
  /-- Id of the declaration that the name denotes there. -/
  target : NodeId
  /-- How the name was introduced. -/
  kind : BindingKind
  /-- Where the declaration was written. -/
  definedAt : Span
deriving DecidableEq, Repr

/-- What a use that reaches the binding directly denotes. -/
def Binding.resolution (binding : Binding) : Resolution := ⟨binding.target, binding.kind⟩

end NameBinding
