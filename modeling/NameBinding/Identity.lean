/-!
# Identities of nodes and scopes

Every syntax node that opens a scope, introduces a name or uses one carries a `NodeId`. Scopes are
numbered in the order in which they are opened; `ScopeId` is that number. `IdSupply` hands out
fresh node ids for trees that are built in code.
-/

namespace NameBinding

/-- Identity of a syntax node, unique over all units that are analysed together. -/
structure NodeId where
  /-- The number itself. -/
  number : UInt32
deriving DecidableEq, Repr, Inhabited

/-- The number of a node id in decimal digits. -/
def NodeId.digits (id : NodeId) : String := toString id.number.toNat

/-- A node id is shown as its number behind a hash sign. -/
def NodeId.text (id : NodeId) : String := "#" ++ id.digits

/-- A supply of node ids that have not been given out yet. -/
structure IdSupply where
  /-- The number of the next id. -/
  next : UInt32 := 0
deriving DecidableEq, Repr

/-- A supply whose first id is `start`, for continuing after a tree that is numbered already. -/
def IdSupply.startingAt (start : UInt32) : IdSupply := ⟨start⟩

/-- Takes the next id, in ascending order. -/
def IdSupply.fresh (supply : IdSupply) : NodeId × IdSupply :=
  (⟨supply.next⟩, ⟨supply.next + 1⟩)

/-- Handle of a scope: its position in the order in which scopes were opened. -/
structure ScopeId where
  /-- The position, with 0 for the scope of the whole unit. -/
  index : Nat
deriving DecidableEq, Repr, Inhabited

/-- The scope of the whole unit. -/
def ScopeId.global : ScopeId := ⟨0⟩

/-- A scope is shown as the word `scope` followed by its position. -/
def ScopeId.text (id : ScopeId) : String := "scope" ++ toString id.index

end NameBinding
