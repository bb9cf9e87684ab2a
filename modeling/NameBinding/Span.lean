/-!
# Source spans

A span is the half-open byte range of one source file that a node was written in. Binding only
ever compares start offsets: a local is felt from its declaration on, and issues are listed in the
order in which they start. The end offset is kept for diagnostics.
-/

namespace NameBinding

/-- The byte offsets `start` up to, not including, `stop` of one source file. -/
structure Span where
  /-- Offset of the first byte. -/
  start : UInt32 := 0
  /-- Offset just past the last byte. -/
  stop : UInt32 := 0
deriving DecidableEq, Repr, Inhabited

namespace Span

/-- Number of bytes covered. -/
def length (span : Span) : UInt32 := span.stop - span.start

/-- Nothing is covered when the range ends where it starts. -/
def isEmpty (span : Span) : Bool := span.start == span.stop

/-- A local declared at `decl` is visible to a name written at `use` when it starts no later. -/
def startsNoLaterThan (decl use : Span) : Bool := decl.start ≤ use.start

/-- Visibility by position is the order of the start offsets. -/
theorem startsNoLaterThan_iff (decl use : Span) :
    decl.startsNoLaterThan use = true ↔ decl.start ≤ use.start := by
  simp [startsNoLaterThan]

end Span

end NameBinding
