/-!
# Spans of text

A span says which characters of a text something covers: the offset of the
first one and how many there are. Offsets and lengths count characters, so a
span lines up with what a reader of the text sees.
-/

namespace FieldMask

/-- The characters from offset `position`, `length` of them: `Span` of `tokens` (lines 13–18). -/
structure Span where
  position : Nat
  length : Nat
  deriving DecidableEq, Repr, Inhabited

namespace Span

/-- The offset just past the last covered character: `Span::end` of `tokens` (lines 30–32). -/
def stop (span : Span) : Nat := span.position + span.length

/-- From the start of one span to the end of another, as `build_root` of `selector_tree::builder`
    (lines 56–85) reports what follows the root object. -/
def through (first last : Span) : Span :=
  ⟨first.position, last.stop - first.position⟩

/-- The span moved right by `offset` characters. -/
def shift (span : Span) (offset : Nat) : Span :=
  ⟨span.position + offset, span.length⟩

/-- Between spans in order, `through` ends where the last one does. -/
theorem stop_through {first last : Span} (h : first.position ≤ last.stop) :
    (first.through last).stop = last.stop := by
  simp [through, stop] at *; omega

end Span

end FieldMask
