/-!
# Spans

A piece of source text by its two byte offsets, the second exclusive. Nothing forces the order of
the two, or ties them to a source.
-/

namespace ConstCheck

/-- A piece of source text. -/
structure Span where
  start : Nat
  stop : Nat
  deriving DecidableEq

namespace Span

/-- The span of what no source text stands for. -/
def none : Span := ⟨0, 0⟩

def text (s : Span) : String := s!"{s.start}..{s.stop}"

end Span

end ConstCheck
