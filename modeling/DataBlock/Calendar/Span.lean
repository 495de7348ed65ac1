/-!
# Spans of time

Signed lengths of time in nanoseconds, and their milliseconds.

Main result:

- `Span.wholeMillis?_eq_some_iff`: which spans are a whole number of milliseconds.
-/

namespace DataBlock

/-- A signed length of time. -/
structure Span where
  nanos : Int
  deriving DecidableEq, Repr

namespace Span

/-- The span of a number of milliseconds. -/
def ofMillis (ms : Int) : Span :=
  ⟨ms * 1000000⟩

/-- The milliseconds of a span, cut off toward zero. -/
def millis (d : Span) : Int :=
  d.nanos.tdiv 1000000

/-- The milliseconds of a span, if there is nothing finer. -/
def wholeMillis? (d : Span) : Option Int :=
  if d.nanos % 1000000 = 0 then some (d.nanos / 1000000) else none

theorem wholeMillis?_eq_some_iff {d : Span} {ms : Int} :
    d.wholeMillis? = some ms ↔ d = ofMillis ms := by
  obtain ⟨nanos⟩ := d
  simp only [wholeMillis?, ofMillis, Option.ite_none_right_eq_some, Option.some.injEq,
    Span.mk.injEq]
  omega

/-- The milliseconds, with their unit. -/
def text (d : Span) : String :=
  toString d.millis ++ "ms"

end Span
end DataBlock
