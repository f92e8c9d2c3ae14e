import Mathlib

/-! # Glob patterns

A pattern is a list of symbols in which one symbol, `star`, stands for any
run of symbols, the empty one included, and every other symbol stands for
itself. `GlobMatch star p s` is the language of the pattern `p`, with one
constructor per way a pattern can begin: it is what a glob matcher is
measured against. Nothing here refers to a particular program.
-/

namespace Glob

variable {α : Type*} (star : α)

/-- The strings that a pattern matches. -/
inductive GlobMatch : List α → List α → Prop
  | nil : GlobMatch [] []
  | lit {a : α} {p s : List α} : a ≠ star → GlobMatch p s → GlobMatch (a :: p) (a :: s)
  | starSkip {p s : List α} : GlobMatch p s → GlobMatch (star :: p) s
  | starEat {p : List α} {b : α} {s : List α} : GlobMatch (star :: p) s → GlobMatch (star :: p) (b :: s)

end Glob
