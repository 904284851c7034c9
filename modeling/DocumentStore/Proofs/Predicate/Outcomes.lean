import DocumentStore.Proofs.Predicate.Normal
set_option autoImplicit false

/-!
# What compiling a predicate leads to

A predicate is refused for an empty node below its root before any parameter is looked at.  If
there is none, every parameter has a place in some alternative, so that one without a filter makes
the whole predicate fail, with the failure of such a parameter.  Otherwise there is one filter for
each alternative.
-/

namespace DocumentStore

namespace Predicate

variable {mapping : ColumnMapping}

/-! ## Groups of parameters that fail -/

end Predicate

end DocumentStore
