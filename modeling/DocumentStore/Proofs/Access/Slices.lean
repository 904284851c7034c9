import DocumentStore.Proofs.Access.Fetches
import DocumentStore.Proofs.Document.Order
import DocumentStore.Proofs.Text.Cursors
set_option autoImplicit false

/-!
# What a page of results is

A query can come with any text as its cursor.  Either the text says no place, and the query is refused,
or the answer is a part of the sorted results: from the place on, which is set back to the end if it is
behind it, as far as the limits of the query and of the store allow.  The page says where the next one
begins, and whether there is one.
-/

namespace DocumentStore

namespace Store

/-- How many of the results to come a page takes. -/
def taken (s : Store) (q : EntityQuery) (toCome : Nat) : Nat :=
  match q.limit with
  | some limit => min limit (min s.pageLimit toCome)
  | none => min s.pageLimit toCome

variable {s : Store} {q : EntityQuery}

end Store

end DocumentStore
