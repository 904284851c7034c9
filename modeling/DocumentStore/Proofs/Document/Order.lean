import DocumentStore.Document.Query
set_option autoImplicit false

/-!
# The order of sorting

Sorting compares any two entities, and the result of a comparison is reversed when they are
exchanged.  It need not be transitive: an integer is level with every instant of its microsecond,
and instants are told apart to the nanosecond.
-/

namespace DocumentStore

instance : Std.OrientedOrd Timestamp :=
  inferInstanceAs (Std.OrientedCmp
    (compareLex (compareOn Timestamp.seconds) (compareOn Timestamp.nanos)))

instance : Std.TransOrd Timestamp :=
  inferInstanceAs (Std.TransCmp
    (compareLex (compareOn Timestamp.seconds) (compareOn Timestamp.nanos)))

instance : Std.LawfulEqOrd Timestamp where
  eq_of_compare {a b} h := by
    obtain ⟨hseconds, hnanos⟩ := Ordering.then_eq_eq.mp h
    obtain ⟨seconds, nanos⟩ := a
    obtain ⟨seconds', nanos'⟩ := b
    obtain rfl : seconds = seconds' := Std.LawfulEqOrd.eq_of_compare hseconds
    obtain rfl : nanos = nanos' := Std.LawfulEqOrd.eq_of_compare hnanos
    rfl

instance : Std.OrientedOrd Double := inferInstanceAs (Std.OrientedCmp (compareOn Double.rank))

instance : Std.TransOrd Double := inferInstanceAs (Std.TransCmp (compareOn Double.rank))

namespace NativeValue

theorem compare?_swap (a b : NativeValue) : compare? a b = (compare? b a).map Ordering.swap := by
  cases a <;> cases b <;>
    simp only [compare?, Option.map_some, Option.map_none, Ordering.swap_eq] <;>
    exact congrArg some Std.OrientedOrd.eq_swap

instance : Std.OrientedCmp order where
  eq_swap {a b} := by
    unfold order
    rw [compare?_swap a b]
    cases compare? b a with
    | some o => rfl
    | none =>
      -- an integer beside an instant, or values that only their types tell apart
      cases a <;> cases b <;> exact Std.OrientedOrd.eq_swap

-- an integer may lie between two instants that are in the opposite order
example : (order (.timestamp ⟨0, 2⟩) (.integer 0)).isLE ∧
    (order (.integer 0) (.timestamp ⟨0, 1⟩)).isLE ∧
    order (.timestamp ⟨0, 2⟩) (.timestamp ⟨0, 1⟩) = .gt := by decide

end NativeValue

namespace SortKey

instance (k : SortKey) : Std.OrientedCmp k.compare where
  eq_swap {a b} := by
    have hswap (x y : NativeValue) : x.order y = (y.order x).swap := Std.OrientedCmp.eq_swap
    rcases k with ⟨property, ascending | descending⟩
    · exact hswap ..
    · exact hswap ..

instance (order : List SortKey) : Std.OrientedCmp (compareAll order) where
  eq_swap {a b} := by
    induction order with
    | nil => rfl
    | cons k rest ih =>
      have hkey : k.compare a b = (k.compare b a).swap := Std.OrientedCmp.eq_swap
      rw [compareAll, compareAll, ih, hkey, Ordering.swap_then]

end SortKey

end DocumentStore
