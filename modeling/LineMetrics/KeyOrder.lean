import LineMetrics.MetricTree
import LineMetrics.Point
import Std.Data.TreeMap

/-!
# Orders of keys

Pairs, tags, scopes and series are compared part by part, so that tables can index
their rows by them. Each order tells apart any two different keys.
-/

namespace LineMetrics

/-- The identity of a data point within a metric. -/
structure Series where
  time : UInt64
  attributes : Tags
  deriving DecidableEq

instance textPairOrd : Ord (String × String) := lexOrd

instance textPairTransOrd : Std.TransOrd (String × String) :=
  inferInstanceAs (@Std.TransOrd (String × String) lexOrd)

instance textPairLawfulEqOrd : Std.LawfulEqOrd (String × String) :=
  inferInstanceAs (@Std.LawfulEqOrd (String × String) lexOrd)

instance : Ord Tags := ⟨compareOn Dictionary.entries⟩

instance : Std.TransOrd Tags :=
  inferInstanceAs (Std.TransCmp (compareOn Dictionary.entries))

instance : Std.LawfulEqOrd Tags where
  eq_of_compare equal := Dictionary.ext (Std.LawfulEqOrd.eq_of_compare equal)

instance : Ord Scope := ⟨compareOn fun scope => (scope.name, scope.version)⟩

instance : Std.TransOrd Scope :=
  inferInstanceAs (Std.TransCmp (compareOn fun scope : Scope => (scope.name, scope.version)))

instance : Std.LawfulEqOrd Scope where
  eq_of_compare {left right} equal := by
    have same := Std.LawfulEqOrd.eq_of_compare
      (a := (left.name, left.version)) (b := (right.name, right.version)) equal
    cases left
    cases right
    simpa using same

instance timedTagsOrd : Ord (UInt64 × Tags) := lexOrd

instance timedTagsTransOrd : Std.TransOrd (UInt64 × Tags) :=
  inferInstanceAs (@Std.TransOrd (UInt64 × Tags) lexOrd)

instance timedTagsLawfulEqOrd : Std.LawfulEqOrd (UInt64 × Tags) :=
  inferInstanceAs (@Std.LawfulEqOrd (UInt64 × Tags) lexOrd)

instance : Ord Series := ⟨compareOn fun series => (series.time, series.attributes)⟩

instance : Std.TransOrd Series :=
  inferInstanceAs
    (Std.TransCmp (compareOn fun series : Series => (series.time, series.attributes)))

instance : Std.LawfulEqOrd Series where
  eq_of_compare {left right} equal := by
    have same := Std.LawfulEqOrd.eq_of_compare
      (a := (left.time, left.attributes)) (b := (right.time, right.attributes)) equal
    cases left
    cases right
    simpa using same

end LineMetrics
