import LineMetrics.Reordering
import LineMetrics.Proofs.Groups
import LineMetrics.Proofs.StableSorting
import Mathlib.Data.List.Induction

/-!
# Assembling slices for different slots

Slices for different slots never take the place of one another, so an assembly just
lists them. Rearranged slices then give rearranged lists, and since places are distinct
bit patterns, sorting these lists gives the same data point.
-/

namespace LineMetrics

namespace Binary64

theorem isLinear_totalLE : Sorting.IsLinear totalLE where
  transitive := totalLE_trans
  total := totalLE_total
  antisymmetric _ _ := totalLE_antisymm

theorem sameNumber_comm (left right : Binary64) :
    left.sameNumber right = right.sameNumber left := by
  unfold sameNumber
  rw [Bool.and_comm (!left.isNaN), Bool.and_comm left.isZero, BEq.comm]

/-- A number is numerically equal to itself. -/
theorem sameNumber_self {number : Binary64} (isNumber : number.isNaN = false) :
    number.sameNumber number = true := by
  simp [sameNumber, isNumber]

end Binary64

namespace Slice

/-- The place and the count of a bucket. -/
def bucket? : Slice -> Option (Binary64 × UInt64)
  | .bucket bound count => some (bound, count)
  | _ => none

/-- The place and the value of a quantile. -/
def quantile? : Slice -> Option (Binary64 × Binary64)
  | .quantile place value => some (place, value)
  | _ => none

/-- The count and the sum. -/
def total? : Slice -> Option (UInt64 × Binary64)
  | .total count sum => some (count, sum)
  | _ => none

theorem eq_bucket_of_bucket?
    {slice : Slice}
    {entry : Binary64 × UInt64}
    (found : slice.bucket? = some entry) :
    slice = .bucket entry.1 entry.2 := by
  cases slice <;> cases found
  rfl

theorem eq_quantile_of_quantile?
    {slice : Slice}
    {entry : Binary64 × Binary64}
    (found : slice.quantile? = some entry) :
    slice = .quantile entry.1 entry.2 := by
  cases slice <;> cases found
  rfl

theorem eq_total_of_total?
    {slice : Slice}
    {entry : UInt64 × Binary64}
    (found : slice.total? = some entry) :
    slice = .total entry.1 entry.2 := by
  cases slice <;> cases found
  rfl

theorem sameSlot_comm (left right : Slice) : left.sameSlot right = right.sameSlot left := by
  cases left <;> cases right <;> first | rfl | exact Binary64.sameNumber_comm _ _

end Slice

namespace Assembly

/-- A value for a place that is not there yet goes to the end. -/
theorem setAt_eq_append
    {place : Binary64}
    (value : α)
    {entries : List (Binary64 × α)}
    (absent : ∀ entry ∈ entries, entry.1.sameNumber place = false) :
    setAt place value entries = entries ++ [(place, value)] := by
  induction entries with
  | nil => rfl
  | cons entry entries inductionHypothesis =>
      have ⟨entryApart, entriesApart⟩ := List.forall_mem_cons.mp absent
      rw [setAt, entryApart, if_neg Bool.false_ne_true, inductionHypothesis entriesApart,
        List.cons_append]

/-- At most one element satisfies a condition, so it is found in any order. -/
theorem find?_eq_of_perm
    {left right : List α}
    {condition : α -> Bool}
    (perm : left.Perm right)
    (unique : ∀ first ∈ left, ∀ second ∈ left,
      condition first -> condition second -> first = second) :
    left.find? condition = right.find? condition := by
  cases found : left.find? condition with
  | none =>
      rw [eq_comm, List.find?_eq_none]
      intro element member
      exact List.find?_eq_none.mp found element (perm.mem_iff.mpr member)
  | some element =>
      have member := List.mem_of_find?_eq_some found
      have satisfies := List.find?_some found
      have alsoFound : (right.find? condition).isSome :=
        List.find?_isSome.mpr ⟨element, perm.mem_iff.mp member, satisfies⟩
      obtain ⟨other, otherFound⟩ := Option.isSome_iff_exists.mp alsoFound
      have otherMember := perm.mem_iff.mpr (List.mem_of_find?_eq_some otherFound)
      rw [otherFound, unique element member other otherMember satisfies
        (List.find?_some otherFound)]

/-- Ordering entries only rearranges them. -/
theorem inOrder_perm (entries : List (Binary64 × α)) : (inOrder entries).Perm entries :=
  Sorting.sortOn_perm Binary64.totalLE Prod.fst entries

/-- Ordered entries have ascending places. -/
theorem pairwise_inOrder (entries : List (Binary64 × α)) :
    (inOrder entries).Pairwise fun first second => first.1.totalLE second.1 :=
  Sorting.pairwise_sortOn Binary64.isLinear_totalLE Prod.fst entries

/-- Entries with ascending places are in order already. -/
theorem inOrder_of_pairwise
    {entries : List (Binary64 × α)}
    (ascending : entries.Pairwise fun first second => first.1.totalLE second.1) :
    inOrder entries = entries :=
  Sorting.sortOn_of_pairwise ascending

/-- Rearranged entries with distinct places are the same in order. -/
theorem inOrder_eq_of_perm
    {left right : List (Binary64 × α)}
    (perm : left.Perm right)
    (distinct : (left.map Prod.fst).Nodup) :
    inOrder left = inOrder right :=
  Sorting.sortOn_eq_of_perm Binary64.isLinear_totalLE perm distinct

/-- Two assemblies list the same entries for distinct places, in some order. -/
structure Rearranged (left right : Assembly) : Prop where
  count : left.count = right.count
  sum : left.sum = right.sum
  buckets : left.buckets.Perm right.buckets
  quantiles : left.quantiles.Perm right.quantiles
  distinctBounds : (left.buckets.map Prod.fst).Nodup
  distinctQuantiles : (left.quantiles.map Prod.fst).Nodup

variable {left right : Assembly}

theorem Rearranged.finiteBuckets_eq (rearranged : Rearranged left right) :
    left.finiteBuckets = right.finiteBuckets := by
  rw [finiteBuckets, inOrder_eq_of_perm rearranged.buckets rearranged.distinctBounds]
  rfl

/-- At most one of the buckets has an infinite bound, wherever it stands. -/
theorem Rearranged.infiniteBucket?_eq (rearranged : Rearranged left right) :
    left.infiniteBucket? = right.infiniteBucket? := by
  have unique (first : Binary64 × UInt64) (firstMember : first ∈ left.buckets)
      (second : Binary64 × UInt64) (secondMember : second ∈ left.buckets)
      (firstInfinite : decide (first.1 = .infinity) = true)
      (secondInfinite : decide (second.1 = .infinity) = true) :
      first = second :=
    List.inj_on_of_nodup_map rearranged.distinctBounds firstMember secondMember
      ((of_decide_eq_true firstInfinite).trans (of_decide_eq_true secondInfinite).symm)
  rw [infiniteBucket?, find?_eq_of_perm rearranged.buckets unique]
  rfl

theorem Rearranged.countOrLast_eq (rearranged : Rearranged left right) :
    left.countOrLast = right.countOrLast := by
  rw [countOrLast, rearranged.count, rearranged.infiniteBucket?_eq,
    rearranged.finiteBuckets_eq]
  rfl

/-- Rearranged assemblies make the same data point of a histogram. -/
theorem Rearranged.toHistogramPoint_eq
    (rearranged : Rearranged left right)
    (series : Series) :
    left.toHistogramPoint series = right.toHistogramPoint series := by
  rw [toHistogramPoint, rearranged.countOrLast_eq, rearranged.finiteBuckets_eq,
    rearranged.infiniteBucket?_eq, rearranged.sum]
  rfl

/-- Rearranged assemblies make the same data point of a summary. -/
theorem Rearranged.toSummaryPoint_eq
    (rearranged : Rearranged left right)
    (series : Series) :
    left.toSummaryPoint series = right.toSummaryPoint series := by
  rw [toSummaryPoint, rearranged.count, rearranged.sum,
    inOrder_eq_of_perm rearranged.quantiles rearranged.distinctQuantiles]
  rfl

end Assembly

namespace Grouping

/-- No two of the slices are for one slot. -/
def DifferentSlots (parts : List SeriesSlice) : Prop :=
  parts.Pairwise fun left right => left.slice.sameSlot right.slice = false

/-- An assembly of slices for different slots lists their buckets and quantiles. -/
theorem assemble_eq
    {parts : List SeriesSlice}
    (different : DifferentSlots parts) :
    assemble parts = {
      count := (parts.filterMap fun part => part.slice.total?).getLast?.map Prod.fst
      sum := (parts.filterMap fun part => part.slice.total?).getLast?.map Prod.snd
      buckets := parts.filterMap fun part => part.slice.bucket?
      quantiles := parts.filterMap fun part => part.slice.quantile? } := by
  induction parts using List.reverseRecOn with
  | nil => rfl
  | append_singleton parts part inductionHypothesis =>
      obtain ⟨partsDifferent, -, partDifferent⟩ := List.pairwise_append.mp different
      rw [assemble_append_singleton, inductionHypothesis partsDifferent]
      cases kind : part.slice with
      | bucket bound count =>
          have absent (entry : Binary64 × UInt64)
              (member : entry ∈ parts.filterMap fun part => part.slice.bucket?) :
              entry.1.sameNumber bound = false := by
            obtain ⟨other, otherMember, found⟩ := List.mem_filterMap.mp member
            have slots := partDifferent other otherMember part List.mem_cons_self
            rw [Slice.eq_bucket_of_bucket? found, kind] at slots
            exact slots
          simp only [Assembly.add, Assembly.setAt_eq_append count absent,
            List.filterMap_append]
          simp [kind, Slice.total?, Slice.bucket?, Slice.quantile?]
      | quantile place value =>
          have absent (entry : Binary64 × Binary64)
              (member : entry ∈ parts.filterMap fun part => part.slice.quantile?) :
              entry.1.sameNumber place = false := by
            obtain ⟨other, otherMember, found⟩ := List.mem_filterMap.mp member
            have slots := partDifferent other otherMember part List.mem_cons_self
            rw [Slice.eq_quantile_of_quantile? found, kind] at slots
            exact slots
          simp only [Assembly.add, Assembly.setAt_eq_append value absent,
            List.filterMap_append]
          simp [kind, Slice.total?, Slice.bucket?, Slice.quantile?]
      | total count sum =>
          simp only [Assembly.add, List.filterMap_append]
          simp [kind, Slice.total?, Slice.bucket?, Slice.quantile?]

/-- Among slices for different slots, only one is a total. -/
theorem DifferentSlots.pairwise_totals
    {parts : List SeriesSlice}
    (different : DifferentSlots parts) :
    (parts.filterMap fun part => part.slice.total?).Pairwise fun _ _ => False := by
  rw [List.pairwise_filterMap]
  refine different.imp fun slots first firstFound second secondFound => ?_
  rw [Slice.eq_total_of_total? firstFound, Slice.eq_total_of_total? secondFound] at slots
  cases slots

/-- Slices for different slots have different bounds. -/
theorem DifferentSlots.nodup_bounds
    {parts : List SeriesSlice}
    (different : DifferentSlots parts)
    (numbers : ∀ part ∈ parts, part.slice.sameSlot part.slice = true) :
    ((parts.filterMap fun part => part.slice.bucket?).map Prod.fst).Nodup := by
  rw [List.nodup_iff_pairwise_ne, List.pairwise_map, List.pairwise_filterMap]
  apply different.imp_of_mem
  intro left right leftMember _ slots first firstFound second secondFound samePlace
  have number := numbers left leftMember
  rw [Slice.eq_bucket_of_bucket? firstFound] at number slots
  rw [Slice.eq_bucket_of_bucket? secondFound, <- samePlace] at slots
  exact Bool.false_ne_true (slots.symm.trans number)

/-- Slices for different slots have different quantiles. -/
theorem DifferentSlots.nodup_quantiles
    {parts : List SeriesSlice}
    (different : DifferentSlots parts)
    (numbers : ∀ part ∈ parts, part.slice.sameSlot part.slice = true) :
    ((parts.filterMap fun part => part.slice.quantile?).map Prod.fst).Nodup := by
  rw [List.nodup_iff_pairwise_ne, List.pairwise_map, List.pairwise_filterMap]
  apply different.imp_of_mem
  intro left right leftMember _ slots first firstFound second secondFound samePlace
  have number := numbers left leftMember
  rw [Slice.eq_quantile_of_quantile? firstFound] at number slots
  rw [Slice.eq_quantile_of_quantile? secondFound, <- samePlace] at slots
  exact Bool.false_ne_true (slots.symm.trans number)

/-- Rearranged slices for different slots make rearranged assemblies. -/
theorem rearranged_of_perm
    {left right : List SeriesSlice}
    (perm : left.Perm right)
    (different : DifferentSlots left)
    (numbers : ∀ part ∈ left, part.slice.sameSlot part.slice = true) :
    (assemble left).Rearranged (assemble right) := by
  have differentRight : DifferentSlots right :=
    (perm.pairwise_iff fun slots => (Slice.sameSlot_comm _ _).trans slots).mp different
  have totals :
      (left.filterMap fun part => part.slice.total?) =
        right.filterMap fun part => part.slice.total? :=
    List.Perm.eq_of_pairwise (fun _ _ _ _ impossible => impossible.elim)
      different.pairwise_totals differentRight.pairwise_totals (perm.filterMap _)
  rw [assemble_eq different, assemble_eq differentRight, totals]
  exact ⟨rfl, rfl, perm.filterMap _, perm.filterMap _, different.nodup_bounds numbers,
    different.nodup_quantiles numbers⟩

end Grouping
end LineMetrics
