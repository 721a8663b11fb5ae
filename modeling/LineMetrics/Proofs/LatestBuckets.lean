import LineMetrics.Proofs.NumericOrder
import LineMetrics.Proofs.Reassembling

/-!
# The latest value at each place

Of the values that come for numerically equal places, an assembly keeps the latest one.
Setting one value at a time preserves this, and so does ordering what has been kept.
-/

namespace LineMetrics

variable {α : Type}

namespace Binary64

theorem sameNumber_trans
    {first second third : Binary64}
    (left : first.sameNumber second = true)
    (right : second.sameNumber third = true) :
    first.sameNumber third = true := by
  simp only [sameNumber, Bool.and_eq_true, Bool.or_eq_true, beq_iff_eq,
    Bool.not_eq_true'] at *
  obtain ⟨⟨firstNumber, -⟩, leftSame⟩ := left
  obtain ⟨⟨-, thirdNumber⟩, rightSame⟩ := right
  refine ⟨⟨firstNumber, thirdNumber⟩, ?_⟩
  rcases leftSame with rfl | ⟨firstZero, secondZero⟩
  · exact rightSame
  · rcases rightSame with rfl | ⟨-, thirdZero⟩
    · exact .inr ⟨firstZero, secondZero⟩
    · exact .inr ⟨firstZero, thirdZero⟩

end Binary64

namespace Assembly

/-- What is kept of the values received for some places: one value for each place, up to
numerical equality, and it is the last one received. -/
structure Latest (received kept : List (Binary64 × α)) : Prop where
  apart : (kept.map Prod.fst).Pairwise fun left right => left.sameNumber right = false
  covers : ∀ entry ∈ received, ∃ other ∈ kept, other.1.sameNumber entry.1 = true
  latest : ∀ entry ∈ kept,
    (received.reverse.find? fun other => other.1.sameNumber entry.1).map Prod.snd =
      some entry.2

/-- Nothing is kept of nothing. -/
theorem latest_nil : Latest ([] : List (Binary64 × α)) [] :=
  ⟨.nil, (fun _ member => nomatch member), (fun _ member => nomatch member)⟩

/-- Once a value is set, every entry either is for its place and has this value, or is for
another place and was there before. -/
theorem of_mem_setAt
    {place : Binary64}
    {value : α}
    {entries : List (Binary64 × α)}
    {entry : Binary64 × α}
    (isNumber : place.isNaN = false)
    (apart : (entries.map Prod.fst).Pairwise fun left right =>
      left.sameNumber right = false)
    (member : entry ∈ setAt place value entries) :
    entry.1.sameNumber place = true ∧ entry.2 = value ∨
      entry.1.sameNumber place = false ∧ entry ∈ entries := by
  induction entries with
  | nil =>
      rw [List.mem_singleton.mp member]
      exact .inl ⟨Binary64.sameNumber_self isNumber, rfl⟩
  | cons first rest inductionHypothesis =>
      obtain ⟨firstApart, restApart⟩ := List.pairwise_cons.mp apart
      rw [setAt] at member
      split at member
      · rename_i here
        rcases List.mem_cons.mp member with rfl | behind
        · exact .inl ⟨here, rfl⟩
        · refine .inr ⟨?_, .tail _ behind⟩
          have different := firstApart entry.1 (List.mem_map_of_mem behind)
          by_contra same
          rw [Bool.not_eq_false, Binary64.sameNumber_comm] at same
          rw [Binary64.sameNumber_trans here same] at different
          cases different
      · rename_i elsewhere
        rcases List.mem_cons.mp member with rfl | behind
        · exact .inr ⟨Bool.eq_false_iff.mpr elsewhere, .head _⟩
        · exact (inductionHypothesis restApart behind).imp id fun earlier =>
            ⟨earlier.1, .tail _ earlier.2⟩

/-- A value that is set is there, for its place. -/
theorem exists_mem_setAt
    {place : Binary64}
    (value : α)
    (entries : List (Binary64 × α))
    (isNumber : place.isNaN = false) :
    ∃ other ∈ setAt place value entries, other.1.sameNumber place = true := by
  induction entries with
  | nil => exact ⟨(place, value), .head _, Binary64.sameNumber_self isNumber⟩
  | cons first rest inductionHypothesis =>
      rw [setAt]
      split
      · rename_i here
        exact ⟨(first.1, value), .head _, here⟩
      · obtain ⟨other, member, same⟩ := inductionHypothesis
        exact ⟨other, .tail _ member, same⟩

/-- A place that had a value has one still. -/
theorem exists_mem_setAt_of_mem
    (place : Binary64)
    (value : α)
    {entries : List (Binary64 × α)}
    {entry : Binary64 × α}
    (member : entry ∈ entries) :
    ∃ other ∈ setAt place value entries, other.1 = entry.1 := by
  have kept : entry.1 ∈ (setAt place value entries).map Prod.fst := by
    have before := List.mem_map_of_mem (f := Prod.fst) member
    rcases places_setAt place value entries with same | ⟨-, appended⟩
    · exact same ▸ before
    · exact appended ▸ List.mem_append_left _ before
  obtain ⟨other, otherMember, same⟩ := List.mem_map.mp kept
  exact ⟨other, otherMember, same⟩

variable {received kept : List (Binary64 × α)}

/-- Setting a value keeps the latest values. -/
theorem Latest.setAt
    {entry : Binary64 × α}
    (latest : Latest received kept)
    (isNumber : entry.1.isNaN = false) :
    Latest (received ++ [entry]) (setAt entry.1 entry.2 kept) := by
  refine ⟨pairwise_setAt _ _ latest.apart, ?_, ?_⟩
  · intro other member
    rcases List.mem_append.mp member with before | last
    · obtain ⟨covering, coveringMember, same⟩ := latest.covers other before
      obtain ⟨still, stillMember, unchanged⟩ :=
        exists_mem_setAt_of_mem entry.1 entry.2 coveringMember
      exact ⟨still, stillMember, unchanged ▸ same⟩
    · rw [List.mem_singleton.mp last]
      exact exists_mem_setAt entry.2 kept isNumber
  · intro other member
    rw [List.reverse_append, List.reverse_singleton, List.singleton_append,
      List.find?_cons, Binary64.sameNumber_comm]
    rcases of_mem_setAt isNumber latest.apart member with ⟨same, value⟩ | ⟨apart, before⟩
    · rw [same, value]
      rfl
    · rw [apart]
      exact latest.latest other before

/-- Places that are all different keep their values. -/
theorem latest_self
    (apart : (received.map Prod.fst).Pairwise fun left right =>
      left.sameNumber right = false)
    (numbers : ∀ entry ∈ received, entry.1.isNaN = false) :
    Latest received received := by
  induction received using List.reverseRecOn with
  | nil => exact latest_nil
  | append_singleton received entry inductionHypothesis =>
      rw [List.map_append, List.pairwise_append] at apart
      obtain ⟨receivedApart, -, lastApart⟩ := apart
      obtain ⟨receivedNumbers, lastNumber⟩ := List.forall_mem_append.mp numbers
      have set := (inductionHypothesis receivedApart receivedNumbers).setAt
        (lastNumber entry (.head _))
      rw [setAt_eq_append entry.2 fun other member =>
        lastApart other.1 (List.mem_map_of_mem member) entry.1 (.head _)] at set
      exact set

/-- Rearranging what has been kept changes nothing. -/
theorem Latest.perm
    {arranged : List (Binary64 × α)}
    (latest : Latest received kept)
    (perm : kept.Perm arranged) :
    Latest received arranged := by
  refine ⟨?_, ?_, fun entry member => latest.latest entry (perm.mem_iff.mpr member)⟩
  · exact ((perm.map Prod.fst).pairwise_iff fun apart =>
      (Binary64.sameNumber_comm _ _).trans apart).mp latest.apart
  · intro entry member
    obtain ⟨other, otherMember, same⟩ := latest.covers entry member
    exact ⟨other, perm.mem_iff.mp otherMember, same⟩

end Assembly
end LineMetrics
