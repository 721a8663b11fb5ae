import Std.Data.TreeMap

/-!
# Tables in order of first appearance

A table is a sequence of rows, each with a key of its own, in the order in which
the keys first appeared. An index leads from a key to the position of its row.
The index is coherent: it leads to a position exactly when the row there has that
key, so it neither misses a row nor points outside the sequence.
-/

namespace LineMetrics

/-- Rows with distinct keys in order of first appearance, and an index. -/
structure Table (κ ν : Type) [Ord κ] where
  rows : Array (κ × ν)
  index : Std.TreeMap κ Nat
  coherent : ∀ (key : κ) (position : Nat),
    index[key]? = some position ↔ rows[position]?.map Prod.fst = some key

namespace Table

section Rows

variable {κ ν : Type} [DecidableEq κ]

/-- Change the value of a key in a list of rows, where a key without a row gets one at
the end with a fresh value first. -/
def changeRow (key : κ) (fresh : ν) (update : ν -> ν) : List (κ × ν) -> List (κ × ν)
  | [] => [(key, update fresh)]
  | row :: rows =>
      if row.1 = key then (key, update row.2) :: rows
      else row :: changeRow key fresh update rows

theorem changeRow_of_not_mem
    {key : κ}
    {rows : List (κ × ν)}
    (fresh : ν)
    (update : ν -> ν)
    (absent : key ∉ rows.map Prod.fst) :
    changeRow key fresh update rows = rows ++ [(key, update fresh)] := by
  induction rows with
  | nil => rfl
  | cons row rows inductionHypothesis =>
      have ⟨different, absentBehind⟩ :=
        not_or.mp fun member => absent (List.mem_cons.mpr member)
      rw [changeRow, if_neg (Ne.symm different), inductionHypothesis absentBehind,
        List.cons_append]

/-- With distinct keys, the row at the position of a key is the one that changes. -/
theorem changeRow_of_getElem
    {key : κ}
    {rows : List (κ × ν)}
    {position : Nat}
    (fresh : ν)
    (update : ν -> ν)
    (distinct : (rows.map Prod.fst).Nodup)
    (inside : position < rows.length)
    (keyed : rows[position].1 = key) :
    changeRow key fresh update rows = rows.set position (key, update rows[position].2) := by
  induction rows generalizing position with
  | nil => cases inside
  | cons row rows inductionHypothesis =>
      have ⟨rowApart, rowsDistinct⟩ := List.nodup_cons.mp distinct
      cases position with
      | zero =>
          have rowKeyed : row.1 = key := keyed
          rw [changeRow, if_pos rowKeyed]
          rfl
      | succ position =>
          have behind : position < rows.length := Nat.lt_of_succ_lt_succ inside
          have keyedBehind : rows[position].1 = key := keyed
          have different : row.1 ≠ key := by
            intro same
            apply rowApart
            rw [same, <- keyedBehind]
            exact List.mem_map_of_mem (List.getElem_mem behind)
          rw [changeRow, if_neg different,
            inductionHypothesis rowsDistinct behind keyedBehind]
          rfl

end Rows

variable {κ ν ε : Type} [Ord κ]

/-- The table without rows. -/
def empty : Table κ ν where
  rows := #[]
  index := ∅
  coherent key position := by
    have absent : (∅ : Std.TreeMap κ Nat)[key]? = none := rfl
    constructor
    · intro found
      cases absent.symm.trans found
    · simp

instance : EmptyCollection (Table κ ν) := ⟨empty⟩

instance : Inhabited (Table κ ν) := ⟨empty⟩

/-- The rows as a list, in order of first appearance. -/
def toList (table : Table κ ν) : List (κ × ν) := table.rows.toList

/-- The values in order of first appearance of their keys. -/
def values (table : Table κ ν) : List ν := table.toList.map Prod.snd

def isEmpty (table : Table κ ν) : Bool := table.rows.isEmpty

/-- A position that the index names is the position of a row. -/
theorem position_lt
    {table : Table κ ν}
    {key : κ}
    {position : Nat}
    (found : table.index[key]? = some position) :
    position < table.rows.size := by
  have row := (table.coherent key position).mp found
  by_cases inside : position < table.rows.size
  · exact inside
  · simp [Array.getElem?_eq_none (Nat.le_of_not_lt inside)] at row

/-- The value in the row at a position. -/
def valueAt (table : Table κ ν) (position : Nat) (inside : position < table.rows.size) : ν :=
  table.rows[position].2

/-- The value in the row of a key. -/
def find? (table : Table κ ν) (key : κ) : Option ν :=
  match found : table.index[key]? with
  | some position => some (table.valueAt position (position_lt found))
  | none => none

/-- Replace the value in the row at a position. -/
def setValue
    (table : Table κ ν)
    (position : Nat)
    (value : ν)
    (inside : position < table.rows.size) : Table κ ν where
  rows := table.rows.set position (table.rows[position].1, value) inside
  index := table.index
  coherent key other := by
    rw [table.coherent, Array.getElem?_set]
    split
    · rename_i same
      subst same
      simp [inside]
    · rfl

/-- Add a row at the end for a key that has none. -/
def push
    [Std.TransOrd κ]
    [Std.LawfulEqOrd κ]
    (table : Table κ ν)
    (key : κ)
    (value : ν)
    (absent : table.index[key]? = none) : Table κ ν where
  rows := table.rows.push (key, value)
  index := table.index.insert key table.rows.size
  coherent other position := by
    rw [Std.TreeMap.getElem?_insert, Array.getElem?_push]
    by_cases same : key = other
    · subst same
      simp only [Std.ReflCmp.compare_self, if_true]
      by_cases last : position = table.rows.size
      · simp [last]
      · rw [if_neg last, <- table.coherent, absent]
        simp [Ne.symm last]
    · rw [if_neg (fun equal => same (Std.LawfulEqOrd.eq_of_compare equal)), table.coherent]
      by_cases last : position = table.rows.size
      · simp [last, same]
      · rw [if_neg last]

/-- Change the value of a key in place, and pass on the answer of the change. A key
without a row first gets a new last row with a fresh value. The row stays there
whatever the answer is. -/
def visit
    [Std.TransOrd κ]
    [Std.LawfulEqOrd κ]
    (table : Table κ ν)
    (key : κ)
    (fresh : ν)
    (change : ν -> ν × ε) : Table κ ν × ε :=
  match found : table.index[key]? with
  | some position =>
      let (value, answer) := change (table.valueAt position (position_lt found))
      (table.setValue position value (position_lt found), answer)
  | none =>
      let (value, answer) := change fresh
      (table.push key value found, answer)

/-- Change the value of a key in place, as `visit` does, without an answer. -/
def change
    [Std.TransOrd κ]
    [Std.LawfulEqOrd κ]
    (table : Table κ ν)
    (key : κ)
    (fresh : ν)
    (update : ν -> ν) : Table κ ν :=
  (table.visit key fresh fun value => (update value, ())).1

@[simp] theorem toList_empty : (∅ : Table κ ν).toList = [] := rfl

/-- The keys of the rows are distinct. -/
theorem nodup_keys (table : Table κ ν) : (table.toList.map Prod.fst).Nodup := by
  rw [List.nodup_iff_pairwise_ne, List.pairwise_iff_getElem]
  intro first second firstInside secondInside before same
  simp only [toList, List.length_map, Array.length_toList] at firstInside secondInside
  simp only [toList, List.getElem_map, Array.getElem_toList] at same
  have firstFound := (table.coherent table.rows[first].1 first).mpr (by simp [firstInside])
  have secondFound := (table.coherent table.rows[first].1 second).mpr
    (by simp [secondInside, same])
  rw [firstFound] at secondFound
  exact Nat.ne_of_lt before (Option.some.inj secondFound)

/-- A key leads to a value exactly when the table has that row. -/
theorem find?_eq_some_iff {table : Table κ ν} {key : κ} {value : ν} :
    table.find? key = some value ↔ (key, value) ∈ table.toList := by
  unfold find?
  split
  · rename_i position found
    have row := (table.coherent key position).mp found
    have inside := position_lt found
    rw [Array.getElem?_eq_getElem inside] at row
    have keyAt : table.rows[position].1 = key := Option.some.inj row
    constructor
    · intro same
      have valueAt : table.rows[position].2 = value := Option.some.inj same
      rw [<- keyAt, <- valueAt]
      exact Array.mem_toList_iff.mpr (Array.getElem_mem inside)
    · intro member
      obtain ⟨other, otherInside, keyed⟩ :=
        Array.getElem_of_mem (Array.mem_toList_iff.mp member)
      have otherFound := (table.coherent key other).mpr (by simp [otherInside, keyed])
      have same := Option.some.inj (found.symm.trans otherFound)
      subst same
      simp [valueAt, keyed]
  · rename_i absent
    constructor
    · intro impossible
      cases impossible
    · intro member
      obtain ⟨other, otherInside, keyed⟩ :=
        Array.getElem_of_mem (Array.mem_toList_iff.mp member)
      have otherFound := (table.coherent key other).mpr (by simp [otherInside, keyed])
      cases absent.symm.trans otherFound

@[simp] theorem find?_empty (key : κ) : (∅ : Table κ ν).find? key = none := rfl

/-- A key leads nowhere exactly when no row has it. -/
theorem find?_eq_none_iff {table : Table κ ν} {key : κ} :
    table.find? key = none ↔ key ∉ table.toList.map Prod.fst := by
  rw [Option.eq_none_iff_forall_ne_some]
  constructor
  · intro absent member
    obtain ⟨row, rowMember, keyed⟩ := List.mem_map.mp member
    subst keyed
    exact absent row.2 (find?_eq_some_iff.mpr rowMember)
  · intro absent value found
    exact absent (List.mem_map_of_mem (find?_eq_some_iff.mp found))

@[simp] theorem toList_push
    [Std.TransOrd κ]
    [Std.LawfulEqOrd κ]
    (table : Table κ ν)
    (key : κ)
    (value : ν)
    (absent : table.index[key]? = none) :
    (table.push key value absent).toList = table.toList ++ [(key, value)] := by
  simp [toList, push]

@[simp] theorem toList_setValue
    (table : Table κ ν)
    (position : Nat)
    (value : ν)
    (inside : position < table.rows.size) :
    (table.setValue position value inside).toList =
      table.toList.set position (table.rows[position].1, value) := by
  simp [toList, setValue]

/-- Setting the value that a row already has changes nothing. -/
theorem setValue_valueAt
    (table : Table κ ν)
    (position : Nat)
    (inside : position < table.rows.size) :
    table.setValue position (table.valueAt position inside) inside = table := by
  have unchanged :
      table.rows.set position (table.rows[position].1, table.rows[position].2) inside =
        table.rows :=
    Array.set_getElem_self inside
  unfold setValue valueAt
  cases table
  simp_all

/-- What a visit answers is what the change of the present or else of the fresh value
answers. -/
theorem visit_answer
    [Std.TransOrd κ]
    [Std.LawfulEqOrd κ]
    (table : Table κ ν)
    (key : κ)
    (fresh : ν)
    (change : ν -> ν × ε) :
    (table.visit key fresh change).2 = (change ((table.find? key).getD fresh)).2 := by
  unfold visit find?
  split <;> rfl

/-- A visit that leaves the value of a key alone leaves the table alone. -/
theorem visit_eq_self
    [Std.TransOrd κ]
    [Std.LawfulEqOrd κ]
    {table : Table κ ν}
    {key : κ}
    {value : ν}
    (fresh : ν)
    {change : ν -> ν × ε}
    (found : table.find? key = some value)
    (same : (change value).1 = value) :
    (table.visit key fresh change).1 = table := by
  unfold find? at found
  split at found
  · rename_i position indexed
    have valueAt := Option.some.inj found
    subst valueAt
    unfold visit
    split
    · rename_i other otherIndexed
      have equal := Option.some.inj (indexed.symm.trans otherIndexed)
      subst equal
      dsimp only
      rw [same, setValue_valueAt]
    · rename_i absent
      cases indexed.symm.trans absent
  · cases found

/-- In the list of rows, a visit changes the value of its key. -/
theorem toList_visit
    [DecidableEq κ]
    [Std.TransOrd κ]
    [Std.LawfulEqOrd κ]
    (table : Table κ ν)
    (key : κ)
    (fresh : ν)
    (change : ν -> ν × ε) :
    (table.visit key fresh change).1.toList =
      changeRow key fresh (fun value => (change value).1) table.toList := by
  unfold visit
  split
  · rename_i position indexed
    have inside := position_lt indexed
    have row := (table.coherent key position).mp indexed
    rw [Array.getElem?_eq_getElem inside] at row
    have keyed : table.rows[position].1 = key := Option.some.inj row
    rw [toList_setValue,
      changeRow_of_getElem fresh _ table.nodup_keys (by simpa [toList] using inside) keyed,
      keyed]
    rfl
  · rename_i absent
    rw [toList_push, changeRow_of_not_mem]
    apply find?_eq_none_iff.mp
    unfold find?
    split
    · rename_i position indexed
      cases absent.symm.trans indexed
    · rfl

@[simp] theorem toList_change
    [DecidableEq κ]
    [Std.TransOrd κ]
    [Std.LawfulEqOrd κ]
    (table : Table κ ν)
    (key : κ)
    (fresh : ν)
    (update : ν -> ν) :
    (table.change key fresh update).toList = changeRow key fresh update table.toList :=
  toList_visit table key fresh _

end Table
end LineMetrics
