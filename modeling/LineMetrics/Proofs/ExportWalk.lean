import LineMetrics.Export
import Mathlib.Data.ENat.Basic
import Mathlib.Data.List.Basic

/-!
# What an export writes

A tree has the points of those of its metrics that can be turned into points, in their
order. An export hands these points to its writer, one after another, until there are no
more or the writer refuses one. A metric that cannot be turned into points is counted and
is otherwise as if it were not there.
-/

namespace LineMetrics

/-- What several points do to a writer, one after another, as long as none is refused. -/
abbrev PointWriter.take (writer : PointWriter σ) (state : σ) (points : List Point) :
    Except Error σ :=
  points.foldlM writer state

/-- From a state on, the writer takes as many points as the limit says, whatever they are,
and no more. -/
def PointWriter.TakesExactly (writer : PointWriter σ) (state : σ) (limit : ℕ∞) : Prop :=
  ∀ points : List Point, (writer.take state points).isOk ↔ points.length ≤ limit

namespace MetricTree

/-- The points of placed metrics. A metric that cannot be turned into points has none. -/
def pointsOf (schema : Schema) (placed : List (Placement × Metric)) : List Point :=
  placed.flatMap fun (placement, metric) =>
    (metric.points schema placement).toOption.getD []

/-- The number of placed metrics that cannot be turned into points. -/
def unwritableOf (schema : Schema) (placed : List (Placement × Metric)) : Nat :=
  placed.countP fun (placement, metric) => !(metric.points schema placement).isOk

/-- The points of a tree, in its order. -/
def points (schema : Schema) (tree : MetricTree) : List Point :=
  pointsOf schema (placedMetrics tree)

/-- The number of metrics of a tree that cannot be turned into points. -/
def unwritable (schema : Schema) (tree : MetricTree) : Nat :=
  unwritableOf schema (placedMetrics tree)

end MetricTree

namespace PointWriter

variable {writer : PointWriter σ} {state : σ}

/-- Points in front of others are taken before them. -/
theorem take_append (first second : List Point) :
    writer.take state (first ++ second) =
      writer.take state first >>= fun next => writer.take next second :=
  List.foldlM_append

/-- A writer either takes all of some points, or takes some of them and refuses the next
one. -/
theorem take_cases (writer : PointWriter σ) (state : σ) (points : List Point) :
    (∃ final, writer.take state points = .ok final) ∨
      ∃ taken point rest final refusal,
        points = taken ++ point :: rest ∧ writer.take state taken = .ok final ∧
          writer final point = .error refusal := by
  induction points generalizing state with
  | nil => exact .inl ⟨state, rfl⟩
  | cons first points inductionHypothesis =>
      cases answer : writer state first with
      | error refusal => exact .inr ⟨[], first, points, state, refusal, rfl, rfl, answer⟩
      | ok next =>
          have step (others : List Point) :
              writer.take state (first :: others) = writer.take next others := by
            rw [take, List.foldlM_cons, answer]
            rfl
          rcases inductionHypothesis next with
            ⟨final, takesAll⟩ | ⟨taken, point, rest, final, refusal, split, takes, refuses⟩
          · exact .inl ⟨final, (step points).trans takesAll⟩
          · refine .inr ⟨first :: taken, point, rest, final, refusal, ?_, ?_, refuses⟩
            · rw [split, List.cons_append]
            · exact (step taken).trans takes

/-- All points are written if the writer takes them. -/
theorem writeAll_of_take
    {points : List Point}
    {final : σ}
    (takes : writer.take state points = .ok final) :
    writer.writeAll state points = (final, .ok ()) := by
  induction points generalizing state with
  | nil =>
      cases takes
      rfl
  | cons first points inductionHypothesis =>
      rw [take, List.foldlM_cons] at takes
      rw [writeAll]
      cases answer : writer state first with
      | error refusal =>
          rw [answer] at takes
          cases takes
      | ok next =>
          rw [answer] at takes
          exact inductionHypothesis takes

/-- Writing ends with the first point that the writer refuses. -/
theorem writeAll_of_refused
    {taken : List Point}
    {point : Point}
    {final : σ}
    {refusal : Error}
    (rest : List Point)
    (takes : writer.take state taken = .ok final)
    (refuses : writer final point = .error refusal) :
    writer.writeAll state (taken ++ point :: rest) = (final, .error refusal.ofWriter) := by
  rw [writeAll_append, writeAll_of_take takes]
  dsimp only
  rw [writeAll, refuses]

/-- A writer that takes a number of points refuses the one behind them. -/
theorem TakesExactly.limit_eq_of_refused
    {limit : ℕ∞}
    {taken : List Point}
    {point : Point}
    {final : σ}
    {refusal : Error}
    (exactly : writer.TakesExactly state limit)
    (takes : writer.take state taken = .ok final)
    (refuses : writer final point = .error refusal) :
    limit = taken.length := by
  have within : taken.length ≤ limit := by
    rw [<- exactly taken, takes]
    rfl
  have beyond : ¬(taken ++ [point]).length ≤ limit := by
    rw [<- exactly, take_append, takes]
    change ¬(writer.take final [point]).isOk = true
    rw [take, List.foldlM_cons, refuses]
    exact Bool.false_ne_true
  rw [List.length_append, List.length_singleton, Nat.cast_add, Nat.cast_one, not_le,
    ENat.lt_add_one_iff (ENat.natCast_ne_top _)] at beyond
  exact le_antisymm beyond within

/-- A writer with a limit takes points up to its limit. -/
theorem isOk_take_limited
    (limit : Nat)
    (refusal : Point -> Error)
    (held points : List Point) :
    ((limited limit refusal).take held points).isOk ↔
      points = [] ∨ held.length + points.length ≤ limit := by
  induction points generalizing held with
  | nil => exact ⟨fun _ => .inl rfl, fun _ => rfl⟩
  | cons first points inductionHypothesis =>
      rw [take, List.foldlM_cons, limited, List.length_cons]
      by_cases room : held.length < limit
      · rw [if_pos room]
        refine (inductionHypothesis (first :: held)).trans ?_
        rw [List.length_cons, <- List.length_eq_zero_iff]
        simp only [List.cons_ne_nil, false_or]
        omega
      · rw [if_neg room]
        constructor
        · intro impossible
          cases impossible
        · simp only [List.cons_ne_nil, false_or]
          omega

/-- An empty writer with a limit takes exactly that many points. -/
theorem takesExactly_limited (limit : Nat) (refusal : Point -> Error) :
    (limited limit refusal).TakesExactly [] limit := by
  intro points
  rw [isOk_take_limited, <- List.length_eq_zero_iff, Nat.cast_le, List.length_nil]
  omega

end PointWriter

namespace MetricTree

variable {schema : Schema} {placement : Placement} {metric : Metric}

/-- A metric that can be turned into points has these points in front of the others. -/
theorem pointsOf_cons_of_ok
    {points : List Point}
    (converted : metric.points schema placement = .ok points)
    (placed : List (Placement × Metric)) :
    pointsOf schema ((placement, metric) :: placed) = points ++ pointsOf schema placed := by
  rw [pointsOf, List.flatMap_cons]
  dsimp only
  rw [converted]
  rfl

/-- A metric that cannot be turned into points has none. -/
theorem pointsOf_cons_of_error
    {error : Error}
    (failed : metric.points schema placement = .error error)
    (placed : List (Placement × Metric)) :
    pointsOf schema ((placement, metric) :: placed) = pointsOf schema placed := by
  rw [pointsOf, List.flatMap_cons]
  dsimp only
  rw [failed]
  rfl

theorem unwritableOf_cons_of_ok
    {points : List Point}
    (converted : metric.points schema placement = .ok points)
    (placed : List (Placement × Metric)) :
    unwritableOf schema ((placement, metric) :: placed) = unwritableOf schema placed := by
  apply List.countP_cons_of_neg
  dsimp only
  rw [converted]
  exact Bool.false_ne_true

theorem unwritableOf_cons_of_error
    {error : Error}
    (failed : metric.points schema placement = .error error)
    (placed : List (Placement × Metric)) :
    unwritableOf schema ((placement, metric) :: placed) =
      unwritableOf schema placed + 1 := by
  apply List.countP_cons_of_pos
  dsimp only
  rw [failed]
  rfl

end MetricTree

namespace Export

open MetricTree

variable (schema : Schema) (writer : PointWriter σ)

/-- Writing metrics is writing their points. Only the metrics that cannot be turned into
points are counted as dropped. -/
theorem writePlaced_eq
    (state : σ)
    (counts : ExportCounts)
    (placed : List (Placement × Metric)) :
    writePlaced schema writer state counts placed =
      let (state, result) := writer.writeAll state (pointsOf schema placed)
      (state, result.map fun _ =>
        { written := counts.written + (pointsOf schema placed).length
          dropped := counts.dropped + unwritableOf schema placed }) := by
  induction placed generalizing state counts with
  | nil => rfl
  | cons first placed inductionHypothesis =>
      obtain ⟨placement, metric⟩ := first
      rw [writePlaced]
      cases converted : metric.points schema placement with
      | error error =>
          dsimp only
          rw [inductionHypothesis, pointsOf_cons_of_error converted,
            unwritableOf_cons_of_error converted, Nat.add_right_comm counts.dropped,
            Nat.add_assoc]
      | ok points =>
          rw [pointsOf_cons_of_ok converted, unwritableOf_cons_of_ok converted,
            PointWriter.writeAll_append, List.length_append, <- Nat.add_assoc]
          dsimp only
          obtain ⟨next, result⟩ := writer.writeAll state points
          cases result with
          | error error => rfl
          | ok done => exact inductionHypothesis _ _

/-- Whatever the writer is: if it takes all points of the tree, all are written, and the
metrics that cannot be turned into points are counted. -/
theorem writeTree_of_take
    {tree : MetricTree}
    {state final : σ}
    (takes : writer.take state (MetricTree.points schema tree) = .ok final) :
    writeTree schema writer tree state =
      (final, .ok ⟨(MetricTree.points schema tree).length, unwritable schema tree⟩) := by
  have written := writer.writeAll_of_take takes
  rw [MetricTree.points] at written
  rw [writeTree, writePlaced_eq, written, Nat.zero_add, Nat.zero_add]
  rfl

/-- Whatever the writer is: if it refuses a point of the tree, writing ends there. -/
theorem writeTree_of_refused
    {tree : MetricTree}
    {state final : σ}
    {taken rest : List Point}
    {point : Point}
    {refusal : Error}
    (split : MetricTree.points schema tree = taken ++ point :: rest)
    (takes : writer.take state taken = .ok final)
    (refuses : writer final point = .error refusal) :
    writeTree schema writer tree state = (final, .error refusal.ofWriter) := by
  rw [MetricTree.points] at split
  rw [writeTree, writePlaced_eq, split, writer.writeAll_of_refused rest takes refuses]
  rfl

/-- A writer that keeps every point gets all points of a tree. -/
theorem writeTree_collecting (tree : MetricTree) :
    writeTree schema PointWriter.collecting tree [] =
      ((MetricTree.points schema tree).reverse,
        .ok ⟨(MetricTree.points schema tree).length, unwritable schema tree⟩) := by
  rw [writeTree, writePlaced_eq, PointWriter.writeAll_collecting, List.append_nil,
    Nat.zero_add, Nat.zero_add]
  rfl

/-- A writer that takes some number of points, and no more, gets the points of the tree
that can be written, in their order, up to that number. If these are all of them, they
and the metrics that cannot be turned into points are counted. Otherwise the answer is
the writer's refusal of the next point, as a failure of the writer. -/
theorem writeTree_of_takesExactly
    (tree : MetricTree)
    (state : σ)
    (limit : ℕ∞)
    (exactly : writer.TakesExactly state limit) :
    let points := MetricTree.points schema tree
    (points.length ≤ limit ->
      ∃ final,
        writer.take state points = .ok final ∧
          writeTree schema writer tree state =
            (final, .ok ⟨points.length, unwritable schema tree⟩)) ∧
      (limit < points.length ->
        ∃ (count : Nat) (final : σ) (point : Point) (refusal : Error),
          limit = count ∧
            writer.take state (points.take count) = .ok final ∧
            points[count]? = some point ∧
            writer final point = .error refusal ∧
            writeTree schema writer tree state = (final, .error refusal.ofWriter) ∧
            ((∃ reason, refusal = .writer reason ∧ refusal.ofWriter = refusal) ∨
              (∀ reason, refusal ≠ .writer reason) ∧
                refusal.ofWriter = .writer refusal.message)) := by
  intro points
  constructor
  · intro within
    have takesAll := (exactly points).mpr within
    cases takes : writer.take state points with
    | error error =>
        rw [takes] at takesAll
        cases takesAll
    | ok final => exact ⟨final, rfl, writeTree_of_take schema writer takes⟩
  · intro beyond
    rcases writer.take_cases state points with
      ⟨final, takes⟩ | ⟨taken, point, rest, final, refusal, split, takes, refuses⟩
    · have within := (exactly points).mp (by rw [takes]; rfl)
      exact absurd within (not_le_of_gt beyond)
    · refine ⟨taken.length, final, point, refusal, exactly.limit_eq_of_refused takes refuses,
        ?_, ?_, refuses, writeTree_of_refused schema writer split takes refuses, ?_⟩
      · rw [split, List.take_left]
        exact takes
      · rw [split, List.getElem?_append_right (Nat.le_refl _), Nat.sub_self]
        rfl
      · cases refusal with
        | writer reason => exact .inl ⟨reason, rfl, rfl⟩
        | _ => exact .inr ⟨fun _ same => (nomatch same), rfl⟩

/-- Of a tree with a gauge without a value, between two gauges with two points, one point
is written to a writer that takes one, and both to a writer that takes two. -/
theorem writeTree_of_takesExactly_gauges :
    let refusal (point : Point) : Error := .noNumericFields point.measurement
    let gauge (name : String) (value : Option Number) : Metric :=
      ⟨name, some (.gauge [{ time := 5, value }])⟩
    let tree : MetricTree := [
      ⟨none, [⟨none, [gauge "one" (some (.int 1)), gauge "none" none]⟩]⟩,
      ⟨none, [⟨none, [gauge "two" (some (.int 2))]⟩]⟩]
    ((PointWriter.limited 1 refusal).TakesExactly [] (1 : Nat) ∧
        ∃ written,
          writeTree .whole (PointWriter.limited 1 refusal) tree [] =
            (written, .error (.writer "no numeric fields in point 'two'"))) ∧
      (PointWriter.limited 2 refusal).TakesExactly [] (2 : Nat) ∧
        ∃ written,
          writeTree .whole (PointWriter.limited 2 refusal) tree [] =
            (written, .ok ⟨2, 1⟩) := by
  intro refusal gauge tree
  have one := PointWriter.takesExactly_limited 1 refusal
  have two := PointWriter.takesExactly_limited 2 refusal
  have points :
      (MetricTree.points .whole tree).map Point.measurement = ["one", "two"] := by
    decide +kernel
  have length : (MetricTree.points .whole tree).length = 2 := by
    rw [<- List.length_map, points]
    rfl
  refine ⟨⟨one, ?_⟩, two, ?_⟩
  · obtain ⟨count, final, point, cause, same, -, next, refused, written, -⟩ :=
      (writeTree_of_takesExactly .whole _ tree [] _ one).2 (by rw [length]; decide)
    have second := congrArg (fun names => names[1]?) points
    rw [<- Nat.cast_inj.mp same] at next
    rw [List.getElem?_map, next] at second
    rw [PointWriter.limited] at refused
    split at refused
    · cases refused
    · cases refused
      have named : refusal point = .noNumericFields "two" :=
        congrArg Error.noNumericFields (Option.some.inj second)
      rw [written, named]
      exact ⟨final, rfl⟩
  · obtain ⟨final, -, written⟩ :=
      (writeTree_of_takesExactly .whole _ tree [] _ two).1 (by rw [length])
    rw [length] at written
    exact ⟨final, written⟩

end Export
end LineMetrics
