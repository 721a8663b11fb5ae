import LineMetrics.Proofs.ExportWalk
import LineMetrics.Proofs.RequestForm
import LineMetrics.Proofs.WritableTrees
import LineMetrics.Proofs.WrittenJson
import LineMetrics.Session

/-!
# One command behind the other

What ingesting prints is read by exporting as the metric tree that was gathered, so
nothing is lost between the two commands. All numbers of the tree are finite, since they
come from JSON; the only condition is that each of them is restored from its text.
-/

namespace LineMetrics

/-! ## Intakes as runs -/

namespace Intake

/-- The point of a line, if it holds one. -/
def arrivalOf? (now : UInt64) (line : List Char) : Option Arrival :=
  if Text.isBlank (String.ofList line) then none
  else (Point.ofText? (String.ofList line)).map fun point => ⟨now, point⟩

/-- Taking in a line adds its point, if it holds one. -/
theorem batch_takeLine (now : UInt64) (intake : Intake) (line : List Char) :
    (takeLine now intake line).batch =
      (intake.batch.run (arrivalOf? now line).toList).1 := by
  rw [takeLine, arrivalOf?]
  split
  · rfl
  · rw [takePoint]
    cases Point.ofText? (String.ofList line) with
    | none => rfl
    | some point =>
        dsimp only
        split
        · rename_i batch added
          exact (congrArg Prod.fst added).symm
        · rename_i batch error added
          exact (congrArg Prod.fst added).symm

/-- Lines are taken in as the points in them arrive. -/
theorem batch_ofText (schema : Schema) (now : UInt64) (text : String) :
    (ofText schema now text).batch =
      ((Batch.empty schema).run ((Text.lines text.toList).filterMap (arrivalOf? now))).1 := by
  have fold (lines : List (List Char)) (intake : Intake) :
      (lines.foldl (takeLine now) intake).batch =
        (intake.batch.run (lines.filterMap (arrivalOf? now))).1 := by
    induction lines generalizing intake with
    | nil => rfl
    | cons line lines inductionHypothesis =>
        rw [List.foldl_cons, inductionHypothesis, batch_takeLine, List.filterMap_cons]
        cases arrivalOf? now line with
        | none => rfl
        | some arrival => rfl
  exact fold _ ⟨.empty schema, 0⟩

/-- The numbers of points in lines are finite. -/
theorem isFinite_of_arrivalOf?
    {now : UInt64}
    {line : List Char}
    {arrival : Arrival}
    (found : arrivalOf? now line = some arrival) :
    arrival.point.IsFinite := by
  rw [arrivalOf?] at found
  split at found
  · cases found
  · obtain ⟨point, read, made⟩ := Option.map_eq_some_iff.mp found
    cases made
    exact Point.isFinite_of_ofText? read

/-- The tree of the points in a text can be written. -/
theorem isWritable_finish (schema : Schema) (now : UInt64) (text : String) :
    ∀ resource ∈ (ofText schema now text).batch.finish, resource.IsWritable := by
  rw [batch_ofText]
  refine Batch.isWritable_run fun arrival member => ?_
  obtain ⟨line, -, found⟩ := List.mem_filterMap.mp member
  exact isFinite_of_arrivalOf? found

end Intake

namespace Request

theorem holdsPlainly_isRestoredLeaf : HoldsPlainly Json.IsRestoredLeaf where
  null := trivial
  bool _ := trivial
  text _ := trivial
  whole _ least greatest := ⟨least, greatest⟩

/-- A tree that can be written is read back from the line with its request, if its numbers
are restored from their texts. -/
theorem treeOfBytes?_line
    {tree : MetricTree}
    (writable : ∀ resource ∈ tree, resource.IsWritable)
    (restores : ∀ number ∈ tree.doubles, Json.Restores number) :
    treeOfBytes? (textOfTree tree ++ "\n").toUTF8 = some tree := by
  have plain : ∀ resource ∈ tree, resource.IsPlain := fun resource member =>
    ⟨(writable resource member).attributes, fun scope inResource metric inScope data isData =>
      ((writable resource member).data scope inResource metric inScope data isData).plain⟩
  rw [treeOfBytes?, Json.ofBytes?_toUTF8, textOfTree,
    Json.parse?_line (leaves_ofTree holdsPlainly_isRestoredLeaf plain restores),
    Option.bind_some, tree?_ofTree plain]

end Request

namespace Session

variable {now later : UInt64} {written read : Schema} {first second : Command}
  {contents : ByteArray} {lines : List String}

/-- The lines of an encoded text are gathered. -/
theorem gather_toUTF8 (schema : Schema) (now : UInt64) (text : String) :
    gather schema now text.toUTF8 = .ok (.ofText schema now text) := by
  have isText : String.fromUTF8? text.toUTF8 = some text := dif_pos text.isValidUTF8
  rw [gather, textOf, isText]
  rfl

/-- Exporting what ingesting printed prints the points that an export of the metric tree that
was gathered writes, in their order and each on a line, if each finite number of the tree is
restored from its text. -/
theorem output_export_of_ingest
    (ingesting : first.activity = .ingesting)
    (exporting : second.activity = .exporting)
    (ingested : output now written first (some contents) = .ok lines)
    (restored : ∀ intake, gather written now contents = .ok intake ->
      ∀ number ∈ intake.batch.finish.doubles, number.isFinite = true -> Json.Restores number) :
    ∃ intake line, gather written now contents = .ok intake ∧ lines = [line] ∧
      let points := MetricTree.points read intake.batch.finish
      Export.writeTree read PointWriter.collecting intake.batch.finish [] =
          (points.reverse,
            .ok ⟨points.length, MetricTree.unwritable read intake.batch.finish⟩) ∧
        output later read second (some (line ++ "\n").toUTF8) =
          .ok (points.map Point.toText) := by
  rw [output, ingesting] at ingested
  obtain ⟨intake, gathered, ingested⟩ := exists_of_bind_eq_ok ingested
  split at ingested
  · cases ingested
  · refine ⟨intake, _, gathered, (Except.ok.inj ingested).symm,
      Export.writeTree_collecting read _, ?_⟩
    obtain ⟨text, -, made⟩ := exists_of_bind_eq_ok gathered
    cases made
    have writable := Intake.isWritable_finish written now text
    have isTree := Request.treeOfBytes?_line writable fun number member =>
      restored _ gathered number member (MetricTree.isFinite_doubles writable number member)
    rw [output, exporting]
    dsimp only
    rw [requestIn, isTree]
    change Except.ok (pointLines read _) = _
    rw [pointLines, Export.writeTree_collecting]
    dsimp only
    rw [List.reverse_reverse]

/-- A histogram with a sum and a bound that are not whole is ingested by one schema as one data
point, and exported by the other as four lines. -/
theorem output_export_of_ingest_histogram :
    let text := "\x7b\"measurement\":\"wait\",\"tags\":\x7b\"host.name\":\"a\"\x7d,\"fields\":" ++
      "\x7b\"count\":3,\"sum\":4.5,\"0.1\":1,\"2\":2\x7d,\"value_type\":\"histogram\"\x7d\n"
    let first : Command := ⟨.ingesting, "telegraf-prometheus-v1", none, none⟩
    let second : Command := ⟨.exporting, "telegraf-prometheus-v2", none, none⟩
    let printed (tags fields : String) : String :=
      "\x7b\"measurement\":\"prometheus\",\"tags\":\x7b\"host.name\":\"a\"" ++ tags ++
        "\x7d,\"fields\":\x7b" ++ fields ++
        "\x7d,\"timestamp\":7,\"value_type\":\"histogram\"\x7d"
    let wait : HistogramPoint := {
      time := 7
      count := 3
      sum := some ⟨0x4012000000000000⟩
      counts := [1, 1, 1]
      bounds := [⟨0x3FB999999999999A⟩, ⟨0x4000000000000000⟩] }
    let tree : MetricTree := [⟨some [.ofText "host.name" "a"], [⟨some ⟨"", ""⟩, [
      ⟨"wait", some <| .histogram [wait] Temporality.cumulative.code⟩]⟩]⟩]
    (Intake.ofText .whole 7 text).batch.finish = tree ∧
      ∃ line, output 7 .whole first (some text.toUTF8) = .ok [line] ∧
        output 8 .sliced second (some (line ++ "\n").toUTF8) = .ok [
          printed "" "\"wait_count\":3.0,\"wait_sum\":4.5",
          printed ",\"le\":\"0.1\"" "\"wait_bucket\":1.0",
          printed ",\"le\":\"2\"" "\"wait_bucket\":2.0",
          printed ",\"le\":\"+Inf\"" "\"wait_bucket\":3.0"] := by
  intro text first second printed wait tree
  have gathered := gather_toUTF8 .whole 7 text
  have finished : (Intake.ofText .whole 7 text).batch.finish = tree := by decide +kernel
  have restored : ∀ number ∈ tree.doubles, Json.Restores number := by decide +kernel
  have ingested : output 7 .whole first (some text.toUTF8) =
      .ok [Request.textOfTree (Intake.ofText .whole 7 text).batch.finish] := by
    rw [output, gathered]
    rfl
  have isRestored : ∀ intake, gather .whole 7 text.toUTF8 = .ok intake ->
      ∀ number ∈ intake.batch.finish.doubles, number.isFinite = true -> Json.Restores number := by
    intro intake isIntake number member _
    rw [<- Except.ok.inj (gathered.symm.trans isIntake), finished] at member
    exact restored number member
  have exporting : second.activity = .exporting := rfl
  obtain ⟨intake, line, isIntake, isLine, -, exported⟩ :=
    output_export_of_ingest rfl exporting ingested isRestored
  obtain rfl := Except.ok.inj (gathered.symm.trans isIntake)
  obtain rfl := (List.cons.inj isLine).1
  refine ⟨finished, _, ingested, exported.trans (congrArg Except.ok ?_)⟩
  rw [finished]
  decide +kernel

end Session
end LineMetrics
