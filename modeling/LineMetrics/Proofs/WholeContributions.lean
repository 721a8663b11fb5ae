import LineMetrics.Proofs.FieldPoints
import LineMetrics.Proofs.StatedValues

/-!
# What a whole point contributes

A whole point contributes the readings of all its metrics at once. Which ones is said here
by its tags and fields alone: a gauge or a counter has a number in its value field, or else
one in each other numeric field, and a distribution has a count, a sum and the parts whose
places are the keys of fields. Conversely, whatever is read from a point is what it
contributes in this sense.
-/

namespace LineMetrics

variable {α : Type}

/-- Elements that are related to views of something are related to it. -/
theorem exists_map_of_forall₂
    {β γ : Type}
    {related : α -> β -> Prop}
    {view : β -> γ}
    {elements : List α}
    {results : List γ}
    (each : List.Forall₂
      (fun element result => ∃ seen, related element seen ∧ result = view seen)
      elements results) :
    ∃ seen, List.Forall₂ related elements seen ∧ results = seen.map view := by
  induction each with
  | nil => exact ⟨[], .nil, rfl⟩
  | cons here behind inductionHypothesis =>
      obtain ⟨first, isRelated, rfl⟩ := here
      obtain ⟨others, areRelated, rfl⟩ := inductionHypothesis
      exact ⟨first :: others, .cons isRelated areRelated, rfl⟩

/-- Each of the elements is related to something. -/
theorem exists_of_mem_of_forall₂
    {β : Type}
    {related : α -> β -> Prop}
    {element : α}
    {elements : List α}
    {results : List β}
    (each : List.Forall₂ related elements results)
    (member : element ∈ elements) :
    ∃ result, related element result := by
  induction each with
  | nil => cases member
  | cons here behind inductionHypothesis =>
      rcases List.mem_cons.mp member with rfl | later
      · exact ⟨_, here⟩
      · exact inductionHypothesis later

namespace Whole

/-- The key is one of a distribution: that of its count, of its sum or of a part. -/
def IsDistributionKey (key : String) : Prop :=
  key = ReservedName.count ∨ key = ReservedName.sum ∨
    ∃ place, Binary64.ofFiniteKey? key = some place

/-- The type that a point has by its hint. Without a hint, a value field decides, that of a
gauge first, and then a field of a distribution. A point with none of them is a gauge. -/
inductive HasType (point : Point) : TypeHint -> Prop
  | hinted {type : TypeHint} (hint : point.hint = type) (typed : type ≠ .untyped) :
      HasType point type
  | gauge
      (hint : point.hint = .untyped)
      (gauge : point.fields.contains ReservedName.gauge = true) :
      HasType point .gauge
  | counter
      (hint : point.hint = .untyped)
      (noGauge : point.fields.contains ReservedName.gauge = false)
      (counter : point.fields.contains ReservedName.counter = true) :
      HasType point .sum
  | distribution
      {key : String}
      (hint : point.hint = .untyped)
      (noGauge : point.fields.contains ReservedName.gauge = false)
      (noCounter : point.fields.contains ReservedName.counter = false)
      (there : point.fields.contains key = true)
      (isKey : IsDistributionKey key) :
      HasType point .histogram
  | plain
      (hint : point.hint = .untyped)
      (noGauge : point.fields.contains ReservedName.gauge = false)
      (noCounter : point.fields.contains ReservedName.counter = false)
      (noKey : ∀ key, point.fields.contains key = true -> ¬IsDistributionKey key) :
      HasType point .gauge

/-- The start time that the fields of a counter state, or zero if they state none. -/
inductive StartsAt (fields : Fields) : UInt64 -> Prop
  | stated
      {value : FieldValue}
      {start : UInt64}
      (found : fields.find? ReservedName.startTime = some value)
      (read : Instant.ofFieldValue value = .ok start) :
      StartsAt fields start
  | unstated
      (unread : ∀ value start, fields.find? ReservedName.startTime = some value ->
        Instant.ofFieldValue value ≠ .ok start) :
      StartsAt fields 0

/-- The observation of a number as the value of a metric, for a point whose type has the
value field. The tag that selects the temporality of a counter is not an attribute. -/
inductive ObservesNumber
    (now : UInt64)
    (point : Point)
    (valueField metric : String)
    (number : Number) : Observation -> Prop
  | gauge
      (typed : HasType point .gauge)
      (isField : valueField = ReservedName.gauge) :
      ObservesNumber now point valueField metric number
        (.under (.byKey point.tags) metric <| .gauge {
          attributes := Attribute.ofTags (TagLevels.byKey point.tags).attributes
          time := point.timeOr now
          value := some number })
  | sum
      {tags : Tags}
      {temporality : Temporality}
      {start : UInt64}
      (typed : HasType point .sum)
      (isField : valueField = ReservedName.counter)
      (others : tags = point.tags.erase ReservedName.temporality)
      (selected : temporality = .delta ↔
        point.tags.find? ReservedName.temporality = some ReservedName.delta)
      (started : StartsAt point.fields start) :
      ObservesNumber now point valueField metric number
        (.under (.byKey tags) metric <| .sum temporality {
          attributes := Attribute.ofTags (TagLevels.byKey tags).attributes
          start
          time := point.timeOr now
          value := some number })

/-- The observation of a field as a metric of its own, named after the field. -/
def ObservesField
    (now : UInt64)
    (point : Point)
    (valueField key : String)
    (observation : Observation) : Prop :=
  ∃ value number,
    point.fields.find? key = some value ∧ value.IsNumber number ∧
      ObservesNumber now point valueField (point.measurement ++ "_" ++ key) number observation

/-- The fields whose keys are finite numbers state the parts of a distribution, which stand
in ascending order of their places. -/
def StatesOrderedParts
    (isPart : FieldValue -> α -> Prop)
    (fields : Fields)
    (parts : List (Binary64 × α)) : Prop :=
  ∃ stated : List (Binary64 × α),
    List.Forall₂
        (fun entry part =>
          Binary64.ofFiniteKey? entry.1 = some part.1 ∧ isPart entry.2 part.2)
        (fields.entries.filter fun entry => (Binary64.ofFiniteKey? entry.1).isSome) stated ∧
      Sorting.IsStableSort Binary64.totalLE Prod.fst stated parts

/-- What a whole point contributes. -/
inductive Contributes (now : UInt64) (point : Point) : List Observation -> Prop
  | value
      {valueField : String}
      {value : FieldValue}
      {number : Number}
      {observation : Observation}
      (found : point.fields.find? valueField = some value)
      (isNumber : value.IsNumber number)
      (observes :
        ObservesNumber now point valueField point.measurement number observation) :
      Contributes now point [observation]
  | fields
      {valueField : String}
      {observations : List Observation}
      (absent : point.fields.find? valueField = none)
      (someField : metricFields point ≠ [])
      (observe :
        List.Forall₂ (ObservesField now point valueField) (metricFields point) observations) :
      Contributes now point observations
  | histogram
      {count : UInt64}
      {sum : Binary64}
      {buckets : List (Binary64 × UInt64)}
      (typed : HasType point .histogram)
      (counted : StatesCount point.fields ReservedName.count count)
      (summed : StatesDouble point.fields ReservedName.sum sum)
      (parts : StatesOrderedParts FieldValue.CountsAs point.fields buckets)
      (apart : (buckets.map Prod.fst).Pairwise fun left right =>
        left.sameNumber right = false) :
      Contributes now point [.under (.byKey point.tags) point.measurement <|
        .histogram <| .ofBuckets
          (Attribute.ofTags (TagLevels.byKey point.tags).attributes)
          (point.timeOr now) count (some sum) buckets]
  | summary
      {count : UInt64}
      {sum : Binary64}
      {quantiles : List (Binary64 × Binary64)}
      (typed : HasType point .summary)
      (counted : StatesCount point.fields ReservedName.count count)
      (summed : StatesDouble point.fields ReservedName.sum sum)
      (parts : StatesOrderedParts FieldValue.IsDouble point.fields quantiles) :
      Contributes now point [.under (.byKey point.tags) point.measurement <|
        .summary <| .ofQuantiles
          (Attribute.ofTags (TagLevels.byKey point.tags).attributes)
          (point.timeOr now) count sum quantiles]

/-! ## Types -/

/-- A key is one of a distribution exactly if it is taken for one. -/
theorem isDistributionField_iff {key : String} :
    isDistributionField key = true ↔ IsDistributionKey key := by
  simp only [isDistributionField, IsDistributionKey, Bool.or_eq_true, decide_eq_true_eq,
    Option.isSome_iff_exists, or_assoc]

/-- A field is taken for one of a distribution exactly if some field has such a key. -/
theorem any_isDistributionField_iff {fields : Fields} :
    fields.keys.any isDistributionField = true ↔
      ∃ key, fields.contains key = true ∧ IsDistributionKey key := by
  simp only [List.any_eq_true, Dictionary.mem_keys_iff, isDistributionField_iff]

/-- The type of a point without a hint. -/
theorem typeOf_of_untyped {point : Point} (unhinted : point.hint = .untyped) :
    typeOf point =
      if point.fields.contains ReservedName.gauge then .gauge
      else if point.fields.contains ReservedName.counter then .sum
      else if point.fields.keys.any isDistributionField then .histogram
      else .untyped :=
  if_neg (not_not_intro unhinted)

/-- A point has the type that it is processed as. One without a type is a gauge. -/
theorem hasType_iff {point : Point} {type : TypeHint} :
    HasType point type ↔
      typeOf point = type ∧ type ≠ .untyped ∨ typeOf point = .untyped ∧ type = .gauge := by
  constructor
  · intro typed
    cases typed with
    | hinted hint typed => exact .inl ⟨(typeOf_of_hint (hint ▸ typed)).trans hint, typed⟩
    | gauge hint gauge =>
        rw [typeOf_of_untyped hint, if_pos gauge]
        exact .inl ⟨rfl, nofun⟩
    | counter hint noGauge counter =>
        rw [typeOf_of_untyped hint, noGauge, if_neg Bool.false_ne_true, if_pos counter]
        exact .inl ⟨rfl, nofun⟩
    | distribution hint noGauge noCounter there isKey =>
        rw [typeOf_of_untyped hint, noGauge, noCounter, if_neg Bool.false_ne_true,
          if_neg Bool.false_ne_true, if_pos (any_isDistributionField_iff.mpr ⟨_, there, isKey⟩)]
        exact .inl ⟨rfl, nofun⟩
    | plain hint noGauge noCounter noKey =>
        rw [typeOf_of_untyped hint, noGauge, noCounter, if_neg Bool.false_ne_true,
          if_neg Bool.false_ne_true, if_neg fun any => ?_]
        · exact .inr ⟨rfl, rfl⟩
        · obtain ⟨key, there, isKey⟩ := any_isDistributionField_iff.mp any
          exact noKey key there isKey
  · intro processed
    by_cases hint : point.hint = .untyped
    · rw [typeOf_of_untyped hint] at processed
      split at processed
      · rename_i gauge
        rcases processed with ⟨rfl, -⟩ | ⟨absurdly, -⟩
        · exact .gauge hint gauge
        · cases absurdly
      rename_i noGauge
      rw [Bool.not_eq_true] at noGauge
      split at processed
      · rename_i counter
        rcases processed with ⟨rfl, -⟩ | ⟨absurdly, -⟩
        · exact .counter hint noGauge counter
        · cases absurdly
      rename_i noCounter
      rw [Bool.not_eq_true] at noCounter
      split at processed
      · rename_i any
        obtain ⟨key, there, isKey⟩ := any_isDistributionField_iff.mp any
        rcases processed with ⟨rfl, -⟩ | ⟨absurdly, -⟩
        · exact .distribution hint noGauge noCounter there isKey
        · cases absurdly
      · rename_i none
        rcases processed with ⟨rfl, typed⟩ | ⟨-, rfl⟩
        · exact absurd rfl typed
        · exact .plain hint noGauge noCounter fun key there isKey =>
            none (any_isDistributionField_iff.mpr ⟨key, there, isKey⟩)
    · rw [typeOf_of_hint hint] at processed
      rcases processed with ⟨isHint, typed⟩ | ⟨absurdly, -⟩
      · exact .hinted isHint typed
      · exact absurd absurdly hint

/-! ## Gauges and counters -/

/-- The field states a number for the metric that is named after it. -/
def StatesField (point : Point) (key : String) (stated : String × Number) : Prop :=
  stated.1 = point.measurement ++ "_" ++ key ∧
    ∃ value, point.fields.find? key = some value ∧ value.IsNumber stated.2

/-- A field states one number at most. -/
theorem rightUnique_statesField (point : Point) : Relator.RightUnique (StatesField point) := by
  rintro key ⟨metric, number⟩ ⟨other, otherNumber⟩ ⟨rfl, value, found, isNumber⟩
    ⟨rfl, otherValue, foundOther, isOther⟩
  cases found.symm.trans foundOther
  cases isNumber <;> cases isOther <;> rfl

/-- The metric fields of a point state the numbers that are found in it. -/
theorem forall₂_metricFields (point : Point) :
    List.Forall₂ (StatesField point) (metricFields point)
      (point.fields.entries.filterMap (fieldNumber? point.measurement)) := by
  rw [metricFields, Dictionary.keys, Dictionary.entries_filter, List.forall₂_map_left_iff]
  refine forall₂_filter_filterMap (fun entry member holds => ?_) fun entry _ =>
    fieldNumber?_eq_none point.measurement
  obtain ⟨number, converted, found⟩ := exists_fieldNumber? point.measurement holds
  exact ⟨_, found, rfl, entry.2, Dictionary.find?_eq_some_iff.mpr member,
    (FieldValue.toNumber_eq_ok_iff entry.1 entry.2 number).mp converted⟩

/-- A point that lacks its value field has the numbers of its metric fields, exactly if it
has some. -/
theorem numbers_eq_ok_iff_of_absent
    {point : Point}
    {valueField : String}
    {stated : List (String × Number)}
    (absent : point.fields.find? valueField = none) :
    numbers point valueField = .ok stated ↔
      metricFields point ≠ [] ∧
        List.Forall₂ (StatesField point) (metricFields point) stated := by
  have found := forall₂_metricFields point
  rw [numbers, absent]
  dsimp only
  generalize point.fields.entries.filterMap (fieldNumber? point.measurement) = listed at found
  constructor
  · intro read
    split at read
    · cases read
    · rename_i someNumber
      cases read
      refine ⟨fun noField => ?_, found⟩
      rw [noField, List.forall₂_nil_left_iff] at found
      exact someNumber found
  · rintro ⟨someField, states⟩
    obtain rfl : listed = stated :=
      (rightUnique_statesField point).forall₂ found states
    split
    · exact absurd (List.forall₂_nil_right_iff.mp found) someField
    · rfl

/-- The number of a data point with some tags, as an observation. -/
def observed
    (tags : Tags)
    (start time : UInt64)
    (reading : NumberPoint -> Reading)
    (metric : String)
    (number : Number) : Observation :=
  .under (.byKey tags) metric (reading {
    attributes := Attribute.ofTags (TagLevels.byKey tags).attributes
    start
    time
    value := some number })

variable {now : UInt64} {point : Point} {result : List Observation}

/-- A gauge or a counter has an observation of each of its numbers. -/
theorem numberObservations_eq
    (point : Point)
    (tags : Tags)
    (start time : UInt64)
    (valueField : String)
    (reading : NumberPoint -> Reading) :
    numberObservations { point with tags } time valueField start reading =
      (numbers point valueField).map fun stated =>
        stated.map fun (metric, number) => observed tags start time reading metric number := by
  have sameNumbers : numbers { point with tags } valueField = numbers point valueField := rfl
  rw [numberObservations, sameNumbers, TagLevels.split_eq_byKey, bind_ok_eq_map]
  rfl

section Observed

variable {tags : Tags} {start : UInt64} {valueField : String} {reading : NumberPoint -> Reading}
  (observes : ∀ field metric number observation,
    ObservesNumber now point field metric number observation ↔
      field = valueField ∧
        observation = observed tags start (point.timeOr now) reading metric number)
include observes

/-- Fields are observed as metrics of their own exactly if they state the numbers that are
observed. -/
theorem forall₂_observesField_iff {keys : List String} :
    List.Forall₂ (ObservesField now point valueField) keys result ↔
      ∃ stated, List.Forall₂ (StatesField point) keys stated ∧
        result = stated.map fun (metric, number) =>
          observed tags start (point.timeOr now) reading metric number := by
  constructor
  · intro observe
    refine exists_map_of_forall₂ (observe.imp fun key observation => ?_)
    rintro ⟨value, number, found, isNumber, observed⟩
    exact ⟨(_, number), ⟨rfl, value, found, isNumber⟩, ((observes _ _ _ _).mp observed).2⟩
  · rintro ⟨stated, states, rfl⟩
    refine List.forall₂_map_right_iff.mpr (states.imp ?_)
    rintro key ⟨metric, number⟩ ⟨rfl, value, found, isNumber⟩
    exact ⟨value, number, found, isNumber, (observes _ _ _ _).mpr ⟨rfl, rfl⟩⟩

/-- A gauge or a counter that lacks its value field is observed field by field. -/
theorem forall₂_numberObservations
    (absent : point.fields.find? valueField = none) :
    List.Forall₂ (ObservesField now point valueField) (metricFields point)
      ((numberObservations { point with tags } (point.timeOr now) valueField start
        reading).toOption.getD []) := by
  rw [numberObservations_eq]
  cases said : numbers point valueField with
  | ok stated =>
      have states := ((numbers_eq_ok_iff_of_absent absent).mp said).2
      exact (forall₂_observesField_iff observes).mpr ⟨stated, states, rfl⟩
  | error error =>
      -- with a metric field, there would be numbers
      have noField : metricFields point = [] := by
        by_contra someField
        have numbers := (numbers_eq_ok_iff_of_absent absent).mpr
          ⟨someField, forall₂_metricFields point⟩
        exact error_ne_ok (said.symm.trans numbers)
      rw [noField]
      exact .nil

/-- What is read from a gauge or a counter is what it contributes, if its type observes
numbers as it does. -/
theorem numberObservations_eq_ok_iff
    (noHistogram : ¬HasType point .histogram)
    (noSummary : ¬HasType point .summary) :
    numberObservations { point with tags } (point.timeOr now) valueField start reading =
        .ok result ↔
      Contributes now point result := by
  rw [numberObservations_eq]
  constructor
  · intro read
    obtain ⟨stated, said, rfl⟩ := exists_of_map_eq_ok read
    cases found : point.fields.find? valueField with
    | some value =>
        rw [numbers, found] at said
        obtain ⟨number, converted, made⟩ := exists_of_bind_eq_ok said
        cases made
        exact .value found ((FieldValue.toNumber_eq_ok_iff _ _ _).mp converted)
          ((observes _ _ _ _).mpr ⟨rfl, rfl⟩)
    | none =>
        obtain ⟨someField, states⟩ := (numbers_eq_ok_iff_of_absent found).mp said
        exact .fields found someField
          ((forall₂_observesField_iff observes).mpr ⟨stated, states, rfl⟩)
  · intro contributes
    cases contributes with
    | value found isNumber observe =>
        obtain ⟨rfl, rfl⟩ := (observes _ _ _ _).mp observe
        rw [numbers, found]
        dsimp only
        rw [(FieldValue.toNumber_eq_ok_iff _ _ _).mpr isNumber]
        rfl
    | @fields field _ absent someField observe =>
        obtain ⟨key, keys, isCons⟩ := List.exists_cons_of_ne_nil someField
        -- the first field tells which value field is lacking
        have isField : field = valueField := by
          rw [isCons] at observe
          obtain ⟨_, _, ⟨value, number, -, -, first⟩, -⟩ :=
            List.forall₂_cons_left_iff.mp observe
          exact ((observes _ _ _ _).mp first).1
        subst isField
        obtain ⟨stated, states, rfl⟩ := (forall₂_observesField_iff observes).mp observe
        rw [(numbers_eq_ok_iff_of_absent absent).mpr ⟨someField, states⟩]
        rfl
    | histogram typed => exact absurd typed noHistogram
    | summary typed => exact absurd typed noSummary

end Observed

/-- A number of a gauge is observed as one. -/
theorem observesNumber_gauge_iff
    (processed : typeOf point = .gauge ∨ typeOf point = .untyped)
    (field metric : String)
    (number : Number)
    (observation : Observation) :
    ObservesNumber now point field metric number observation ↔
      field = ReservedName.gauge ∧
        observation = observed point.tags 0 (point.timeOr now) .gauge metric number := by
  constructor
  · rintro (⟨-, isField⟩ | ⟨typed, -⟩)
    · exact ⟨isField, rfl⟩
    · rcases hasType_iff.mp typed with ⟨isSum, -⟩ | ⟨-, absurdly⟩
      · rw [isSum] at processed
        rcases processed with absurdly | absurdly <;> cases absurdly
      · cases absurdly
  · rintro ⟨isField, rfl⟩
    refine .gauge (hasType_iff.mpr ?_) isField
    rcases processed with isGauge | unprocessed
    · exact .inl ⟨isGauge, nofun⟩
    · exact .inr ⟨unprocessed, rfl⟩

/-- The start time of a counter is the one that its fields state. -/
theorem startsAt_iff {fields : Fields} {start : UInt64} :
    StartsAt fields start ↔ start = startOf fields := by
  rw [startOf]
  constructor
  · rintro (⟨found, read⟩ | unread)
    · rw [found]
      dsimp only
      rw [read]
      rfl
    · split
      · rename_i value found
        cases read : Instant.ofFieldValue value with
        | ok start => exact absurd read (unread value start found)
        | error error => rfl
      · rfl
  · rintro rfl
    split
    · rename_i value found
      cases read : Instant.ofFieldValue value with
      | ok start => exact .stated found read
      | error error =>
          refine .unstated fun other start foundOther readOther => ?_
          cases found.symm.trans foundOther
          exact error_ne_ok (read.symm.trans readOther)
    · rename_i absent
      refine .unstated fun value start found => ?_
      cases absent.symm.trans found

/-- The tag of the temporality selects it. -/
theorem temporality_iff {tags : Tags} {temporality : Temporality} :
    (temporality = .delta ↔
        tags.find? ReservedName.temporality = some ReservedName.delta) ↔
      temporality = temporalityOf tags := by
  rw [temporalityOf]
  split
  · rename_i selected
    rw [iff_true_right selected]
  · rename_i unselected
    rw [iff_false_right unselected]
    cases temporality <;> decide

/-- A number of a counter is observed as one. -/
theorem observesNumber_sum_iff
    (processed : typeOf point = .sum)
    (field metric : String)
    (number : Number)
    (observation : Observation) :
    ObservesNumber now point field metric number observation ↔
      field = ReservedName.counter ∧
        observation =
          observed (point.tags.erase ReservedName.temporality) (startOf point.fields)
            (point.timeOr now) (.sum (temporalityOf point.tags)) metric number := by
  constructor
  · rintro (⟨typed, -⟩ | ⟨-, isField, rfl, selected, started⟩)
    · rcases hasType_iff.mp typed with ⟨absurdly, -⟩ | ⟨absurdly, -⟩
      · rw [processed] at absurdly
        cases absurdly
      · rw [processed] at absurdly
        cases absurdly
    · rw [temporality_iff.mp selected, startsAt_iff.mp started]
      exact ⟨isField, rfl⟩
  · rintro ⟨isField, rfl⟩
    exact .sum (hasType_iff.mpr (.inl ⟨processed, nofun⟩)) isField rfl
      (temporality_iff.mpr rfl) (startsAt_iff.mpr rfl)

/-! ## Histograms and summaries -/

/-- The count that is found in fields is the one that they state. -/
theorem statedCount?_eq_some_iff {fields : Fields} {count : UInt64} :
    statedCount? fields = some count ↔ StatesCount fields ReservedName.count count := by
  refine ⟨statesCount_of_statedCount?, ?_⟩
  rintro ⟨value, found, counts⟩
  rw [statedCount?, found, Option.bind_some,
    (FieldValue.toCount_eq_ok_iff ReservedName.count value count).mpr counts]
  rfl

/-- The sum that is found in fields is the one that they state. -/
theorem statedSum?_eq_some_iff {fields : Fields} {sum : Binary64} :
    statedSum? fields = some sum ↔ StatesDouble fields ReservedName.sum sum := by
  constructor
  · intro stated
    obtain ⟨value, found, converted⟩ := Option.bind_eq_some_iff.mp stated
    exact ⟨value, found,
      (FieldValue.toDouble_eq_ok_iff _ value sum).mp (eq_ok_of_toOption converted)⟩
  · rintro ⟨value, found, isDouble⟩
    rw [statedSum?, found, Option.bind_some,
      (FieldValue.toDouble_eq_ok_iff ReservedName.sum value sum).mpr isDouble]
    rfl

section Parts

variable {readPart : String -> FieldValue -> Except Error α} {isPart : FieldValue -> α -> Prop}
  (reads : ∀ key value part, readPart key value = .ok part ↔ isPart value part)
include reads

/-- The parts that are found in fields, if all of them can be read, are those that the fields
with finite numbers as keys state, in their order. -/
theorem forall₂_stated_iff
    {entries : List (String × FieldValue)}
    {stated : List (Binary64 × α)} :
    List.Forall₂
        (fun entry part =>
          Binary64.ofFiniteKey? entry.1 = some part.1 ∧ isPart entry.2 part.2)
        (entries.filter fun entry => (Binary64.ofFiniteKey? entry.1).isSome) stated ↔
      StatesParts readPart entries ∧ stated = entries.filterMap (statedPart? readPart) := by
  have found (states : StatesParts readPart entries) :
      List.Forall₂
        (fun entry part =>
          Binary64.ofFiniteKey? entry.1 = some part.1 ∧ isPart entry.2 part.2)
        (entries.filter fun entry => (Binary64.ofFiniteKey? entry.1).isSome)
        (entries.filterMap (statedPart? readPart)) := by
    refine forall₂_filter_filterMap (fun entry member isSome => ?_) fun entry _ isNone => ?_
    · obtain ⟨place, isPlace⟩ := Option.isSome_iff_exists.mp isSome
      obtain ⟨part, read⟩ := exists_of_isOk (states entry member place isPlace)
      refine ⟨(place, part), ?_, isPlace, (reads _ _ _).mp read⟩
      rw [statedPart?, isPlace, read]
      rfl
    · have noPlace : Binary64.ofFiniteKey? entry.1 = none :=
        Option.not_isSome_iff_eq_none.mp (Bool.eq_false_iff.mp isNone)
      rw [statedPart?, noPlace]
      rfl
  constructor
  · intro related
    have states : StatesParts readPart entries := by
      intro entry member place isPlace
      have kept : entry ∈ entries.filter fun entry => (Binary64.ofFiniteKey? entry.1).isSome :=
        List.mem_filter.mpr ⟨member, congrArg Option.isSome isPlace⟩
      obtain ⟨part, -, isPart⟩ := exists_of_mem_of_forall₂ related kept
      exact isOk_iff.mpr ⟨part.2, (reads _ _ _).mpr isPart⟩
    have unique : Relator.RightUnique fun (entry : String × FieldValue) (part : Binary64 × α) =>
        Binary64.ofFiniteKey? entry.1 = some part.1 ∧ isPart entry.2 part.2 := by
      rintro entry ⟨place, part⟩ ⟨other, otherPart⟩ ⟨isPlace, holds⟩ ⟨isOther, otherHolds⟩
      cases isPlace.symm.trans isOther
      cases ((reads entry.1 _ _).mpr holds).symm.trans ((reads entry.1 _ _).mpr otherHolds)
      rfl
    exact ⟨states, unique.forall₂ related (found states)⟩
  · rintro ⟨states, rfl⟩
    exact found states

/-- A point states a distribution exactly if its fields state the count, the sum and the
parts. -/
theorem distribution_eq_ok_iff_states
    {kind : Distribution}
    {count : UInt64}
    {sum : Binary64}
    {parts : List (Binary64 × α)} :
    distribution kind readPart point = .ok (count, sum, parts) ↔
      StatesCount point.fields ReservedName.count count ∧
        StatesDouble point.fields ReservedName.sum sum ∧
        StatesOrderedParts isPart point.fields parts := by
  have isSort (stated : List (Binary64 × α)) :
      Sorting.IsStableSort Binary64.totalLE Prod.fst stated parts ↔
        parts = Assembly.inOrder stated :=
    Sorting.isStableSort_iff Binary64.isLinear_totalLE
  rw [distribution_eq_ok_iff, statedCount?_eq_some_iff, statedSum?_eq_some_iff,
    StatesOrderedParts]
  simp only [forall₂_stated_iff reads, isSort]
  constructor
  · rintro ⟨states, counted, summed, ordered⟩
    exact ⟨counted, summed, _, ⟨states, rfl⟩, ordered⟩
  · rintro ⟨counted, summed, _, ⟨states, rfl⟩, ordered⟩
    exact ⟨states, counted, summed, ordered⟩

end Parts

/-- A distribution observes no number. -/
theorem not_observesNumber
    {field metric : String}
    {number : Number}
    {observation : Observation}
    (processed : typeOf point = .histogram ∨ typeOf point = .summary) :
    ¬ObservesNumber now point field metric number observation := by
  have ofNumber {type : TypeHint} (typed : HasType point type)
      (isNumber : type = .gauge ∨ type = .sum) : False := by
    rcases hasType_iff.mp typed with ⟨isType, -⟩ | ⟨unprocessed, -⟩
    · rw [isType] at processed
      rcases isNumber with rfl | rfl <;> rcases processed with absurdly | absurdly <;>
        cases absurdly
    · rw [unprocessed] at processed
      rcases processed with absurdly | absurdly <;> cases absurdly
  rintro (⟨typed, -⟩ | ⟨typed, -⟩)
  · exact ofNumber typed (.inl rfl)
  · exact ofNumber typed (.inr rfl)

/-- A distribution has no field as a metric of its own. -/
theorem not_forall₂_observesField
    {field : String}
    (processed : typeOf point = .histogram ∨ typeOf point = .summary)
    (someField : metricFields point ≠ []) :
    ¬List.Forall₂ (ObservesField now point field) (metricFields point) result := by
  intro observe
  obtain ⟨key, member⟩ := List.exists_mem_of_ne_nil _ someField
  obtain ⟨observation, value, number, -, -, observes⟩ := exists_of_mem_of_forall₂ observe member
  exact not_observesNumber processed observes

/-- A point has no other type than that it is processed as. -/
theorem typeOf_eq_of_hasType
    {type : TypeHint}
    (typed : HasType point type)
    (notGauge : type ≠ .gauge) :
    typeOf point = type := by
  rcases hasType_iff.mp typed with ⟨processed, -⟩ | ⟨-, isGauge⟩
  · exact processed
  · exact absurd isGauge notGauge

/-- What is read from a histogram is what it contributes. -/
theorem histogramObservation_eq_ok_iff_contributes
    (processed : typeOf point = .histogram) :
    (histogramObservation point (point.timeOr now)).map ([·]) = .ok result ↔
      Contributes now point result := by
  constructor
  · intro read
    obtain ⟨observation, said, rfl⟩ := exists_of_map_eq_ok read
    obtain ⟨count, sum, buckets, stated, ordered, rfl⟩ := histogramObservation_eq_ok_iff.mp said
    obtain ⟨counted, summed, parts⟩ :=
      (distribution_eq_ok_iff_states FieldValue.toCount_eq_ok_iff).mp stated
    rw [TagLevels.split_eq_byKey]
    exact .histogram (hasType_iff.mpr (.inl ⟨processed, nofun⟩)) counted summed parts
      (ordered.imp And.right)
  · intro contributes
    cases contributes with
    | value found isNumber observes => exact absurd observes (not_observesNumber (.inl processed))
    | fields absent someField observe =>
        exact absurd observe (not_forall₂_observesField (.inl processed) someField)
    | histogram typed counted summed parts apart =>
        have stated : distribution .histogram (fun key value => value.toCount key) point = _ :=
          (distribution_eq_ok_iff_states FieldValue.toCount_eq_ok_iff).mpr
            ⟨counted, summed, parts⟩
        have ordered := (places_of_distribution stated).2.and apart
        have said : histogramObservation point (point.timeOr now) = _ :=
          histogramObservation_eq_ok_iff.mpr ⟨_, _, _, stated, ordered, rfl⟩
        rw [said, TagLevels.split_eq_byKey]
        rfl
    | summary typed =>
        exact nomatch processed.symm.trans (typeOf_eq_of_hasType typed nofun)

/-- What is read from a summary is what it contributes. -/
theorem summaryObservation_eq_ok_iff_contributes
    (processed : typeOf point = .summary) :
    (summaryObservation point (point.timeOr now)).map ([·]) = .ok result ↔
      Contributes now point result := by
  constructor
  · intro read
    obtain ⟨observation, said, rfl⟩ := exists_of_map_eq_ok read
    obtain ⟨count, sum, quantiles, stated, rfl⟩ := summaryObservation_eq_ok_iff.mp said
    obtain ⟨counted, summed, parts⟩ :=
      (distribution_eq_ok_iff_states FieldValue.toDouble_eq_ok_iff).mp stated
    rw [TagLevels.split_eq_byKey]
    exact .summary (hasType_iff.mpr (.inl ⟨processed, nofun⟩)) counted summed parts
  · intro contributes
    cases contributes with
    | value found isNumber observes => exact absurd observes (not_observesNumber (.inr processed))
    | fields absent someField observe =>
        exact absurd observe (not_forall₂_observesField (.inr processed) someField)
    | histogram typed =>
        exact nomatch processed.symm.trans (typeOf_eq_of_hasType typed nofun)
    | summary typed counted summed parts =>
        have stated : distribution .summary (fun key value => value.toDouble key) point = _ :=
          (distribution_eq_ok_iff_states FieldValue.toDouble_eq_ok_iff).mpr
            ⟨counted, summed, parts⟩
        have said : summaryObservation point (point.timeOr now) = _ :=
          summaryObservation_eq_ok_iff.mpr ⟨_, _, _, stated, rfl⟩
        rw [said, TagLevels.split_eq_byKey]
        rfl

/-! ## Points -/

/-- What is read from a whole point is exactly what it contributes. -/
theorem observations_eq_ok_iff_contributes :
    observations now point = .ok result ↔ Contributes now point result := by
  have other {type : TypeHint} (processed : typeOf point ≠ type) (notGauge : type ≠ .gauge) :
      ¬HasType point type :=
    fun typed => processed (typeOf_eq_of_hasType typed notGauge)
  rw [observations]
  cases processed : typeOf point with
  | untyped =>
      rw [processed] at other
      exact numberObservations_eq_ok_iff (observesNumber_gauge_iff (.inr processed))
        (other (by decide) (by decide)) (other (by decide) (by decide))
  | gauge =>
      rw [processed] at other
      exact numberObservations_eq_ok_iff (observesNumber_gauge_iff (.inl processed))
        (other (by decide) (by decide)) (other (by decide) (by decide))
  | sum =>
      rw [processed] at other
      exact numberObservations_eq_ok_iff (observesNumber_sum_iff processed)
        (other (by decide) (by decide)) (other (by decide) (by decide))
  | histogram => exact histogramObservation_eq_ok_iff_contributes processed
  | summary => exact summaryObservation_eq_ok_iff_contributes processed

/-- A gauge or a counter that lacks its value field has an observation for each of its metric
fields, in the order of their keys. -/
theorem forall₂_observations
    {valueField : String}
    (now : UInt64)
    (expects : valueField? point = some valueField)
    (absent : point.fields.find? valueField = none) :
    List.Forall₂ (ObservesField now point valueField) (metricFields point)
      ((observations now point).toOption.getD []) := by
  rw [valueField?] at expects
  rw [observations]
  cases processed : typeOf point with
  | untyped =>
      rw [processed] at expects
      cases expects
      exact forall₂_numberObservations (observesNumber_gauge_iff (.inr processed)) absent
  | gauge =>
      rw [processed] at expects
      cases expects
      exact forall₂_numberObservations (observesNumber_gauge_iff (.inl processed)) absent
  | sum =>
      rw [processed] at expects
      cases expects
      exact forall₂_numberObservations (observesNumber_sum_iff processed) absent
  | histogram =>
      rw [processed] at expects
      cases expects
  | summary =>
      rw [processed] at expects
      cases expects

end Whole
end LineMetrics
