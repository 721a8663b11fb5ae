import LineMetrics.Point.Json
import LineMetrics.Proofs.JsonLeaves
import LineMetrics.Proofs.NumericOrder
import LineMetrics.Proofs.RestatedCounts
import LineMetrics.Proofs.WrittenNumbers

/-!
# Read numbers are finite

A number in JSON is read to a finite binary64 number or to none at all: its digits are a
natural number of 64 bits, which a power of ten divides to less, and a product beyond the
largest finite number is refused. So all numbers in the fields of a point that is read
from a text are finite.
-/

namespace LineMetrics

namespace Binary64

/-- A quotient with a given number of bits is rounded to a magnitude with an exponent
for that number. -/
theorem roundMagnitude_le_of_lt
    {numerator denominator bits : Nat}
    (someBits : 53 ≤ bits)
    (below : numerator / denominator < 2 ^ bits) :
    roundMagnitude numerator denominator ≤ (bits - 51) * fractionCount := by
  have shift : (numerator / denominator).log2 - 52 ≤ bits - 53 := by
    by_cases zero : numerator / denominator = 0
    · rw [zero, Nat.log2_zero]
      omega
    · have := (Nat.log2_lt zero).mpr below
      omega
  have kept : numerator / denominator / 2 ^ ((numerator / denominator).log2 - 52) < 2 ^ 53 := by
    rw [Nat.div_lt_iff_lt_mul (Nat.two_pow_pos _), <- Nat.pow_add]
    refine Nat.lt_of_lt_of_le Nat.lt_log2_self (Nat.pow_le_pow_right Nat.two_pos ?_)
    omega
  have rounded := roundQuotient_le_succ numerator
    (denominator <<< ((numerator / denominator).log2 - 52))
  rw [Nat.shiftLeft_eq, <- Nat.div_div_eq_div_mul, <- Nat.shiftLeft_eq] at rounded
  have shifted := Nat.mul_le_mul_right fractionCount shift
  have exponents : (bits - 51) * fractionCount =
      (bits - 53) * fractionCount + 2 * fractionCount := by
    rw [<- Nat.add_mul]
    congr 1
    omega
  have double : 2 * fractionCount = 2 ^ 53 := by decide
  refine Nat.le_trans (Nat.min_le_right _ _) ?_
  omega

/-- The units of a rounded quotient have at most one bit more than the quotient. -/
theorem unitsOf_roundMagnitude_lt
    {numerator denominator bits : Nat}
    (someBits : 53 ≤ bits)
    (below : numerator / denominator < 2 ^ bits) :
    unitsOf (roundMagnitude numerator denominator) < 2 ^ (bits + 1) := by
  have bounded := roundMagnitude_le_of_lt someBits below
  generalize roundMagnitude numerator denominator = magnitude at bounded
  by_cases small : magnitude < fractionCount
  · rw [unitsOf_of_lt small]
    rw [fractionCount_eq] at small
    exact Nat.lt_of_lt_of_le small (Nat.pow_le_pow_right Nat.two_pos (by omega))
  · have exponent : magnitude / fractionCount ≤ bits - 51 :=
      Nat.div_le_of_le_mul (by rwa [Nat.mul_comm])
    have kept : magnitude % fractionCount + fractionCount < 2 ^ 53 := by
      have rest := Nat.mod_lt magnitude (show 0 < fractionCount by decide)
      rw [fractionCount_eq] at rest ⊢
      omega
    rw [unitsOf_of_le (Nat.not_lt.mp small)]
    calc (magnitude % fractionCount + fractionCount) * 2 ^ (magnitude / fractionCount - 1)
        < 2 ^ 53 * 2 ^ (magnitude / fractionCount - 1) :=
          Nat.mul_lt_mul_of_pos_right kept (Nat.two_pow_pos _)
      _ = 2 ^ (53 + (magnitude / fractionCount - 1)) := (Nat.pow_add 2 53 _).symm
      _ ≤ 2 ^ (bits + 1) := Nat.pow_le_pow_right Nat.two_pos (by omega)

/-- The units of a natural number have as many bits more as those of one. -/
theorem unitsOf_ofNat_lt
    {value bits exponent : Nat}
    (someBits : 53 ≤ bits)
    (below : value < 2 ^ bits)
    (one : unitsPerOne = 2 ^ exponent) :
    unitsOf (ofNat value).magnitude < 2 ^ (bits + exponent + 1) := by
  rw [magnitude_ofNat]
  refine unitsOf_roundMagnitude_lt (by omega) ?_
  rw [Nat.div_one, one, Nat.pow_add]
  exact Nat.mul_lt_mul_of_pos_right below (Nat.two_pow_pos _)

/-- A power of ten is at least one. -/
theorem unitsPerOne_le_unitsOf_powerOfTen (exponent : Nat) :
    unitsPerOne ≤ unitsOf (powerOfTen exponent) := by
  have one : unitsOf (powerOfTen 0) = unitsPerOne := by decide +kernel
  rw [<- one]
  refine strictMono_unitsOf.monotone (roundMagnitude_mono (Nat.mul_le_mul_right _ ?_))
  exact Nat.pow_le_pow_right (by decide) (Nat.zero_le _)

/-- Dividing by a power of ten leaves no more bits. -/
theorem divided_lt
    {magnitude bits : Nat}
    (power : Nat)
    (below : unitsOf magnitude < 2 ^ bits) :
    unitsOf magnitude * unitsPerOne / unitsOf (powerOfTen power) < 2 ^ bits := by
  refine Nat.lt_of_le_of_lt (Nat.div_le_of_le_mul ?_) below
  rw [Nat.mul_comm]
  exact Nat.mul_le_mul_right _ (unitsPerOne_le_unitsOf_powerOfTen power)

/-- A whole number of 64 bits is rounded to a finite number. -/
theorem isFinite_ofInt (value : Int64) : (ofInt value.toInt).isFinite = true := by
  have least := value.le_toInt
  have greatest := value.toInt_lt
  have small : value.toInt.natAbs < UInt64.size := by
    simp only [UInt64.size]
    omega
  have finite := of_decide_eq_true (isFinite_ofNat_count (UInt64.ofNat value.toInt.natAbs))
  rw [UInt64.toNat_ofNat', Nat.mod_eq_of_lt small, magnitude_ofNat] at finite
  rw [ofInt, isFinite, magnitude_ofMagnitude _ (Nat.lt_trans finite (by decide))]
  exact decide_eq_true finite

end Binary64

namespace Json

namespace Significand

theorem digits_takeWhole_le
    {significand : Significand}
    (fits : significand.digits ≤ greatest)
    (digits : List Char) :
    (significand.takeWhole digits).digits ≤ greatest := by
  induction digits generalizing significand with
  | nil => exact fits
  | cons digit digits inductionHypothesis =>
      rw [takeWhole]
      split
      · rename_i extended
        exact inductionHypothesis extended
      · exact fits

theorem digits_takeFraction_le
    {significand : Significand}
    (fits : significand.digits ≤ greatest)
    (digits : List Char) :
    (significand.takeFraction digits).digits ≤ greatest := by
  induction digits generalizing significand with
  | nil => exact fits
  | cons digit digits inductionHypothesis =>
      rw [takeFraction]
      split
      · rename_i extended
        exact inductionHypothesis extended
      · exact fits

/-- The magnitude of a significand that 64 bits hold is finite. -/
theorem magnitude?_lt
    {digits magnitude : Nat}
    {exponent : Int}
    (fits : digits ≤ greatest)
    (found : magnitude? ⟨digits, exponent⟩ = some magnitude) :
    magnitude < Binary64.infiniteMagnitude := by
  have below : digits < 2 ^ 64 := by
    have isGreatest : greatest = 2 ^ 64 - 1 := rfl
    omega
  have whole := Binary64.unitsOf_ofNat_lt (by decide) below Binary64.unitsPerOne_eq
  rw [magnitude?] at found
  dsimp only at found
  split at found
  · split at found
    · cases found
      decide
    · split at found
      · cases found
      · split at found
        · rename_i finite
          cases found
          exact finite
        · cases found
  · split at found
    · cases found
      exact Nat.lt_of_le_of_lt
        (Binary64.roundMagnitude_le_of_lt (by decide) (Binary64.divided_lt _ whole)) (by decide)
    · split at found
      · cases found
        have once := Binary64.unitsOf_roundMagnitude_lt (by decide)
          (Binary64.divided_lt 308 whole)
        exact Nat.lt_of_le_of_lt
          (Binary64.roundMagnitude_le_of_lt (by decide) (Binary64.divided_lt _ once)) (by decide)
      · cases found
        decide

end Significand

/-- A leaf that is a binary64 number is finite. -/
def IsFiniteLeaf (leaf : Json) : Prop :=
  ∀ number, leaf = .double number -> number.isFinite = true

/-- The number that parts of a text give is finite. -/
theorem leaves_ofNumberParts
    (negative : Bool)
    (whole : List Char)
    (fraction : Option (List Char))
    (exponent : Option Int) :
    (ofNumberParts negative whole fraction exponent).Leaves IsFiniteLeaf := by
  have starts : (⟨0, 0⟩ : Significand).digits ≤ Significand.greatest := Nat.zero_le _
  have fits := Significand.digits_takeFraction_le
    (Significand.digits_takeWhole_le starts whole) (fraction.getD [])
  unfold ofNumberParts
  extract_lets value significand inexact
  have finite : inexact.Leaves IsFiniteLeaf := by
    unfold inexact
    split
    · rename_i magnitude found
      rintro number isNumber
      cases isNumber
      have finite := Significand.magnitude?_lt fits found
      rw [Binary64.isFinite, Binary64.magnitude_ofMagnitude _ (Nat.lt_trans finite (by decide))]
      exact decide_eq_true finite
    · exact fun number same => by cases same
  have unlessWhole (condition : Prop) [Decidable condition] (value : Int) :
      (if condition then Json.int value else inexact).Leaves IsFiniteLeaf := by
    split
    · exact fun number same => by cases same
    · exact finite
  cases fraction with
  | some digits => exact finite
  | none =>
      cases exponent with
      | some exponent => exact finite
      | none =>
          cases negative with
          | true => exact unlessWhole _ _
          | false => exact unlessWhole _ _

/-! ## Values -/

section Read

variable {fuel : Nat} {json : Json} {symbols rest : List Text.Symbol}

theorem leaves_of_readUnsigned?
    {negative : Bool}
    (read : readUnsigned? negative symbols = some (json, rest)) :
    json.Leaves IsFiniteLeaf := by
  rw [readUnsigned?] at read
  dsimp only at read
  split at read
  · cases read
  · obtain ⟨⟨fraction, behindFraction⟩, -, read⟩ := Option.bind_eq_some_iff.mp read
    obtain ⟨⟨exponent, behindExponent⟩, -, read⟩ := Option.bind_eq_some_iff.mp read
    cases read
    exact leaves_ofNumberParts _ _ _ _

theorem leaves_of_readNumber? (read : readNumber? symbols = some (json, rest)) :
    json.Leaves IsFiniteLeaf := by
  by_cases signed : symbols.head? = some (some '-')
  · obtain ⟨behind, rfl⟩ := List.head?_eq_some_iff.mp signed
    rw [readNumber?_minus] at read
    exact leaves_of_readUnsigned? read
  · rw [readNumber?_of_head?_ne signed] at read
    exact leaves_of_readUnsigned? read

theorem leaves_of_word
    {word : List Char}
    {leaf : Json}
    (read : ((afterWord? word symbols).map fun rest => (leaf, rest)) = some (json, rest))
    (finite : leaf.Leaves IsFiniteLeaf) :
    json.Leaves IsFiniteLeaf := by
  obtain ⟨behind, -, made⟩ := Option.map_eq_some_iff.mp read
  cases made
  exact finite

/-- Values, items and members that are read with some fuel are finite. -/
structure ReadsFinite (fuel : Nat) : Prop where
  value : ∀ symbols json rest, readValue? fuel symbols = some (json, rest) ->
    json.Leaves IsFiniteLeaf
  items : ∀ symbols items rest, readItems? fuel symbols = some (items, rest) ->
    LeavesOfItems IsFiniteLeaf items
  members : ∀ symbols members rest, readMembers? fuel symbols = some (some members, rest) ->
    LeavesOfMembers IsFiniteLeaf members

theorem readsFinite_zero : ReadsFinite 0 where
  value symbols json rest read := by
    rw [readValue?] at read
    · cases read
    · exact fun fuel first rest same => by cases same
  items symbols items rest read := by
    cases read
  members symbols members rest read := by
    rw [readMembers?] at read
    · cases read
    · exact fun fuel rest same => by cases same

theorem ReadsFinite.readValue
    (finite : ReadsFinite fuel)
    (read : readValue? (fuel + 1) symbols = some (json, rest)) :
    json.Leaves IsFiniteLeaf := by
  cases symbols with
  | nil => cases read
  | cons symbol symbols =>
      cases symbol with
      | none => cases read
      | some first =>
          rw [readValue?] at read
          -- The first symbol tells texts, lists, objects, words and numbers apart.
          split at read
          · obtain ⟨⟨text, behind⟩, -, made⟩ := Option.map_eq_some_iff.mp read
            cases made
            cases text with
            | none => exact fun number same => by cases same
            | some text => exact fun number same => by cases same
          split at read
          · split at read
            · cases read
              trivial
            · obtain ⟨⟨items, behind⟩, readItems, made⟩ := Option.map_eq_some_iff.mp read
              cases made
              exact finite.items _ _ _ readItems
          split at read
          · split at read
            · cases read
              trivial
            · obtain ⟨⟨members, behind⟩, readMembers, made⟩ := Option.map_eq_some_iff.mp read
              cases made
              cases members with
              | none => exact fun number same => by cases same
              | some members => exact finite.members _ _ _ readMembers
          split at read
          · exact leaves_of_word read fun number same => by cases same
          split at read
          · exact leaves_of_word read fun number same => by cases same
          split at read
          · exact leaves_of_word read fun number same => by cases same
          · exact leaves_of_readNumber? read

theorem ReadsFinite.readItems
    {items : List Json}
    (finite : ReadsFinite fuel)
    (read : readItems? (fuel + 1) symbols = some (items, rest)) :
    LeavesOfItems IsFiniteLeaf items := by
  rw [readItems?] at read
  obtain ⟨⟨item, behind⟩, readItem, read⟩ := Option.bind_eq_some_iff.mp read
  have isFinite := finite.value _ _ _ readItem
  dsimp only at read
  split at read
  · cases read
    exact ⟨isFinite, trivial⟩
  · obtain ⟨⟨others, end_⟩, readOthers, made⟩ := Option.map_eq_some_iff.mp read
    cases made
    exact ⟨isFinite, finite.items _ _ _ readOthers⟩
  · cases read

theorem ReadsFinite.readMembers
    {members : List (String × Json)}
    (finite : ReadsFinite fuel)
    (read : readMembers? (fuel + 1) symbols = some (some members, rest)) :
    LeavesOfMembers IsFiniteLeaf members := by
  cases symbols with
  | nil => cases read
  | cons symbol symbols =>
      by_cases quoted : symbol = some '"'
      · rw [quoted, readMembers?] at read
        obtain ⟨⟨key, behindKey⟩, -, read⟩ := Option.bind_eq_some_iff.mp read
        obtain ⟨behindColon, -, read⟩ := Option.bind_eq_some_iff.mp read
        obtain ⟨⟨value, behind⟩, readValue, read⟩ := Option.bind_eq_some_iff.mp read
        have isFinite := finite.value _ _ _ readValue
        dsimp only at read
        cases key with
        | none =>
            split at read
            · cases read
            · obtain ⟨⟨others, end_⟩, -, made⟩ := Option.map_eq_some_iff.mp read
              cases made
            · cases read
        | some key =>
            split at read
            · cases read
              exact ⟨isFinite, trivial⟩
            · obtain ⟨⟨others, end_⟩, readOthers, made⟩ := Option.map_eq_some_iff.mp read
              cases others with
              | none => cases made
              | some others =>
                  cases made
                  exact ⟨isFinite, finite.members _ _ _ readOthers⟩
            · cases read
      · rw [readMembers?] at read
        · cases read
        · rintro _ behind - same
          exact quoted (List.cons.inj same).1

theorem readsFinite (fuel : Nat) : ReadsFinite fuel := by
  induction fuel with
  | zero => exact readsFinite_zero
  | succ fuel inductionHypothesis =>
      exact {
        value := fun _ _ _ => inductionHypothesis.readValue
        items := fun _ _ _ => inductionHypothesis.readItems
        members := fun _ _ _ => inductionHypothesis.readMembers }

/-- The numbers of a value that is read from a text are finite. -/
theorem leaves_of_parse? {text : String} (read : parse? text = some json) :
    json.Leaves IsFiniteLeaf := by
  rw [parse?, ofSymbols?] at read
  split at read
  · rename_i value behind readValue
    split at read
    · cases read
      exact (readsFinite _).value _ _ _ readValue
    · cases read
  · cases read

end Read

/-- The parts of a record have a property of all leaves if the record has it. -/
theorem leaves_of_record?
    {holds : Json -> Prop}
    {json : Json}
    {names : List String}
    {parts : List (String × Json)}
    (leaves : json.Leaves holds)
    (found : json.record? names = some parts) :
    ∀ part ∈ parts, part.2.Leaves holds := by
  intro part member
  cases json with
  | object members =>
      rw [record?] at found
      split at found
      · cases found
        exact leavesOfMembers_iff.mp leaves part (List.mem_filter.mp member).1
      · cases found
  | list items =>
      rw [record?] at found
      split at found
      · cases found
        exact leavesOfItems_iff.mp leaves part.2 (List.of_mem_zip member).2
      · cases found
  | _ => cases found

end Json

/-- What is read from a list is read from one of its items. -/
theorem exists_of_mem_mapM
    {α β : Type}
    {read : α -> Option β}
    {items : List α}
    {results : List β}
    (succeeds : items.mapM read = some results) :
    ∀ result ∈ results, ∃ item ∈ items, read item = some result := by
  induction items generalizing results with
  | nil =>
      cases succeeds
      exact fun result member => absurd member List.not_mem_nil
  | cons item items inductionHypothesis =>
      rw [List.mapM_cons] at succeeds
      obtain ⟨first, readFirst, succeeds⟩ := Option.bind_eq_some_iff.mp succeeds
      obtain ⟨others, readOthers, made⟩ := Option.bind_eq_some_iff.mp succeeds
      cases made
      refine List.forall_mem_cons.mpr ⟨⟨item, List.mem_cons_self, readFirst⟩, ?_⟩
      intro result member
      obtain ⟨other, inItems, readOther⟩ := inductionHypothesis readOthers result member
      exact ⟨other, List.mem_cons_of_mem _ inItems, readOther⟩

/-- A binary64 number in a field is finite. -/
def FieldValue.IsFinite (value : FieldValue) : Prop :=
  ∀ number, value = .float number -> number.isFinite = true

/-- The binary64 numbers in the fields of a point are finite. -/
def Point.IsFinite (point : Point) : Prop :=
  ∀ entry ∈ point.fields.entries, entry.2.IsFinite

theorem FieldValue.isFinite_of_ofJson?
    {json : Json}
    {value : FieldValue}
    (leaves : json.Leaves Json.IsFiniteLeaf)
    (read : ofJson? json = some value) :
    value.IsFinite := by
  rintro number rfl
  cases json with
  | double value =>
      cases read
      exact leaves number rfl
  | int value =>
      rw [ofJson?] at read
      split at read
      · cases read
      · obtain ⟨whole, -, made⟩ := Option.map_eq_some_iff.mp read
        cases made
  | _ => cases read

namespace Dictionary

variable {α : Type}

/-- The entries of a list in key order are among those of the list. -/
theorem mem_of_mem_entries_ofList {entries : List (String × α)} :
    ∀ entry ∈ (ofList entries).entries, entry ∈ entries := by
  have fold (dictionary : Dictionary α) :
      ∀ entry ∈ (entries.foldl (fun dictionary entry => dictionary.insert entry.1 entry.2)
          dictionary).entries,
        entry ∈ dictionary.entries ∨ entry ∈ entries := by
    induction entries generalizing dictionary with
    | nil => exact fun entry member => .inl member
    | cons first rest inductionHypothesis =>
        intro entry member
        rcases inductionHypothesis _ entry member with inserted | later
        · rcases key_of_mem_insertEntry inserted with same | earlier
          · exact .inr (same ▸ List.mem_cons_self)
          · exact .inl earlier
        · exact .inr (List.mem_cons_of_mem _ later)
  intro entry member
  exact (fold empty entry member).resolve_left List.not_mem_nil

end Dictionary

namespace Point

/-- The numbers in a point that is read from a text are finite. -/
theorem isFinite_of_ofText? {text : String} {point : Point} (read : ofText? text = some point) :
    point.IsFinite := by
  obtain ⟨json, parsed, read⟩ := Option.bind_eq_some_iff.mp read
  obtain ⟨parts, isRecord, read⟩ := Option.bind_eq_some_iff.mp read
  obtain ⟨measurement, -, read⟩ := Option.bind_eq_some_iff.mp read
  obtain ⟨tags, -, read⟩ := Option.bind_eq_some_iff.mp read
  obtain ⟨fields, readFields, read⟩ := Option.bind_eq_some_iff.mp read
  obtain ⟨time, -, read⟩ := Option.bind_eq_some_iff.mp read
  obtain ⟨hint, -, read⟩ := Option.bind_eq_some_iff.mp read
  cases read
  intro entry member
  rw [Json.optional?] at readFields
  split at readFields
  · rename_i fieldsJson found
    have inParts : ("fields", fieldsJson) ∈ parts := by
      obtain ⟨before, after, isSplit, -⟩ := List.lookup_eq_some_iff.mp found
      exact isSplit ▸ List.mem_append_right _ List.mem_cons_self
    have leaves := Json.leaves_of_record? (Json.leaves_of_parse? parsed) isRecord _ inParts
    obtain ⟨entries, readEntries, made⟩ := Option.map_eq_some_iff.mp readFields
    cases made
    have inEntries := Dictionary.mem_of_mem_entries_ofList entry member
    cases fieldsJson with
    | object members =>
        obtain ⟨stated, isStated, readEntry⟩ := exists_of_mem_mapM readEntries entry inEntries
        obtain ⟨value, readValue, made⟩ := Option.map_eq_some_iff.mp readEntry
        cases made
        exact FieldValue.isFinite_of_ofJson? (Json.leavesOfMembers_iff.mp leaves stated isStated)
          readValue
    | _ => cases readEntries
  · cases readFields
    exact absurd member List.not_mem_nil

end Point
end LineMetrics
