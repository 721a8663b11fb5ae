import LineMetrics.Proofs.JsonLeaves
import LineMetrics.Proofs.WrittenNumbers
import LineMetrics.Proofs.WrittenText

/-!
# Written values are read back

A value is read from its text with its numbers changed as they are when they are read. It
is restored if they are not. The induction is on the value: it is read in front of any
symbols that do not go on with a number, which is what stands behind it in a list or an
object. Each symbol of the text pays for two steps of the reader, which is fuel enough.
-/

namespace LineMetrics
namespace Json

/-- The leaf has a meaning. As a number, it is a whole number that 64 bits hold, or is read
from its text with this change. -/
def IsReadLeaf (change : Binary64 -> Binary64) : Json -> Prop
  | .int value => -0x8000000000000000 ≤ value ∧ value ≤ 0xffffffffffffffff
  | .double value =>
      readNumber? ((doubleText value).map some) = some (.double (change value), [])
  | .unreadable => False
  | _ => True

/-- The leaf has a meaning. As a number, it is a whole number that 64 bits hold, or is
restored from its text. -/
def IsRestoredLeaf : Json -> Prop := IsReadLeaf id

/-- All leaves of the value are restored from their texts. -/
def IsRestored (json : Json) : Prop := json.Leaves IsRestoredLeaf

/-- Only white space is skipped. -/
theorem skipSpace_cons {first : Char} (rest : List Text.Symbol) (noSpace : isSpace first = false) :
    skipSpace (some first :: rest) = some first :: rest := by
  rw [skipSpace, List.dropWhile_cons_of_neg]
  rw [Option.any_some, noSpace]
  exact Bool.false_ne_true

/-- A minus sign and a digit are no other characters. -/
theorem ne_of_numeric
    {first : Char}
    (numeric : first = '-' ∨ first.isDigit = true) :
    ∀ letter : Char, letter ≠ '-' -> letter.isDigit = false -> first ≠ letter := by
  rintro letter noMinus noDigit rfl
  rcases numeric with minus | digit
  · exact noMinus minus
  · exact Bool.false_ne_true (noDigit.symm.trans digit)

/-- A value that starts like a number is read as one. -/
theorem readValue?_numeric
    {first : Char}
    (fuel : Nat)
    (rest : List Text.Symbol)
    (numeric : first = '-' ∨ first.isDigit = true) :
    readValue? (fuel + 1) (some first :: rest) = readNumber? (some first :: rest) := by
  have apart := ne_of_numeric numeric
  rw [readValue?, if_neg (apart '"' (by decide) (by decide)),
    if_neg (apart '[' (by decide) (by decide)), if_neg (apart '\x7b' (by decide) (by decide)),
    if_neg (apart 'n' (by decide) (by decide)), if_neg (apart 't' (by decide) (by decide)),
    if_neg (apart 'f' (by decide) (by decide))]

/-- A value whose text is that of a number is read as that number. -/
theorem readValue?_of_readNumber?
    {text : List Char}
    {json : Json}
    {fuel : Nat}
    {rest : List Text.Symbol}
    (read : readNumber? (text.map some) = some (json, []))
    (enough : 2 * text.length ≤ fuel)
    (ends : EndsNumber rest) :
    readValue? fuel (text.map some ++ rest) = some (json, rest) := by
  obtain ⟨first, others, isFirst, numeric⟩ := exists_first_of_readNumber? read
  cases text with
  | nil => cases isFirst
  | cons character text =>
      obtain ⟨isCharacter, -⟩ := List.cons.inj isFirst
      cases isCharacter
      rw [List.length_cons] at enough
      obtain ⟨fuel, rfl⟩ := Nat.exists_eq_succ_of_ne_zero (show fuel ≠ 0 by omega)
      have readBehind := readNumber?_append ends read
      rw [List.nil_append] at readBehind
      rw [<- readBehind]
      exact readValue?_numeric fuel (text.map some ++ rest) numeric

/-- The character starts a value: it is not white space, and does not end a list. -/
def StartsValue (first : Char) : Prop := isSpace first = false ∧ first ≠ ']'

/-- The text of a number starts like a value. -/
theorem exists_first_of_isNumber
    {text : List Char}
    {behind : List Text.Symbol}
    {json : Json}
    (read : readNumber? (text.map some) = some (json, behind)) :
    ∃ first others, text = first :: others ∧ StartsValue first := by
  obtain ⟨first, others, isFirst, numeric⟩ := exists_first_of_readNumber? read
  have apart := ne_of_numeric numeric
  cases text with
  | nil => cases isFirst
  | cons character text =>
      obtain ⟨isCharacter, -⟩ := List.cons.inj isFirst
      cases isCharacter
      refine ⟨first, text, rfl, ?_, apart ']' (by decide) (by decide)⟩
      rw [isSpace, decide_eq_false (apart ' ' (by decide) (by decide)),
        decide_eq_false (apart '\t' (by decide) (by decide)),
        decide_eq_false (apart '\n' (by decide) (by decide)),
        decide_eq_false (apart '\r' (by decide) (by decide))]
      rfl

variable {change : Binary64 -> Binary64}

/-- The text of a value that is read starts like a value. -/
theorem exists_first_of_render {json : Json} (readable : json.Leaves (IsReadLeaf change)) :
    ∃ first others, json.render = first :: others ∧ StartsValue first := by
  cases json with
  | null => exact ⟨'n', _, rfl, rfl, by decide⟩
  | bool value =>
      cases value with
      | true => exact ⟨'t', _, rfl, rfl, by decide⟩
      | false => exact ⟨'f', _, rfl, rfl, by decide⟩
  | int value =>
      exact exists_first_of_isNumber (readNumber?_integerText readable.1 readable.2)
  | double value => exact exists_first_of_isNumber readable
  | string value => exact ⟨'"', _, rfl, rfl, by decide⟩
  | list items =>
      cases items with
      | nil => exact ⟨'[', _, rfl, rfl, by decide⟩
      | cons item items => exact ⟨'[', _, rfl, rfl, by decide⟩
  | object members =>
      cases members with
      | nil => exact ⟨'\x7b', _, rfl, rfl, by decide⟩
      | cons member members => exact ⟨'\x7b', _, rfl, rfl, by decide⟩
  | unreadable => exact readable.elim

/-! ## Steps of the reader -/

section Steps

variable {fuel : Nat} {symbols behind rest : List Text.Symbol}

/-- A word is read where it is written. -/
theorem afterWord?_append (word : List Char) (rest : List Text.Symbol) :
    afterWord? word (word.map some ++ rest) = some rest := by
  have sameLength : word.length = (word.map some).length := (List.length_map some).symm
  rw [afterWord?, if_pos (List.isPrefixOf_iff_prefix.mpr (List.prefix_append _ _)), sameLength,
    List.drop_left]

theorem readValue?_list
    {first : Char}
    {items : List Json}
    (starts : StartsValue first)
    (read : readItems? fuel (some first :: symbols) = some (items, rest)) :
    readValue? (fuel + 1) (some '[' :: some first :: symbols) = some (.list items, rest) := by
  rw [readValue?, if_neg (by decide), if_pos rfl, skipSpace_cons symbols starts.1]
  split
  · rename_i ended
    cases ended
    exact absurd rfl starts.2
  · rw [read, Option.map_some]

theorem readValue?_object
    {members : List (String × Json)}
    (read : readMembers? fuel (some '"' :: symbols) = some (some members, rest)) :
    readValue? (fuel + 1) (some '\x7b' :: some '"' :: symbols) =
      some (.object members, rest) := by
  rw [readValue?, if_neg (by decide), if_neg (by decide), if_pos rfl,
    skipSpace_cons symbols rfl]
  change (readMembers? fuel (some '"' :: symbols)).map _ = _
  rw [read, Option.map_some]

theorem readItems?_last
    {item : Json}
    (read : readValue? fuel symbols = some (item, some ']' :: rest)) :
    readItems? (fuel + 1) symbols = some ([item], rest) := by
  rw [readItems?, read]
  rfl

theorem readItems?_cons
    {first : Char}
    {item : Json}
    {items : List Json}
    (read : readValue? fuel symbols = some (item, some ',' :: some first :: behind))
    (starts : StartsValue first)
    (readOthers : readItems? fuel (some first :: behind) = some (items, rest)) :
    readItems? (fuel + 1) symbols = some (item :: items, rest) := by
  rw [readItems?, read]
  change (readItems? fuel (skipSpace (some first :: behind))).map _ = _
  rw [skipSpace_cons behind starts.1, readOthers, Option.map_some]

theorem readMembers?_last
    {first : Char}
    {key : String}
    {value : Json}
    (readKey : readText? symbols = some (some key, some ':' :: some first :: behind))
    (starts : StartsValue first)
    (readValue : readValue? fuel (some first :: behind) = some (value, some '\x7d' :: rest)) :
    readMembers? (fuel + 1) (some '"' :: symbols) = some (some [(key, value)], rest) := by
  rw [readMembers?, readKey]
  change ((readValue? fuel (skipSpace (some first :: behind))).bind _) = _
  rw [skipSpace_cons behind starts.1, readValue]
  rfl

theorem readMembers?_cons
    {first : Char}
    {key : String}
    {value : Json}
    {members : List (String × Json)}
    {others : List Text.Symbol}
    (readKey : readText? symbols = some (some key, some ':' :: some first :: behind))
    (starts : StartsValue first)
    (readValue : readValue? fuel (some first :: behind) =
      some (value, some ',' :: some '"' :: others))
    (readOthers : readMembers? fuel (some '"' :: others) = some (some members, rest)) :
    readMembers? (fuel + 1) (some '"' :: symbols) = some (some ((key, value) :: members), rest) := by
  rw [readMembers?, readKey]
  change ((readValue? fuel (skipSpace (some first :: behind))).bind _) = _
  rw [skipSpace_cons behind starts.1, readValue]
  change (readMembers? fuel (some '"' :: others)).map _ = _
  rw [readOthers]
  rfl

end Steps

theorem length_renderItems_pos (items : List Json) : 0 < (renderItems items).length := by
  cases items with
  | nil => exact Nat.one_pos
  | cons item items => exact Nat.succ_pos _

theorem length_renderMembers_pos (members : List (String × Json)) :
    0 < (renderMembers members).length := by
  cases members with
  | nil => exact Nat.one_pos
  | cons member members => exact Nat.succ_pos _

/-- No number goes on with further items or the end of a list. -/
theorem endsNumber_renderItems (items : List Json) (rest : List Text.Symbol) :
    EndsNumber ((renderItems items).map some ++ rest) := by
  cases items with
  | nil => exact ⟨rfl, by decide⟩
  | cons item items => exact ⟨rfl, by decide⟩

/-- No number goes on with further members or the end of an object. -/
theorem endsNumber_renderMembers (members : List (String × Json)) (rest : List Text.Symbol) :
    EndsNumber ((renderMembers members).map some ++ rest) := by
  cases members with
  | nil => exact ⟨rfl, by decide⟩
  | cons member members => exact ⟨rfl, by decide⟩

mutual

/-- A value is read from its text, in front of symbols that do not go on with a number. -/
theorem readValue?_render :
    ∀ (json : Json) (fuel : Nat) (rest : List Text.Symbol),
      json.Leaves (IsReadLeaf change) -> 2 * json.render.length ≤ fuel -> EndsNumber rest ->
        readValue? fuel (json.render.map some ++ rest) = some (json.mapDoubles change, rest)
  | .int value, fuel, rest, readable, enough, ends =>
      readValue?_of_readNumber? (readNumber?_integerText readable.1 readable.2) enough ends
  | .double value, fuel, rest, readable, enough, ends =>
      readValue?_of_readNumber? readable enough ends
  | .null, fuel + 1, rest, readable, enough, ends =>
      congrArg (Option.map _) (afterWord?_append "ull".toList rest)
  | .bool true, fuel + 1, rest, readable, enough, ends =>
      congrArg (Option.map _) (afterWord?_append "rue".toList rest)
  | .bool false, fuel + 1, rest, readable, enough, ends =>
      congrArg (Option.map _) (afterWord?_append "alse".toList rest)
  | .string value, fuel + 1, rest, readable, enough, ends => by
      obtain ⟨symbols, isText, read⟩ := readText?_writtenText value rest
      rw [render, isText, readValue?, if_pos rfl, read]
      rfl
  | .list [], fuel + 1, rest, readable, enough, ends => rfl
  | .list (item :: items), fuel + 1, rest, readable, enough, ends => by
      rw [render, List.length_cons] at enough
      have read := readItems?_render (item :: items) fuel rest readable _ rfl (by omega)
      obtain ⟨first, others, isText, starts⟩ := exists_first_of_render readable.1
      rw [render]
      rw [isText] at read ⊢
      exact readValue?_list starts read
  | .object [], fuel + 1, rest, readable, enough, ends => rfl
  | .object ((key, value) :: members), fuel + 1, rest, readable, enough, ends => by
      rw [render, List.length_cons] at enough
      have read := readMembers?_render ((key, value) :: members) fuel rest readable _ rfl
        (by omega)
      exact readValue?_object read
  | .unreadable, fuel + 1, rest, readable, enough, ends => readable.elim
  | json, 0, rest, readable, enough, ends => by
      obtain ⟨first, others, isText, -⟩ := exists_first_of_render readable
      rw [isText, List.length_cons] at enough
      omega

/-- Items are read from the text behind the first of their commas. -/
theorem readItems?_render :
    ∀ (items : List Json) (fuel : Nat) (rest : List Text.Symbol),
      LeavesOfItems (IsReadLeaf change) items -> ∀ text, renderItems items = ',' :: text ->
        2 * text.length ≤ fuel ->
          readItems? fuel (text.map some ++ rest) = some (mapDoublesOfItems change items, rest)
  | [], _, _, _, _, isText, _ => by cases isText
  | item :: items, fuel, rest, readable, text, isText, enough => by
      obtain rfl := (List.cons.inj isText).2
      have someMore := length_renderItems_pos items
      rw [List.length_append] at enough
      obtain ⟨fuel, rfl⟩ := Nat.exists_eq_succ_of_ne_zero (show fuel ≠ 0 by omega)
      have read := readValue?_render item fuel ((renderItems items).map some ++ rest)
        readable.1 (by omega) (endsNumber_renderItems items rest)
      have readOthers := readItems?_render items fuel rest readable.2
      rw [List.map_append, List.append_assoc]
      cases items with
      | nil => exact readItems?_last read
      | cons next items =>
          rw [renderItems, List.length_cons] at enough
          obtain ⟨first, others, isNext, starts⟩ := exists_first_of_render readable.2.1
          have readOthers := readOthers _ rfl (by omega)
          rw [renderItems] at read ⊢
          rw [isNext] at read readOthers ⊢
          exact readItems?_cons read starts readOthers

/-- Members are read from the text behind the first of their commas. -/
theorem readMembers?_render :
    ∀ (members : List (String × Json)) (fuel : Nat) (rest : List Text.Symbol),
      LeavesOfMembers (IsReadLeaf change) members -> ∀ text, renderMembers members = ',' :: text ->
        2 * text.length ≤ fuel ->
          readMembers? fuel (text.map some ++ rest) = some (some (mapDoublesOfMembers change members), rest)
  | [], _, _, _, _, isText, _ => by cases isText
  | (key, value) :: members, fuel, rest, readable, text, isText, enough => by
      obtain rfl := (List.cons.inj isText).2
      have someMore := length_renderMembers_pos members
      rw [List.length_append, List.length_cons, List.length_append] at enough
      obtain ⟨fuel, rfl⟩ := Nat.exists_eq_succ_of_ne_zero (show fuel ≠ 0 by omega)
      have read := readValue?_render value fuel ((renderMembers members).map some ++ rest)
        readable.1 (by omega) (endsNumber_renderMembers members rest)
      have readOthers := readMembers?_render members fuel rest readable.2
      obtain ⟨first, others, isValue, starts⟩ := exists_first_of_render readable.1
      rw [isValue, List.map_cons, List.cons_append] at read
      obtain ⟨symbols, isKey, readKey⟩ := readText?_writtenText key
        (some ':' :: some first :: (others.map some ++ ((renderMembers members).map some ++ rest)))
      have isText : (writtenText key ++ ':' :: (value.render ++ renderMembers members)).map some
          ++ rest = some '"' :: symbols := by
        rw [<- isKey, isValue]
        simp only [List.map_append, List.map_cons, List.append_assoc, List.cons_append]
      rw [isText]
      cases members with
      | nil => exact readMembers?_last readKey starts read
      | cons next members =>
          rw [renderMembers, List.length_cons] at enough
          exact readMembers?_cons readKey starts read (readOthers _ rfl (by omega))

end

/-- A value is read from its text in front of white space. -/
theorem ofSymbols?_render
    {json : Json}
    {behind : List Text.Symbol}
    (readable : json.Leaves (IsReadLeaf change))
    (ends : EndsNumber behind)
    (spaces : skipSpace behind = []) :
    ofSymbols? (json.render.map some ++ behind) = some (json.mapDoubles change) := by
  have read := readValue?_render json (2 * (json.render.map some ++ behind).length + 1)
    behind readable (by rw [List.length_append, List.length_map]; omega) ends
  obtain ⟨first, others, isText, starts⟩ := exists_first_of_render readable
  rw [ofSymbols?]
  rw [isText, List.map_cons, List.cons_append] at read ⊢
  rw [skipSpace_cons _ starts.1, read]
  exact if_pos spaces

/-- A value is the value of its text, with the changed numbers. -/
theorem parse?_toText {json : Json} (readable : json.Leaves (IsReadLeaf change)) :
    parse? json.toText = some (json.mapDoubles change) := by
  have read : ofSymbols? (json.render.map some ++ []) = some (json.mapDoubles change) :=
    ofSymbols?_render readable trivial rfl
  rw [List.append_nil] at read
  rw [parse?, toText, String.toList_ofList]
  exact read

/-- A restored value is the value of the line with its text. -/
theorem parse?_line {json : Json} (restored : json.IsRestored) :
    parse? (json.toText ++ "\n") = some json := by
  have isLine : (json.toText ++ "\n").toList.map some = json.render.map some ++ [some '\n'] := by
    rw [String.toList_append, toText, String.toList_ofList, List.map_append]
    rfl
  have read : ofSymbols? (json.render.map some ++ [some '\n']) = some (json.mapDoubles id) :=
    ofSymbols?_render restored ⟨rfl, by decide⟩ rfl
  rw [mapDoubles_id] at read
  rw [parse?, isLine]
  exact read

end Json
end LineMetrics
