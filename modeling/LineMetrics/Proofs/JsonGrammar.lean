import LineMetrics.Json.Grammar
import LineMetrics.Proofs.NearestNumbers
import LineMetrics.Proofs.ReadSymbols
import LineMetrics.Proofs.RereadNumbers
import Mathlib.Data.List.Basic

/-!
# Texts in the grammar of JSON

No two values have a text at one place, so a text stands for at most one value. What a value
is written as stands for that value, except that numbers which are not finite are written as
null. The induction is on the value, in front of any symbols that do not go on with a number.
-/

namespace LineMetrics
namespace Json

variable {symbols rest behind : List Text.Symbol}

/-! ## First characters -/

/-- What a text turns out to be by its first character. -/
inductive Kind
  | nothing
  | null
  | bool
  | number
  | text
  | list
  | object

/-- The kind of a text that starts with the character. -/
def Kind.ofFirst (first : Char) : Kind :=
  if first = '-' ∨ first.isDigit then .number
  else if first = 'n' then .null
  else if first = 't' ∨ first = 'f' then .bool
  else if first = '"' then .text
  else if first = '[' then .list
  else if first = '\x7b' then .object
  else .nothing

/-- The kind of the texts of a value. -/
def kind : Json -> Kind
  | .null => .null
  | .bool _ => .bool
  | .int _ => .number
  | .double _ => .number
  | .string _ => .text
  | .list _ => .list
  | .object _ => .object
  | .unreadable => .nothing

/-- The symbols start with a text of the kind. -/
def StartsKind (kind : Kind) (symbols : List Text.Symbol) : Prop :=
  ∃ first others, symbols = some first :: others ∧ Kind.ofFirst first = kind

/-- The symbols of a number start like one. -/
theorem startsKind_number
    {json : Json}
    (read : readNumber? symbols = some (json, rest)) :
    StartsKind .number symbols := by
  obtain ⟨first, others, isFirst, numeric⟩ := exists_first_of_readNumber? read
  exact ⟨first, others, isFirst, if_pos numeric⟩

/-- The text of a value starts like texts of its kind. -/
theorem StandsAt.startsKind :
    ∀ {json : Json}, json.StandsAt symbols rest -> StartsKind json.kind symbols
  | .null, stands => ⟨'n', _, eq_of_afterWord? stands, rfl⟩
  | .bool true, stands => ⟨'t', _, eq_of_afterWord? stands, rfl⟩
  | .bool false, stands => ⟨'f', _, eq_of_afterWord? stands, rfl⟩
  | .int _, stands => startsKind_number stands
  | .double _, ⟨_, _, _, _, read, _⟩ => startsKind_number read
  | .string _, ⟨behind, isFirst, _⟩ => ⟨'"', behind, isFirst, rfl⟩
  | .list [], ⟨behind, isFirst, _⟩ => ⟨'[', behind, isFirst, rfl⟩
  | .list (_ :: _), ⟨behind, _, isFirst, _⟩ => ⟨'[', behind, isFirst, rfl⟩
  | .object [], ⟨behind, isFirst, _⟩ => ⟨'\x7b', behind, isFirst, rfl⟩
  | .object (_ :: _), ⟨behind, _, _, isFirst, _⟩ => ⟨'\x7b', behind, isFirst, rfl⟩
  | .unreadable, stands => stands.elim

/-- Values with texts at the same place are of one kind. -/
theorem StandsAt.kind_eq
    {json other : Json}
    (stands : json.StandsAt symbols rest)
    (standsToo : other.StandsAt symbols behind) :
    json.kind = other.kind := by
  obtain ⟨first, others, rfl, isKind⟩ := stands.startsKind
  obtain ⟨_, _, same, isKindToo⟩ := standsToo.startsKind
  cases same
  exact isKind.symm.trans isKindToo

/-- No text of a value starts with the end of a list. -/
theorem not_standsAt_end {json : Json} : ¬json.StandsAt (some ']' :: symbols) rest := by
  intro stands
  obtain ⟨first, others, isFirst, isKind⟩ := stands.startsKind
  cases isFirst
  cases json with
  | unreadable => exact stands
  | _ => cases isKind

/-! ## One value for each text -/

theorem DoubleStandsAt.unique
    {value other : Binary64}
    (stands : DoubleStandsAt value symbols rest)
    (standsToo : DoubleStandsAt other symbols behind) :
    value = other ∧ rest = behind := by
  obtain ⟨-, text, read, isText, isNumber, -, isNearest⟩ := stands
  obtain ⟨-, textToo, readToo, isTextToo, isNumberToo, -, isNearestToo⟩ := standsToo
  obtain ⟨-, rfl⟩ := Prod.mk.inj (Option.some.inj (isNumber.symm.trans isNumberToo))
  have sameSymbols := List.append_cancel_right (isText.symm.trans isTextToo)
  have sameText := List.map_injective_iff.mpr (Option.some_injective Char) sameSymbols
  rw [sameText] at isNearest
  exact ⟨Option.some.inj (isNearest.symm.trans isNearestToo), rfl⟩

theorem KeyStandsAt.unique
    {key other : String}
    (stands : KeyStandsAt key symbols rest)
    (standsToo : KeyStandsAt other symbols behind) :
    key = other ∧ rest = behind := by
  obtain ⟨_, next, rfl, read, colon⟩ := stands
  obtain ⟨_, nextToo, same, readToo, colonToo⟩ := standsToo
  cases same
  obtain ⟨sameKey, rfl⟩ := Prod.mk.inj (Option.some.inj (read.symm.trans readToo))
  obtain ⟨-, sameRest⟩ := List.cons.inj (colon.symm.trans colonToo)
  exact ⟨Option.some.inj sameKey, sameRest⟩

/-- A number that is not whole and a whole one do not stand at the same place. -/
theorem DoubleStandsAt.not_whole
    {value : Binary64}
    {whole : Int}
    (stands : DoubleStandsAt value symbols rest) :
    readNumber? symbols ≠ some (.int whole, behind) := by
  obtain ⟨-, text, read, -, isNumber, notWhole, -⟩ := stands
  intro isWhole
  exact notWhole whole (Prod.mk.inj (Option.some.inj (isNumber.symm.trans isWhole))).1

/-- Behind the start of a list there is its end or an item, but not both. -/
theorem not_standsAt_items
    {item : Json}
    {items : List Json}
    (stands : (Json.list []).StandsAt symbols rest) :
    ¬(Json.list (item :: items)).StandsAt symbols behind := by
  obtain ⟨_, rfl, ended⟩ := stands
  rintro ⟨_, _, sameSymbols, first, -⟩
  cases sameSymbols
  rw [ended] at first
  exact not_standsAt_end first

/-- Behind the start of an object there is its end or a key, but not both. -/
theorem not_standsAt_members
    {member : String × Json}
    {members : List (String × Json)}
    (stands : (Json.object []).StandsAt symbols rest) :
    ¬(Json.object (member :: members)).StandsAt symbols behind := by
  obtain ⟨_, rfl, ended⟩ := stands
  rintro ⟨_, _, _, sameSymbols, ⟨_, _, quoted, -⟩, -⟩
  cases sameSymbols
  cases ended.symm.trans quoted

mutual

/-- At one place there is a text of one value only, and it ends at one place only. -/
theorem StandsAt.unique :
    ∀ (json other : Json) {symbols rest behind : List Text.Symbol},
      json.StandsAt symbols rest -> other.StandsAt symbols behind ->
        json = other ∧ rest = behind
  | .null, other, _, _, _, stands, standsToo => by
      have same := stands.kind_eq standsToo
      cases other with
      | null => exact ⟨rfl, Option.some.inj (stands.symm.trans standsToo)⟩
      | _ => cases same
  | .bool value, other, _, _, _, stands, standsToo => by
      have same := stands.kind_eq standsToo
      cases other with
      | bool other =>
          have words := (eq_of_afterWord? stands).symm.trans (eq_of_afterWord? standsToo)
          cases value <;> cases other <;> cases words <;> exact ⟨rfl, rfl⟩
      | _ => cases same
  | .int value, other, _, _, _, stands, standsToo => by
      have same := stands.kind_eq standsToo
      cases other with
      | int other => exact Prod.mk.inj (Option.some.inj (stands.symm.trans standsToo))
      | double other => exact absurd stands standsToo.not_whole
      | _ => cases same
  | .double value, other, _, _, _, stands, standsToo => by
      have same := stands.kind_eq standsToo
      cases other with
      | int other => exact absurd standsToo stands.not_whole
      | double other =>
          obtain ⟨sameValue, sameRest⟩ := DoubleStandsAt.unique stands standsToo
          exact ⟨congrArg Json.double sameValue, sameRest⟩
      | _ => cases same
  | .string value, other, _, _, _, stands, standsToo => by
      have same := stands.kind_eq standsToo
      cases other with
      | string other =>
          obtain ⟨_, rfl, read⟩ := stands
          obtain ⟨_, sameSymbols, readToo⟩ := standsToo
          cases sameSymbols
          cases read.symm.trans readToo
          exact ⟨rfl, rfl⟩
      | _ => cases same
  | .list [], other, _, _, _, stands, standsToo => by
      have same := stands.kind_eq standsToo
      cases other with
      | list others =>
          cases others with
          | nil =>
              obtain ⟨_, rfl, ended⟩ := stands
              obtain ⟨_, sameSymbols, endedToo⟩ := standsToo
              cases sameSymbols
              cases ended.symm.trans endedToo
              exact ⟨rfl, rfl⟩
          | cons other others => exact absurd standsToo (not_standsAt_items stands)
      | _ => cases same
  | .list (item :: items), other, _, _, _, stands, standsToo => by
      have same := stands.kind_eq standsToo
      cases other with
      | list others =>
          cases others with
          | nil => exact absurd stands (not_standsAt_items standsToo)
          | cons other others =>
              obtain ⟨_, next, rfl, first, follow⟩ := stands
              obtain ⟨_, _, sameSymbols, firstToo, followToo⟩ := standsToo
              cases sameSymbols
              obtain ⟨rfl, rfl⟩ := StandsAt.unique item other first firstToo
              obtain ⟨rfl, rfl⟩ := ItemsFollow.unique items others follow followToo
              exact ⟨rfl, rfl⟩
      | _ => cases same
  | .object [], other, _, _, _, stands, standsToo => by
      have same := stands.kind_eq standsToo
      cases other with
      | object others =>
          cases others with
          | nil =>
              obtain ⟨_, rfl, ended⟩ := stands
              obtain ⟨_, sameSymbols, endedToo⟩ := standsToo
              cases sameSymbols
              cases ended.symm.trans endedToo
              exact ⟨rfl, rfl⟩
          | cons other others => exact absurd standsToo (not_standsAt_members stands)
      | _ => cases same
  | .object ((key, value) :: members), other, _, _, _, stands, standsToo => by
      have same := stands.kind_eq standsToo
      cases other with
      | object others =>
          cases others with
          | nil => exact absurd stands (not_standsAt_members standsToo)
          | cons other others =>
              obtain ⟨_, _, _, rfl, isKey, isValue, follow⟩ := stands
              obtain ⟨_, _, _, sameSymbols, isKeyToo, isValueToo, followToo⟩ := standsToo
              cases sameSymbols
              obtain ⟨rfl, rfl⟩ := isKey.unique isKeyToo
              obtain ⟨rfl, rfl⟩ := StandsAt.unique value other.2 isValue isValueToo
              obtain ⟨rfl, rfl⟩ := MembersFollow.unique members others follow followToo
              exact ⟨rfl, rfl⟩
      | _ => cases same
  | .unreadable, _, _, _, _, stands, _ => stands.elim

theorem ItemsFollow.unique :
    ∀ (items others : List Json) {symbols rest behind : List Text.Symbol},
      ItemsFollow items symbols rest -> ItemsFollow others symbols behind ->
        items = others ∧ rest = behind
  | [], [], _, _, _, ended, endedToo => by
      cases ended.symm.trans endedToo
      exact ⟨rfl, rfl⟩
  | [], _ :: _, _, _, _, ended, ⟨_, _, separated, _⟩ => by cases ended.symm.trans separated
  | _ :: _, [], _, _, _, ⟨_, _, separated, _⟩, ended => by cases ended.symm.trans separated
  | item :: items, other :: others, _, _, _, follow, followToo => by
      obtain ⟨_, next, rfl, first, follow⟩ := follow
      obtain ⟨_, _, sameSymbols, firstToo, followToo⟩ := followToo
      cases sameSymbols
      obtain ⟨rfl, rfl⟩ := StandsAt.unique item other first firstToo
      obtain ⟨rfl, rfl⟩ := ItemsFollow.unique items others follow followToo
      exact ⟨rfl, rfl⟩

theorem MembersFollow.unique :
    ∀ (members others : List (String × Json)) {symbols rest behind : List Text.Symbol},
      MembersFollow members symbols rest -> MembersFollow others symbols behind ->
        members = others ∧ rest = behind
  | [], [], _, _, _, ended, endedToo => by
      cases ended.symm.trans endedToo
      exact ⟨rfl, rfl⟩
  | [], _ :: _, _, _, _, ended, ⟨_, _, _, separated, _⟩ => by cases ended.symm.trans separated
  | _ :: _, [], _, _, _, ⟨_, _, _, separated, _⟩, ended => by cases ended.symm.trans separated
  | (key, value) :: members, other :: others, _, _, _, follow, followToo => by
      obtain ⟨_, _, _, rfl, isKey, isValue, follow⟩ := follow
      obtain ⟨_, _, _, sameSymbols, isKeyToo, isValueToo, followToo⟩ := followToo
      cases sameSymbols
      obtain ⟨rfl, rfl⟩ := isKey.unique isKeyToo
      obtain ⟨rfl, rfl⟩ := StandsAt.unique value other.2 isValue isValueToo
      obtain ⟨rfl, rfl⟩ := MembersFollow.unique members others follow followToo
      exact ⟨rfl, rfl⟩

end

/-! ## Written values -/

mutual

/-- The value that the text of a value stands for: what has no text of its own is null. -/
def written : Json -> Json
  | .double value => if value.isFinite then .double value else .null
  | .list items => .list (writtenItems items)
  | .object members => .object (writtenMembers members)
  | .unreadable => .null
  | leaf => leaf

/-- The values that the texts of items stand for. -/
def writtenItems : List Json -> List Json
  | [] => []
  | item :: items => item.written :: writtenItems items

/-- The members with the values that their texts stand for. -/
def writtenMembers : List (String × Json) -> List (String × Json)
  | [] => []
  | (key, value) :: members => (key, value.written) :: writtenMembers members

end

/-- A whole number is one that 64 bits hold, signed or not. -/
def IsWordLeaf : Json -> Prop
  | .int value => -0x8000000000000000 ≤ value ∧ value ≤ 0xffffffffffffffff
  | _ => True

/-- There is no white space in front of a text of a value. -/
theorem StandsAt.skipSpace_eq {json : Json} (stands : json.StandsAt symbols rest) :
    skipSpace symbols = symbols := by
  obtain ⟨first, others, rfl, isKind⟩ := stands.startsKind
  refine skipSpace_cons others (Bool.eq_false_iff.mpr fun space => ?_)
  have noKind : Kind.ofFirst first = .nothing := by
    rw [isSpace] at space
    simp only [Bool.or_eq_true, decide_eq_true_iff] at space
    rcases space with ((rfl | rfl) | rfl) | rfl <;> rfl
  rw [noKind] at isKind
  cases json with
  | unreadable => exact stands
  | _ => cases isKind

/-- A finite number stands where it is written. -/
theorem standsAt_doubleText
    {value : Binary64}
    (finite : value.isFinite = true)
    (ends : EndsNumber rest) :
    DoubleStandsAt value ((doubleText value).map some ++ rest) rest := by
  have read := readNumber?_append ends (Binary64.readNumber?_doubleText finite)
  rw [List.nil_append] at read
  exact ⟨finite, _, _, rfl, read, fun _ same => (nomatch same),
    Binary64.read?_doubleText finite⟩

/-- A key stands where it is written in front of a colon. -/
theorem keyStandsAt_writtenText (key : String) (rest : List Text.Symbol) :
    KeyStandsAt key (skipSpace ((writtenText key).map some ++ some ':' :: rest)) rest := by
  obtain ⟨symbols, isText, read⟩ := readText?_writtenText key (some ':' :: rest)
  rw [isText, skipSpace_cons symbols rfl]
  exact ⟨symbols, _, rfl, read, skipSpace_cons rest rfl⟩

/-- There is no white space in front of further items. -/
theorem skipSpace_renderItems (items : List Json) (rest : List Text.Symbol) :
    skipSpace ((renderItems items).map some ++ rest) = (renderItems items).map some ++ rest := by
  cases items with
  | nil => exact skipSpace_cons _ rfl
  | cons item items => exact skipSpace_cons _ rfl

/-- There is no white space in front of further members. -/
theorem skipSpace_renderMembers (members : List (String × Json)) (rest : List Text.Symbol) :
    skipSpace ((renderMembers members).map some ++ rest) =
      (renderMembers members).map some ++ rest := by
  cases members with
  | nil => exact skipSpace_cons _ rfl
  | cons member members => exact skipSpace_cons _ rfl

mutual

/-- What a value is written as stands where it is written, in front of symbols that do not go
on with a number. -/
theorem standsAt_render :
    ∀ (json : Json) (rest : List Text.Symbol), json.Leaves IsWordLeaf -> EndsNumber rest ->
      json.written.StandsAt (json.render.map some ++ rest) rest
  | .null, rest, _, _ => afterWord?_append "null".toList rest
  | .bool true, rest, _, _ => afterWord?_append "true".toList rest
  | .bool false, rest, _, _ => afterWord?_append "false".toList rest
  | .int _, _, word, ends =>
      readNumber?_append ends (readNumber?_integerText word.1 word.2)
  | .double value, rest, _, ends => by
      rw [written, render]
      cases finite : value.isFinite with
      | true => exact standsAt_doubleText finite ends
      | false =>
          rw [doubleText, finite]
          exact afterWord?_append "null".toList rest
  | .string value, rest, _, _ => by
      obtain ⟨symbols, isText, read⟩ := readText?_writtenText value rest
      exact ⟨symbols, isText, read⟩
  | .list [], rest, _, _ => ⟨_, rfl, skipSpace_cons rest rfl⟩
  | .list (item :: items), rest, words, _ => by
      have first := standsAt_render item ((renderItems items).map some ++ rest) words.1
        (endsNumber_renderItems items rest)
      have follow := itemsFollow_render items rest words.2
      refine ⟨_, _, ?_, first.skipSpace_eq ▸ first, by rwa [skipSpace_renderItems]⟩
      rw [render, List.map_cons, List.map_append, List.cons_append, List.append_assoc]
  | .object [], rest, _, _ => ⟨_, rfl, skipSpace_cons rest rfl⟩
  | .object ((key, value) :: members), rest, words, _ => by
      have isValue := standsAt_render value ((renderMembers members).map some ++ rest) words.1
        (endsNumber_renderMembers members rest)
      have follow := membersFollow_render members rest words.2
      refine ⟨_, _, _, ?_, keyStandsAt_writtenText key _, isValue.skipSpace_eq ▸ isValue,
        by rwa [skipSpace_renderMembers]⟩
      simp only [render, List.map_cons, List.map_append, List.cons_append, List.append_assoc]
  | .unreadable, rest, _, _ => afterWord?_append "null".toList rest

/-- Further items follow where they are written. -/
theorem itemsFollow_render :
    ∀ (items : List Json) (rest : List Text.Symbol), LeavesOfItems IsWordLeaf items ->
      ItemsFollow (writtenItems items) ((renderItems items).map some ++ rest) rest
  | [], _, _ => rfl
  | item :: items, rest, words => by
      have first := standsAt_render item ((renderItems items).map some ++ rest) words.1
        (endsNumber_renderItems items rest)
      have follow := itemsFollow_render items rest words.2
      refine ⟨_, _, ?_, first.skipSpace_eq ▸ first, by rwa [skipSpace_renderItems]⟩
      rw [renderItems, List.map_cons, List.map_append, List.cons_append, List.append_assoc]

/-- Further members follow where they are written. -/
theorem membersFollow_render :
    ∀ (members : List (String × Json)) (rest : List Text.Symbol),
      LeavesOfMembers IsWordLeaf members ->
        MembersFollow (writtenMembers members) ((renderMembers members).map some ++ rest) rest
  | [], _, _ => rfl
  | (key, value) :: members, rest, words => by
      have isValue := standsAt_render value ((renderMembers members).map some ++ rest) words.1
        (endsNumber_renderMembers members rest)
      have follow := membersFollow_render members rest words.2
      refine ⟨_, _, _, ?_, keyStandsAt_writtenText key _, isValue.skipSpace_eq ▸ isValue,
        by rwa [skipSpace_renderMembers]⟩
      simp only [renderMembers, List.map_cons, List.map_append, List.cons_append,
        List.append_assoc]

end

/-- The text of a value is one of exactly what the value is written as. -/
theorem isValueOf_toText_iff {json other : Json} (words : json.Leaves IsWordLeaf) :
    other.IsValueOf json.toText ↔ other = json.written := by
  have stands := standsAt_render json [] words trivial
  rw [List.append_nil] at stands
  rw [IsValueOf, toText, String.toList_ofList, stands.skipSpace_eq]
  constructor
  · rintro ⟨rest, standsToo, -⟩
    exact (StandsAt.unique _ _ standsToo stands).1
  · rintro rfl
    exact ⟨[], stands, rfl⟩

end Json
end LineMetrics
