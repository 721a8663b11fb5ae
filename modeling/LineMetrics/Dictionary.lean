/-!
# Dictionaries with text keys

A dictionary is the list of its entries in strictly ascending key order, so two
dictionaries with the same entries are equal, and listing one is deterministic.
Keys are compared by code points.
-/

namespace LineMetrics

/-- A finite map from text keys, listed in ascending key order. -/
structure Dictionary (α : Type) where
  entries : List (String × α)
  ascending : entries.Pairwise fun left right => left.1 < right.1

namespace Dictionary

variable {α : Type}

instance [DecidableEq α] : DecidableEq (Dictionary α) := fun left right =>
  if same : left.entries = right.entries then
    .isTrue (by cases left; cases right; cases same; rfl)
  else .isFalse fun equal => same (congrArg entries equal)

/-- Dictionaries with the same entries are equal. -/
@[ext] theorem ext {left right : Dictionary α} (same : left.entries = right.entries) :
    left = right := by
  cases left; cases right; cases same; rfl

/-- The dictionary without entries. -/
def empty : Dictionary α := ⟨[], .nil⟩

instance : EmptyCollection (Dictionary α) := ⟨empty⟩

instance : Inhabited (Dictionary α) := ⟨empty⟩

/-- Put an entry at its place in an ascending list, over one with the same key. -/
def insertEntry (key : String) (value : α) : List (String × α) -> List (String × α)
  | [] => [(key, value)]
  | entry :: rest =>
      if key < entry.1 then (key, value) :: entry :: rest
      else if key = entry.1 then (key, value) :: rest
      else entry :: insertEntry key value rest

theorem key_of_mem_insertEntry
    {key : String}
    {value : α}
    {entries : List (String × α)}
    {entry : String × α}
    (member : entry ∈ insertEntry key value entries) :
    entry = (key, value) ∨ entry ∈ entries := by
  induction entries with
  | nil => simpa [insertEntry] using member
  | cons first rest inductionHypothesis =>
      simp only [insertEntry] at member
      split at member
      · simpa using member
      · split at member
        · rcases List.mem_cons.mp member with same | later
          · exact .inl same
          · exact .inr (.tail _ later)
        · rcases List.mem_cons.mp member with same | later
          · exact .inr (same ▸ List.mem_cons_self)
          · exact (inductionHypothesis later).imp id (.tail _)

theorem ascending_insertEntry
    (key : String)
    (value : α)
    {entries : List (String × α)}
    (ascending : entries.Pairwise fun left right => left.1 < right.1) :
    (insertEntry key value entries).Pairwise fun left right => left.1 < right.1 := by
  induction entries with
  | nil => simp [insertEntry]
  | cons first rest inductionHypothesis =>
      have ⟨firstBelow, restAscending⟩ := List.pairwise_cons.mp ascending
      simp only [insertEntry]
      split
      · rename_i below
        refine List.pairwise_cons.mpr ⟨fun entry member => ?_, ascending⟩
        rcases List.mem_cons.mp member with same | later
        · exact same ▸ below
        · exact String.lt_trans below (firstBelow entry later)
      · rename_i notBelow
        split
        · rename_i same
          exact List.pairwise_cons.mpr
            ⟨fun entry later => same ▸ firstBelow entry later, restAscending⟩
        · rename_i different
          refine List.pairwise_cons.mpr
            ⟨fun entry member => ?_, inductionHypothesis restAscending⟩
          rcases key_of_mem_insertEntry member with same | later
          · rw [same]
            exact Std.lt_of_le_of_ne (String.not_lt.mp notBelow) (Ne.symm different)
          · exact firstBelow entry later

/-- Add an entry, replacing the value of a key that is already there. -/
def insert (dictionary : Dictionary α) (key : String) (value : α) : Dictionary α :=
  ⟨insertEntry key value dictionary.entries, ascending_insertEntry key value dictionary.ascending⟩

/-- The dictionary of a list of entries; of entries with one key the last stays. -/
def ofList (entries : List (String × α)) : Dictionary α :=
  entries.foldl (fun dictionary entry => dictionary.insert entry.1 entry.2) empty

/-- The value of a key. -/
def find? (dictionary : Dictionary α) (key : String) : Option α :=
  dictionary.entries.lookup key

/-- The key has a value. -/
def contains (dictionary : Dictionary α) (key : String) : Bool :=
  (dictionary.find? key).isSome

/-- Keep the entries that satisfy a condition. -/
def filter (condition : String -> α -> Bool) (dictionary : Dictionary α) : Dictionary α :=
  ⟨dictionary.entries.filter fun entry => condition entry.1 entry.2,
    dictionary.ascending.filter _⟩

/-- Remove a key. -/
def erase (dictionary : Dictionary α) (key : String) : Dictionary α :=
  dictionary.filter fun other _ => other ≠ key

/-- The keys in ascending order. -/
def keys (dictionary : Dictionary α) : List String := dictionary.entries.map Prod.fst

/-- The number of entries. -/
def size (dictionary : Dictionary α) : Nat := dictionary.entries.length

@[simp] theorem entries_empty : (∅ : Dictionary α).entries = [] := rfl

@[simp] theorem find?_empty (key : String) : (∅ : Dictionary α).find? key = none := rfl

@[simp] theorem entries_insert (dictionary : Dictionary α) (key : String) (value : α) :
    (dictionary.insert key value).entries = insertEntry key value dictionary.entries := rfl

@[simp] theorem entries_filter
    (condition : String -> α -> Bool)
    (dictionary : Dictionary α) :
    (dictionary.filter condition).entries =
      dictionary.entries.filter fun entry => condition entry.1 entry.2 := rfl

/-- Looking up in a list tests its first entry, then the rest. -/
theorem lookup_cons_entry (key : String) (entry : String × α) (rest : List (String × α)) :
    (entry :: rest).lookup key = if key = entry.1 then some entry.2 else rest.lookup key := by
  obtain ⟨first, value⟩ := entry
  rw [List.lookup_cons]
  by_cases same : key = first
  · simp [same]
  · simp [same, beq_eq_false_iff_ne.mpr same]

/-- Behind an entry of an ascending list, nothing is found under its key. -/
theorem lookup_eq_none_of_ascending
    {entry : String × α}
    {rest : List (String × α)}
    (ascending : (entry :: rest).Pairwise fun left right => left.1 < right.1) :
    rest.lookup entry.1 = none := by
  rw [List.lookup_eq_none_iff]
  intro other member
  exact bne_iff_ne.mpr (Std.ne_of_lt ((List.pairwise_cons.mp ascending).1 other member))

/-- An entry put into a list is the one found under its key. -/
theorem lookup_insertEntry
    (key other : String)
    (value : α)
    (entries : List (String × α)) :
    (insertEntry key value entries).lookup other =
      if other = key then some value else entries.lookup other := by
  induction entries with
  | nil => rw [insertEntry, lookup_cons_entry]
  | cons first rest inductionHypothesis =>
      simp only [insertEntry]
      split
      · rw [lookup_cons_entry]
      · split
        · rename_i equal
          rw [lookup_cons_entry, lookup_cons_entry]
          by_cases same : other = key
          · rw [if_pos same, if_pos same]
          · rw [if_neg same, if_neg same, if_neg (equal ▸ same)]
        · rename_i different
          rw [lookup_cons_entry, lookup_cons_entry, inductionHypothesis]
          by_cases same : other = first.1
          · rw [if_pos same, if_pos same,
              if_neg fun equal => different (equal.symm.trans same)]
          · rw [if_neg same, if_neg same]

/-- Entries that are kept by their keys are found as before. -/
theorem lookup_filter_key
    (keep : String -> Bool)
    (other : String)
    (entries : List (String × α)) :
    (entries.filter fun entry => keep entry.1).lookup other =
      if keep other then entries.lookup other else none := by
  induction entries with
  | nil => rw [List.filter_nil, List.lookup_nil, ite_self]
  | cons first rest inductionHypothesis =>
      rw [lookup_cons_entry]
      by_cases same : other = first.1
      · subst same
        rw [List.filter_cons, apply_ite (List.lookup first.1), lookup_cons_entry,
          inductionHypothesis, if_pos rfl]
        split
        · exact (if_pos rfl).symm
        · rfl
      · rw [if_neg same, List.filter_cons, apply_ite (List.lookup other), lookup_cons_entry,
          if_neg same, ite_self, inductionHypothesis]

/-- An entry is found under its key, and no other one is. -/
theorem find?_eq_some_iff {dictionary : Dictionary α} {key : String} {value : α} :
    dictionary.find? key = some value ↔ (key, value) ∈ dictionary.entries := by
  obtain ⟨entries, ascending⟩ := dictionary
  unfold find?
  dsimp only
  induction entries with
  | nil => simp
  | cons first rest inductionHypothesis =>
      have ⟨firstBelow, restAscending⟩ := List.pairwise_cons.mp ascending
      rw [lookup_cons_entry, List.mem_cons, <- inductionHypothesis restAscending]
      by_cases same : key = first.1
      · subst same
        have absent : (first.1, value) ∉ rest := fun member =>
          String.lt_irrefl first.1 (firstBelow (first.1, value) member)
        rw [inductionHypothesis restAscending, if_pos rfl, Option.some.injEq]
        simp [absent, Prod.ext_iff, eq_comm]
      · simp [same, Prod.ext_iff]

/-- Dictionaries in which the same is found under every key are equal. -/
theorem ext_find?
    {left right : Dictionary α}
    (same : ∀ key, left.find? key = right.find? key) :
    left = right := by
  have nodup (dictionary : Dictionary α) : dictionary.entries.Nodup := by
    refine dictionary.ascending.imp ?_
    rintro entry _ below rfl
    exact String.lt_irrefl entry.1 below
  apply ext
  refine List.Perm.eq_of_pairwise ?_ left.ascending right.ascending ?_
  · intro first second _ _ below above
    exact absurd below (String.lt_asymm above)
  · rw [List.perm_ext_iff_of_nodup (nodup left) (nodup right)]
    intro entry
    rw [<- find?_eq_some_iff, <- find?_eq_some_iff, same]

@[simp] theorem find?_insert (dictionary : Dictionary α) (key other : String) (value : α) :
    (dictionary.insert key value).find? other =
      if other = key then some value else dictionary.find? other :=
  lookup_insertEntry key other value dictionary.entries

@[simp] theorem find?_erase (dictionary : Dictionary α) (key other : String) :
    (dictionary.erase key).find? other =
      if other = key then none else dictionary.find? other := by
  refine (lookup_filter_key (fun other => other ≠ key) other dictionary.entries).trans ?_
  by_cases same : other = key
  · simp [same]
  · simp [same, find?]

end Dictionary
end LineMetrics
