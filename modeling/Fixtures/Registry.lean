/-!
# Registries

A registry keeps values under names, in the order in which the names first came in. Sessions hold
their objects in one, and so do directories their entries. The view of a registry is `find?`, and
one lemma for each operation says what the operation does to it.
-/

namespace Fixtures

/-- Values under names. -/
structure Registry (α : Type) where
  /-- The names with their values; only the first pair of a name counts. -/
  entries : List (String × α) := []

namespace Registry

variable {α : Type}

/-- The registry that holds nothing. -/
def empty : Registry α := {}

/-- The value under a name. -/
def find? (registry : Registry α) (name : String) : Option α :=
  registry.entries.lookup name

/-- The names, in the order in which they first came in. -/
def names (registry : Registry α) : List String :=
  registry.entries.map Prod.fst

/-- Pairs in which a name has a new value, in its old place or else at the end. -/
def place (name : String) (value : α) : List (String × α) → List (String × α)
  | [] => [(name, value)]
  | (other, old) :: rest =>
    if other = name then (name, value) :: rest else (other, old) :: place name value rest

/-- Puts a value under a name, in place of the one that was there. -/
def insert (registry : Registry α) (name : String) (value : α) : Registry α :=
  ⟨place name value registry.entries⟩

/-- Forgets a name. -/
def erase (registry : Registry α) (name : String) : Registry α :=
  ⟨registry.entries.filter fun entry => entry.1 != name⟩

theorem lookup_place_self (name : String) (value : α) (entries : List (String × α)) :
    (place name value entries).lookup name = some value := by
  induction entries with
  | nil => simp [place]
  | cons entry rest ih =>
    obtain ⟨other, old⟩ := entry
    by_cases h : other = name
    · simp [place, h]
    · have h' : (name == other) = false := by simpa using fun e => h e.symm
      simp [place, h, List.lookup_cons, h', ih]

theorem lookup_place_of_ne {name wanted : String} (h : wanted ≠ name) (value : α)
    (entries : List (String × α)) :
    (place name value entries).lookup wanted = entries.lookup wanted := by
  have hw : (wanted == name) = false := by simpa using h
  induction entries with
  | nil => simp [place, List.lookup_cons, hw]
  | cons entry rest ih =>
    obtain ⟨other, old⟩ := entry
    by_cases ho : other = name
    · subst ho
      simp [place, List.lookup_cons, hw]
    · simp [place, ho, List.lookup_cons, ih]

theorem place_of_lookup {name : String} {value : α} {entries : List (String × α)}
    (h : entries.lookup name = some value) : place name value entries = entries := by
  induction entries with
  | nil => simp at h
  | cons entry rest ih =>
    obtain ⟨other, old⟩ := entry
    by_cases ho : other = name
    · have hold : old = value := by simpa [ho] using h
      simp [place, ho, hold]
    · have hw : (name == other) = false := by simpa using fun e => ho e.symm
      have hrest : rest.lookup name = some value := by simpa [List.lookup_cons, hw] using h
      simp [place, ho, ih hrest]

/-- Putting in the value that a name has already changes nothing. -/
theorem insert_of_find? {registry : Registry α} {name : String} {value : α}
    (h : registry.find? name = some value) : registry.insert name value = registry := by
  have hplace : place name value registry.entries = registry.entries := place_of_lookup h
  simp [insert, hplace]

theorem map_fst_place {name : String} (value : α) {entries : List (String × α)}
    (h : (entries.lookup name).isSome) :
    (place name value entries).map Prod.fst = entries.map Prod.fst := by
  induction entries with
  | nil => simp at h
  | cons entry rest ih =>
    obtain ⟨other, old⟩ := entry
    by_cases ho : other = name
    · simp [place, ho]
    · have hw : (name == other) = false := by simpa using fun e => ho e.symm
      have hrest : (rest.lookup name).isSome := by simpa [List.lookup_cons, hw] using h
      simp [place, ho, ih hrest]

/-- Putting in a value under a name that has one already changes no names. -/
theorem names_insert_of_isSome {registry : Registry α} {name : String} (value : α)
    (h : (registry.find? name).isSome) : (registry.insert name value).names = registry.names :=
  map_fst_place value h

/-- A value that was put in is found under its name. -/
@[simp] theorem find?_insert_self (registry : Registry α) (name : String) (value : α) :
    (registry.insert name value).find? name = some value :=
  lookup_place_self name value registry.entries

/-- Putting in a value changes nothing under other names. -/
theorem find?_insert_of_ne (registry : Registry α) {name wanted : String} (h : wanted ≠ name)
    (value : α) : (registry.insert name value).find? wanted = registry.find? wanted :=
  lookup_place_of_ne h value registry.entries

theorem lookup_filter_self (name : String) (entries : List (String × α)) :
    (entries.filter fun entry => entry.1 != name).lookup name = none := by
  induction entries with
  | nil => rfl
  | cons entry rest ih =>
    obtain ⟨other, old⟩ := entry
    by_cases ho : other = name
    · simpa [ho] using ih
    · have hw : (name == other) = false := by simpa using fun e => ho e.symm
      rw [List.filter_cons_of_pos (by simpa using ho), List.lookup_cons, hw]
      exact ih

theorem lookup_filter_of_ne {name wanted : String} (h : wanted ≠ name)
    (entries : List (String × α)) :
    (entries.filter fun entry => entry.1 != name).lookup wanted = entries.lookup wanted := by
  induction entries with
  | nil => rfl
  | cons entry rest ih =>
    obtain ⟨other, old⟩ := entry
    by_cases ho : other = name
    · have hw : (wanted == other) = false := by simpa [ho] using h
      rw [List.filter_cons_of_neg (by simpa using ho), List.lookup_cons, hw]
      exact ih
    · rw [List.filter_cons_of_pos (by simpa using ho), List.lookup_cons, List.lookup_cons, ih]

/-- A forgotten name holds nothing. -/
@[simp] theorem find?_erase_self (registry : Registry α) (name : String) :
    (registry.erase name).find? name = none :=
  lookup_filter_self name registry.entries

/-- Forgetting a name changes nothing under other names. -/
theorem find?_erase_of_ne (registry : Registry α) {name wanted : String} (h : wanted ≠ name) :
    (registry.erase name).find? wanted = registry.find? wanted :=
  lookup_filter_of_ne h registry.entries

theorem map_fst_place_of_none {name : String} (value : α) {entries : List (String × α)}
    (h : entries.lookup name = none) :
    (place name value entries).map Prod.fst = entries.map Prod.fst ++ [name] := by
  induction entries with
  | nil => rfl
  | cons entry rest ih =>
    obtain ⟨other, old⟩ := entry
    by_cases ho : other = name
    · simp [ho] at h
    · have hw : (name == other) = false := by simpa using fun e => ho e.symm
      have hrest : rest.lookup name = none := by simpa [List.lookup_cons, hw] using h
      simp [place, ho, ih hrest]

theorem mem_of_lookup {name : String} {value : α} {entries : List (String × α)}
    (h : entries.lookup name = some value) : (name, value) ∈ entries := by
  induction entries with
  | nil => simp at h
  | cons entry rest ih =>
    obtain ⟨other, old⟩ := entry
    rw [List.lookup_cons] at h
    split at h
    · rename_i heq
      rw [← Option.some.inj h, eq_of_beq heq]
      exact List.mem_cons_self
    · exact List.mem_cons_of_mem _ (ih h)

theorem lookup_of_mem {name : String} {value : α} {entries : List (String × α)}
    (hnodup : (entries.map Prod.fst).Nodup) (h : (name, value) ∈ entries) :
    entries.lookup name = some value := by
  induction entries with
  | nil => simp at h
  | cons entry rest ih =>
    obtain ⟨other, old⟩ := entry
    rw [List.map_cons, List.nodup_cons] at hnodup
    rw [List.lookup_cons]
    rcases List.mem_cons.mp h with heq | h
    · rw [Prod.mk.injEq] at heq
      simp [heq]
    · have hne : name ≠ other := fun heq =>
        hnodup.1 (List.mem_map.mpr ⟨(name, value), h, heq⟩)
      have hw : (name == other) = false := by simpa using hne
      rw [hw]
      exact ih hnodup.2 h

/-- Where no name comes twice, the pairs are what is found. -/
theorem mem_entries_iff {registry : Registry α} (hnodup : registry.names.Nodup) {name : String}
    {value : α} : (name, value) ∈ registry.entries ↔ registry.find? name = some value :=
  ⟨lookup_of_mem hnodup, mem_of_lookup⟩

/-- Putting in a value lets no name come twice. -/
theorem nodup_names_insert {registry : Registry α} (hnodup : registry.names.Nodup) (name : String)
    (value : α) : (registry.insert name value).names.Nodup := by
  cases hfind : registry.find? name with
  | some old => rwa [names_insert_of_isSome value (by simp [hfind])]
  | none =>
    have hnames : (registry.insert name value).names = registry.names ++ [name] :=
      map_fst_place_of_none value hfind
    rw [hnames, List.nodup_append]
    refine ⟨hnodup, by simp, ?_⟩
    rintro other hother _ hmem rfl
    obtain ⟨⟨found, old⟩, hentry, rfl⟩ := List.mem_map.mp hother
    have hsome : registry.find? found = some old := lookup_of_mem hnodup hentry
    obtain rfl : found = name := List.mem_singleton.mp hmem
    rw [hfind] at hsome
    cases hsome

end Registry

end Fixtures
