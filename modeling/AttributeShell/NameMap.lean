/-!
Finite maps from names to values. The names are kept in ascending order and without repetition, by
the type, and two maps are equal exactly if they have the same names with the same values. As the
names stand apart from the values, a type may hold maps to itself.
-/

namespace AttributeShell

universe u v

structure NameMap (α : Type u) where
  /-- The names, in ascending order. -/
  names : List String
  ordered : names.Pairwise (· < ·)
  value : { name : String // name ∈ names } → α

namespace NameMap

variable {α : Type u} {β : Type v}

def get? (map : NameMap α) (name : String) : Option α :=
  if h : name ∈ map.names then some (map.value ⟨name, h⟩) else none

def size (map : NameMap α) : Nat := map.names.length

def isEmpty (map : NameMap α) : Bool := map.names.isEmpty

/-- The names with their values, in ascending order of the names. -/
def toList (map : NameMap α) : List (String × α) :=
  map.names.attach.map fun name => (name.val, map.value name)

def empty : NameMap α where
  names := []
  ordered := .nil
  value name := absurd name.property List.not_mem_nil

instance : EmptyCollection (NameMap α) := ⟨empty⟩

instance : Inhabited (NameMap α) := ⟨empty⟩

/-- Puts a name in its place, unless it is there already. -/
def insertName (name : String) : List String → List String
  | [] => [name]
  | first :: rest =>
    if name < first then name :: first :: rest
    else if name = first then first :: rest
    else first :: insertName name rest

@[simp] theorem mem_insertName {name other : String} {names : List String} :
    other ∈ insertName name names ↔ other = name ∨ other ∈ names := by
  induction names with
  | nil => simp [insertName]
  | cons first rest ih =>
    simp only [insertName]
    split
    · simp
    · split
      · rename_i h
        simp [h]
      · simp [ih, or_left_comm]

theorem pairwise_insertName {name : String} {names : List String}
    (h : names.Pairwise (· < ·)) : (insertName name names).Pairwise (· < ·) := by
  induction names with
  | nil => simp [insertName]
  | cons first rest ih =>
    obtain ⟨hfirst, hrest⟩ := List.pairwise_cons.1 h
    simp only [insertName]
    split
    · rename_i hlt
      refine List.pairwise_cons.2 ⟨fun other hother => ?_, h⟩
      rcases List.mem_cons.1 hother with rfl | hmem
      · exact hlt
      · exact String.lt_trans hlt (hfirst other hmem)
    · split
      · exact h
      · rename_i hlt hne
        refine List.pairwise_cons.2 ⟨fun other hother => ?_, ih hrest⟩
        rcases mem_insertName.1 hother with rfl | hmem
        · exact Std.lt_of_le_of_ne (Std.not_lt.1 hlt) (Ne.symm hne)
        · exact hfirst other hmem

/-- Gives a name a value, in place of the one that it may have. -/
def insert (map : NameMap α) (name : String) (value : α) : NameMap α where
  names := insertName name map.names
  ordered := pairwise_insertName map.ordered
  value other :=
    if h : other.val = name then value
    else map.value ⟨other.val, (mem_insertName.1 other.property).resolve_left h⟩

/-- The map of a list of pairs; of two pairs with one name the later counts. -/
def ofList (pairs : List (String × α)) : NameMap α :=
  pairs.foldl (fun map pair => map.insert pair.1 pair.2) empty

def mapValues (f : α → β) (map : NameMap α) : NameMap β where
  names := map.names
  ordered := map.ordered
  value name := f (map.value name)

@[simp] theorem get?_empty (name : String) : (empty : NameMap α).get? name = none := rfl

theorem get?_isSome {map : NameMap α} {name : String} :
    (map.get? name).isSome ↔ name ∈ map.names := by
  by_cases h : name ∈ map.names <;> simp [get?, h]

@[simp] theorem get?_insert (map : NameMap α) (name other : String) (value : α) :
    (map.insert name value).get? other = if other = name then some value else map.get? other := by
  by_cases h : other = name
  · simp [get?, insert, h]
  · by_cases hmem : other ∈ map.names <;> simp [get?, insert, h, hmem]

@[simp] theorem get?_mapValues (f : α → β) (map : NameMap α) (name : String) :
    (map.mapValues f).get? name = (map.get? name).map f := by
  by_cases h : name ∈ map.names <;> simp [get?, mapValues, h]

@[simp] theorem names_mapValues (f : α → β) (map : NameMap α) :
    (map.mapValues f).names = map.names := rfl

/-- Takes a name away, with its value. -/
def erase (map : NameMap α) (name : String) : NameMap α where
  names := map.names.filter (· ≠ name)
  ordered := map.ordered.filter _
  value other := map.value ⟨other.val, (List.mem_filter.1 other.property).1⟩

@[simp] theorem get?_erase (map : NameMap α) (name other : String) :
    (map.erase name).get? other = if other = name then none else map.get? other := by
  by_cases h : other = name
  · simp [get?, erase, h]
  · by_cases hmem : other ∈ map.names <;> simp [get?, erase, h, hmem]

theorem nodup_names (map : NameMap α) : map.names.Nodup :=
  map.ordered.imp fun hlt => Std.ne_of_lt hlt

/-- The values tell the names, as these stand in their order. -/
theorem names_eq_of_get? {m n : NameMap α} (h : ∀ name, m.get? name = n.get? name) :
    m.names = n.names := by
  have hmem (name : String) : name ∈ m.names ↔ name ∈ n.names := by
    rw [← get?_isSome, ← get?_isSome, h name]
  refine List.Perm.eq_of_pairwise (fun a b _ _ hab hba => ?_) m.ordered n.ordered
    ((List.perm_ext_iff_of_nodup m.nodup_names n.nodup_names).2 hmem)
  exact absurd hba (Std.not_lt.2 (Std.le_of_lt hab))

/-- Two maps with the same values are one map. -/
theorem eq_of_get? {m n : NameMap α} (hget : ∀ name, m.get? name = n.get? name) : m = n := by
  have hnames := names_eq_of_get? hget
  obtain ⟨names, hm, value⟩ := m
  obtain ⟨names', hn, value'⟩ := n
  cases hnames
  congr
  funext ⟨name, hmem⟩
  simpa [get?, hmem] using hget name

/-- The first name with a property is the least one. -/
theorem find?_names_eq_some_iff {map : NameMap α} {p : String → Bool} {name : String} :
    map.names.find? p = some name ↔
      name ∈ map.names ∧ p name ∧ ∀ other ∈ map.names, p other → name ≤ other := by
  have hleast {first : String} (h : map.names.find? p = some first) :
      ∀ other ∈ map.names, p other → first ≤ other := by
    obtain ⟨-, before, after, hnames, hbefore⟩ := List.find?_eq_some_iff_append.1 h
    have hordered := map.ordered
    rw [hnames, List.pairwise_append, List.pairwise_cons] at hordered
    intro other hother hp
    rw [hnames, List.mem_append, List.mem_cons] at hother
    obtain hmem | rfl | hmem := hother
    · exact absurd hp (by simpa using hbefore other hmem)
    · exact Std.le_refl other
    · exact Std.le_of_lt (hordered.2.1.1 other hmem)
  constructor
  · exact fun h => ⟨List.mem_of_find?_eq_some h, List.find?_some h, hleast h⟩
  · rintro ⟨hmem, hp, hall⟩
    cases hfind : map.names.find? p with
    | none => exact absurd hp (List.find?_eq_none.1 hfind name hmem)
    | some first =>
      have hfirst := hall first (List.mem_of_find?_eq_some hfind) (List.find?_some hfind)
      rw [Std.le_antisymm (hleast hfind name hmem hp) hfirst]

/-! ### Lists of names with values -/

@[simp] theorem map_fst_toList (map : NameMap α) : map.toList.map (·.1) = map.names := by
  simp [toList]

theorem mem_toList {map : NameMap α} {name : String} {value : α} :
    (name, value) ∈ map.toList ↔ map.get? name = some value := by
  by_cases hmem : name ∈ map.names
  · simp [toList, get?, hmem, eq_comm]
  · simp [toList, get?, hmem]

/-- What is put in later stands, in place of what may have been there. -/
theorem get?_foldl_insert {pairs : List (String × α)} (hnodup : (pairs.map (·.1)).Nodup)
    (map : NameMap α) (name : String) (value : α) :
    (pairs.foldl (fun map pair => map.insert pair.1 pair.2) map).get? name = some value ↔
      (name, value) ∈ pairs ∨ name ∉ pairs.map (·.1) ∧ map.get? name = some value := by
  induction pairs generalizing map with
  | nil => simp
  | cons pair pairs ih =>
    obtain ⟨first, firstValue⟩ := pair
    obtain ⟨hfirst, hpairs⟩ := List.nodup_cons.1 hnodup
    rw [List.foldl_cons, ih hpairs, get?_insert]
    by_cases hname : name = first
    · subst hname
      have hother : (name, value) ∉ pairs := fun hmem => hfirst (List.mem_map.2 ⟨_, hmem, rfl⟩)
      simp [hother, hfirst, eq_comm]
    · simp [hname]

theorem get?_ofList {pairs : List (String × α)} (hnodup : (pairs.map (·.1)).Nodup)
    {name : String} {value : α} :
    (ofList pairs).get? name = some value ↔ (name, value) ∈ pairs := by
  simp [ofList, get?_foldl_insert hnodup]

@[simp] theorem ofList_toList (map : NameMap α) : ofList map.toList = map := by
  refine eq_of_get? fun name => Option.ext fun value => ?_
  rw [get?_ofList (by simpa using map.nodup_names), mem_toList]

end NameMap

end AttributeShell
