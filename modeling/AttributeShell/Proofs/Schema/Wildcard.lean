import AttributeShell.Schema.Description
import AttributeShell.Source.Basic

/-!
Responses for many resources. The items are read in order, and the elements of each address in
order, up to the first item that decides the answer (`Json.Decides`); the items before it have been
passed over (`Json.Passed`). So the answer depends on nothing but what has been read by then
(`Json.ReadAlike`), and if only one item can decide it does so in every order.
-/

namespace AttributeShell

variable {element item value : Json} {items : List Json} {answer : Answer}

namespace Json

/-! ### What is read of an item -/

/-- An element of an address is one name with a value. -/
def IsEntry (element value : Json) : Prop :=
  ∃ members name, element = .object members ∧ members.toList = [(name, value)]

/-- An element that decides nothing. -/
def IsPlain (element : Json) : Prop := ∃ value, element.IsEntry value ∧ value ≠ .string "*"

def HasAddress (item : Json) (address : List Json) : Prop :=
  item.member? "address" = some (.array address)

/-- An item that decides nothing. -/
def Passed (item : Json) : Prop :=
  ∃ address, item.HasAddress address ∧ ∀ element ∈ address, element.IsPlain

/-- The member is not there, or null. -/
def Lacks (json : Json) (name : String) : Prop :=
  json.member? name = none ∨ json.member? name = some .null

/-- The answer of an item that has been selected. -/
inductive Answers (item : Json) : Answer → Prop where
  | noResult : item.Lacks "result" → Answers item (.ok none)
  | noAttributes {result : Json} : item.member? "result" = some result → result ≠ .null →
      result.Lacks "attributes" → Answers item (.ok none)
  | attributes {result attributes : Json} : item.member? "result" = some result → result ≠ .null →
      result.member? "attributes" = some attributes → attributes ≠ .null →
      Answers item ((Tree.ofJson attributes).map some)

/-- An item that decides: it has no address, or its address has an element that is no entry or one
that stands for all resources, behind elements that decide nothing. -/
inductive Decides (item : Json) : Answer → Prop where
  | unaddressed : (∀ address, ¬ item.HasAddress address) → Decides item (.ok none)
  | malformed {before after : List Json} {element : Json} :
      item.HasAddress (before ++ element :: after) → (∀ other ∈ before, other.IsPlain) →
      (∀ value, ¬ element.IsEntry value) →
      Decides item (.error (.invalidAddressNode element.compact))
  | selected {before after : List Json} {element : Json} {answer : Answer} :
      item.HasAddress (before ++ element :: after) → (∀ other ∈ before, other.IsPlain) →
      element.IsEntry (.string "*") → item.Answers answer → Decides item answer

/-- The first item that decides gives the answer, and without one there is an error. -/
inductive Decided : List Json → Answer → Prop where
  | first {before after : List Json} {item : Json} {answer : Answer} :
      (∀ other ∈ before, other.Passed) → item.Decides answer →
      Decided (before ++ item :: after) answer
  | missing {items : List Json} : (∀ item ∈ items, item.Passed) →
      Decided items (.error .missingWildcard)

/-- Two items that decide alike. They may differ in what is not read of them: what stands in the
address behind the deciding element, and all but the result. -/
inductive DecidesAlike (item other : Json) : Prop where
  | unaddressed : (∀ address, ¬ item.HasAddress address) → (∀ address, ¬ other.HasAddress address) →
      DecidesAlike item other
  | malformed {before after after' : List Json} {element : Json} :
      item.HasAddress (before ++ element :: after) →
      other.HasAddress (before ++ element :: after') →
      (∀ earlier ∈ before, earlier.IsPlain) → (∀ value, ¬ element.IsEntry value) →
      DecidesAlike item other
  | selected {before after after' : List Json} {element : Json} :
      item.HasAddress (before ++ element :: after) →
      other.HasAddress (before ++ element :: after') →
      (∀ earlier ∈ before, earlier.IsPlain) → element.IsEntry (.string "*") →
      other.member? "result" = item.member? "result" → DecidesAlike item other

/-- Two lists of items are read alike up to the item that decides: nothing counts of the items
before it but their addresses, and nothing of those behind it. -/
inductive ReadAlike : List Json → List Json → Prop where
  | first {before before' after after' : List Json} {item item' : Json} :
      before'.map (·.member? "address") = before.map (·.member? "address") →
      (∀ other ∈ before, other.Passed) → item.DecidesAlike item' →
      ReadAlike (before ++ item :: after) (before' ++ item' :: after')
  | missing {items items' : List Json} :
      items'.map (·.member? "address") = items.map (·.member? "address") →
      (∀ item ∈ items, item.Passed) → ReadAlike items items'

/-- The address of the item is a list of entries. -/
def WellAddressed (item : Json) : Prop :=
  ∃ address, item.HasAddress address ∧ ∀ element ∈ address, ∃ value, element.IsEntry value

/-- The item stands for all resources. -/
def CarriesWildcard (item : Json) : Prop :=
  ∃ address, item.HasAddress address ∧ ∃ element ∈ address, element.IsEntry (.string "*")

/-! ### Something decides -/

theorem exists_answers (item : Json) : ∃ answer, item.Answers answer := by
  cases hresult : item.defined? "result" with
  | none => exact ⟨_, .noResult (defined?_eq_none.1 hresult)⟩
  | some result =>
    obtain ⟨hmember, hnull⟩ := defined?_eq_some.1 hresult
    cases hattributes : result.defined? "attributes" with
    | none => exact ⟨_, .noAttributes hmember hnull (defined?_eq_none.1 hattributes)⟩
    | some attributes =>
      obtain ⟨hbelow, hsome⟩ := defined?_eq_some.1 hattributes
      exact ⟨_, .attributes hmember hnull hbelow hsome⟩

/-- Nothing but the result of a selected item counts. -/
theorem Answers.of_result {other : Json} (h : item.Answers answer)
    (hresult : other.member? "result" = item.member? "result") : other.Answers answer := by
  cases h with
  | noResult hlacks => exact .noResult (by rwa [Lacks, hresult])
  | noAttributes hmember hnull hlacks => exact .noAttributes (hresult.trans hmember) hnull hlacks
  | attributes hmember hnull hbelow hsome =>
    exact .attributes (hresult.trans hmember) hnull hbelow hsome

/-- A list has a property throughout, or there is a first member without it. -/
theorem forall_mem_or_exists_first {α : Type} (p : α → Prop) (xs : List α) :
    (∀ x ∈ xs, p x) ∨
      ∃ before x after, xs = before ++ x :: after ∧ (∀ y ∈ before, p y) ∧ ¬ p x := by
  induction xs with
  | nil => exact .inl nofun
  | cons x xs ih =>
    by_cases hx : p x
    · obtain hall | ⟨before, y, after, rfl, hbefore, hy⟩ := ih
      · exact .inl (List.forall_mem_cons.2 ⟨hx, hall⟩)
      · exact .inr ⟨x :: before, y, after, rfl, List.forall_mem_cons.2 ⟨hx, hbefore⟩, hy⟩
    · exact .inr ⟨[], x, xs, rfl, nofun, hx⟩

theorem IsEntry.value_eq {other : Json} (h : element.IsEntry value)
    (hother : element.IsEntry other) : value = other := by
  obtain ⟨members, name, rfl, hlist⟩ := h
  obtain ⟨_, _, ⟨⟩, hlist'⟩ := hother
  rw [hlist] at hlist'
  exact congrArg Prod.snd (List.cons.inj hlist').1

theorem not_isPlain_iff :
    ¬ element.IsPlain ↔ element.IsEntry (.string "*") ∨ ∀ value, ¬ element.IsEntry value := by
  constructor
  · intro h
    by_cases hentry : ∃ value, element.IsEntry value
    · obtain ⟨value, hvalue⟩ := hentry
      by_cases hstar : value = .string "*"
      · exact .inl (hstar ▸ hvalue)
      · exact absurd ⟨value, hvalue, hstar⟩ h
    · exact .inr (not_exists.1 hentry)
  · rintro (hstar | hother) ⟨value, hvalue, hne⟩
    · exact hne (hvalue.value_eq hstar)
    · exact hother value hvalue

theorem exists_decides_of_not_passed (h : ¬ item.Passed) : ∃ answer, item.Decides answer := by
  by_cases haddress : ∃ address, item.HasAddress address
  · obtain ⟨address, haddress⟩ := haddress
    obtain hplain | ⟨before, element, after, rfl, hbefore, helement⟩ :=
      forall_mem_or_exists_first IsPlain address
    · exact absurd ⟨address, haddress, hplain⟩ h
    · obtain hstar | hother := not_isPlain_iff.1 helement
      · obtain ⟨answer, hanswer⟩ := exists_answers item
        exact ⟨answer, .selected haddress hbefore hstar hanswer⟩
      · exact ⟨_, .malformed haddress hbefore hother⟩
  · exact ⟨_, .unaddressed (not_exists.1 haddress)⟩

/-- Every list of items is decided. -/
theorem exists_decided (items : List Json) : ∃ answer, Decided items answer := by
  obtain hpassed | ⟨before, item, after, rfl, hbefore, hitem⟩ :=
    forall_mem_or_exists_first Passed items
  · exact ⟨_, .missing hpassed⟩
  · obtain ⟨answer, hanswer⟩ := exists_decides_of_not_passed hitem
    exact ⟨answer, .first hbefore hanswer⟩

/-! ### Alike up to the decision -/

theorem Passed.of_address {other : Json} (h : item.Passed)
    (haddress : other.member? "address" = item.member? "address") : other.Passed := by
  obtain ⟨address, hitem, hplain⟩ := h
  exact ⟨address, haddress.trans hitem, hplain⟩

theorem forall_passed_of_map_eq {items' : List Json}
    (h : items'.map (·.member? "address") = items.map (·.member? "address"))
    (hpassed : ∀ item ∈ items, item.Passed) : ∀ item ∈ items', item.Passed := by
  intro other hother
  have hmem : other.member? "address" ∈ items.map (·.member? "address") := by
    rw [← h]
    exact List.mem_map_of_mem hother
  obtain ⟨item, hitem, haddress⟩ := List.mem_map.1 hmem
  exact (hpassed item hitem).of_address haddress.symm

theorem DecidesAlike.exists_answer {other : Json} (h : item.DecidesAlike other) :
    ∃ answer, item.Decides answer ∧ other.Decides answer := by
  cases h with
  | unaddressed hitem hother => exact ⟨_, .unaddressed hitem, .unaddressed hother⟩
  | malformed hitem hother hplain hentry =>
    exact ⟨_, .malformed hitem hplain hentry, .malformed hother hplain hentry⟩
  | selected hitem hother hplain hstar hresult =>
    obtain ⟨answer, hanswer⟩ := exists_answers item
    exact ⟨answer, .selected hitem hplain hstar hanswer,
      .selected hother hplain hstar (hanswer.of_result hresult)⟩

theorem ReadAlike.exists_answer {items' : List Json} (h : ReadAlike items items') :
    ∃ answer, Decided items answer ∧ Decided items' answer := by
  cases h with
  | first haddresses hpassed halike =>
    obtain ⟨answer, hitem, hitem'⟩ := halike.exists_answer
    exact ⟨answer, .first hpassed hitem,
      .first (forall_passed_of_map_eq haddresses hpassed) hitem'⟩
  | missing haddresses hpassed =>
    exact ⟨_, .missing hpassed, .missing (forall_passed_of_map_eq haddresses hpassed)⟩

/-! ### A single item that stands for all -/

theorem WellAddressed.passed (h : item.WellAddressed) (hcarries : ¬ item.CarriesWildcard) :
    item.Passed := by
  obtain ⟨address, haddress, hentries⟩ := h
  refine ⟨address, haddress, fun element helement => ?_⟩
  obtain ⟨value, hvalue⟩ := hentries element helement
  refine ⟨value, hvalue, ?_⟩
  rintro rfl
  exact hcarries ⟨address, haddress, element, helement, hvalue⟩

theorem WellAddressed.decides (h : item.WellAddressed) (hcarries : item.CarriesWildcard)
    (hanswer : item.Answers answer) : item.Decides answer := by
  obtain ⟨address, haddress, hentries⟩ := h
  obtain ⟨_, haddress', star, hmem, hstar⟩ := hcarries
  obtain rfl := Json.array.inj (Option.some.inj (haddress.symm.trans haddress'))
  obtain hplain | ⟨before, element, after, rfl, hbefore, helement⟩ :=
    forall_mem_or_exists_first IsPlain address
  · exact absurd (hplain star hmem) (not_isPlain_iff.2 (.inl hstar))
  · -- The first element that is not plain is an entry all the same.
    obtain hfirst | hother := not_isPlain_iff.1 helement
    · exact .selected haddress hbefore hfirst hanswer
    · obtain ⟨value, hvalue⟩ := hentries element (by simp)
      exact absurd hvalue (hother value)

/-- The one item that stands for all resources gives the answer, wherever it stands. -/
theorem decided_of_single {before after : List Json}
    (hwell : ∀ other ∈ before ++ item :: after, other.WellAddressed)
    (hcarries : item.CarriesWildcard) (hsingle : ∀ other ∈ before ++ after, ¬ other.CarriesWildcard)
    (hanswer : item.Answers answer) : Decided (before ++ item :: after) answer := by
  refine .first (fun other hother => ?_) ((hwell item (by simp)).decides hcarries hanswer)
  exact (hwell other (List.mem_append_left _ hother)).passed
    (hsingle other (List.mem_append_left _ hother))

end Json

namespace Tree

/-! ### The items are read so -/

theorem wildcardIn_cons_of_isEntry (h : element.IsEntry value) (rest : List Json) :
    wildcardIn (element :: rest) =
      if value.string? = some "*" then .ok true else wildcardIn rest := by
  obtain ⟨members, name, rfl, hlist⟩ := h
  simp only [wildcardIn, hlist]

theorem wildcardIn_cons_of_malformed (h : ∀ value, ¬ element.IsEntry value) (rest : List Json) :
    wildcardIn (element :: rest) = .error (.invalidAddressNode element.compact) := by
  cases element with
  | object members =>
    simp only [wildcardIn]
    split
    · rename_i name value hlist
      exact absurd ⟨members, name, rfl, hlist⟩ (h value)
    · rfl
  | null => rfl
  | bool value => rfl
  | number value => rfl
  | string value => rfl
  | array items => rfl

theorem wildcardIn_append {before : List Json} (h : ∀ element ∈ before, element.IsPlain)
    (rest : List Json) : wildcardIn (before ++ rest) = wildcardIn rest := by
  induction before with
  | nil => rfl
  | cons element before ih =>
    obtain ⟨⟨value, hvalue, hstar⟩, hbefore⟩ := List.forall_mem_cons.1 h
    have hstring : value.string? ≠ some "*" := mt Json.string?_eq_some.1 hstar
    rw [List.cons_append, wildcardIn_cons_of_isEntry hvalue, if_neg hstring, ih hbefore]

theorem wildcardItem_append {before : List Json} (h : ∀ item ∈ before, item.Passed)
    (rest : List Json) : wildcardItem (before ++ rest) = wildcardItem rest := by
  induction before with
  | nil => rfl
  | cons item before ih =>
    obtain ⟨⟨address, haddress, hplain⟩, hbefore⟩ := List.forall_mem_cons.1 h
    have hread : wildcardIn address = .ok false := by
      simpa [wildcardIn] using wildcardIn_append hplain []
    rw [List.cons_append, wildcardItem, haddress]
    simp only [hread, ih hbefore]

theorem ofResponse_array {response : Json} (h : response.member? "result" = some (.array items)) :
    ofResponse response = (wildcardItem items).bind ofItem := by
  have hdefined : response.defined? "result" = some (.array items) :=
    Json.defined?_eq_some.2 ⟨h, nofun⟩
  simp only [ofResponse, hdefined]

theorem ofItem_of_answers (h : item.Answers answer) : ofItem (some item) = answer := by
  cases h with
  | noResult hlacks => simp only [ofItem, Json.defined?_eq_none.2 hlacks]
  | noAttributes hmember hnull hlacks =>
    simp only [ofItem, Json.defined?_eq_some.2 ⟨hmember, hnull⟩, ofResult,
      Json.defined?_eq_none.2 hlacks]
  | attributes hmember hnull hbelow hsome =>
    simp only [ofItem, Json.defined?_eq_some.2 ⟨hmember, hnull⟩, ofResult,
      Json.defined?_eq_some.2 ⟨hbelow, hsome⟩]

theorem bind_wildcardItem_cons (h : item.Decides answer) (rest : List Json) :
    (wildcardItem (item :: rest)).bind ofItem = answer := by
  cases h with
  | unaddressed hnone =>
    rw [wildcardItem]
    split
    · rename_i address haddress
      exact absurd haddress (hnone address)
    · rfl
  | malformed haddress hplain hentry =>
    rw [wildcardItem, haddress]
    simp only [wildcardIn_append hplain, wildcardIn_cons_of_malformed hentry]
    rfl
  | selected haddress hplain hstar hanswer =>
    rw [wildcardItem, haddress]
    simp only [wildcardIn_append hplain, wildcardIn_cons_of_isEntry hstar]
    exact ofItem_of_answers hanswer

/-- The answer that has been decided is the one that is read. -/
theorem ofResponse_of_decided {response : Json}
    (h : response.member? "result" = some (.array items)) (hdecided : Json.Decided items answer) :
    ofResponse response = answer := by
  rw [ofResponse_array h]
  cases hdecided with
  | first hpassed hdecides => rw [wildcardItem_append hpassed, bind_wildcardItem_cons hdecides]
  | missing hpassed =>
    have hend := wildcardItem_append hpassed []
    rw [List.append_nil] at hend
    rw [hend]
    rfl

/-- A response for many resources is answered by the first item that decides. Nothing counts that
is not read by then. If all addresses are lists of entries and just one item stands for all
resources, the order of the items does not count either. -/
theorem ofResponse_decided (response : Json) (items : List Json)
    (h : response.member? "result" = some (.array items)) :
    (∀ answer, ofResponse response = answer ↔ Json.Decided items answer) ∧
    (∀ other items', other.member? "result" = some (.array items') → Json.ReadAlike items items' →
      ofResponse other = ofResponse response) ∧
    ∀ other items', other.member? "result" = some (.array items') → items'.Perm items →
      (∀ item ∈ items, item.WellAddressed) →
      (∃ before item after, items = before ++ item :: after ∧ item.CarriesWildcard ∧
        ∀ rest ∈ before ++ after, ¬ rest.CarriesWildcard) →
      ofResponse other = ofResponse response := by
  refine ⟨fun answer => ⟨?_, ofResponse_of_decided h⟩, fun other items' hother halike => ?_,
    fun other items' hother hperm hwell hsingle => ?_⟩
  · rintro rfl
    obtain ⟨answer, hdecided⟩ := Json.exists_decided items
    rwa [ofResponse_of_decided h hdecided]
  · obtain ⟨answer, hdecided, hdecided'⟩ := halike.exists_answer
    rw [ofResponse_of_decided h hdecided, ofResponse_of_decided hother hdecided']
  · obtain ⟨before, item, after, rfl, hcarries, hrest⟩ := hsingle
    obtain ⟨answer, hanswer⟩ := Json.exists_answers item
    have hmem : item ∈ items' := hperm.mem_iff.2 (by simp)
    obtain ⟨before', after', rfl⟩ := List.append_of_mem hmem
    -- In the other order the item stands among the same items, so none of them decides.
    have hothers : (before' ++ after').Perm (before ++ after) :=
      ((List.perm_middle.symm.trans hperm).trans List.perm_middle).cons_inv
    have hdecided := Json.decided_of_single hwell hcarries hrest hanswer
    have hdecided' := Json.decided_of_single (fun rest hrest => hwell rest (hperm.mem_iff.1 hrest))
      hcarries (fun rest hmem => hrest rest (hothers.mem_iff.1 hmem)) hanswer
    rw [ofResponse_of_decided h hdecided, ofResponse_of_decided hother hdecided']

/-- The address of a connector, as an element. -/
def connectorElement (name : String) : Json := .object (.ofList [("connector", .string name)])

/-- A connector in a response for many resources, with no attributes. -/
def connectorItem (name : String) : Json :=
  .object (.ofList [("address", .array [connectorElement name]),
    ("result", .object (.ofList [("attributes", .object .empty)]))])

theorem isEntry_connectorElement (name : String) :
    (connectorElement name).IsEntry (.string name) :=
  ⟨_, "connector", rfl, rfl⟩

theorem hasAddress_connectorItem (name : String) :
    (connectorItem name).HasAddress [connectorElement name] := by
  simp [Json.HasAddress, Json.member?, connectorItem, NameMap.ofList]

theorem wellAddressed_connectorItem (name : String) : (connectorItem name).WellAddressed :=
  ⟨_, hasAddress_connectorItem name, by simpa using ⟨_, isEntry_connectorElement name⟩⟩

theorem answers_connectorItem (name : String) :
    (connectorItem name).Answers (.ok (some .empty)) := by
  have hattributes : (Json.object (.ofList [("attributes", .object .empty)])).member? "attributes" =
      some (.object .empty) := rfl
  refine .attributes ?_ ?_ hattributes ?_ <;>
    simp [Json.member?, connectorItem, NameMap.ofList]

theorem carriesWildcard_connectorItem_iff {name : String} :
    (connectorItem name).CarriesWildcard ↔ name = "*" := by
  constructor
  · rintro ⟨address, haddress, element, hmem, hstar⟩
    obtain rfl := Json.array.inj (Option.some.inj
      ((hasAddress_connectorItem name).symm.trans haddress))
    obtain rfl := List.mem_singleton.1 hmem
    exact Json.string.inj ((isEntry_connectorElement name).value_eq hstar)
  · rintro rfl
    exact ⟨_, hasAddress_connectorItem "*", _, List.mem_singleton_self _,
      isEntry_connectorElement "*"⟩

/-- Two connectors of which one stands for all, in either order, and with a value behind them that
has no address. -/
theorem ofResponse_decided_connectors :
    let response (items : List Json) : Json := .object (.ofList [("result", .array items)])
    let items := [connectorItem "http", connectorItem "*"]
    Json.Decided items (.ok (some .empty)) ∧ ofResponse (response items) = .ok (some .empty) ∧
      ofResponse (response (items ++ [.null])) = .ok (some .empty) ∧
      ofResponse (response [connectorItem "*", connectorItem "http"]) = .ok (some .empty) := by
  intro response items
  have hwell : ∀ item ∈ items, item.WellAddressed := by
    simp [items, wellAddressed_connectorItem]
  have hother : ∀ other ∈ [connectorItem "http"], ¬ other.CarriesWildcard := by
    simp [carriesWildcard_connectorItem_iff]
  have hcarries : (connectorItem "*").CarriesWildcard := carriesWildcard_connectorItem_iff.2 rfl
  have hdecided : Json.Decided ([connectorItem "http"] ++ connectorItem "*" :: [])
      (.ok (some .empty)) :=
    Json.decided_of_single hwell hcarries hother (answers_connectorItem "*")
  have halike : Json.ReadAlike items (items ++ [.null]) := by
    have hpassed : ∀ other ∈ [connectorItem "http"], other.Passed := fun other hmem =>
      (hwell other (List.mem_append_left [connectorItem "*"] hmem)).passed (hother other hmem)
    have haddress : (connectorItem "*").HasAddress ([] ++ connectorElement "*" :: []) :=
      hasAddress_connectorItem "*"
    exact .first rfl hpassed
      (.selected haddress haddress (List.forall_mem_nil _) (isEntry_connectorElement "*") rfl)
  have hdecides := ofResponse_decided (response items) items rfl
  have hread := (hdecides.1 _).2 hdecided
  exact ⟨hdecided, hread, (hdecides.2.1 _ _ rfl halike).trans hread,
    (hdecides.2.2 _ _ rfl (.swap _ _ _) hwell
      ⟨[connectorItem "http"], _, [], rfl, hcarries, hother⟩).trans hread⟩

end Tree

end AttributeShell
