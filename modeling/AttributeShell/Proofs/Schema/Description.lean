import AttributeShell.Results
import AttributeShell.Schema.Description

/-!
Reading descriptions of attributes. Only the top can fail (`Tree.ofJson_eq`, `Attribute.read_eq`):
attributes are read below an attribute only where an object has been found. What is read of a
description is stated twice, as a function of its members (`Attribute.ofMembers`) and as what each
of its members says (`Json.Describes`). A name leads down from a description to the one below it in
the same way as it leads down in the tree (`lookup_mapValues_ofJson`).
-/

namespace AttributeShell

/-! ### What a description says -/

/-- A type is named by a string, or by a string as the only member of an object. -/
inductive Json.NamesType : Json → String → Prop where
  | plain {name : String} : NamesType (.string name) name
  | wrapped {members : NameMap Json} {name : String} : members.names = ["TYPE_MODEL_VALUE"] →
      members.get? "TYPE_MODEL_VALUE" = some (.string name) → NamesType (.object members) name

/-- The description names a type. -/
def Json.HasType (json : Json) (name : String) : Prop :=
  ∃ type, json.member? "type" = some type ∧ type.NamesType name

/-- The case of English letters does not count, and a name that is not known is undefined. -/
def PrimitiveType.Spelled (kind : PrimitiveType) (name : String) : Prop :=
  if kind = undefined then ∀ known ≠ undefined, name.map Char.toUpper ≠ known.name
  else name.map Char.toUpper = kind.name

/-- What is said of the values of a container: nothing, a type by name, or attributes. Anything else
is undefined. -/
inductive Json.DescribesValues : Option Json → ValueType → Prop where
  | missing : DescribesValues none .unspecified
  | null : DescribesValues (some .null) .unspecified
  | named {json : Json} {name : String} {kind : PrimitiveType} : json.NamesType name →
      kind.Spelled name → DescribesValues (some json) (.primitive kind)
  | attributes {members : NameMap Json} {tree : Tree} :
      (∀ name, ¬ (Json.object members).NamesType name) → Tree.ofJson (.object members) = .ok tree →
      DescribesValues (some (.object members)) (.complex tree)
  | malformed {json : Json} : json ≠ .null → (∀ name, ¬ json.NamesType name) →
      (∀ members, json ≠ .object members) → DescribesValues (some json) (.primitive .undefined)

/-- A value describes an attribute. One without members that count describes an undefined attribute,
which can be read and written. -/
structure Json.Describes (json : Json) (attr : Attribute) : Prop where
  container : ∀ kind : Container, json.HasType kind.name →
    ∃ value, attr.type = .container kind value ∧ DescribesValues (json.member? "value-type") value
  primitive : ∀ name, json.HasType name → (∀ kind : Container, name ≠ kind.name) →
    ∃ kind : PrimitiveType, kind.Spelled name ∧ attr.type = .primitive kind
  untyped : (∀ name, ¬ json.HasType name) → attr.type = .primitive .undefined
  readOnly : attr.access = .readOnly ↔ json.member? "access-type" = some (.string "read-only")
  metric : attr.access = .metric ↔ json.member? "access-type" = some (.string "metric")
  readWrite : attr.access = .readWrite ↔
    json.member? "access-type" ≠ some (.string "read-only") ∧
      json.member? "access-type" ≠ some (.string "metric")
  description : ∀ text, attr.description = some text ↔
    json.member? "description" = some (.string text)

/-- The descriptions below a description: those in the value type of a container, unless this is the
name of a type. -/
def Json.DescribesBelow (json : Json) (below : NameMap Json) : Prop :=
  (∃ kind : Container, json.HasType kind.name) ∧
    json.member? "value-type" = some (.object below) ∧
    ∀ name, ¬ (Json.object below).NamesType name

/-- Names lead through descriptions below one another to the last of them. -/
inductive Json.Leads : NameMap Json → List String → Json → Prop where
  | last {members : NameMap Json} {name : String} {json : Json} :
      members.get? name = some json → Leads members [name] json
  | down {members below : NameMap Json} {name : String} {names : List String} {json target : Json} :
      members.get? name = some json → json.DescribesBelow below → Leads below names target →
      Leads members (name :: names) target

/-! ### Names of types and modes -/

theorem Json.typeName?_eq_some {json : Json} {name : String} :
    json.typeName? = some name ↔ json.NamesType name := by
  constructor
  · intro h
    cases json with
    | string text =>
      cases h
      exact .plain
    | object members =>
      rw [typeName?] at h
      split at h
      · rename_i hnames
        obtain ⟨value, hget, hvalue⟩ := Option.bind_eq_some_iff.1 h
        cases value <;> cases hvalue
        exact .wrapped hnames hget
      · cases h
    | null => cases h
    | bool value => cases h
    | number value => cases h
    | array items => cases h
  · rintro (_ | ⟨hnames, hget⟩)
    · rfl
    · rw [typeName?, if_pos hnames, hget]
      rfl

theorem Json.typeName?_eq_none {json : Json} :
    json.typeName? = none ↔ ∀ name, ¬ json.NamesType name := by
  simp [Option.eq_none_iff_forall_ne_some, typeName?_eq_some]

theorem Json.hasType_iff {json : Json} {name : String} :
    json.HasType name ↔ (json.member? "type").bind typeName? = some name := by
  simp [HasType, Option.bind_eq_some_iff, typeName?_eq_some]

theorem Json.bind_string?_eq_some {member : Option Json} {text : String} :
    member.bind string? = some text ↔ member = some (.string text) := by
  cases member <;> simp [string?_eq_some]

theorem Container.ofName?_eq_some {name : String} {kind : Container} :
    ofName? name = some kind ↔ name = kind.name := by
  constructor
  · intro h
    have hname := List.find?_some h
    exact (beq_iff_eq.1 hname).symm
  · rintro rfl
    cases kind <;> rfl

theorem PrimitiveType.mem_named {kind : PrimitiveType} : kind ∈ named ↔ kind ≠ undefined := by
  cases kind <;> decide

theorem PrimitiveType.spelled_ofName (name : String) : (ofName name).Spelled name := by
  rw [ofName]
  cases hfind : named.find? (·.name == name.map Char.toUpper) with
  | none =>
    rw [Option.getD_none, Spelled, if_pos rfl]
    intro known hknown hname
    have hother := List.find?_eq_none.1 hfind known (mem_named.2 hknown)
    simp [hname] at hother
  | some kind =>
    have hknown := mem_named.1 (List.mem_of_find?_eq_some hfind)
    have hname := List.find?_some hfind
    rw [Option.getD_some, Spelled, if_neg hknown]
    exact (beq_iff_eq.1 hname).symm

theorem Access.ofName_getD_eq_readOnly {mode : Option String} :
    ofName (mode.getD "") = readOnly ↔ mode = some "read-only" := by
  cases mode with
  | none => decide
  | some name =>
    by_cases hname : name = "read-only"
    · simp [ofName, hname]
    · by_cases hmetric : name = "metric" <;> simp [ofName, hname, hmetric]

theorem Access.ofName_getD_eq_metric {mode : Option String} :
    ofName (mode.getD "") = metric ↔ mode = some "metric" := by
  cases mode with
  | none => decide
  | some name =>
    by_cases hmetric : name = "metric"
    · simp [ofName, hmetric]
    · by_cases hname : name = "read-only" <;> simp [ofName, hname, hmetric]

theorem Access.eq_readWrite_iff {access : Access} :
    access = readWrite ↔ access ≠ readOnly ∧ access ≠ metric := by
  cases access <;> decide

/-! ### Reading never fails below the top -/

/-- The value type that a member of a description describes, if the member is there. -/
def ValueType.ofMember : Option Json → ValueType
  | none => .unspecified
  | some json =>
    match json.typeName?, json with
    | some name, _ => .primitive (.ofName name)
    | none, .null => .unspecified
    | none, .object members => .complex (members.mapValues Attribute.ofJson)
    | none, .bool _ | none, .number _ | none, .string _ | none, .array _ => .primitive .undefined

/-- The attribute that the members of a description make up. -/
def Attribute.ofMembers (json : Json) : Attribute :=
  .mk (.ofName ((json.member? "type").bind Json.typeName?) (.ofMember (json.member? "value-type")))
    (.ofName (((json.member? "access-type").bind Json.string?).getD ""))
    ((json.member? "description").bind Json.string?)

/-- Attributes have to be read only from an object. -/
theorem ValueType.read_eq {json : Json} {attributes : Unit → Except SchemaError Tree}
    (h : ∀ members, json = .object members →
      attributes () = .ok (members.mapValues Attribute.ofJson)) :
    read json attributes = .ok (ofMember (some json)) := by
  simp only [read, ofMember]
  cases json.typeName? with
  | some name => rfl
  | none =>
    cases json with
    | object members =>
      simp only [h members rfl]
      rfl
    | null => rfl
    | bool value => rfl
    | number value => rfl
    | string value => rfl
    | array items => rfl

theorem Attribute.read_eq_ofJson {json : Json} {attr : Attribute} (h : read json = .ok attr) :
    read json = .ok (ofJson json) := by
  rw [ofJson, h]
  rfl

/-- Attributes are read if each of them is. -/
theorem Tree.ofJson_of_read {members : NameMap Json}
    (h : ∀ name, Attribute.read (members.value name) = .ok (.ofJson (members.value name))) :
    ofJson (.object members) = .ok (members.mapValues Attribute.ofJson) := by
  obtain ⟨names, hordered, value⟩ := members
  have hread : (names.attach.mapM fun name => do
      let attr ← Attribute.read (value name)
      return (name.val, attr)) =
        .ok (NameMap.mapValues Attribute.ofJson ⟨names, hordered, value⟩).toList := by
    rw [mapM_eq_ok_iff, NameMap.toList, List.map_map]
    refine List.map_congr_left fun name _ => ?_
    simp only [h name]
    rfl
  rw [ofJson, hread]
  exact congrArg _ (NameMap.ofList_toList _)

-- Induction on the value. The members of an object come with an equation, so that they are seen to
-- be parts of the value on which the recursion is.
mutual

theorem Attribute.read_eq : ∀ json, Attribute.read json = .ok (Attribute.ofMembers json)
  | .object ⟨names, hordered, value⟩ => by
    by_cases h : "value-type" ∈ names
    · have hmember : (Json.object ⟨names, hordered, value⟩).member? "value-type" =
          some (value ⟨"value-type", h⟩) := dif_pos h
      have hread : ValueType.read (value ⟨"value-type", h⟩)
          (fun _ => Tree.ofJson (value ⟨"value-type", h⟩)) =
            .ok (.ofMember (some (value ⟨"value-type", h⟩))) :=
        ValueType.read_eq (Tree.ofJson_eq (value ⟨"value-type", h⟩))
      rw [Attribute.read, dif_pos h, hread, Attribute.ofMembers, hmember]
      rfl
    · have hmember : (Json.object ⟨names, hordered, value⟩).member? "value-type" = none := dif_neg h
      rw [Attribute.read, dif_neg h, Attribute.ofMembers, hmember]
      rfl
  | .null | .bool _ | .number _ | .string _ | .array _ => rfl
termination_by structural json => json

theorem Tree.ofJson_eq : ∀ json members, json = .object members →
    Tree.ofJson json = .ok (members.mapValues Attribute.ofJson)
  | .object ⟨names, hordered, value⟩, _, h => by
    cases h
    exact Tree.ofJson_of_read fun name =>
      Attribute.read_eq_ofJson (Attribute.read_eq (value name))
  | .null, _, h | .bool _, _, h | .number _, _, h | .string _, _, h | .array _, _, h => by cases h
termination_by structural json => json

end

theorem Tree.ofJson_object (members : NameMap Json) :
    ofJson (.object members) = .ok (members.mapValues Attribute.ofJson) :=
  ofJson_eq _ members rfl

theorem Attribute.ofJson_eq (json : Json) : ofJson json = ofMembers json := by
  rw [ofJson, read_eq]
  rfl

/-! ### What is read is what the description says -/

theorem ValueType.describesValues_ofMember (member : Option Json) :
    Json.DescribesValues member (ofMember member) := by
  cases member with
  | none => exact .missing
  | some json =>
    simp only [ofMember]
    cases htype : json.typeName? with
    | some name =>
      exact .named (Json.typeName?_eq_some.1 htype) (PrimitiveType.spelled_ofName name)
    | none =>
      have huntyped := Json.typeName?_eq_none.1 htype
      cases json with
      | null => exact .null
      | object members => exact .attributes huntyped (Tree.ofJson_object members)
      | bool value => exact .malformed nofun huntyped nofun
      | number value => exact .malformed nofun huntyped nofun
      | string value => exact .malformed nofun huntyped nofun
      | array items => exact .malformed nofun huntyped nofun

theorem Attribute.describes_ofJson (json : Json) : json.Describes (ofJson json) := by
  rw [ofJson_eq]
  have hreadOnly : (ofMembers json).access = .readOnly ↔
      json.member? "access-type" = some (.string "read-only") :=
    Access.ofName_getD_eq_readOnly.trans Json.bind_string?_eq_some
  have hmetric : (ofMembers json).access = .metric ↔
      json.member? "access-type" = some (.string "metric") :=
    Access.ofName_getD_eq_metric.trans Json.bind_string?_eq_some
  refine ⟨fun kind htype => ?_, fun name htype hother => ?_, fun huntyped => ?_, ?_, ?_, ?_,
    fun text => ?_⟩
  · refine ⟨_, ?_, ValueType.describesValues_ofMember _⟩
    rw [ofMembers, type, Json.hasType_iff.1 htype, AttributeType.ofName,
      Container.ofName?_eq_some.2 rfl]
  · refine ⟨_, PrimitiveType.spelled_ofName name, ?_⟩
    have hnone : Container.ofName? name = none :=
      Option.eq_none_iff_forall_ne_some.2 fun kind hkind =>
        hother kind (Container.ofName?_eq_some.1 hkind)
    rw [ofMembers, type, Json.hasType_iff.1 htype, AttributeType.ofName, hnone]
  · have hnone : (json.member? "type").bind Json.typeName? = none :=
      Option.eq_none_iff_forall_ne_some.2 fun name hname => huntyped name (Json.hasType_iff.2 hname)
    rw [ofMembers, type, hnone, AttributeType.ofName]
  · exact hreadOnly
  · exact hmetric
  · rw [Access.eq_readWrite_iff, Ne, Ne, hreadOnly, hmetric]
  · exact Json.bind_string?_eq_some

/-! ### The way down -/

theorem AttributeType.nested?_ofName {name : Option String} {value : ValueType} {tree : Tree} :
    (ofName name value).nested? = some tree ↔
      (∃ kind : Container, name = some kind.name) ∧ value.tree? = some tree := by
  cases name with
  | none => simp [ofName, nested?]
  | some name =>
    cases hkind : Container.ofName? name with
    | none =>
      have hother (kind : Container) : name ≠ kind.name := fun hname => by
        simp [Container.ofName?_eq_some.2 hname] at hkind
      simp [ofName, hkind, nested?, hother]
    | some kind =>
      have hname : ∃ other : Container, name = other.name :=
        ⟨kind, Container.ofName?_eq_some.1 hkind⟩
      simp [ofName, hkind, nested?, hname]

theorem ValueType.tree?_ofMember {member : Option Json} {tree : Tree} :
    (ofMember member).tree? = some tree ↔
      ∃ below, member = some (.object below) ∧ (∀ name, ¬ (Json.object below).NamesType name) ∧
        below.mapValues Attribute.ofJson = tree := by
  cases member with
  | none => simp [ofMember, tree?]
  | some json =>
    simp only [← Json.typeName?_eq_none, Option.some.injEq]
    cases htype : json.typeName? with
    | some name =>
      -- An object that is a type by name holds no attributes.
      simp only [ofMember, htype, tree?]
      refine iff_of_false nofun ?_
      rintro ⟨below, rfl, hnone, -⟩
      rw [htype] at hnone
      cases hnone
    | none => cases json <;> simp [ofMember, htype, tree?]

/-- What is read below an attribute is what is described below its description. -/
theorem Attribute.nested?_ofJson {json : Json} {tree : Tree} :
    (ofJson json).nested? = some tree ↔
      ∃ below, json.DescribesBelow below ∧ below.mapValues Attribute.ofJson = tree := by
  rw [ofJson_eq, nested?, ofMembers, type, AttributeType.nested?_ofName, ValueType.tree?_ofMember]
  simp [Json.DescribesBelow, Json.hasType_iff, and_assoc]

/-- What is found at a path is what is read of the description to which its names lead. -/
theorem Tree.lookup_mapValues_ofJson {members : NameMap Json} {names : List String}
    {attr : Attribute} :
    lookup (members.mapValues Attribute.ofJson) names = some attr ↔
      ∃ reached, Json.Leads members names reached ∧ Attribute.ofJson reached = attr := by
  -- Induction on the names, with one description on the left for each attribute on the right.
  induction names generalizing members with
  | nil => exact iff_of_false nofun nofun
  | cons name names ih =>
    cases names with
    | nil =>
      rw [lookup, NameMap.get?_mapValues, Option.map_eq_some_iff]
      refine exists_congr fun json => and_congr_left fun _ => ⟨.last, fun h => ?_⟩
      cases h with
      | last hget => exact hget
      | down _ _ hnone => cases hnone
    | cons next names =>
      rw [lookup, NameMap.get?_mapValues]
      constructor
      · intro h
        obtain ⟨attr', hget, hbelow⟩ := Option.bind_eq_some_iff.1 h
        obtain ⟨below, hnested, hlookup⟩ := Option.bind_eq_some_iff.1 hbelow
        obtain ⟨json, hjson, rfl⟩ := Option.map_eq_some_iff.1 hget
        obtain ⟨described, hdescribed, rfl⟩ := Attribute.nested?_ofJson.1 hnested
        obtain ⟨reached, hleads, hreached⟩ := ih.1 hlookup
        exact ⟨reached, .down hjson hdescribed hleads, hreached⟩
      · rintro ⟨reached, hleads, hreached⟩
        cases hleads with
        | down hjson hdescribed hleads =>
          rw [hjson]
          simp only [Option.map_some, Option.bind_eq_bind, Option.bind_some,
            Attribute.nested?_ofJson.2 ⟨_, hdescribed, rfl⟩]
          exact ih.2 ⟨reached, hleads, hreached⟩

/-- Attributes are read of an object and of nothing else, whatever stands below. An attribute is
found at a path exactly if the names of the path lead through the object, and it is the one that the
value described to which they lead. -/
theorem Tree.ofJson_exact (json : Json) :
    ((∃ error, ofJson json = .error error) ↔ ∀ members, json ≠ .object members) ∧
    ∀ members, json = .object members → ∃ tree, ofJson json = .ok tree ∧ ∀ names,
      ((tree.lookup names).isSome ↔ ∃ reached, Json.Leads members names reached) ∧
      ∀ attr, tree.lookup names = some attr →
        ∃ reached, Json.Leads members names reached ∧ reached.Describes attr := by
  constructor
  · cases json with
    | object members => simp [ofJson_object]
    | null => exact iff_of_true ⟨_, rfl⟩ nofun
    | bool value => exact iff_of_true ⟨_, rfl⟩ nofun
    | number value => exact iff_of_true ⟨_, rfl⟩ nofun
    | string value => exact iff_of_true ⟨_, rfl⟩ nofun
    | array items => exact iff_of_true ⟨_, rfl⟩ nofun
  · rintro members rfl
    refine ⟨_, ofJson_object members, fun names => ⟨?_, fun attr h => ?_⟩⟩
    · simp only [Option.isSome_iff_exists, lookup_mapValues_ofJson]
      exact ⟨fun ⟨_, reached, hleads, _⟩ => ⟨reached, hleads⟩,
        fun ⟨reached, hleads⟩ => ⟨_, reached, hleads, rfl⟩⟩
    · obtain ⟨reached, hleads, rfl⟩ := lookup_mapValues_ofJson.1 h
      exact ⟨reached, hleads, Attribute.describes_ofJson reached⟩

/-- A list whose type is wrapped, and below it an attribute whose type is written in small letters,
beside a value that is no object. -/
def socketDescriptions : NameMap Json :=
  .ofList [("socket", .object (.ofList
    [("type", .object (.ofList [("TYPE_MODEL_VALUE", .string "LIST")])),
      ("value-type", .object (.ofList
        [("port", .object (.ofList [("type", .string "int"), ("access-type", .string "metric")])),
          ("broken", .bool true)]))]))]

theorem Tree.ofJson_exact_socket :
    ∃ tree : Tree, ofJson (.object socketDescriptions) = .ok tree ∧
      tree.lookup ["socket", "port"] = some (.mk (.primitive .int) .metric none) ∧
      (∃ reached, Json.Leads socketDescriptions ["socket", "port"] reached ∧
        reached.Describes (.mk (.primitive .int) .metric none)) ∧
      (∃ reached, Json.Leads socketDescriptions ["socket", "broken"] reached) ∧
      ∀ reached, ¬ Json.Leads socketDescriptions ["socket", "port", "port"] reached := by
  obtain ⟨tree, hread, hfound⟩ := (ofJson_exact (.object socketDescriptions)).2 _ rfl
  obtain rfl : socketDescriptions.mapValues Attribute.ofJson = tree := by
    rw [ofJson_object] at hread
    exact Except.ok.inj hread
  have hupper : "int".map Char.toUpper = "INT" := by simp [← String.toList_inj]
  have hint : PrimitiveType.ofName "int" = .int := by
    rw [PrimitiveType.ofName, hupper]
    rfl
  have hport : lookup (socketDescriptions.mapValues Attribute.ofJson) ["socket", "port"] =
      some (.mk (.primitive .int) .metric none) := by
    rw [← hint]
    rfl
  refine ⟨_, hread, hport, (hfound _).2 _ hport, (hfound _).1.1 rfl, fun reached hleads => ?_⟩
  have hsome := (hfound ["socket", "port", "port"]).1.2 ⟨reached, hleads⟩
  cases hsome

end AttributeShell
