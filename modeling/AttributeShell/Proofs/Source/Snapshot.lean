import AttributeShell.Results
import AttributeShell.Source.Snapshot

/-!
Which entry of a snapshot answers for an address (`Snapshot.Answering`). The own text of the address
comes first, and then any other text that is read as the address; as long as the own text is read
back as the address, the entry is always one of its own, and other entries do not count
(`Snapshot.answer_congr`).
-/

namespace AttributeShell

namespace Snapshot

variable {snapshot other : Snapshot} {address : Address} {key : String} {response : Json}

/-- The key under which an address is described: its own text, or the first of all the keys that are
read as the address. -/
structure Answering (snapshot : Snapshot) (address : Address) (key : String) : Prop where
  mem : key ∈ snapshot.names
  denotes : Address.parse key = .ok address
  first : key = address.text ∨ address.text ∉ snapshot.names ∧
    ∀ other ∈ snapshot.names, Address.parse other = .ok address → key ≤ other

theorem denotes_iff : denotes key address ↔ Address.parse key = .ok address := by
  rw [denotes]
  cases Address.parse key <;> simp

theorem keyOf?_eq_some_iff (htext : Address.parse address.text = .ok address) :
    snapshot.keyOf? address = some key ↔ snapshot.Answering address key := by
  rw [keyOf?]
  split
  · rename_i hown
    constructor
    · rintro ⟨⟩
      exact ⟨hown, htext, .inl rfl⟩
    · rintro ⟨-, -, rfl | ⟨hnot, -⟩⟩
      · rfl
      · exact absurd hown hnot
  · rename_i hown
    simp only [NameMap.find?_names_eq_some_iff, denotes_iff]
    constructor
    · rintro ⟨hmem, hdenotes, hleast⟩
      exact ⟨hmem, hdenotes, .inr ⟨hown, hleast⟩⟩
    · rintro ⟨hmem, hdenotes, rfl | ⟨-, hleast⟩⟩
      · exact absurd hmem hown
      · exact ⟨hmem, hdenotes, hleast⟩

theorem keyOf?_eq_none_iff (htext : Address.parse address.text = .ok address) :
    snapshot.keyOf? address = none ↔ ∀ key ∈ snapshot.names, Address.parse key ≠ .ok address := by
  rw [keyOf?]
  split
  · rename_i hown
    exact iff_of_false nofun fun hnone => hnone _ hown htext
  · simp [denotes_iff]

theorem answer_of_answering (htext : Address.parse address.text = .ok address)
    (h : snapshot.Answering address key) (hget : snapshot.get? key = some response) :
    snapshot.answer address = Tree.ofResponse response := by
  rw [answer, entry?, (keyOf?_eq_some_iff htext).2 h, Option.bind_some, hget]

theorem answer_of_unknown (htext : Address.parse address.text = .ok address)
    (h : ∀ key ∈ snapshot.names, Address.parse key ≠ .ok address) :
    snapshot.answer address = .ok none := by
  rw [answer, entry?, (keyOf?_eq_none_iff htext).2 h, Option.bind_none]

/-- If some key is read as the address, one of them answers. -/
theorem exists_answering (htext : Address.parse address.text = .ok address)
    (h : ∃ key ∈ snapshot.names, Address.parse key = .ok address) :
    ∃ key response, snapshot.Answering address key ∧ snapshot.get? key = some response := by
  obtain ⟨key, hmem, hdenotes⟩ := h
  cases hkey : snapshot.keyOf? address with
  | none => exact absurd hdenotes ((keyOf?_eq_none_iff htext).1 hkey key hmem)
  | some found =>
    have hanswering := (keyOf?_eq_some_iff htext).1 hkey
    obtain ⟨response, hget⟩ := Option.isSome_iff_exists.1 (NameMap.get?_isSome.2 hanswering.mem)
    exact ⟨found, response, hanswering, hget⟩

/-- The only key that is read as the address answers, however it is written. -/
theorem answering_of_only (htext : Address.parse address.text = .ok address)
    (hmem : key ∈ snapshot.names) (hdenotes : Address.parse key = .ok address)
    (honly : ∀ rest ∈ snapshot.names, Address.parse rest = .ok address → rest = key) :
    snapshot.Answering address key := by
  refine ⟨hmem, hdenotes, ?_⟩
  by_cases hown : address.text ∈ snapshot.names
  · exact .inl (honly _ hown htext).symm
  · exact .inr ⟨hown, fun rest hrest hread => Std.le_of_eq (honly rest hrest hread).symm⟩

/-! ### What does not count -/

theorem Answering.of_agree (h : snapshot.Answering address key)
    (htext : Address.parse address.text = .ok address)
    (hagree : ∀ key, Address.parse key = .ok address → other.get? key = snapshot.get? key) :
    other.Answering address key := by
  have hmem (key : String) (hread : Address.parse key = .ok address) :
      key ∈ other.names ↔ key ∈ snapshot.names := by
    rw [← NameMap.get?_isSome, ← NameMap.get?_isSome, hagree key hread]
  refine ⟨(hmem key h.denotes).2 h.mem, h.denotes, h.first.imp_right ?_⟩
  rintro ⟨hown, hleast⟩
  exact ⟨mt (hmem _ htext).1 hown,
    fun rest hrest hread => hleast rest ((hmem rest hread).1 hrest) hread⟩

/-- Nothing counts but the entries under keys that are read as the address. -/
theorem answer_congr (htext : Address.parse address.text = .ok address)
    (hagree : ∀ key, Address.parse key = .ok address → other.get? key = snapshot.get? key) :
    other.answer address = snapshot.answer address := by
  by_cases hknown : ∃ key ∈ snapshot.names, Address.parse key = .ok address
  · obtain ⟨key, response, hanswering, hget⟩ := exists_answering htext hknown
    rw [answer_of_answering htext hanswering hget,
      answer_of_answering htext (hanswering.of_agree htext hagree)
        ((hagree key hanswering.denotes).trans hget)]
  · have hunknown : ∀ key ∈ snapshot.names, Address.parse key ≠ .ok address :=
      fun key hmem hread => hknown ⟨key, hmem, hread⟩
    rw [answer_of_unknown htext hunknown, answer_of_unknown htext]
    intro key hmem hread
    rw [← NameMap.get?_isSome, hagree key hread, NameMap.get?_isSome] at hmem
    exact hunknown key hmem hread

/-- The only key that is read as the address can be written in any other way. -/
theorem answer_renamed {renamed : String} (htext : Address.parse address.text = .ok address)
    (hget : snapshot.get? key = some response) (hdenotes : Address.parse key = .ok address)
    (honly : ∀ rest ∈ snapshot.names, Address.parse rest = .ok address → rest = key)
    (hrenamed : Address.parse renamed = .ok address) :
    answer ((snapshot.erase key).insert renamed response) address = snapshot.answer address := by
  have hmem : key ∈ snapshot.names := by
    rw [← NameMap.get?_isSome, hget]
    rfl
  have hnew : ((snapshot.erase key).insert renamed response).get? renamed = some response := by
    simp
  have honly' : ∀ rest ∈ ((snapshot.erase key).insert renamed response).names,
      Address.parse rest = .ok address → rest = renamed := by
    -- The old key is gone, and no other was read as the address.
    intro rest hrest hread
    refine Classical.byContradiction fun hne => ?_
    rw [← NameMap.get?_isSome, NameMap.get?_insert, if_neg hne, NameMap.get?_erase] at hrest
    split at hrest
    · cases hrest
    · rename_i hkey
      exact hkey (honly rest (NameMap.get?_isSome.1 hrest) hread)
  rw [answer_of_answering htext (answering_of_only htext hmem hdenotes honly) hget]
  refine answer_of_answering htext (answering_of_only htext ?_ hrenamed honly') hnew
  rw [← NameMap.get?_isSome, hnew]
  rfl

/-! ### Addresses that are listed -/

theorem exists_key_of_addresses {listed : List Address} (h : snapshot.addresses = .ok listed)
    (hmem : address ∈ listed) : ∃ key ∈ snapshot.names, Address.parse key = .ok address := by
  have hread : (.ok address : Except SchemaError Address) ∈ listed.map .ok :=
    List.mem_map_of_mem hmem
  rw [addresses, mapM_eq_ok_iff] at h
  rw [← h] at hread
  obtain ⟨key, hkey, hparse⟩ := List.mem_map.1 hread
  refine ⟨key, hkey, ?_⟩
  cases hresult : Address.parse key with
  | error error =>
    rw [hresult] at hparse
    cases hparse
  | ok found =>
    rw [hresult] at hparse
    cases hparse
    rfl

end Snapshot

namespace Source

theorem fetch_snapshot {files : Files} {path : String} {snapshot : Snapshot}
    (hloaded : Snapshot.load files path = .ok snapshot) (now : Nat) (address : Address) :
    (Source.snapshot path).fetch now address files = (snapshot.answer address, files) := by
  simp only [Source.snapshot, hloaded]

/-- An address that is read back from its text is answered from a snapshot exactly if some key is
read as the address, and then from the entry under its own text or under the first such key. Other
entries do not count, nor does the way in which a single such key is written. All addresses that are
listed are answered so. -/
theorem snapshot_answers {files : Files} {path : String} {snapshot : Snapshot} {address : Address}
    (hloaded : Snapshot.load files path = .ok snapshot)
    (htext : Address.parse address.text = .ok address) (now : Nat) :
    let answer (files : Files) : Answer := ((Source.snapshot path).fetch now address files).1
    ((∀ key ∈ snapshot.names, Address.parse key ≠ .ok address) → answer files = .ok none) ∧
    ((∃ key ∈ snapshot.names, Address.parse key = .ok address) →
      ∃ key response, snapshot.Answering address key ∧ snapshot.get? key = some response ∧
        answer files = Tree.ofResponse response) ∧
    (∀ files' changed, Snapshot.load files' path = .ok changed →
      (∀ key, Address.parse key = .ok address → changed.get? key = snapshot.get? key) →
      answer files' = answer files) ∧
    (∀ key response renamed files', snapshot.get? key = some response →
      Address.parse key = .ok address →
      (∀ rest ∈ snapshot.names, Address.parse rest = .ok address → rest = key) →
      Address.parse renamed = .ok address →
      Snapshot.load files' path = .ok ((snapshot.erase key).insert renamed response) →
      answer files' = answer files) ∧
    ∀ listed, (Snapshot.load files path).bind Snapshot.addresses = .ok listed → address ∈ listed →
      ∃ key response, Address.parse key = .ok address ∧ snapshot.get? key = some response ∧
        answer files = Tree.ofResponse response := by
  intro answer
  have hanswer {files : Files} {snapshot : Snapshot}
      (hloaded : Snapshot.load files path = .ok snapshot) :
      answer files = snapshot.answer address := by
    simp only [answer, fetch_snapshot hloaded]
  have hknown (h : ∃ key ∈ snapshot.names, Address.parse key = .ok address) :
      ∃ key response, snapshot.Answering address key ∧ snapshot.get? key = some response ∧
        answer files = Tree.ofResponse response := by
    obtain ⟨key, response, hanswering, hget⟩ := Snapshot.exists_answering htext h
    refine ⟨key, response, hanswering, hget, ?_⟩
    rw [hanswer hloaded, Snapshot.answer_of_answering htext hanswering hget]
  refine ⟨fun hunknown => ?_, hknown, fun files' changed hload hagree => ?_,
    fun key response renamed files' hget hdenotes honly hrenamed hload => ?_,
    fun listed hlisted hmem => ?_⟩
  · rw [hanswer hloaded, Snapshot.answer_of_unknown htext hunknown]
  · rw [hanswer hload, hanswer hloaded, Snapshot.answer_congr htext hagree]
  · rw [hanswer hload, hanswer hloaded, Snapshot.answer_renamed htext hget hdenotes honly hrenamed]
  · rw [hloaded] at hlisted
    obtain ⟨key, response, hanswering, hget, heq⟩ :=
      hknown (Snapshot.exists_key_of_addresses hlisted hmem)
    exact ⟨key, response, hanswering.denotes, hget, heq⟩

/-- A response that describes nothing, under a key with a slash at its end, beside a key that is no
address. -/
def slashedSnapshot : Snapshot :=
  .ofList [("/a=b/", .object (.ofList [("result", .array [])])), ("c", .bool true)]

theorem snapshot_answers_respelled :
    let files : Files :=
      ⟨[("model", .ok "\x7b\"/a=b/\": \x7b\"result\": []\x7d, \"c\": true\x7d")]⟩
    let respelled : Files :=
      ⟨[("model", .ok "\x7b\"c\": true, \" /a=b\": \x7b\"result\": []\x7d\x7d")]⟩
    Snapshot.load files "model" = .ok slashedSnapshot ∧
      (∃ key response, slashedSnapshot.Answering ⟨[⟨"a", "b"⟩]⟩ key ∧
        slashedSnapshot.get? key = some response ∧
        ((snapshot "model").fetch 0 ⟨[⟨"a", "b"⟩]⟩ files).1 = Tree.ofResponse response) ∧
      ((snapshot "model").fetch 0 ⟨[⟨"a", "b"⟩]⟩ respelled).1 =
        ((snapshot "model").fetch 0 ⟨[⟨"a", "b"⟩]⟩ files).1 ∧
      ((snapshot "model").fetch 0 .root files).1 = .ok none := by
  intro files respelled
  have hloaded : Snapshot.load files "model" = .ok slashedSnapshot := by
    rw [slashedSnapshot]
    rfl
  have hslashed : Address.parse "/a=b/" = .ok ⟨[⟨"a", "b"⟩]⟩ := rfl
  have hbare : Address.parse "c" = .error (.invalidAddress "c") := rfl
  have hkeys : ∀ key ∈ slashedSnapshot.names, key = "/a=b/" ∨ key = "c" := by
    have hnames : slashedSnapshot.names = ["/a=b/", "c"] := rfl
    simp [hnames]
  have honly : ∀ key ∈ slashedSnapshot.names, Address.parse key = .ok ⟨[⟨"a", "b"⟩]⟩ →
      key = "/a=b/" := by
    intro key hkey hread
    obtain rfl | rfl := hkeys key hkey
    · rfl
    · cases hbare.symm.trans hread
  have hunknown : ∀ key ∈ slashedSnapshot.names, Address.parse key ≠ .ok .root := by
    intro key hkey hread
    obtain rfl | rfl := hkeys key hkey
    · cases hslashed.symm.trans hread
    · cases hbare.symm.trans hread
  have hentry : slashedSnapshot.get? "/a=b/" =
      some (.object (.ofList [("result", .array [])])) := rfl
  have hmoved : Snapshot.load respelled "model" =
      .ok ((slashedSnapshot.erase "/a=b/").insert " /a=b"
        (.object (.ofList [("result", .array [])]))) := by
    have hread : Snapshot.load respelled "model" = .ok (.ofList
        [("c", .bool true), (" /a=b", .object (.ofList [("result", .array [])]))]) := rfl
    rw [hread]
    refine congrArg _ (NameMap.eq_of_get? fun name => ?_)
    by_cases hc : name = "c"
    · subst hc
      rfl
    · by_cases hslash : name = "/a=b/" <;> simp [slashedSnapshot, NameMap.ofList, hc, hslash]
  have htext : Address.parse (Address.text ⟨[⟨"a", "b"⟩]⟩) = .ok ⟨[⟨"a", "b"⟩]⟩ := rfl
  obtain ⟨-, hknown, -, hrenamed, -⟩ := snapshot_answers hloaded htext 0
  obtain ⟨hmissing, -⟩ := snapshot_answers hloaded (rfl : Address.parse Address.root.text = _) 0
  exact ⟨hloaded, hknown ⟨"/a=b/", NameMap.get?_isSome.1 rfl, hslashed⟩,
    hrenamed "/a=b/" _ " /a=b" respelled hentry hslashed honly rfl hmoved, hmissing hunknown⟩

end Source

end AttributeShell
