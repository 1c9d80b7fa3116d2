import AttributeShell.Proofs.Address.RoundTrip
import AttributeShell.Shell.Prompt
import AttributeShell.Source.Snapshot

/-!
Addresses that can be reached are told apart by their texts. The slashes cut a text into the parts
that its nodes are written as, and no two nodes are written as one part, as a part is cut at its
first equals sign. Unlike reading a text back, this holds of every address that can be reached:
white space at the end of the last name is dropped by a reader, but it stands in the text.
-/

namespace AttributeShell

namespace Address

variable {address first second : Address}

/-- The slashes cut the text of an address into the parts that its nodes are written as. -/
theorem WellFormed.parts_text (h : address.WellFormed) :
    Text.parts '/' address.text.toList = address.nodes.map AddressNode.part := by
  rw [text]
  split
  · next hroot =>
    rw [List.isEmpty_iff.1 hroot]
    rfl
  · rw [String.toList_ofList]
    exact parts_flatMap_writeNode fun node hnode => (h node hnode).slash_part

theorem WellFormed.eq_of_text_eq (hfirst : first.WellFormed) (hsecond : second.WellFormed)
    (htext : first.text = second.text) : first = second := by
  have hparts : first.nodes.map AddressNode.part = second.nodes.map AddressNode.part := by
    rw [← hfirst.parts_text, ← hsecond.parts_text, htext]
  have hnodes : first.nodes.map some = second.nodes.map some := by
    rw [← AddressNode.map_ofPart?_part hfirst, ← AddressNode.map_ofPart?_part hsecond, hparts]
  rw [List.map_inj_right fun _ _ => Option.some.inj] at hnodes
  cases first
  cases second
  rw [Address.mk.injEq]
  exact hnodes

/-- A prompt shows the whole text of the address. -/
theorem eq_of_prompt_eq {firstText secondText : String} {writableOnly : Bool}
    (h : Prompt.left firstText writableOnly = Prompt.left secondText writableOnly) :
    firstText = secondText := by
  simpa [Prompt.left, ← String.toList_inj] using h

/-- A resource that a snapshot describes under the text of its address is looked up there. -/
theorem keyOf?_eq_text {snapshot : Snapshot} (h : address.text ∈ snapshot.names) :
    snapshot.keyOf? address = some address.text :=
  if_pos h

/-- Addresses that can be reached are well formed, and no two of them have the same text. So a
prompt stands for one resource, and a snapshot that describes two resources under their own texts
looks them up under two keys. -/
theorem text_inj_of_reachable (hfirst : first.Reachable) (hsecond : second.Reachable) :
    (∀ node ∈ first.nodes, node.WellFormed) ∧ (first.text = second.text ↔ first = second) ∧
    (∀ writableOnly, Prompt.left first.text writableOnly = Prompt.left second.text writableOnly ↔
      first = second) ∧
    ∀ snapshot : Snapshot, first.text ∈ snapshot.names → second.text ∈ snapshot.names →
      (snapshot.keyOf? first = snapshot.keyOf? second ↔ first = second) := by
  have hinj : first.text = second.text ↔ first = second :=
    ⟨hfirst.wellFormed.eq_of_text_eq hsecond.wellFormed, congrArg text⟩
  refine ⟨hfirst.wellFormed, hinj, fun writableOnly => ?_, fun snapshot hfirstKey hsecondKey => ?_⟩
  · rw [← hinj]
    exact ⟨eq_of_prompt_eq, fun h => by rw [h]⟩
  · rw [keyOf?_eq_text hfirstKey, keyOf?_eq_text hsecondKey, Option.some.injEq, hinj]

/-- A name that holds equals signs, dots and white space, and another that lacks only the white
space at its end. -/
theorem text_inj_of_reachable_spaced :
    let first : Address := ⟨[⟨"a", "b=.. "⟩]⟩
    let second : Address := ⟨[⟨"a", "b=.."⟩]⟩
    let snapshot : Snapshot := ((∅ : Snapshot).insert "/a=b=.. " .null).insert "/a=b=.." .null
    (parse "/a=b=.. /" = .ok first ∧ first.resolve "../a=b=.." = .ok second) ∧
    (∀ node ∈ first.nodes, node.WellFormed) ∧ first.text ≠ second.text ∧
    Prompt.left first.text false ≠ Prompt.left second.text false ∧
    (first.text ∈ snapshot.names ∧ second.text ∈ snapshot.names) ∧
    snapshot.keyOf? first ≠ snapshot.keyOf? second := by
  intro first second snapshot
  have hparse : parse "/a=b=.. /" = .ok first := rfl
  have hresolve : first.resolve "../a=b=.." = .ok second := rfl
  have hne : first ≠ second := by decide
  have hfirst : first.text ∈ snapshot.names := by decide
  have hsecond : second.text ∈ snapshot.names := by decide
  obtain ⟨hwell, htext, hprompt, hkey⟩ :=
    text_inj_of_reachable (.parsed hparse) (.resolved (.parsed hparse) hresolve)
  exact ⟨⟨hparse, hresolve⟩, hwell, mt htext.1 hne, mt (hprompt false).1 hne, ⟨hfirst, hsecond⟩,
    mt (hkey snapshot hfirst hsecond).1 hne⟩

end Address

end AttributeShell
