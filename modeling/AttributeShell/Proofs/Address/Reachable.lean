import AttributeShell.Address
import AttributeShell.Results

/-!
Addresses that can be reached: those that are read from a text, and what comes of them by resolving
targets and going up. All their nodes are well formed, as both of the loops that make nodes cut the
text into parts at its slashes, and a part at its first equals sign.
-/

namespace AttributeShell

namespace AddressNode

/-- The type and the name stand, as a part of an address, for nothing but this node. -/
structure WellFormed (node : AddressNode) : Prop where
  type_ne : node.type ≠ ""
  name_ne : node.name ≠ ""
  equals_type : '=' ∉ node.type.toList
  slash_type : '/' ∉ node.type.toList
  slash_name : '/' ∉ node.name.toList

/-- A node as a part of an address. -/
def part (node : AddressNode) : List Char := node.type.toList ++ '=' :: node.name.toList

theorem part_ne_nil (node : AddressNode) : node.part ≠ [] := by simp [part]

theorem WellFormed.slash_part {node : AddressNode} (h : node.WellFormed) : '/' ∉ node.part := by
  simp [part, h.slash_type, h.slash_name]

/-- A part is read as the node that it is, unless the name is empty. -/
theorem ofPart?_part {node : AddressNode} (htype : node.type ≠ "")
    (hequals : '=' ∉ node.type.toList) :
    ofPart? node.part = if node.name = "" then none else some node := by
  simp [ofPart?, part, Text.splitOnce_append hequals, htype]

theorem ofPart?_eq_some {cs : List Char} {node : AddressNode} :
    ofPart? cs = some node ↔
      cs = node.part ∧ node.type ≠ "" ∧ node.name ≠ "" ∧ '=' ∉ node.type.toList := by
  constructor
  · intro h
    rw [ofPart?] at h
    cases hcut : Text.splitOnce '=' cs with
    | none =>
      rw [hcut] at h
      cases h
    | some halves =>
      obtain ⟨type, name⟩ := halves
      obtain ⟨hcs, hequals⟩ := Text.splitOnce_eq_some hcut
      simp only [hcut, Bool.or_eq_true, List.isEmpty_iff] at h
      split at h
      · cases h
      · rename_i hne
        cases h
        rw [not_or] at hne
        exact ⟨by simp [part, hcs], by simpa using hne.1, by simpa using hne.2,
          by simpa using hequals⟩
  · rintro ⟨rfl, htype, hname, hequals⟩
    rw [ofPart?_part htype hequals, if_neg hname]

theorem WellFormed.ofPart?_part {node : AddressNode} (h : node.WellFormed) :
    ofPart? node.part = some node := by
  rw [AddressNode.ofPart?_part h.type_ne h.equals_type, if_neg h.name_ne]

/-- Well-formed nodes are read back from their parts. -/
theorem map_ofPart?_part {nodes : List AddressNode} (h : ∀ node ∈ nodes, node.WellFormed) :
    (nodes.map part).map ofPart? = nodes.map some := by
  rw [List.map_map]
  exact List.map_congr_left fun node hnode => (h node hnode).ofPart?_part

theorem wellFormed_of_ofPart? {cs : List Char} {node : AddressNode} (h : ofPart? cs = some node)
    (hslash : '/' ∉ cs) : node.WellFormed := by
  obtain ⟨rfl, htype, hname, hequals⟩ := ofPart?_eq_some.1 h
  simp only [part, List.mem_append, List.mem_cons, not_or] at hslash
  exact ⟨htype, hname, hequals, hslash.1, hslash.2.2⟩

end AddressNode

namespace Address

/-- All nodes are well formed. -/
def WellFormed (address : Address) : Prop := ∀ node ∈ address.nodes, node.WellFormed

variable {address resolved : Address} {text target : String}

/-! ### Reading and resolving -/

theorem parse_eq_ok :
    parse text = .ok address ↔
      ∃ rest, (Text.trim text).toList = '/' :: rest ∧
        (Text.parts '/' rest).map AddressNode.ofPart? = address.nodes.map some := by
  simp only [parse, nodesOf?]
  split
  · rename_i rest htext
    rw [htext]
    simp only [List.cons.injEq, true_and, exists_eq_left', ← mapM_eq_some_iff]
    cases (Text.parts '/' rest).mapM AddressNode.ofPart? with
    | none => simp
    | some nodes => cases address; simp
  · rename_i hother
    simp only [reduceCtorEq, false_iff]
    rintro ⟨rest, htext, -⟩
    exact hother rest htext

theorem wellFormed_of_parse (h : parse text = .ok address) : address.WellFormed := by
  obtain ⟨rest, -, hnodes⟩ := parse_eq_ok.1 h
  intro node hnode
  have hmem : some node ∈ (Text.parts '/' rest).map AddressNode.ofPart? := by
    rw [hnodes]
    exact List.mem_map_of_mem hnode
  obtain ⟨part, hpart, hread⟩ := List.mem_map.1 hmem
  exact AddressNode.wellFormed_of_ofPart? hread (Text.notMem_of_mem_parts hpart)

theorem WellFormed.parent (h : address.WellFormed) : address.parent.WellFormed :=
  fun node hnode => h node (List.dropLast_subset _ hnode)

/-- One part of a target, which holds no slash, keeps nodes well formed. -/
theorem WellFormed.follow? {part : List Char} (h : address.WellFormed) (hslash : '/' ∉ part)
    (hfollow : address.follow? part = some resolved) : resolved.WellFormed := by
  rw [Address.follow?] at hfollow
  split at hfollow
  · cases hfollow
    exact h.parent
  · obtain ⟨node, hread, rfl⟩ := Option.map_eq_some_iff.1 hfollow
    intro other hother
    obtain hmem | hmem := List.mem_append.1 hother
    · exact h other hmem
    · rw [List.mem_singleton.1 hmem]
      exact AddressNode.wellFormed_of_ofPart? hread hslash

theorem WellFormed.foldlM_follow? {parts : List (List Char)} (h : address.WellFormed)
    (hslash : ∀ part ∈ parts, '/' ∉ part)
    (hfollow : parts.foldlM Address.follow? address = some resolved) : resolved.WellFormed := by
  induction parts generalizing address with
  | nil =>
    cases hfollow
    exact h
  | cons part parts ih =>
    rw [List.foldlM_cons] at hfollow
    obtain ⟨next, hnext, hrest⟩ := Option.bind_eq_some_iff.1 hfollow
    obtain ⟨hpart, hparts⟩ := List.forall_mem_cons.1 hslash
    exact ih (h.follow? hpart hnext) hparts hrest

theorem WellFormed.resolve (h : address.WellFormed)
    (hresolve : address.resolve target = .ok resolved) : resolved.WellFormed := by
  simp only [Address.resolve] at hresolve
  split at hresolve
  · exact wellFormed_of_parse hresolve
  · split at hresolve
    · rename_i hfollow
      cases hresolve
      exact h.foldlM_follow? (fun part hpart => Text.notMem_of_mem_parts hpart) hfollow
    · cases hresolve

/-! ### Reaching -/

/-- Reached from an address that is read, by resolving targets and going up. -/
inductive Reachable : Address → Prop where
  | parsed {text : String} {address : Address} : parse text = .ok address → Reachable address
  | resolved {address resolved : Address} {target : String} : Reachable address →
      address.resolve target = .ok resolved → Reachable resolved
  | parent {address : Address} : Reachable address → Reachable address.parent

theorem Reachable.wellFormed (h : Reachable address) : address.WellFormed := by
  induction h with
  | parsed hparse => exact wellFormed_of_parse hparse
  | resolved _ hresolve ih => exact ih.resolve hresolve
  | parent _ ih => exact ih.parent

end Address

end AttributeShell
