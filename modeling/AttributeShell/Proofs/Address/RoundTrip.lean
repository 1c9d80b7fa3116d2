import Mathlib.Data.List.Induction
import AttributeShell.Proofs.Address.Reachable

/-!
Reading the text of an address. The text is cut at the slashes into the parts that its nodes are
written as, and each of them is read as its node. Only the last one can change: reading begins by
dropping the white space at both ends of the whole text, and what comes last in the text is the name
of the last node, where white space may stand.
-/

namespace AttributeShell

namespace AddressNode

variable {node : AddressNode}

/-- The node as it is read from the end of a text. -/
def clipped (node : AddressNode) : AddressNode :=
  { node with name := String.ofList (Text.dropBlankEnd node.name.toList) }

@[simp] theorem type_clipped : node.clipped.type = node.type := rfl

@[simp] theorem toList_name_clipped :
    node.clipped.name.toList = Text.dropBlankEnd node.name.toList :=
  String.toList_ofList

theorem clipped_eq_self_iff :
    node.clipped = node ↔ node.name.toList.getLast?.any Text.isBlank = false := by
  have hname : node.clipped = node ↔ node.clipped.name = node.name := by
    cases node
    simp [clipped]
  rw [hname, ← String.toList_inj, toList_name_clipped, Text.dropBlankEnd_eq_self_iff]

theorem WellFormed.slash_name_clipped (h : node.WellFormed) : '/' ∉ node.clipped.name.toList := by
  rw [toList_name_clipped]
  exact fun hslash => h.slash_name (Text.mem_of_mem_dropBlankEnd hslash)

theorem WellFormed.slash_part_clipped (h : node.WellFormed) : '/' ∉ node.clipped.part := by
  simp [part, -toList_name_clipped, h.slash_type, h.slash_name_clipped]

end AddressNode

namespace Address

/-- White space ends the text, at the end of the last name. -/
def endsBlank (address : Address) : Bool :=
  address.nodes.getLast?.any fun node => node.name.toList.getLast?.any Text.isBlank

variable {address read : Address} {nodes : List AddressNode} {last : AddressNode}

theorem writeNode_eq (node : AddressNode) : writeNode node = '/' :: node.part := rfl

/-- A text of nodes is cut into their parts. -/
theorem parts_flatMap_writeNode (h : ∀ node ∈ nodes, '/' ∉ node.part) :
    Text.parts '/' (nodes.flatMap writeNode) = nodes.map AddressNode.part := by
  induction nodes using List.reverseRecOn with
  | nil => rfl
  | append_singleton nodes last ih =>
    have hlast := h last (by simp)
    have hnodes := ih fun node hnode => h node (List.mem_append_left _ hnode)
    rw [List.flatMap_append, List.flatMap_singleton, writeNode_eq, Text.parts_append, hnodes,
      Text.parts_of_notMem hlast last.part_ne_nil, List.map_append, List.map_singleton]

/-- White space is dropped from the end of the last name alone. -/
theorem trimmed_flatMap_writeNode :
    Text.trimmed ((nodes ++ [last]).flatMap writeNode) =
      (nodes ++ [last.clipped]).flatMap writeNode := by
  have hslash : Text.isBlank '/' = false := rfl
  have hequals : Text.isBlank '=' = false := rfl
  have hstart : Text.dropBlank ((nodes ++ [last]).flatMap writeNode) =
      (nodes ++ [last]).flatMap writeNode := by
    cases nodes <;> exact Text.dropBlank_cons hslash _
  have hend (node : AddressNode) : (nodes ++ [node]).flatMap writeNode =
      (nodes.flatMap writeNode ++ '/' :: node.type.toList) ++ '=' :: node.name.toList := by
    simp [writeNode]
  rw [Text.trimmed, hstart, hend, hend, Text.dropBlankEnd_append hequals,
    AddressNode.toList_name_clipped, AddressNode.type_clipped]

/-- Reading a text of nodes gives back all but the last of them as they are. It fails exactly if the
last name is nothing but white space. -/
theorem parse_text_append (hnodes : ∀ node ∈ nodes, node.WellFormed) (hlast : last.WellFormed) :
    parse (mk (nodes ++ [last])).text = .ok read ↔
      last.clipped.name ≠ "" ∧ read.nodes = nodes ++ [last.clipped] := by
  have hslash : ∀ node ∈ nodes ++ [last.clipped], '/' ∉ node.part := by
    intro node hnode
    obtain hmem | hmem := List.mem_append.1 hnode
    · exact (hnodes node hmem).slash_part
    · rw [List.mem_singleton.1 hmem]
      exact hlast.slash_part_clipped
  have hparts := parts_flatMap_writeNode hslash
  obtain ⟨rest, hrest⟩ : ∃ rest, (nodes ++ [last.clipped]).flatMap writeNode = '/' :: rest := by
    cases nodes <;> exact ⟨_, rfl⟩
  have htext : (Text.trim (mk (nodes ++ [last])).text).toList = '/' :: rest := by
    have hroot : (mk (nodes ++ [last])).isRoot = false := by simp [isRoot]
    rw [text, hroot, Text.toList_trim, if_neg Bool.false_ne_true, String.toList_ofList,
      trimmed_flatMap_writeNode, hrest]
  have hlastRead : AddressNode.ofPart? last.clipped.part =
      if last.clipped.name = "" then none else some last.clipped :=
    AddressNode.ofPart?_part hlast.type_ne hlast.equals_type
  rw [hrest, Text.parts_cons_separator] at hparts
  rw [parse_eq_ok, htext]
  simp only [List.cons.injEq, true_and, exists_eq_left', hparts, List.map_append,
    AddressNode.map_ofPart?_part hnodes, List.map_singleton, hlastRead]
  by_cases hname : last.clipped.name = ""
  · rw [if_pos hname]
    refine iff_of_false (fun hread => ?_) fun hread => hread.1 hname
    have hmem : none ∈ read.nodes.map some := by
      rw [← hread]
      exact List.mem_append_right _ List.mem_cons_self
    simp at hmem
  · rw [if_neg hname, ← List.map_singleton, ← List.map_append,
      List.map_inj_right fun _ _ => Option.some.inj, eq_comm]
    exact (and_iff_right hname).symm

example : parse (mk [⟨"a", " "⟩]).text = .error (.invalidAddress "/a=") := rfl

/-- An address that can be reached is read back from its text exactly if no white space ends it. -/
theorem parse_text_iff (h : address.Reachable) :
    parse address.text = .ok address ↔ address.endsBlank = false := by
  have hwell := h.wellFormed
  obtain ⟨nodes⟩ := address
  obtain rfl | ⟨init, last, rfl⟩ := List.eq_nil_or_concat nodes
  · exact iff_of_true rfl rfl
  · rw [List.concat_eq_append] at hwell ⊢
    have hinit : ∀ node ∈ init, node.WellFormed :=
      fun node hnode => hwell node (List.mem_append_left _ hnode)
    have hlast : last.WellFormed := hwell last (by simp)
    have hblank : (mk (init ++ [last])).endsBlank = false ↔ last.clipped = last := by
      simp [endsBlank, AddressNode.clipped_eq_self_iff]
    rw [parse_text_append hinit hlast, hblank]
    constructor
    · rintro ⟨-, hread⟩
      simpa [eq_comm] using hread
    · intro hclipped
      rw [hclipped]
      exact ⟨hlast.name_ne, rfl⟩

/-- An address that is resolved from another is read back from its text. White space at the end of
a name that is left again does no harm. -/
theorem parse_text_resolved :
    ∃ start resolved, parse "/a=b" = .ok start ∧ start.resolve "c=d /../e=f=g" = .ok resolved ∧
      resolved.Reachable ∧ resolved.endsBlank = false ∧ resolved.text = "/a=b/e=f=g" ∧
      parse resolved.text = .ok resolved := by
  have hparse : parse "/a=b" = .ok ⟨[⟨"a", "b"⟩]⟩ := rfl
  have hresolve : resolve ⟨[⟨"a", "b"⟩]⟩ "c=d /../e=f=g" =
      .ok ⟨[⟨"a", "b"⟩, ⟨"e", "f=g"⟩]⟩ := rfl
  have hreachable : Reachable ⟨[⟨"a", "b"⟩, ⟨"e", "f=g"⟩]⟩ :=
    .resolved (.parsed hparse) hresolve
  exact ⟨_, _, hparse, hresolve, hreachable, rfl, rfl, (parse_text_iff hreachable).2 rfl⟩

/-- A slash keeps the white space in front of it, but it is not written at the end of the text. -/
theorem exists_parse_text_ne :
    ∃ address, parse "/a=b /" = .ok address ∧ address.Reachable ∧ address.endsBlank ∧
      address.text = "/a=b " ∧ parse address.text = .ok ⟨[⟨"a", "b"⟩]⟩ ∧
      parse address.text ≠ .ok address := by
  have hparse : parse "/a=b /" = .ok ⟨[⟨"a", "b "⟩]⟩ := rfl
  have hreread : parse (text ⟨[⟨"a", "b "⟩]⟩) = .ok ⟨[⟨"a", "b"⟩]⟩ := rfl
  refine ⟨_, hparse, .parsed hparse, rfl, rfl, hreread, ?_⟩
  rw [hreread]
  decide

end Address

end AttributeShell
