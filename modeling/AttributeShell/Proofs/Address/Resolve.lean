import AttributeShell.Proofs.Address.Reachable

/-!
Resolving targets. A target that does not start with a slash leads on part by part, so that joining
two targets by a slash is resolving the one and then the other. A target that starts with a slash
leads to one address from everywhere: the one to which it leads on from the root, unless it goes up.
-/

namespace AttributeShell.Address

variable {address resolved : Address} {target : String} {parts : List (List Char)}

/-! ### Going on by parts -/

theorem follow?_up : address.follow? ['.', '.'] = some address.parent := rfl

theorem follow?_of_ne {part : List Char} (h : part ≠ ['.', '.']) :
    address.follow? part =
      (AddressNode.ofPart? part).map fun node => ⟨address.nodes ++ [node]⟩ :=
  if_neg h

/-- Parts that do not lead up add the nodes that they are read as. -/
theorem foldlM_follow?_of_notMem (h : ['.', '.'] ∉ parts) :
    parts.foldlM follow? address =
      (parts.mapM AddressNode.ofPart?).map fun nodes => ⟨address.nodes ++ nodes⟩ := by
  induction parts generalizing address with
  | nil => simp
  | cons part parts ih =>
    obtain ⟨hpart, hparts⟩ := List.ne_and_not_mem_of_not_mem_cons h
    rw [List.foldlM_cons, List.mapM_cons, follow?_of_ne hpart.symm]
    cases AddressNode.ofPart? part with
    | none => rfl
    | some node =>
      simp only [Option.map_some, Option.bind_eq_bind, Option.bind_some, ih hparts]
      cases parts.mapM AddressNode.ofPart? <;> simp

/-- Going up takes away the last nodes, as far as there are any. -/
theorem foldlM_follow?_replicate_up (count : Nat) :
    (List.replicate count ['.', '.']).foldlM follow? address =
      some ⟨address.nodes.take (address.nodes.length - count)⟩ := by
  induction count generalizing address with
  | zero => simp
  | succ count ih =>
    have hshorter : min (address.nodes.length - 1 - count) (address.nodes.length - 1) =
        address.nodes.length - (count + 1) := by
      omega
    rw [List.replicate_succ, List.foldlM_cons, follow?_up, Option.bind_eq_bind, Option.bind_some,
      ih, parent, List.length_dropLast, List.dropLast_eq_take, List.take_take, hshorter]

/-- Going up as often as nodes have been entered leads back. -/
theorem foldlM_follow?_enter_leave {nodes : List AddressNode}
    (h : ∀ node ∈ nodes, node.WellFormed) :
    (nodes.map AddressNode.part ++ List.replicate nodes.length ['.', '.']).foldlM follow? address =
      some address := by
  have hread : (nodes.map AddressNode.part).mapM AddressNode.ofPart? = some nodes := by
    rw [mapM_eq_some_iff, AddressNode.map_ofPart?_part h]
  have hdown : ['.', '.'] ∉ nodes.map AddressNode.part := by
    intro hup
    obtain ⟨node, -, hpart⟩ := List.mem_map.1 hup
    have hequals : '=' ∈ node.part := by simp [AddressNode.part]
    rw [hpart] at hequals
    exact absurd hequals (by decide)
  rw [List.foldlM_append, foldlM_follow?_of_notMem hdown, hread, Option.map_some,
    Option.bind_eq_bind, Option.bind_some, foldlM_follow?_replicate_up]
  simp

/-! ### The two kinds of targets -/

theorem startsWith_slash_iff {text : String} :
    Text.startsWith text "/" ↔ ∃ rest, text.toList = '/' :: rest := by
  rw [Text.startsWith_iff]
  exact ⟨fun ⟨rest, h⟩ => ⟨rest, h.symm⟩, fun ⟨rest, h⟩ => ⟨rest, h.symm⟩⟩

/-- A target that does not start with a slash leads on from here. -/
theorem resolve_relative (h : Text.startsWith (Text.trim target) "/" = false) :
    address.resolve target = .ok resolved ↔
      (Text.parts '/' (Text.trim target).toList).foldlM follow? address = some resolved := by
  simp only [resolve]
  split
  · rename_i rest htext
    rw [startsWith_slash_iff.2 ⟨rest, htext⟩] at h
    cases h
  · split
    · rename_i hfollow
      rw [hfollow, Except.ok.injEq, Option.some.injEq]
    · rename_i hfollow
      rw [hfollow]
      simp

/-- Two targets joined by a slash lead on by the one and then by the other. -/
theorem resolve_join {first second : String} (hfirst : Text.trim first = first)
    (hsecond : Text.trim second = second) (hne : first ≠ "")
    (hrelative : Text.startsWith first "/" = false)
    (hnext : Text.startsWith second "/" = false) :
    address.resolve (first ++ "/" ++ second) = .ok resolved ↔
      ∃ middle, address.resolve first = .ok middle ∧ middle.resolve second = .ok resolved := by
  have htrim : Text.trim (first ++ "/" ++ second) = first ++ "/" ++ second := by
    rw [Text.trim_eq_self_iff] at hfirst hsecond ⊢
    have hjoined := Text.trimmed_append_cons (c := '/') rfl hfirst hsecond
    simpa using hjoined
  have hstart : Text.startsWith (first ++ "/" ++ second) "/" = false := by
    rw [← Bool.not_eq_true, startsWith_slash_iff] at hrelative ⊢
    obtain ⟨c, cs, hcs⟩ := List.exists_cons_of_ne_nil (mt String.toList_eq_nil_iff.1 hne)
    simp only [hcs, List.cons.injEq, not_exists, String.toList_append, List.cons_append]
      at hrelative ⊢
    exact fun rest h => hrelative cs ⟨h.1, rfl⟩
  have hparts : Text.parts '/' (first ++ "/" ++ second).toList =
      Text.parts '/' first.toList ++ Text.parts '/' second.toList := by
    have hjoined := Text.parts_append '/' first.toList second.toList
    simpa using hjoined
  rw [resolve_relative (by rwa [htrim]), htrim, hparts, List.foldlM_append, Option.bind_eq_bind,
    Option.bind_eq_some_iff]
  refine exists_congr fun middle => ?_
  rw [resolve_relative (by rwa [hfirst]), resolve_relative (by rwa [hsecond]), hfirst, hsecond]

/-- A slash in front, with no white space behind it at the end, is a slash of the target. -/
theorem trim_slash_append (h : Text.trim target = target) :
    Text.trim ("/" ++ target) = "/" ++ target := by
  rw [Text.trim_eq_self_iff] at h ⊢
  have hslash := Text.trimmed_append_cons (c := '/') rfl (rfl : Text.trimmed [] = []) h
  simpa using hslash

theorem toList_slash_append (target : String) : ("/" ++ target).toList = '/' :: target.toList := by
  simp

/-- A slash in front makes a target an address of its own. -/
theorem resolve_slash_append (h : Text.trim target = target) :
    address.resolve ("/" ++ target) = parse ("/" ++ target) := by
  simp only [resolve, trim_slash_append h, toList_slash_append]

/-- Behind a slash in front, a target is read as the nodes of an address. -/
theorem parse_slash_append_eq_ok (h : Text.trim target = target) :
    parse ("/" ++ target) = .ok resolved ↔ nodesOf? target.toList = some resolved.nodes := by
  simp [parse_eq_ok, trim_slash_append h, nodesOf?, mapM_eq_some_iff]

theorem parse_slash_append_of_none (h : Text.trim target = target)
    (hnodes : nodesOf? target.toList = none) :
    parse ("/" ++ target) = .error (.invalidAddress ("/" ++ target)) := by
  simp only [parse, trim_slash_append h, toList_slash_append, hnodes]

/-- Two dots are no node. -/
theorem nodesOf?_eq_none {cs : List Char} (h : ['.', '.'] ∈ Text.parts '/' cs) :
    nodesOf? cs = none := by
  rw [nodesOf?, Option.eq_none_iff_forall_ne_some]
  intro nodes hnodes
  rw [mapM_eq_some_iff] at hnodes
  have hmem : AddressNode.ofPart? ['.', '.'] ∈ nodes.map some := by
    rw [← hnodes]
    exact List.mem_map_of_mem h
  obtain ⟨node, -, hread⟩ := List.mem_map.1 hmem
  cases hread

/-- Leading on from the root is reading the nodes, if nothing leads up. -/
theorem resolve_root (h : Text.trim target = target)
    (hup : ['.', '.'] ∉ Text.parts '/' target.toList) :
    root.resolve target = .ok resolved ↔ nodesOf? target.toList = some resolved.nodes := by
  cases hslash : Text.startsWith target "/" with
  | true =>
    -- A slash too many in front makes an empty part, which does not count.
    obtain ⟨rest, hrest⟩ := startsWith_slash_iff.1 hslash
    have hresolve : root.resolve target = parse target := by
      simp only [resolve, h, hrest]
    rw [hresolve, parse_eq_ok, h, hrest]
    simp [nodesOf?, mapM_eq_some_iff]
  | false =>
    rw [resolve_relative (by rwa [h]), h, foldlM_follow?_of_notMem hup, nodesOf?]
    cases resolved
    simp [root]

/-! ### Composing -/

/-- Targets compose. Two of them joined by a slash lead where the second leads from where the first
leads, and nowhere if one of them leads nowhere. Behind a slash in front, a target leads to one
address from everywhere: to the one that it leads to from the root, and nowhere if it goes up at any
point. Going up as often as nodes have been entered leads back, and going up from the root stays
there. -/
theorem resolve_composes (address : Address) :
    (∀ first second, Text.trim first = first → Text.trim second = second → first ≠ "" →
      Text.startsWith first "/" = false → Text.startsWith second "/" = false →
      ∀ resolved, address.resolve (first ++ "/" ++ second) = .ok resolved ↔
        ∃ middle, address.resolve first = .ok middle ∧ middle.resolve second = .ok resolved) ∧
    (∀ target, Text.trim target = target →
      (∀ other : Address, other.resolve ("/" ++ target) = address.resolve ("/" ++ target)) ∧
      (['.', '.'] ∉ Text.parts '/' target.toList → ∀ resolved,
        address.resolve ("/" ++ target) = .ok resolved ↔ root.resolve target = .ok resolved) ∧
      (['.', '.'] ∈ Text.parts '/' target.toList →
        address.resolve ("/" ++ target) = .error (.invalidAddress ("/" ++ target)))) ∧
    (∀ (target : String) (nodes : List AddressNode),
      Text.startsWith (Text.trim target) "/" = false → (∀ node ∈ nodes, node.WellFormed) →
      Text.parts '/' (Text.trim target).toList =
        nodes.map AddressNode.part ++ List.replicate nodes.length ['.', '.'] →
      address.resolve target = .ok address) ∧
    ∀ target count, Text.startsWith (Text.trim target) "/" = false →
      Text.parts '/' (Text.trim target).toList = List.replicate count ['.', '.'] →
      root.resolve target = .ok root := by
  refine ⟨fun first second hfirst hsecond hne hrelative hnext resolved => ?_,
    fun target htrim => ⟨fun other => ?_, fun hup resolved => ?_, fun hup => ?_⟩,
    fun target nodes hrelative hwell hparts => ?_, fun target count hrelative hparts => ?_⟩
  · exact resolve_join hfirst hsecond hne hrelative hnext
  · rw [resolve_slash_append htrim, resolve_slash_append htrim]
  · rw [resolve_slash_append htrim, resolve_root htrim hup, parse_slash_append_eq_ok htrim]
  · rw [resolve_slash_append htrim, parse_slash_append_of_none htrim (nodesOf?_eq_none hup)]
  · rw [resolve_relative hrelative, hparts, foldlM_follow?_enter_leave hwell]
  · rw [resolve_relative hrelative, hparts, foldlM_follow?_replicate_up]
    simp [root]

/-- Two nodes entered and one left again, a slash too many in front, the same with a step up, a
detour, and steps up from the root. -/
theorem resolve_composes_detour :
    let address : Address := ⟨[⟨"x", "y"⟩]⟩
    (address.resolve "a=b=c/d=e" = .ok ⟨[⟨"x", "y"⟩, ⟨"a", "b=c"⟩, ⟨"d", "e"⟩]⟩ ∧
      address.resolve ("a=b=c/d=e" ++ "/" ++ "..//f=g") =
        .ok ⟨[⟨"x", "y"⟩, ⟨"a", "b=c"⟩, ⟨"f", "g"⟩]⟩) ∧
    (root.resolve "/a=b/" = .ok ⟨[⟨"a", "b"⟩]⟩ ∧
      address.resolve ("/" ++ "/a=b/") = .ok ⟨[⟨"a", "b"⟩]⟩) ∧
    ((['.', '.'] : List Char) ∈ Text.parts '/' "a=b/../c=d".toList ∧
      address.resolve ("/" ++ "a=b/../c=d") = .error (.invalidAddress ("/" ++ "a=b/../c=d"))) ∧
    address.resolve " a=b//c=d/../.. " = .ok address ∧
    root.resolve "../.." = .ok root := by
  intro address
  have hcomposes := resolve_composes address
  have hfirst : address.resolve "a=b=c/d=e" =
      .ok ⟨[⟨"x", "y"⟩, ⟨"a", "b=c"⟩, ⟨"d", "e"⟩]⟩ := rfl
  have hroot : root.resolve "/a=b/" = .ok ⟨[⟨"a", "b"⟩]⟩ := rfl
  have hup : (['.', '.'] : List Char) ∈ Text.parts '/' "a=b/../c=d".toList := by decide
  have hparse : parse "/a=b/c=d" = .ok ⟨[⟨"a", "b"⟩, ⟨"c", "d"⟩]⟩ := rfl
  exact ⟨⟨hfirst, (hcomposes.1 _ _ rfl rfl (by decide) rfl rfl _).2 ⟨_, hfirst, rfl⟩⟩,
    ⟨hroot, ((hcomposes.2.1 "/a=b/" rfl).2.1 (by decide) _).2 hroot⟩,
    ⟨hup, (hcomposes.2.1 "a=b/../c=d" rfl).2.2 hup⟩,
    hcomposes.2.2.1 " a=b//c=d/../.. " _ rfl (wellFormed_of_parse hparse) rfl,
    hcomposes.2.2.2 "../.." 2 rfl rfl⟩

end AttributeShell.Address
