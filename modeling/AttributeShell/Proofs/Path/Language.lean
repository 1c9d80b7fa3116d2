import AttributeShell.Proofs.Path.Complete
import Mathlib.Data.List.Chain

/-!
The language of complete paths. The grammar says `name ('.' name | '[' digits ']')*`, and the
parser accepts more: a closing bracket in the place of the first digit of an index does not close
it, and a name may follow an index without a dot. The complete paths are exactly the words of the
larger grammar (`exists_isComplete_iff`), and those of them that are words of the smaller one are
told apart by what stands behind their closing brackets.
-/

namespace AttributeShell

/-- The words of `name ('.' name | '[' digits ']')*`. -/
inductive PathWord : List Char → Prop where
  | name {n : List Char} : IsName n → PathWord n
  | dot {w n : List Char} : PathWord w → IsName n → PathWord (w ++ '.' :: n)
  | index {w ds : List Char} : PathWord w → IsDigits ds → PathWord (w ++ '[' :: (ds ++ [']']))

/-- What may stand between the brackets of an index: digits, the first of which may be replaced by a
bracket. -/
def IsIndex (cs : List Char) : Prop := ∃ c ds, cs = c :: ds ∧ (c.isDigit ∨ c = ']') ∧ IsDigits ds

/-- The words that are accepted as complete paths. -/
inductive AcceptedWord : List Char → Prop where
  | name {n : List Char} : IsName n → AcceptedWord n
  | dot {w n : List Char} : AcceptedWord w → IsName n → AcceptedWord (w ++ '.' :: n)
  | index {w i : List Char} : AcceptedWord w → IsIndex i → AcceptedWord (w ++ '[' :: (i ++ [']']))
  | indexName {w i n : List Char} : AcceptedWord w → IsIndex i → IsName n →
      AcceptedWord (w ++ '[' :: (i ++ ']' :: n))

/-! ### What has been read is a word -/

namespace Reading

/-- What the characters read so far are, in each state. -/
def Reads (w : List Char) : Option Mode → Prop
  | none => w = []
  | some .initial => False
  | some .name => ∀ m, (∀ c ∈ m, isNameCharacter c) → AcceptedWord (w ++ m)
  | some .dot => ∃ v, AcceptedWord v ∧ w = v ++ ['.']
  | some .openBracket => ∃ v, AcceptedWord v ∧ w = v ++ ['[']
  | some .listIndex => ∃ v i, AcceptedWord v ∧ IsIndex i ∧ w = v ++ '[' :: i
  | some .closeBracket => ∃ v i, AcceptedWord v ∧ IsIndex i ∧ w = v ++ '[' :: (i ++ [']'])

variable {reading after : Reading} {offset : Nat} {c : Char} {w : List Char}

theorem isName_cons {m : List Char} (hc : isNameCharacter c) (hm : ∀ x ∈ m, isNameCharacter x) :
    IsName (c :: m) :=
  ⟨List.cons_ne_nil c m, List.forall_mem_cons.2 ⟨hc, hm⟩⟩

theorem acceptedWord_of_reads (h : Reads w reading.mode) (hends : reading.EndsItem) :
    AcceptedWord w := by
  cases hends with
  | name hmode _ =>
    rw [hmode] at h
    simpa using h [] (by simp)
  | index hmode =>
    rw [hmode] at h
    obtain ⟨v, i, hv, hi, rfl⟩ := h
    exact .index hv hi

theorem reads_separator {mode : Mode} (h : AcceptedWord w) (hc : Separates mode c) :
    Reads (w ++ [c]) (some mode) := by
  obtain ⟨rfl, rfl⟩ | ⟨rfl, rfl⟩ := hc <;> exact ⟨w, h, rfl⟩

/-- The next character keeps what has been read. -/
theorem reads_next (hbuffer : BufferFits reading.buffer reading.mode) (h : Reads w reading.mode)
    (hnext : reading.next offset c = .going after) : Reads (w ++ [c]) after.mode := by
  cases moves_of_next hbuffer hnext with
  | beginName hmode hc =>
    intro m hm
    have hname : IsName (c :: m) := isName_cons hc hm
    obtain hmode | hmode := hmode
    · rw [hmode] at h
      rw [show w = [] from h]
      exact .name hname
    · rw [hmode] at h
      obtain ⟨v, hv, rfl⟩ := h
      simpa using AcceptedWord.dot hv hname
  | beginNameAfterIndex hmode hc =>
    intro m hm
    rw [hmode] at h
    obtain ⟨v, i, hv, hi, rfl⟩ := h
    simpa using AcceptedWord.indexName hv hi (isName_cons hc hm)
  | continueName hmode hc =>
    rw [hmode] at h
    rw [mode_push, hmode]
    intro m hm
    simpa using h (c :: m) (List.forall_mem_cons.2 ⟨hc, hm⟩)
  | closeName hmode hc =>
    rw [hmode] at hbuffer
    exact reads_separator (acceptedWord_of_reads h (.name hmode hbuffer.1)) hc
  | separateAfterIndex hmode hc =>
    exact reads_separator (acceptedWord_of_reads h (.index hmode)) hc
  | beginIndex hmode hc =>
    rw [hmode] at h
    obtain ⟨v, hv, rfl⟩ := h
    exact ⟨v, [c], hv, ⟨c, [], rfl, .inl hc, by simp [IsDigits]⟩, by simp⟩
  | swallowBracket hmode hc =>
    rw [hmode] at h
    obtain ⟨v, hv, rfl⟩ := h
    exact ⟨v, [c], hv, ⟨c, [], rfl, .inr hc, by simp [IsDigits]⟩, by simp⟩
  | continueIndex hmode hc =>
    rw [hmode] at h
    rw [mode_push, hmode]
    obtain ⟨v, i, hv, ⟨d, ds, rfl, hd, hds⟩, rfl⟩ := h
    have hmore : IsDigits (ds ++ [c]) := by
      intro x hx
      obtain hx | hx := List.mem_append.1 hx
      · exact hds x hx
      · rwa [List.mem_singleton.1 hx]
    exact ⟨v, d :: (ds ++ [c]), hv, ⟨d, ds ++ [c], rfl, hd, hmore⟩, by simp⟩
  | closeIndex hmode hc =>
    rw [hmode] at h
    obtain ⟨v, i, hv, hi, rfl⟩ := h
    subst hc
    exact ⟨v, i, hv, hi, by simp⟩

theorem reads_advance {cs : List Char} (hfits : reading.Fits offset) (h : Reads w reading.mode)
    (hadvance : reading.advance cs offset = .going after) : Reads (w ++ cs) after.mode := by
  induction cs generalizing reading offset w with
  | nil =>
    cases hadvance
    rwa [List.append_nil]
  | cons c cs ih =>
    obtain ⟨read, hnext, hrest⟩ := Scanned.andThen_eq_going.1 hadvance
    have hread := ih (fits_next hfits hnext) (reads_next hfits.buffer h hnext) hrest
    simpa using hread

/-! ### A word is read to its end -/

theorem exists_endsItem_name {n : List Char} (h : reading.BeginsName) (hn : IsName n) :
    ∃ after, reading.advance n offset = .going after ∧ after.EndsItem := by
  obtain ⟨c, cs, rfl⟩ := List.exists_cons_of_ne_nil hn.1
  refine ⟨_, advance_name h hn, .name rfl ?_⟩
  simp [← String.toList_inj]

theorem exists_endsItem_index {i : List Char} (h : reading.EndsItem) (hi : IsIndex i) :
    ∃ after, reading.advance ('[' :: (i ++ [']'])) offset = .going after ∧
      after.mode = some .closeBracket := by
  obtain ⟨c, ds, rfl, hc, hds⟩ := hi
  obtain ⟨after, hadvance, hmode, -⟩ := advance_index h hc hds offset
  exact ⟨after, hadvance, hmode⟩

theorem exists_endsItem_of_acceptedWord (h : AcceptedWord w) :
    ∃ reading, advance {} w 0 = .going reading ∧ reading.EndsItem := by
  induction h with
  | name hn => exact exists_endsItem_name (.front (.inl rfl) rfl) hn
  | dot hw hn ih =>
    obtain ⟨reading, hadvance, hends⟩ := ih
    rw [advance_append, hadvance, Scanned.going_andThen, advance_separator hends (.inl ⟨rfl, rfl⟩)]
    exact exists_endsItem_name (.front (.inr rfl) (buffer_settle reading)) hn
  | index hw hi ih =>
    obtain ⟨reading, hadvance, hends⟩ := ih
    rw [advance_append, hadvance, Scanned.going_andThen]
    obtain ⟨after, hindex, hmode⟩ := exists_endsItem_index hends hi
    exact ⟨after, hindex, .index hmode⟩
  | @indexName w i n hw hi hn ih =>
    obtain ⟨reading, hadvance, hends⟩ := ih
    obtain ⟨after, hindex, hmode⟩ := exists_endsItem_index hends hi
    have hsplit : w ++ '[' :: (i ++ ']' :: n) = w ++ '[' :: (i ++ [']']) ++ n := by simp
    rw [hsplit, advance_append, advance_append, hadvance, Scanned.going_andThen, hindex,
      Scanned.going_andThen]
    exact exists_endsItem_name (.afterIndex hmode) hn

end Reading

/-- The complete paths are exactly the accepted words. -/
theorem exists_isComplete_iff (text : String) :
    (∃ path, AttributePath.parse text = .ok path ∧ path.IsComplete) ↔
      AcceptedWord text.toList := by
  constructor
  · rintro ⟨path, hparse, hcomplete⟩
    obtain ⟨reading, hadvance, -, hends, -⟩ := AttributePath.exists_endsItem hparse hcomplete
    have hreads := Reading.reads_advance (w := []) Reading.fits_empty rfl hadvance
    exact Reading.acceptedWord_of_reads hreads hends
  · intro h
    obtain ⟨reading, hadvance, hends⟩ := Reading.exists_endsItem_of_acceptedWord h
    have hfits := Reading.fits_advance Reading.fits_empty hadvance
    exact ⟨_, AttributePath.parse_of_advance hadvance, (Reading.isComplete_iff hfits).2 hends⟩

/-! ### Which complete paths are words of the grammar -/

/-- What may stand behind a character: behind a closing bracket only a dot or an opening one. -/
def MayFollow (a b : Char) : Prop := a = ']' → b = '.' ∨ b = '['

instance (a b : Char) : Decidable (MayFollow a b) :=
  inferInstanceAs (Decidable (a = ']' → b = '.' ∨ b = '['))

theorem isChain_append_of_notMem {v w : List Char} (hv : ']' ∉ v) (hw : w.IsChain MayFollow) :
    (v ++ w).IsChain MayFollow := by
  induction v with
  | nil => exact hw
  | cons c cs ih =>
    obtain ⟨hne, hcs⟩ := List.ne_and_not_mem_of_not_mem_cons hv
    rw [List.cons_append, List.isChain_cons]
    exact ⟨fun b _ hc => absurd hc.symm hne, ih hcs⟩

theorem isChain_append_separator {v w : List Char} {c : Char} (hc : c = '.' ∨ c = '[')
    (hv : v.IsChain MayFollow) (hw : (c :: w).IsChain MayFollow) :
    (v ++ c :: w).IsChain MayFollow := by
  refine List.isChain_append.2 ⟨hv, hw, fun a _ b hb _ => ?_⟩
  cases hb
  exact hc

theorem IsName.notMem {n : List Char} (h : IsName n) : ']' ∉ n := by
  intro hmem
  simpa using h.2 _ hmem

theorem IsDigits.notMem {ds : List Char} (h : IsDigits ds) : ']' ∉ ds := by
  intro hmem
  simpa using h _ hmem

theorem isChain_of_pathWord {w : List Char} (h : PathWord w) : w.IsChain MayFollow := by
  induction h with
  | name hn => simpa using isChain_append_of_notMem hn.notMem .nil
  | @dot w n _ hn ih =>
    have hname : ('.' :: n ++ []).IsChain MayFollow :=
      isChain_append_of_notMem (by simp [hn.notMem]) .nil
    exact isChain_append_separator (.inl rfl) ih (by simpa using hname)
  | @index w ds _ hds ih =>
    have hindex : ('[' :: ds ++ [']']).IsChain MayFollow :=
      isChain_append_of_notMem (by simp [hds.notMem]) (.singleton _)
    exact isChain_append_separator (.inr rfl) ih hindex

theorem separator_of_isChain {v w : List Char} {c : Char}
    (h : (v ++ ']' :: c :: w).IsChain MayFollow) : c = '.' ∨ c = '[' :=
  (List.isChain_append_cons_cons.1 h).2.1 rfl

/-- The condition leaves nothing but digits between the brackets of an index. -/
theorem isDigits_of_isIndex {v i : List Char} (hi : IsIndex i)
    (h : (v ++ '[' :: (i ++ [']'])).IsChain MayFollow) : IsDigits i := by
  obtain ⟨c, ds, rfl, hc | rfl, hds⟩ := hi
  · exact List.forall_mem_cons.2 ⟨hc, hds⟩
  · cases ds with
    | nil =>
      have hseparator : ']' = '.' ∨ ']' = '[' :=
        separator_of_isChain (v := v ++ ['[']) (w := []) (by simpa using h)
      simp at hseparator
    | cons d ds =>
      have hseparator : d = '.' ∨ d = '[' :=
        separator_of_isChain (v := v ++ ['[']) (w := ds ++ [']']) (by simpa using h)
      have hdigit : d.isDigit := hds d List.mem_cons_self
      obtain rfl | rfl := hseparator <;> simp at hdigit

theorem pathWord_of_acceptedWord {w : List Char} (h : AcceptedWord w) (hw : w.IsChain MayFollow) :
    PathWord w := by
  induction h with
  | name hn => exact .name hn
  | dot _ hn ih => exact .dot (ih (List.isChain_append.1 hw).1) hn
  | index _ hi ih =>
    -- A swallowed bracket would stand before the closing one, or before a digit.
    exact .index (ih (List.isChain_append.1 hw).1) (isDigits_of_isIndex hi hw)
  | @indexName w i n _ _ hn _ =>
    -- A name behind a closing bracket is what the condition excludes.
    obtain ⟨c, cs, rfl⟩ := List.exists_cons_of_ne_nil hn.1
    have hseparator : c = '.' ∨ c = '[' :=
      separator_of_isChain (v := w ++ '[' :: i) (w := cs) (by simpa using hw)
    have hname : isNameCharacter c := hn.2 c List.mem_cons_self
    obtain rfl | rfl := hseparator <;> simp at hname

/-- A complete path is a word of the grammar exactly if each of its closing brackets stands at its
end, before a dot or before an opening bracket. -/
theorem pathWord_iff_of_isComplete {text : String} {path : AttributePath}
    (hparse : AttributePath.parse text = .ok path) (hcomplete : path.IsComplete) :
    PathWord text.toList ↔ text.toList.IsChain MayFollow := by
  have haccepted := (exists_isComplete_iff text).1 ⟨path, hparse, hcomplete⟩
  exact ⟨isChain_of_pathWord, pathWord_of_acceptedWord haccepted⟩

/-- A name behind an index and a dot. -/
theorem pathWord_index_dot :
    ∃ path, AttributePath.parse "a[0].b" = .ok path ∧ path.IsComplete ∧
      PathWord "a[0].b".toList := by
  have hparse : AttributePath.parse "a[0].b" = .ok ⟨.one "a", "b", .name, 5, none⟩ := by decide
  have hcomplete : AttributePath.IsComplete ⟨.one "a", "b", .name, 5, none⟩ :=
    ⟨rfl, .inl ⟨rfl, by decide⟩⟩
  exact ⟨_, hparse, hcomplete, (pathWord_iff_of_isComplete hparse hcomplete).2 (by decide)⟩

/-- A name right behind an index, and an index whose first bracket is swallowed, are complete paths
outside the grammar. -/
theorem exists_isComplete_not_pathWord :
    (∃ path, AttributePath.parse "a[0]b" = .ok path ∧ path.IsComplete ∧
      ¬ PathWord "a[0]b".toList) ∧
    ∃ path, AttributePath.parse "a[]]" = .ok path ∧ path.IsComplete ∧
      ¬ PathWord "a[]]".toList := by
  refine ⟨⟨⟨.one "a", "b", .name, 4, none⟩, by decide, ⟨rfl, .inl ⟨rfl, by decide⟩⟩, ?_⟩,
    ⟨⟨.one "a", "", .closeBracket, 4, none⟩, by decide, ⟨rfl, .inr rfl⟩, ?_⟩⟩
  · intro h
    exact absurd (isChain_of_pathWord h) (by decide)
  · intro h
    exact absurd (isChain_of_pathWord h) (by decide)

end AttributeShell
