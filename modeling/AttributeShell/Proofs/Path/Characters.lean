import AttributeShell.Path.Grammar
import AttributeShell.Text.Blank

/-!
The classes of characters that paths are made of. The separators stand apart from the characters of
names and indices, the digits of indices are characters of names, and white space stands in no path.
-/

namespace AttributeShell

variable {c : Char}

@[simp] theorem isNameCharacter_dot : isNameCharacter '.' = false := by decide

@[simp] theorem isNameCharacter_openBracket : isNameCharacter '[' = false := by decide

@[simp] theorem isNameCharacter_closeBracket : isNameCharacter ']' = false := by decide

theorem isSeparator_iff : isSeparator c ↔ c = '.' ∨ c = '[' ∨ c = ']' := by
  simp [isSeparator, or_assoc]

theorem isSeparator_of_isNameCharacter (h : isNameCharacter c) : isSeparator c = false := by
  refine Bool.eq_false_iff.2 fun hc => ?_
  obtain rfl | rfl | rfl := isSeparator_iff.1 hc <;> simp at h

theorem isSeparator_of_isDigit (h : c.isDigit) : isSeparator c = false := by
  refine Bool.eq_false_iff.2 fun hc => ?_
  obtain rfl | rfl | rfl := isSeparator_iff.1 hc <;> simp at h

theorem utf8Size_of_isSeparator (h : isSeparator c) : c.utf8Size = 1 := by
  obtain rfl | rfl | rfl := isSeparator_iff.1 h <;> rfl

theorem isNameCharacter_of_isDigit (h : c.isDigit) : isNameCharacter c := by
  have hlt : c.toNat < 128 := by
    simp only [Char.isDigit, Bool.and_eq_true, decide_eq_true_eq, UInt32.le_iff_toNat_le] at h
    exact Nat.lt_of_le_of_lt h.2 (by decide)
  simp [isNameCharacter, Text.isAlphanumeric_of_lt hlt, Char.isAlphanum, h]

theorem isPathCharacter_of_isNameCharacter (h : isNameCharacter c) : isPathCharacter c := by
  simp [isPathCharacter, h]

theorem isPathCharacter_of_isSeparator (h : isSeparator c) : isPathCharacter c := by
  simp [isPathCharacter, h]

/-- The code points of white space. -/
def blankCodes : List Nat :=
  [9, 10, 11, 12, 13, 0x20, 0x85, 0xA0, 0x1680, 0x2000, 0x2001, 0x2002, 0x2003, 0x2004, 0x2005,
    0x2006, 0x2007, 0x2008, 0x2009, 0x200A, 0x2028, 0x2029, 0x202F, 0x205F, 0x3000]

theorem toNat_mem_blankCodes (h : Text.isBlank c) : c.toNat ∈ blankCodes := by
  simp only [Text.isBlank, Bool.or_eq_true, Bool.and_eq_true, decide_eq_true_eq, beq_iff_eq] at h
  simp only [blankCodes, List.mem_cons, List.not_mem_nil, or_false]
  omega

/-- White space stands in no path. -/
theorem isBlank_of_isPathCharacter (h : isPathCharacter c) : Text.isBlank c = false := by
  refine Bool.eq_false_iff.2 fun hblank => ?_
  have hcodes : ∀ code ∈ blankCodes, isPathCharacter (Char.ofNat code) = false := by
    decide +kernel
  have hother := hcodes c.toNat (toNat_mem_blankCodes hblank)
  rw [Char.ofNat_toNat, h] at hother
  cases hother

end AttributeShell
