import DocSketch.Text.Span

/-!
# Texts within ASCII

* `Text.isAscii`: a text with no other characters than those of ASCII.
* `Text.byteLength_eq_length_iff`: these are the texts with as many bytes as characters.
* `Text.isAscii_of_isAlphanum`: letters and digits are within ASCII.
* `Text.isDigit_of_mem_toString`: numbers are written with digits.
-/

namespace DocSketch

namespace Text

/-- Whether all characters of a text are within ASCII. -/
def isAscii (cs : List Char) : Bool := cs.all fun c => c.toNat < 0x80

variable {cs : List Char} {c : Char}

/-- A text is ASCII if its characters are below the 128th one. -/
theorem isAscii_iff : isAscii cs = true ↔ ∀ c ∈ cs, c.toNat < 0x80 := by
  simp only [isAscii, List.all_eq_true, decide_eq_true_eq]

theorem isAscii_cons : isAscii (c :: cs) = true ↔ c.toNat < 0x80 ∧ isAscii cs = true := by
  simp only [isAscii_iff, List.forall_mem_cons]

/-- The ASCII characters are those that take one byte. -/
theorem utf8Size_eq_one_iff : c.utf8Size = 1 ↔ c.toNat < 0x80 := by
  have same : c.val ≤ 0x7F ↔ c.toNat < 0x80 := by
    rw [UInt32.le_iff_toNat_le]
    exact Nat.lt_succ_iff.symm
  rw [← same]
  exact Char.utf8Size_eq_one_iff

/-- A text has no more characters than bytes. -/
theorem length_le_byteLength (cs : List Char) : cs.length ≤ byteLength cs := by
  induction cs with
  | nil => exact Nat.le_refl 0
  | cons c cs ih =>
      have := c.utf8Size_pos
      rw [List.length_cons, byteLength_cons]
      omega

/-- A text has as many bytes as characters exactly if it is within ASCII. -/
theorem byteLength_eq_length_iff (cs : List Char) :
    byteLength cs = cs.length ↔ isAscii cs = true := by
  induction cs with
  | nil => exact iff_of_true rfl rfl
  | cons c cs ih =>
      have wide := c.utf8Size_pos
      have least := length_le_byteLength cs
      rw [isAscii_cons, ← ih, ← utf8Size_eq_one_iff, byteLength_cons, List.length_cons]
      omega

/-- Letters and digits are within ASCII. -/
theorem isAscii_of_isAlphanum (known : c.isAlphanum = true) : c.toNat < 0x80 := by
  change ((decide (c.val ≥ 65 ∧ c.val ≤ 90) || (c.val ≥ 97 && c.val ≤ 122)) ||
    (c.val ≥ 48 && c.val ≤ 57)) = true at known
  simp only [ge_iff_le, UInt32.le_iff_toNat_le, Bool.or_eq_true, Bool.and_eq_true,
    decide_eq_true_eq] at known
  change ((65 ≤ c.toNat ∧ c.toNat ≤ 90) ∨ (97 ≤ c.toNat ∧ c.toNat ≤ 122)) ∨
    (48 ≤ c.toNat ∧ c.toNat ≤ 57) at known
  omega

/-- Numbers are written with digits. -/
theorem isDigit_of_mem_toString {n : Nat} (member : c ∈ (toString n).toList) :
    c.isDigit = true := by
  rw [Nat.toString_eq_ofList_toDigits, String.toList_ofList] at member
  exact Nat.isDigit_of_mem_toDigits (by decide) (by decide) member

end Text

end DocSketch
