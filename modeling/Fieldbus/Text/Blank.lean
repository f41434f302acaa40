/-!
# Blank characters

The characters with the Unicode property `White_Space`, and the removal of them from the two ends
of a text.  Texts are lists of characters here, because every reader of this library consumes its
input character by character.
-/

namespace Fieldbus.Text

/-- The code points with the property `White_Space`, as inclusive ranges in ascending order. -/
def blankRanges : List (Nat × Nat) :=
  [(0x9, 0xd), (0x20, 0x20), (0x85, 0x85), (0xa0, 0xa0), (0x1680, 0x1680), (0x2000, 0x200a),
   (0x2028, 0x2029), (0x202f, 0x202f), (0x205f, 0x205f), (0x3000, 0x3000)]

/-- Whether a code point lies in one of the given inclusive ranges. -/
def inRanges (ranges : List (Nat × Nat)) (code : Nat) : Bool :=
  ranges.any fun range => range.1 ≤ code && code ≤ range.2

/-- Whether a character has the property `White_Space`. -/
def isBlank (c : Char) : Bool := inRanges blankRanges c.toNat

/-- The text without its leading blanks. -/
def trimStart (text : List Char) : List Char := text.dropWhile isBlank

/-- The text without its trailing blanks. -/
def trimEnd (text : List Char) : List Char := (text.reverse.dropWhile isBlank).reverse

/-- The text without the blanks at its two ends. -/
def trim (text : List Char) : List Char := trimEnd (trimStart text)

/-- Trimming leaves nothing of a text of blanks. -/
theorem trim_eq_nil_of_all {text : List Char} (h : ∀ c ∈ text, isBlank c = true) :
    trim text = [] := by
  have : text.dropWhile isBlank = [] := by
    induction text with
    | nil => rfl
    | cons c rest ih =>
      simp [h c (by simp), ih fun d hd => h d (by simp [hd])]
  simp [trim, trimStart, this, trimEnd]

/-- Trimming changes no text that neither starts nor ends with a blank. -/
theorem trim_eq_self {text : List Char} (hfirst : ∀ c ∈ text.head?, isBlank c = false)
    (hlast : ∀ c ∈ text.getLast?, isBlank c = false) : trim text = text := by
  have hdrop : ∀ {row : List Char}, (∀ c ∈ row.head?, isBlank c = false) →
      row.dropWhile isBlank = row := by
    intro row hrow
    cases row with
    | nil => rfl
    | cons c rest => exact List.dropWhile_cons_of_neg (by simp [hrow c rfl])
  rw [trim, trimStart, hdrop hfirst, trimEnd, hdrop (by rwa [List.head?_reverse]),
    List.reverse_reverse]

/-- Trimming changes no text without blanks. -/
theorem trim_eq_self_of_all {text : List Char} (h : ∀ c ∈ text, isBlank c = false) :
    trim text = text :=
  trim_eq_self (fun c hc => h c (List.mem_of_head? hc)) fun c hc => h c (List.mem_of_getLast? hc)

end Fieldbus.Text
