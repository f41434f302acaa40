import Fieldbus.Proofs.Literal.Write
import Mathlib.Data.List.TakeWhile

/-!
# The grammar of octet strings

The literal of an octet string is a row of hexadecimal digits in either case, two for each octet,
the high one first.  Blanks and colons may stand anywhere and do not count.  In the place of a high
digit a plus sign is taken as well, because the two characters of an octet are read as a number that
may have a sign.

## Main definitions

* `Literal.HexDigit`, `Literal.LeadingDigit`: what stands for a number in the low and in the high
  place.
* `Literal.Spells`: what row of characters spells a row of octets.
* `Literal.counted`: the characters of a text that count.

## Main results

* `Literal.octetPairs?_eq_some_iff`: which octets are read from a row.
* `Literal.write_octetString_iff`: which texts are octet strings.
-/

namespace Fieldbus.Literal

open Fieldbus.Text

variable {c : Char} {n : Nat} {row : List Char} {octet : UInt8} {octets : List UInt8}

/-! ### Digits -/

/-- A character is the hexadecimal digit of a number, in one of the two cases. -/
def HexDigit (c : Char) (n : Nat) : Prop :=
  "0123456789abcdef".toList[n]? = some c ∨ "0123456789ABCDEF".toList[n]? = some c

instance (c : Char) (n : Nat) : Decidable (HexDigit c n) :=
  inferInstanceAs (Decidable (_ ∨ _))

/-- What stands for a number in the high place of an octet: a digit, or a plus sign for zero. -/
def LeadingDigit (c : Char) (n : Nat) : Prop := HexDigit c n ∨ c = '+' ∧ n = 0

theorem HexDigit.lt (h : HexDigit c n) : n < 16 := by
  obtain h | h := h <;> exact (List.getElem?_eq_some_iff.mp h).1

theorem hexDigit?_getElem? : ∀ n < 16, ∀ digits ∈ ["0123456789abcdef", "0123456789ABCDEF"],
    digits.toList[n]?.bind hexDigit? = some n := by
  decide

/-- No other characters with code points below 128 are read. -/
theorem hexDigit_of_hexDigit? : ∀ code < 128, ∀ n ∈ hexDigit? (Char.ofNat code),
    HexDigit (Char.ofNat code) n := by
  decide +kernel

theorem toNat_lt_of_hexDigit? (h : hexDigit? c = some n) : c.toNat < 128 := by
  have hle : ∀ {c d : Char}, c ≤ d → c.toNat ≤ d.toNat := id
  rw [hexDigit?] at h
  split at h
  · rename_i hrange
    exact (hle hrange.2).trans_lt (by decide)
  · split at h
    · rename_i hrange
      exact (hle hrange.2).trans_lt (by decide)
    · obtain ⟨hrange, -⟩ := Option.ite_none_right_eq_some.mp h
      exact (hle hrange.2).trans_lt (by decide)

theorem hexDigit?_eq_some_iff : hexDigit? c = some n ↔ HexDigit c n := by
  constructor
  · intro h
    have hread := hexDigit_of_hexDigit? c.toNat (toNat_lt_of_hexDigit? h)
    rw [Char.ofNat_toNat] at hread
    exact hread n h
  · intro h
    have hread := hexDigit?_getElem? n h.lt
    obtain hrow | hrow := h
    · simpa only [hrow, Option.bind_some] using hread "0123456789abcdef" (by decide)
    · simpa only [hrow, Option.bind_some] using hread "0123456789ABCDEF" (by decide)

theorem HexDigit.ne_plus (h : HexDigit c n) : c ≠ '+' := by
  rintro rfl
  cases hexDigit?_eq_some_iff.mpr h

theorem leadingDigit_plus_iff : LeadingDigit '+' n ↔ n = 0 :=
  ⟨fun h => h.elim (fun h => absurd rfl h.ne_plus) And.right, fun h => .inr ⟨rfl, h⟩⟩

theorem leadingDigit_iff (hplus : c ≠ '+') : LeadingDigit c n ↔ HexDigit c n :=
  or_iff_left fun h => hplus h.1

theorem LeadingDigit.lt (h : LeadingDigit c n) : n < 16 := by
  obtain h | ⟨-, rfl⟩ := h
  · exact h.lt
  · decide

/-! ### Pairs -/

theorem ofNat_halves_iff {high low : Nat} (hhigh : high < 16) (hlow : low < 16) :
    UInt8.ofNat (16 * high + low) = octet ↔ high = octet.toNat / 16 ∧ low = octet.toNat % 16 := by
  rw [← UInt8.toNat_inj, UInt8.toNat_ofNat_of_lt' (show 16 * high + low < 256 by omega)]
  omega

/-- Two characters spell an octet: what stands for its high half, and the digit of its low half. -/
theorem octet?_eq_some_iff {high low : Char} : octet? high low = some octet ↔
    LeadingDigit high (octet.toNat / 16) ∧ HexDigit low (octet.toNat % 16) := by
  have hread : octet? high low = some octet ↔ ∃ h, LeadingDigit high h ∧
      ∃ l, HexDigit low l ∧ UInt8.ofNat (16 * h + l) = octet := by
    rw [octet?]
    split
    · rename_i hplus
      simp [hplus, leadingDigit_plus_iff, hexDigit?_eq_some_iff]
    · rename_i hplus
      simp [leadingDigit_iff hplus, hexDigit?_eq_some_iff, Option.bind_eq_some_iff]
  rw [hread]
  constructor
  · rintro ⟨h, hhigh, l, hlow, hoctet⟩
    obtain ⟨rfl, rfl⟩ := (ofNat_halves_iff hhigh.lt hlow.lt).mp hoctet
    exact ⟨hhigh, hlow⟩
  · rintro ⟨hhigh, hlow⟩
    exact ⟨_, hhigh, _, hlow, (ofNat_halves_iff hhigh.lt hlow.lt).mpr ⟨rfl, rfl⟩⟩

/-- A row of characters spells a row of octets, two characters each.  What may stand in the high
places is left open. -/
inductive Spells (Leading : Char → Nat → Prop) : List Char → List UInt8 → Prop where
  | nil : Spells Leading [] []
  | cons {high low : Char} {octet : UInt8} {row : List Char} {octets : List UInt8}
      (hhigh : Leading high (octet.toNat / 16)) (hlow : HexDigit low (octet.toNat % 16))
      (h : Spells Leading row octets) : Spells Leading (high :: low :: row) (octet :: octets)

variable {Leading : Char → Nat → Prop}

theorem spells_nil_iff : Spells Leading [] octets ↔ octets = [] :=
  ⟨fun h => by cases h; rfl, fun h => h ▸ .nil⟩

theorem spells_cons_iff {high low : Char} : Spells Leading (high :: low :: row) octets ↔
    ∃ octet, (Leading high (octet.toNat / 16) ∧ HexDigit low (octet.toNat % 16)) ∧
      ∃ rest, Spells Leading row rest ∧ octet :: rest = octets := by
  constructor
  · intro h
    cases h with
    | cons hhigh hlow h => exact ⟨_, ⟨hhigh, hlow⟩, _, h, rfl⟩
  · rintro ⟨octet, ⟨hhigh, hlow⟩, rest, h, rfl⟩
    exact .cons hhigh hlow h

theorem Spells.length (h : Spells Leading row octets) : row.length = 2 * octets.length := by
  induction h with
  | nil => rfl
  | cons _ _ _ ih =>
    rw [List.length_cons, List.length_cons, List.length_cons, ih]
    rfl

theorem Spells.imp {Leading' : Char → Nat → Prop} (h : Spells Leading row octets)
    (himp : ∀ c ∈ row, ∀ n, Leading c n → Leading' c n) : Spells Leading' row octets := by
  induction h with
  | nil => exact .nil
  | cons hhigh hlow _ ih =>
    obtain ⟨hfirst, -, hrest⟩ := List.forall_mem_cons.mp himp |>.imp_right List.forall_mem_cons.mp
    exact .cons (hfirst _ hhigh) hlow (ih hrest)

/-- Where there are no plus signs, digits stand in the high places. -/
theorem spells_leadingDigit_iff (hplus : '+' ∉ row) :
    Spells LeadingDigit row octets ↔ Spells HexDigit row octets :=
  ⟨fun h => h.imp fun _ hc _ => (leadingDigit_iff (ne_of_mem_of_not_mem hc hplus)).mp,
    fun h => h.imp fun _ _ _ => .inl⟩

/-- The octets that are read from a row are those that it spells. -/
theorem octetPairs?_eq_some_iff :
    octetPairs? row = some octets ↔ Spells LeadingDigit row octets := by
  fun_induction octetPairs? row generalizing octets with
  | case1 => simp [spells_nil_iff, eq_comm]
  | case2 c => exact iff_of_false nofun nofun
  | case3 high low rest ih =>
    simp only [Option.bind_eq_some_iff, Option.map_eq_some_iff, octet?_eq_some_iff, ih,
      spells_cons_iff]

/-! ### Texts -/

/-- The characters of a text that count: those that are neither blanks nor colons. -/
def counted (text : List Char) : List Char := text.filter fun c => !isBlank c && c != ':'

theorem counted_dropWhile (text : List Char) : counted (text.dropWhile isBlank) = counted text := by
  have hblanks : counted (text.takeWhile isBlank) = [] :=
    List.filter_eq_nil_iff.mpr fun c hc => by simp [List.mem_takeWhile_imp hc]
  have happend : counted (text.takeWhile isBlank) ++ counted (text.dropWhile isBlank) =
      counted (text.takeWhile isBlank ++ text.dropWhile isBlank) := (List.filter_append ..).symm
  rw [hblanks, List.takeWhile_append_dropWhile] at happend
  exact happend

theorem counted_reverse (text : List Char) : counted text.reverse = (counted text).reverse :=
  List.filter_reverse

theorem counted_trim (text : List Char) : counted (trim text) = counted text := by
  rw [trim, trimEnd, counted_reverse, counted_dropWhile, counted_reverse, List.reverse_reverse,
    trimStart, counted_dropWhile]

/-- The octets that are read from a text are those that the characters that count spell. -/
theorem atom?_octetString_iff {text : List Char} :
    atom? text .octetString = some (.octetString octets) ↔
      Spells LeadingDigit (counted text) octets := by
  have hread : octets? (trim text) = octetPairs? (counted text) := by
    rw [← counted_trim]
    rfl
  simp [atom?, hread, octetPairs?_eq_some_iff]

/-- **What is an octet string.**  A text other than the word for null is a literal of a row of
octets if the characters of it that are neither blanks nor colons spell the row: two for each octet,
the digit of its low half behind that of its high half or, where that is zero, behind a plus sign.
Where there is no plus sign these are rows of hexadecimal digits, in either case.  Any other text is
refused. -/
theorem write_octetString_iff {text : String} (hnull : text ≠ "null") (index : Option UInt32) :
    (∀ octets, write text .octetString index = .ok (.octetString octets) ↔
        Spells LeadingDigit (counted text.toList) octets) ∧
      ('+' ∉ text.toList → ∀ octets, Spells LeadingDigit (counted text.toList) octets ↔
        Spells HexDigit (counted text.toList) octets) ∧
      ((∀ octets, ¬ Spells LeadingDigit (counted text.toList) octets) →
        write text .octetString index = .error (.invalid text .octetString)) := by
  have hwrite : write text .octetString index = literal text .octetString :=
    write_of_element? hnull rfl index
  rw [hwrite]
  refine ⟨fun octets => literal_eq_ok_iff.trans atom?_octetString_iff, fun hplus octets => ?_,
    fun hnone => ?_⟩
  · exact spells_leadingDigit_iff fun h => hplus (List.mem_of_mem_filter h)
  · rw [literal]
    split
    · rename_i value hvalue
      obtain ⟨octets, hoctets, rfl⟩ := Option.map_eq_some_iff.mp hvalue
      exact absurd (atom?_octetString_iff.mp hvalue) (hnone octets)
    · rfl

/-- Three octets in groups with a plus sign in a high place, two without, and a digit too few. -/
theorem write_octetString_grouped :
    ("0A: fF +5" ≠ "null" ∧
      write "0A: fF +5" .octetString none = .ok (.octetString [0x0a, 0xff, 0x05])) ∧
    ("0A:fF" ≠ "null" ∧ '+' ∉ "0A:fF".toList ∧
      Spells HexDigit (counted "0A:fF".toList) [0x0a, 0xff]) ∧
    "0A:f" ≠ "null" ∧
      write "0A:f" .octetString none = .error (.invalid "0A:f" .octetString) := by
  have hhex : counted "0A:fF".toList = "0AfF".toList := by decide
  have hspelled : Spells HexDigit "0AfF".toList [0x0a, 0xff] :=
    .cons (by decide) (by decide) (.cons (by decide) (by decide) .nil)
  have hsigned : Spells LeadingDigit (counted "0A: fF +5".toList) [0x0a, 0xff, 0x05] :=
    .cons (.inl (by decide)) (by decide)
      (.cons (.inl (by decide)) (by decide) (.cons (.inr (by decide)) (by decide) .nil))
  have hnull : "0A: fF +5" ≠ "null" ∧ "0A:fF" ≠ "null" ∧ "0A:f" ≠ "null" := by decide
  have hplus : '+' ∉ "0A:fF".toList := by decide
  refine ⟨⟨hnull.1, ((write_octetString_iff hnull.1 none).1 _).mpr hsigned⟩, ⟨hnull.2.1, hplus, ?_⟩,
    hnull.2.2, (write_octetString_iff hnull.2.2 none).2.2 fun octets h => ?_⟩
  · rw [← (write_octetString_iff hnull.2.1 none).2.1 hplus, hhex]
    exact hspelled.imp fun _ _ _ => .inl
  · -- three characters are no pairs
    have hlength : (counted "0A:f".toList).length = 3 := by decide
    have heven := h.length
    omega

/-- A plus sign is taken for a digit. -/
theorem plus_octetString :
    write "+5" .octetString none = .ok (.octetString [5]) ∧
      ¬ ∀ text : String, text ≠ "null" → ∀ octets,
        (write text .octetString none = .ok (.octetString octets) ↔
          Spells HexDigit (counted text.toList) octets) := by
  have hwrite : write "+5" .octetString none = .ok (.octetString [5]) := by decide +kernel
  refine ⟨hwrite, fun hclaim => ?_⟩
  have hspelled := (hclaim "+5" (by decide) [5]).mp hwrite
  cases hspelled with
  | cons hhigh _ _ => exact hhigh.ne_plus rfl

end Fieldbus.Literal
