import Fieldbus.Proofs.Value.Grammar

/-!
# Where a value ends

A spelling tells by itself where it ends.  A reader that has the whole spelling leaves over whatever
stands behind it, and a reader that has only a part of it cannot go on, however much is wrong with
the part otherwise: that the octets end too early is the first thing it finds.  So a row of values
that is cut off can be read exactly if it is cut between two of them.

## Main definitions

* `Decode.Delimits`: a reader takes a row of octets, and no less.

## Main results

* `Decode.delimits_atom`: the reader of values takes any spelling of a value, and no less.
* `Value.decode_cut`: what is read of an encoding that is cut off, or that something stands behind.
-/

namespace Fieldbus

namespace Decode

open Spelling

variable {α β : Type}

/-- A reader of the front of a row of octets, with the octets behind it. -/
abbrev Reader (α : Type) := List UInt8 → Except DecodeError (α × List UInt8)

/-- A reader takes a row of octets, and no less, for a result: what stands behind the row is left
over, and a part of the row ends too early. -/
structure Delimits (read : Reader α) (row : List UInt8) (result : α) : Prop where
  append : ∀ rest, read (row ++ rest) = .ok (result, rest)
  cut : ∀ part, part <+: row → part ≠ row → read part = .error .truncated

/-- A part of two rows is a part of the first, or the first and a part of the second. -/
theorem prefix_append_cases {part row behind : List UInt8} (h : part <+: row ++ behind)
    (hne : part ≠ row ++ behind) :
    (part <+: row ∧ part ≠ row) ∨ ∃ rest, part = row ++ rest ∧ rest <+: behind ∧ rest ≠ behind := by
  by_cases hwhole : row <+: part
  · obtain ⟨rest, rfl⟩ := hwhole
    exact .inr ⟨rest, rfl, (List.prefix_append_right_inj row).mp h,
      fun heq => hne (congrArg (row ++ ·) heq)⟩
  · refine .inl ⟨?_, fun heq => hwhole (heq ▸ List.prefix_rfl)⟩
    exact (List.prefix_or_prefix_of_prefix h (List.prefix_append row behind)).resolve_right hwhole

namespace Delimits

theorem pure (result : α) : Delimits (fun input => .ok (result, input)) [] result :=
  ⟨fun _ => rfl, fun _ hpart hne => absurd (List.prefix_nil.mp hpart) hne⟩

/-- A reader that goes on where another ends takes the two rows together. -/
theorem bind {first : Reader α} {row behind : List UInt8} {result : α} {last : β}
    (h : Delimits first row result) (next : α → Reader β)
    (h' : Delimits (next result) behind last) :
    Delimits (fun input => first input >>= fun found => next found.1 found.2) (row ++ behind)
      last where
  append rest := by
    rw [List.append_assoc, h.append]
    exact h'.append rest
  cut part hpart hne := by
    rcases prefix_append_cases hpart hne with ⟨hfront, hshort⟩ | ⟨rest, rfl, hrest, hshort⟩
    · rw [h.cut part hfront hshort]
      rfl
    · rw [h.append]
      exact h'.cut rest hrest hshort

theorem check {first : Reader α} {result : α} {row : List UInt8} {last : β}
    (h : Delimits first row result) (look : α → Except DecodeError β)
    (hlook : look result = .ok last) :
    Delimits (fun input => first input >>= fun found => (look found.1).map (·, found.2)) row
      last := by
  have hnext : Delimits (fun input => (look result).map (·, input)) [] last := by
    rw [hlook]
    exact pure last
  simpa only [List.append_nil] using
    h.bind (fun found input => (look found).map (·, input)) hnext

end Delimits

/-! ### Headers -/

theorem delimits_octet (first : UInt8) : Delimits octet [first] first where
  append _ := rfl
  cut part hpart hne := by
    rcases List.prefix_cons_iff.mp hpart with rfl | ⟨rest, rfl, hrest⟩
    · rfl
    · exact absurd (congrArg (first :: ·) (List.prefix_nil.mp hrest)) hne

theorem delimits_octets (row : List UInt8) : Delimits (octets row.length) row row where
  append rest := octets_append rfl rest
  cut part hpart hne := by
    have hshort : part.length < row.length :=
      Nat.lt_of_le_of_ne hpart.length_le fun heq => hne (hpart.eq_of_length heq)
    exact if_pos hshort

/-- The reader of a number of a fixed width. -/
def wide (width : Nat) : Reader Nat := fun input => do
  let (row, rest) ← octets width input
  return (ofBigEndian row, rest)

/-- The reader of a length behind the octet that tells the width of it, or is it. -/
def lengthBehind (first : UInt8) : Reader Nat :=
  if first = 254 then wide 2
  else if first = 255 then wide 4
  else fun input => .ok (first.toNat, input)

theorem delimits_wide {width count : Nat} (h : count < octetRange width) :
    Delimits (wide width) (bigEndian width count) count := by
  have hoctets := delimits_octets (bigEndian width count)
  rw [length_bigEndian] at hoctets
  have hnumber := hoctets.check (fun row => .ok (ofBigEndian row)) rfl
  rwa [ofBigEndian_bigEndian_of_lt h] at hnumber

theorem length_direct (tag : UInt8) {low : UInt8} (h : low ≤ 4) :
    length tag low = fun input => .ok (low.toNat, input) :=
  funext fun _ => if_pos h

theorem length_five (tag : UInt8) :
    length tag 5 = fun input => octet input >>= fun found => lengthBehind found.1 found.2 := by
  funext input
  cases input with
  | nil => rfl
  | cons first rest =>
    change (if first = 254 then _ else if first = 255 then _ else _) = lengthBehind first rest
    rw [lengthBehind]
    split_ifs <;> rfl

/-- The octets that tell a length are taken for it. -/
theorem delimits_length (tag : UInt8) {low : UInt8} {count : Nat} {spelt : List UInt8}
    (h : Length low count spelt) : Delimits (length tag low) spelt count := by
  cases h with
  | direct hlow =>
    rw [length_direct tag hlow]
    exact .pure _
  | @one octet hoctet =>
    obtain ⟨htwo, hfour⟩ := lt_marks_iff.mp hoctet
    have hbehind : Delimits (lengthBehind octet) [] octet.toNat := by
      rw [lengthBehind, if_neg htwo, if_neg hfour]
      exact .pure _
    rw [length_five]
    exact (delimits_octet octet).bind lengthBehind hbehind
  | two hcount =>
    have hbehind : Delimits (lengthBehind 254) (bigEndian 2 count) count := delimits_wide hcount
    rw [length_five]
    exact (delimits_octet 254).bind lengthBehind hbehind
  | four hcount =>
    have hbehind : Delimits (lengthBehind 255) (bigEndian 4 count) count := delimits_wide hcount
    rw [length_five]
    exact (delimits_octet 255).bind lengthBehind hbehind

/-- A part of the octets that tell a tag ends too early. -/
theorem atom_cut_tag {tag low : UInt8} {header part : List UInt8} (h : Tag tag low header)
    (hpart : part <+: header) (hne : part ≠ header) : atom part = .error .truncated := by
  cases h with
  | short htag hlow =>
    rcases List.prefix_cons_iff.mp hpart with rfl | ⟨rest, rfl, hrest⟩
    · rfl
    · exact absurd (congrArg (_ :: ·) (List.prefix_nil.mp hrest)) hne
  | extended hlow =>
    rcases List.prefix_cons_iff.mp hpart with rfl | ⟨rest, rfl, hrest⟩
    · rfl
    · rcases List.prefix_cons_iff.mp hrest with rfl | ⟨last, rfl, hlast⟩
      · obtain ⟨hdiv, -, hcontext⟩ := split_octet (show (15 : UInt8) < 16 by decide) hlow
        rw [atom, octet_cons]
        simp only [bind, Except.bind, hdiv, if_neg (UInt8.not_le.mpr hcontext), if_true, octet]
      · exact absurd (congrArg (_ :: _ :: ·) (List.prefix_nil.mp hlast)) hne

/-- In front of what is taken behind a tag, the octets that tell the tag are taken. -/
theorem delimits_tag {tag low : UInt8} {header row : List UInt8} {value : Atom}
    (h : Tag tag low header) (h' : Delimits (tagged tag low) row value) :
    Delimits atom (header ++ row) value where
  append rest := by
    rw [List.append_assoc, atom_tag_append h]
    exact h'.append rest
  cut part hpart hne := by
    rcases prefix_append_cases hpart hne with ⟨hfront, hshort⟩ | ⟨rest, rfl, hrest, hshort⟩
    · exact atom_cut_tag h hfront hshort
    · rw [atom_tag_append h]
      exact h'.cut rest hrest hshort

/-! ### Values -/

variable {spelling : List UInt8} {value : Atom}

/-- **A spelling of a value is taken for it, and no less.** -/
theorem delimits_atom (h : Spells spelling value) : Delimits atom spelling value := by
  cases h with
  | @boolean header b htag =>
    have htagged : Delimits (tagged Kind.boolean.tag b.toUInt8) [] (.boolean b) := by
      have hread : tagged Kind.boolean.tag b.toUInt8 = fun input => .ok (.boolean b, input) := by
        funext input
        cases b <;> rfl
      rw [hread]
      exact .pure _
    simpa only [List.append_nil] using delimits_tag htag htagged
  | @content _ low header spelt content htag hlength hcontent =>
    have hkind : ofContent value.kind content = .ok value := ofContent_of_content hcontent
    have hbehind : Delimits (fun input => octets content.length input >>= fun found =>
        (ofContent value.kind found.1).map (·, found.2)) content value :=
      (delimits_octets content).check (ofContent value.kind) hkind
    have htagged : Delimits (tagged value.kind.tag low) (spelt ++ content) value := by
      have hread : tagged value.kind.tag low = fun input =>
          length value.kind.tag low input >>= fun found => octets found.1 found.2 >>= fun found =>
            (ofContent value.kind found.1).map (·, found.2) := by
        funext input
        rw [tagged, if_neg (tag_ne_boolean (kind_ne_boolean_of_content hcontent)), Kind.ofTag?_tag]
        rfl
      rw [hread]
      exact (delimits_length value.kind.tag hlength).bind
        (fun count input => octets count input >>= fun found =>
          (ofContent value.kind found.1).map (·, found.2)) hbehind
    rw [List.append_assoc]
    exact delimits_tag htag htagged

theorem delimits_expected {datatype : Datatype} (h : Spells spelling value)
    (hadmits : datatype.admits value.kind = true) :
    Delimits (expected datatype) spelling value where
  append rest := expected_eq_ok_iff.mpr ⟨hadmits, spelling, h, rfl⟩
  cut part hpart hne := by
    rw [expected, (delimits_atom h).cut part hpart hne]
    rfl

theorem delimits_encode {datatype : Datatype} (h : value.FitsWire)
    (hadmits : datatype.admits value.kind = true) :
    Delimits (expected datatype) value.encode value :=
  delimits_expected (spells_encode h) hadmits

/-! ### Rows of values -/

/-- A row of values that is cut off within one of them ends too early. -/
theorem elements_take_of_ne {datatype : Datatype} {values : List Atom}
    (h : ∀ value ∈ values, value.FitsWire ∧ datatype.admits value.kind = true) {count fuel : Nat}
    (hcount : count ≤ (Value.encodeAll (values.map .atom)).length) (hfuel : count ≤ fuel)
    (hwithin : ∀ whole ≤ values.length,
      count ≠ (Value.encodeAll ((values.take whole).map .atom)).length) :
    elements datatype fuel ((Value.encodeAll (values.map .atom)).take count) =
      .error .truncated := by
  induction values generalizing count fuel with
  | nil => exact absurd (Nat.le_zero.mp hcount) (hwithin 0 le_rfl)
  | cons value values ih =>
    obtain ⟨hfits, hadmits⟩ := h value List.mem_cons_self
    have hrest := fun other hother => h other (List.mem_cons_of_mem value hother)
    have htakes := delimits_encode hfits hadmits
    have hpos : 0 < value.encode.length := List.length_pos_of_ne_nil (encode_ne_nil value)
    have hsome : count ≠ 0 := hwithin 0 (Nat.zero_le _)
    obtain ⟨fuel, rfl⟩ : ∃ less, fuel = less + 1 := ⟨fuel - 1, by omega⟩
    rw [List.map_cons, Value.encodeAll, Value.encode] at hcount ⊢
    rw [List.length_append] at hcount
    have hinput : (value.encode ++ Value.encodeAll (values.map .atom)).take count ≠ [] := by
      simp [encode_ne_nil, hsome]
    rw [elements, if_neg (by simpa using hinput)]
    by_cases hfirst : count < value.encode.length
    · -- the first value is cut off
      have hshort : value.encode.take count ≠ value.encode := fun heq => by
        have hlength := congrArg List.length heq
        rw [List.length_take] at hlength
        omega
      rw [List.take_append_of_le_length hfirst.le,
        htakes.cut _ (List.take_prefix count value.encode) hshort]
      rfl
    · obtain ⟨behind, rfl⟩ : ∃ behind, count = value.encode.length + behind :=
        ⟨count - value.encode.length, by omega⟩
      have hothers := @ih hrest behind fuel (by omega) (by omega) fun whole hwhole heq =>
        hwithin (whole + 1) (Nat.succ_le_succ hwhole) (by
          rw [List.take_succ_cons, List.map_cons, Value.encodeAll, Value.encode,
            List.length_append, heq])
      rw [List.take_length_add_append, htakes.append]
      simp only [bind, Except.bind, hothers]

/-- A row of values that is cut off behind some of them is the encoding of these. -/
theorem take_encodeAll (values : List Atom) (whole : Nat) :
    (Value.encodeAll (values.map .atom)).take
        (Value.encodeAll ((values.take whole).map .atom)).length =
      Value.encodeAll ((values.take whole).map .atom) := by
  induction values generalizing whole with
  | nil => rw [List.take_nil]; rfl
  | cons value values ih =>
    cases whole with
    | zero => rfl
    | succ whole =>
      rw [List.take_succ_cons, List.map_cons, List.map_cons, Value.encodeAll, Value.encodeAll,
        List.length_append, List.take_length_add_append, ih]

end Decode

namespace Value

/-- **Encodings tell where they end.**  A part of the encoding of a primitive value ends too early,
and what stands behind the encoding is counted as left over.  The encoding of an array that is cut
off is the array of the elements that are whole, if it is cut off right behind them, and otherwise
ends too early. -/
theorem decode_cut (datatype : Datatype) :
    (∀ value : Atom, value.FitsWire → datatype.admits value.kind = true →
      (∀ part, part <+: (Value.atom value).encode → part ≠ (Value.atom value).encode →
        decode part datatype = .error .truncated) ∧
      ∀ rest, rest ≠ [] →
        decode ((Value.atom value).encode ++ rest) datatype =
          .error (.trailingBytes rest.length)) ∧
    ∀ values : List Atom,
      (∀ value ∈ values, value.FitsWire ∧ datatype.admits value.kind = true) →
      ∀ count ≤ (ofAtoms values).encode.length,
        (∀ whole ≤ values.length, count = (ofAtoms (values.take whole)).encode.length →
          decode ((ofAtoms values).encode.take count) (.array datatype) =
            .ok (ofAtoms (values.take whole))) ∧
        ((∀ whole ≤ values.length, count ≠ (ofAtoms (values.take whole)).encode.length) →
          decode ((ofAtoms values).encode.take count) (.array datatype) = .error .truncated) := by
  refine ⟨fun value hfits hadmits => ?_, fun values hvalues count hcount => ⟨?_, ?_⟩⟩
  · have htakes := Decode.delimits_encode hfits hadmits
    have hdecode (input : List UInt8) :
        decode input datatype = (Atom.decode input datatype).map .atom := by
      cases datatype
      case array element => simp [Datatype.not_admits_array] at hadmits
      all_goals rfl
    refine ⟨fun part hpart hne => ?_, fun rest hrest => ?_⟩
    · rw [hdecode, Atom.decode, htakes.cut part hpart hne]
      rfl
    · rw [hdecode, Atom.decode, Value.encode, htakes.append]
      simp [bind, Except.bind, hrest, Except.map]
  · rintro whole - rfl
    have hwhole : ∀ value ∈ values.take whole, value.FitsWire ∧ datatype.admits value.kind = true :=
      fun value hvalue => hvalues value (List.mem_of_mem_take hvalue)
    have hcut : (ofAtoms values).encode.take (ofAtoms (values.take whole)).encode.length =
        (ofAtoms (values.take whole)).encode := Decode.take_encodeAll values whole
    rw [hcut]
    exact decode_encode_ofAtoms hwhole
  · intro hwithin
    have hcut := Decode.elements_take_of_ne hvalues hcount le_rfl hwithin
    have hlength : ((ofAtoms values).encode.take count).length = count :=
      List.length_take_of_le hcount
    rw [decode, hlength]
    exact congrArg (Except.map ofAtoms) hcut

/-- A number in two octets that is cut off, or that two octets stand behind, and a row of two
numbers cut off between them and within the second. -/
theorem decode_cut_row :
    let values : List Atom := [.unsigned 7, .signed (-129)]
    (∀ value ∈ values, value.FitsWire ∧ Datatype.anyAtomic.admits value.kind = true) ∧
      (ofAtoms values).encode = [0x21, 7, 0x32, 0xFF, 0x7F] ∧
      decode [0x21] .unsigned = .error .truncated ∧
      decode [0x21, 7, 0, 0] .unsigned = .error (.trailingBytes 2) ∧
      decode [0x21, 7] (.array .anyAtomic) = .ok (ofAtoms [.unsigned 7]) ∧
      decode [0x21, 7, 0x32] (.array .anyAtomic) = .error .truncated := by
  intro values
  have hvalues : ∀ value ∈ values,
      value.FitsWire ∧ Datatype.anyAtomic.admits value.kind = true := by
    intro value hvalue
    simp only [values, List.mem_cons, List.not_mem_nil, or_false] at hvalue
    rcases hvalue with rfl | rfl <;> exact ⟨⟨by decide, nofun⟩, rfl⟩
  have hseven := (decode_cut .unsigned).1 (.unsigned 7) (hvalues _ List.mem_cons_self).1 rfl
  have hrow := (decode_cut .anyAtomic).2 values hvalues
  exact ⟨hvalues, rfl, hseven.1 [0x21] ⟨[7], rfl⟩ (by decide), hseven.2 [0, 0] (by decide),
    (hrow 2 (by decide)).1 1 (by decide) rfl, (hrow 3 (by decide)).2 (by decide)⟩

end Value

end Fieldbus
