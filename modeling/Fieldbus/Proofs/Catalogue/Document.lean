import Mathlib.Data.List.Forall2
import Mathlib.Data.List.Permutation
import Fieldbus.Proofs.Catalogue.Loading

/-!
# Documents of entries

Which entries a document has can be said without reading it from the front to the back: an entry is
what the only members with certain names give, with a word of its own where there is none, and a
document has the entries that its members give, in their order.  Of entries under one name the last
counts.  All that is left to decide in such a document is whether its entries are valid.

## Main definitions

* `Catalogue.Gives`, `Catalogue.GivesOr`: what named members give.
* `Catalogue.Entry.IsGiven`, `Catalogue.Entry.IsWritten`: which entry a part of a document is.
* `Catalogue.IsDocument`: a text has certain entries.

## Main results

* `Catalogue.rows?_eq_some_iff`, `Catalogue.entries?_eq`: which entries are read from a text.
* `Catalogue.document_loads`: a document is taken as a whole or refused as a whole, in whatever
  order its entries are taken.
-/

namespace Fieldbus.Catalogue

open Json

/-! ### Members -/

/-- The only value that named members give under a name. -/
def Gives (members : List (String × Tree)) (name : String) (value : Tree) : Prop :=
  members.filter (fun member => member.1 = name) = [(name, value)]

/-- Named members have none with a name. -/
def Omits (members : List (String × Tree)) (name : String) : Prop :=
  ∀ member ∈ members, member.1 ≠ name

/-- What is read from the only value under a name, or what stands for it where there is none. -/
def GivesOr {α : Type} (members : List (String × Tree)) (name : String) (read : Tree → Option α)
    (default result : α) : Prop :=
  Omits members name ∧ result = default ∨
    ∃ value, Gives members name value ∧ read value = some result

/-- What is read from the only value under a name, or what stands for it, if there are not two. -/
def readOr? {α : Type} (members : List (String × Tree)) (name : String) (read : Tree → Option α)
    (default : α) : Option α :=
  (onlyMember? name members).bind fun found => found.elim (some default) read

section Members

variable {members : List (String × Tree)} {name : String}

theorem onlyMember?_eq_some_none_iff :
    onlyMember? name members = some none ↔ Omits members name := by
  have homits : Omits members name ↔ members.filter (fun member => member.1 = name) = [] := by
    simp [Omits, List.filter_eq_nil_iff]
  rw [onlyMember?, homits]
  split
  · rename_i hnone
    exact iff_of_true rfl hnone
  · rename_i hone
    exact iff_of_false nofun (by rw [hone]; exact List.cons_ne_nil _ _)
  · rename_i hnotNil _
    exact iff_of_false nofun hnotNil

theorem onlyMember?_eq_some_some_iff {value : Tree} :
    onlyMember? name members = some (some value) ↔ Gives members name value := by
  rw [onlyMember?]
  split
  · rename_i hnone
    simp [Gives, hnone]
  · rename_i member hone
    -- what is kept has the name
    have hname : member.1 = name := by
      have hmem : member ∈ members.filter fun member => member.1 = name := hone ▸ List.mem_cons_self
      exact of_decide_eq_true (List.mem_filter.mp hmem).2
    rw [Gives, hone]
    simp [Prod.ext_iff, hname]
  · rename_i hmany
    exact ⟨nofun, fun hgives => absurd hgives (hmany _)⟩

theorem readOr?_eq_some_iff {α : Type} {read : Tree → Option α} {default result : α} :
    readOr? members name read default = some result ↔
      GivesOr members name read default result := by
  rw [readOr?, GivesOr, Option.bind_eq_some_iff, ← onlyMember?_eq_some_none_iff]
  simp only [← onlyMember?_eq_some_some_iff]
  constructor
  · rintro ⟨found, hfound, hread⟩
    cases found with
    | none => exact .inl ⟨hfound, (Option.some.inj hread).symm⟩
    | some value => exact .inr ⟨value, hfound, hread⟩
  · rintro (⟨hfound, rfl⟩ | ⟨value, hfound, hread⟩)
    · exact ⟨none, hfound, rfl⟩
    · exact ⟨some value, hfound, hread⟩

end Members

/-! ### Entries -/

/-- An entry is what named members give.  All but the access right may be left out. -/
structure Entry.IsGiven (entry : Entry) (members : List (String × Tree)) : Prop where
  access : ∃ value, Gives members "access" value ∧ textOf? value = some entry.access
  meaning : GivesOr members "bacnet_type" textOf? "UNKNOWN" entry.meaning
  representation : GivesOr members "datalayer_type" textOf? "string" entry.representation
  standIn : GivesOr members "uninitialized_default" (ofTree? standInLevels) .null entry.standIn

/-- The names of the members that make an entry, in the order in which an array lists them. -/
def memberNames : List String :=
  ["access", "bacnet_type", "datalayer_type", "uninitialized_default"]

/-- The named members of a part of a document: those of an object, or those that an array lists
without their names. -/
def membersOf? : Tree → Option (List (String × Tree))
  | .object members => namedMembers? members
  | .array items =>
    if items.length ≤ memberNames.length then some (memberNames.zip items) else none
  | _ => none

/-- An entry is what a part of a document has. -/
def Entry.IsWritten (entry : Entry) (tree : Tree) : Prop :=
  ∃ members, membersOf? tree = some members ∧ entry.IsGiven members

/-- Of an entry one member is read after the other. -/
theorem entryOfMembers?_eq (members : List (String × Tree)) :
    entryOfMembers? members =
      ((onlyMember? "access" members).bind fun found => found.bind textOf?).bind fun access =>
        (readOr? members "bacnet_type" textOf? "UNKNOWN").bind fun meaning =>
          (readOr? members "datalayer_type" textOf? "string").bind fun representation =>
            (readOr? members "uninitialized_default" (ofTree? standInLevels) .null).bind
              fun standIn => some ⟨access, meaning, representation, standIn⟩ := by
  simp only [entryOfMembers?, readOr?, Option.bind_eq_bind, Option.bind_assoc]
  refine Option.bind_congr fun _ _ => Option.bind_congr fun _ _ => Option.bind_congr fun _ _ =>
    Option.bind_congr fun meaning _ => ?_
  cases meaning <;> refine Option.bind_congr fun _ _ => Option.bind_congr fun representation _ => ?_
  all_goals
    cases representation <;>
      refine Option.bind_congr fun _ _ => Option.bind_congr fun standIn _ => ?_ <;>
      cases standIn <;> rfl

theorem entryOfMembers?_eq_some_iff {members : List (String × Tree)} {entry : Entry} :
    entryOfMembers? members = some entry ↔ entry.IsGiven members := by
  have haccess : ∀ access, ((onlyMember? "access" members).bind fun found => found.bind textOf?) =
      some access ↔ ∃ value, Gives members "access" value ∧ textOf? value = some access := by
    intro access
    simp only [Option.bind_eq_some_iff, ← onlyMember?_eq_some_some_iff]
    exact ⟨fun ⟨found, hfound, value, hvalue, htext⟩ => ⟨value, hvalue ▸ hfound, htext⟩,
      fun ⟨value, hfound, htext⟩ => ⟨some value, hfound, value, rfl, htext⟩⟩
  rw [entryOfMembers?_eq]
  simp only [Option.bind_eq_some_iff, haccess, readOr?_eq_some_iff, Option.some.injEq]
  constructor
  · rintro ⟨access, haccess, meaning, hmeaning, representation, hrepresentation, standIn, hstandIn,
      rfl⟩
    exact ⟨haccess, hmeaning, hrepresentation, hstandIn⟩
  · intro h
    exact ⟨_, h.access, _, h.meaning, _, h.representation, _, h.standIn, rfl⟩

/-- An array lists what an object names. -/
theorem entryOfTree_eq (tree : Tree) :
    entryOfTree tree = (membersOf? tree).bind entryOfMembers? := by
  cases tree with
  | object members => rfl
  | array items =>
    match items with
    | [] | [_] | [_, _] | [_, _, _] | [_, _, _, _] => rfl
    | first :: second :: third :: fourth :: fifth :: rest =>
      have hlong : membersOf? (.array (first :: second :: third :: fourth :: fifth :: rest)) =
          none := by
        rw [membersOf?]
        exact if_neg (by simp [memberNames])
      rw [hlong]
      rfl
  | _ => rfl

theorem entryOfTree_eq_some_iff {tree : Tree} {entry : Entry} :
    entryOfTree tree = some entry ↔ entry.IsWritten tree := by
  rw [entryOfTree_eq, Option.bind_eq_some_iff, Entry.IsWritten]
  simp only [entryOfMembers?_eq_some_iff]

/-! ### Documents -/

/-- A text is a document with the given rows: an object whose members, in their order, have the
names and the entries of the rows. -/
def IsDocument (text : String) (rows : List (String × Entry)) : Prop :=
  ∃ members, Tree.ofText? text = some (.object members) ∧
    List.Forall₂ (fun member row => string? member.1 = some row.1 ∧ row.2.IsWritten member.2)
      members rows

theorem mapM_eq_some_iff {α β : Type} {compute : α → Option β} {items : List α} {results : List β} :
    items.mapM compute = some results ↔
      List.Forall₂ (fun item result => compute item = some result) items results := by
  induction items generalizing results with
  | nil => cases results <;> simp
  | cons item rest ih =>
    rw [List.mapM_cons]
    cases results with
    | nil => simp [Option.bind_eq_some_iff]
    | cons result others => simp [Option.bind_eq_some_iff, ih]

/-- The named entry that a named member is. -/
def rowOf? (member : String × Tree) : Option (String × Entry) :=
  (entryOfTree member.2).map fun entry => (member.1, entry)

theorem rowOf?_eq_some_iff {member : String × Tree} {row : String × Entry} :
    rowOf? member = some row ↔ member.1 = row.1 ∧ row.2.IsWritten member.2 := by
  rw [rowOf?, Option.map_eq_some_iff]
  simp only [entryOfTree_eq_some_iff]
  constructor
  · rintro ⟨entry, hwritten, rfl⟩
    exact ⟨rfl, hwritten⟩
  · rintro ⟨hname, hwritten⟩
    exact ⟨row.2, hwritten, Prod.ext hname rfl⟩

/-- The rows of a document are its members, each by itself. -/
theorem exists_named_iff {members : List (List StringPiece × Tree)} {rows : List (String × Entry)} :
    (∃ named, namedMembers? members = some named ∧ named.mapM rowOf? = some rows) ↔
      List.Forall₂ (fun member row => string? member.1 = some row.1 ∧ row.2.IsWritten member.2)
        members rows := by
  simp only [namedMembers?, mapM_eq_some_iff, rowOf?_eq_some_iff, Option.map_eq_some_iff]
  constructor
  · rintro ⟨named, hnamed, hrows⟩
    induction hnamed generalizing rows with
    | nil =>
      cases hrows
      exact .nil
    | cons hname _ ih =>
      obtain ⟨name, hname, rfl⟩ := hname
      cases hrows with
      | cons hrow hrest => exact .cons ⟨hname.trans (congrArg some hrow.1), hrow.2⟩ (ih hrest)
  · intro h
    induction h with
    | nil => exact ⟨[], .nil, .nil⟩
    | @cons member row _ _ hrow _ ih =>
      obtain ⟨named, hnamed, hrows⟩ := ih
      exact ⟨(row.1, member.2) :: named, .cons ⟨row.1, hrow.1, rfl⟩ hnamed,
        .cons ⟨rfl, hrow.2⟩ hrows⟩

/-- The rows of the document that a text is, if it is one. -/
def rows? (text : String) : Option (List (String × Entry)) :=
  match Tree.ofText? text with
  | some (.object members) => (namedMembers? members).bind fun named => named.mapM rowOf?
  | _ => none

theorem rows?_eq_some_iff {text : String} {rows : List (String × Entry)} :
    rows? text = some rows ↔ IsDocument text rows := by
  rw [rows?, IsDocument]
  split
  · rename_i members htree
    rw [Option.bind_eq_some_iff, exists_named_iff, htree]
    simp
  · rename_i hother
    exact ⟨nofun, fun ⟨members, htree, _⟩ => absurd htree (hother members)⟩

/-- The entries that are read from a text are the rows of a document, of those under one name the
last. -/
theorem entries?_eq (text : String) : entries? text = (rows? text).map lastOfEachName := by
  rw [entries?, rows?]
  cases Tree.ofText? text with
  | none => rfl
  | some tree =>
    cases tree with
    | object members =>
      change ((namedMembers? members).bind fun named => (named.mapM rowOf?).bind fun rows =>
        some (lastOfEachName rows)) =
          ((namedMembers? members).bind fun named => named.mapM rowOf?).map lastOfEachName
      rw [Option.map_eq_bind, Option.bind_assoc]
      rfl
    | _ => rfl

/-- **A document is taken as a whole or refused as a whole.**  Where the entries of a document have
names that differ in more than their spelling, it makes a catalogue exactly if the words of every
entry are known.  The catalogue has one definition for each entry, which is found by every spelling
of its name, and says nothing of other names.  If an entry is at fault there is no catalogue, and
the error names such an entry with its first unknown word.  In whatever order the entries are taken,
all this holds, and the definitions are the same. -/
theorem document_loads {text : String} {rows : List (String × Entry)}
    (hdocument : IsDocument text rows) (hkeys : (keys (lastOfEachName rows)).Nodup) :
    Loads (lastOfEachName rows) (ofText text) ∧
      ∀ order : List (String × Entry), order.Perm (lastOfEachName rows) →
        Loads (lastOfEachName rows) (ofEntries order) ∧
          ∀ first second, ofText text = .ok first → ofEntries order = .ok second →
            first.definitions.Perm second.definitions := by
  have hread : ofText text = ofEntries (lastOfEachName rows) := by
    rw [ofText, entries?_eq, rows?_eq_some_iff.mpr hdocument]
    rfl
  rw [hread]
  refine ⟨loads_ofEntries hkeys, fun order horder => ⟨?_, fun first second hfirst hsecond => ?_⟩⟩
  · exact (loads_ofEntries ((keys_perm horder).nodup_iff.mpr hkeys)).of_perm horder
  · exact (perm_definitions hkeys horder hsecond hfirst).symm

/-- A document that has one of its two names twice, and whose catalogue is asked by other
spellings. -/
theorem document_loads_two :
    let text :=
      "\x7b\"analog-input\": \x7b\"access\": \"R\", \"bacnet_type\": \"REAL\"\x7d,
        \"Loop\": [\"RW\"], \"Loop\": [\"R/W\"]\x7d"
    let rows : List (String × Entry) :=
      [("analog-input", ⟨"R", "REAL", "string", .null⟩),
        ("Loop", ⟨"RW", "UNKNOWN", "string", .null⟩),
        ("Loop", ⟨"R/W", "UNKNOWN", "string", .null⟩)]
    IsDocument text rows ∧ (keys (lastOfEachName rows)).Nodup ∧
      ∃ catalogue, ofText text = .ok catalogue ∧ catalogue.size = 2 ∧
        (catalogue.meaning "Analog_Input").text = "REAL" ∧
        catalogue.isWritable "l o o p" = true ∧ catalogue.find? "pump" = none := by
  intro text rows
  have hdocument : IsDocument text rows := by
    refine rows?_eq_some_iff.mp ?_
    unfold text rows
    cbv
  have hkeys : (keys (lastOfEachName rows)).Nodup := by decide +kernel
  obtain ⟨hloads, -⟩ := document_loads hdocument hkeys
  have hrows : lastOfEachName rows =
      [("analog-input", ⟨"R", "REAL", "string", .null⟩),
        ("Loop", ⟨"R/W", "UNKNOWN", "string", .null⟩)] := rfl
  have hvalid : ∀ row ∈ lastOfEachName rows, row.2.IsValid := by
    rw [hrows]
    rintro row (_ | ⟨_, _ | ⟨_, ⟨⟩⟩⟩)
    · exact ⟨.inl rfl, ⟨.real, rfl⟩, ⟨.string, rfl⟩⟩
    · exact ⟨.inr rfl, ⟨.unknown, rfl⟩, ⟨.string, rfl⟩⟩
  obtain ⟨catalogue, hok⟩ := hloads.exists_ok_iff.mpr hvalid
  have hholds := hloads.holds catalogue hok
  rw [hrows] at hholds
  refine ⟨hdocument, hkeys, catalogue, hok, hholds.size, ?_, ?_, ?_⟩
  · exact (hholds.answers "Analog_Input" _ List.mem_cons_self (by decide +kernel)).meaning
  · exact (hholds.answers "l o o p" _ (List.mem_cons_of_mem _ List.mem_cons_self)
      (by decide +kernel)).writable.mpr rfl
  · exact (hholds.silent "pump" (by decide +kernel)).found

end Fieldbus.Catalogue
