import RunReport.Proofs.Json.Faithful
import RunReport.Proofs.Json.Record
import RunReport.Proofs.Number.Bounds

/-!
# Values that come from texts

In what is read from a text, integers are below 2⁶⁴ in size and other numbers are
finite, at any depth. So every number that is taken from such a value is finite.
-/

namespace RunReport.Json

/-- A value whose integers are below 2⁶⁴ in size and whose other numbers are finite, at
any depth. -/
inductive Genuine : Json → Prop where
  | null : Genuine .null
  | bool (b : Bool) : Genuine (.bool b)
  | integer {i : Int} (fits : i.natAbs < 2 ^ 64) : Genuine (.integer i)
  | decimal {x : Binary64} (finite : x.isFinite = true) : Genuine (.decimal x)
  | string (s : String) : Genuine (.string s)
  | array {items : List Json} (each : ∀ j ∈ items, Genuine j) : Genuine (.array items)
  | object {members : List (String × Json)} (each : ∀ member ∈ members, Genuine member.2) :
    Genuine (.object members)
  | unreadable : Genuine .unreadable

/-- A number with a fraction is genuine. -/
theorem genuine_ofDecimal (d : Decimal) : (ofDecimal d).Genuine := by
  unfold ofDecimal
  by_cases finite : d.toBinary64.isFinite = true
  · rw [if_pos finite]
    exact .decimal finite
  · rw [if_neg finite]
    exact .unreadable

/-- A number without fraction and exponent is genuine. -/
theorem genuine_ofWhole (negative : Bool) (digits : List Char) :
    (ofWhole negative digits).Genuine := by
  unfold ofWhole
  dsimp only
  split
  · split
    · exact .integer (by omega)
    · exact genuine_ofDecimal _
  · split
    · exact .integer (by omega)
    · exact genuine_ofDecimal _

/-- What is read as a number is genuine. -/
theorem genuine_readNumber {cs rest : List Char} {j : Json}
    (read : readNumber cs = some (j, rest)) : j.Genuine := by
  unfold readNumber at read
  split at read
  rename_i negative body _
  dsimp only at read
  split at read
  · cases read
  · obtain ⟨_, _, read⟩ := Option.bind_eq_some_iff.1 read
    obtain ⟨_, _, read⟩ := Option.bind_eq_some_iff.1 read
    obtain ⟨rfl, rfl⟩ := Prod.mk.inj (Option.some.inj read)
    split
    · exact genuine_ofWhole _ _
    · exact genuine_ofDecimal _

/-- An object of genuine members is genuine. -/
theorem genuine_ofMembers {members : List (Option String × Json)}
    (each : ∀ member ∈ members, member.2.Genuine) : (ofMembers members).Genuine := by
  have kept : ∀ {named : List (String × Json)},
      members.mapM (fun member => member.1.map (·, member.2)) = some named →
        ∀ member ∈ named, member.2.Genuine := by
    induction members with
    | nil =>
      intro named collected
      obtain rfl := Option.some.inj collected
      exact List.forall_mem_nil _
    | cons first rest ih =>
      intro named collected
      obtain ⟨here, later⟩ := List.forall_mem_cons.1 each
      rw [List.mapM_cons] at collected
      obtain ⟨member, named, collected⟩ := Option.bind_eq_some_iff.1 collected
      obtain ⟨others, more, collected⟩ := Option.bind_eq_some_iff.1 collected
      obtain ⟨key, _, rfl⟩ := Option.map_eq_some_iff.1 named
      obtain rfl := Option.some.inj collected
      exact List.forall_mem_cons.2 ⟨here, ih later more⟩
  unfold ofMembers
  split
  · rename_i collected
    exact .object (kept collected)
  · exact .unreadable

mutual

/-- What is read as a value is genuine. -/
theorem genuine_readValue : ∀ {fuel : Nat} {cs rest : List Char} {j : Json},
    readValue fuel cs = some (j, rest) → j.Genuine
  | 0, _, _, _, read => by cases read
  | fuel + 1, cs, rest, j, read => by
    rw [readValue] at read
    split at read
    · obtain ⟨rfl, rfl⟩ := Prod.mk.inj (Option.some.inj read)
      exact .null
    · obtain ⟨rfl, rfl⟩ := Prod.mk.inj (Option.some.inj read)
      exact .bool true
    · obtain ⟨rfl, rfl⟩ := Prod.mk.inj (Option.some.inj read)
      exact .bool false
    · obtain ⟨⟨s, after⟩, _, same⟩ := Option.map_eq_some_iff.1 read
      obtain ⟨rfl, rfl⟩ := Prod.mk.inj same
      cases s with
      | none => exact .unreadable
      | some s => exact .string s
    · split at read
      · obtain ⟨rfl, rfl⟩ := Prod.mk.inj (Option.some.inj read)
        exact .array (List.forall_mem_nil _)
      · obtain ⟨⟨items, after⟩, readItems, same⟩ := Option.map_eq_some_iff.1 read
        obtain ⟨rfl, rfl⟩ := Prod.mk.inj same
        exact .array (genuine_readItems readItems)
    · split at read
      · obtain ⟨rfl, rfl⟩ := Prod.mk.inj (Option.some.inj read)
        exact .object (List.forall_mem_nil _)
      · obtain ⟨⟨members, after⟩, readMembers, same⟩ := Option.map_eq_some_iff.1 read
        obtain ⟨rfl, rfl⟩ := Prod.mk.inj same
        exact genuine_ofMembers (genuine_readMembers readMembers)
    · exact genuine_readNumber read

/-- What is read as items is genuine. -/
theorem genuine_readItems : ∀ {fuel : Nat} {cs rest : List Char} {items : List Json},
    readItems fuel cs = some (items, rest) → ∀ j ∈ items, j.Genuine
  | 0, _, _, _, read => by cases read
  | fuel + 1, cs, rest, items, read => by
    rw [readItems] at read
    obtain ⟨⟨j, after⟩, first, read⟩ := Option.bind_eq_some_iff.1 read
    have here := genuine_readValue first
    dsimp only at read
    split at read
    · obtain ⟨⟨others, last⟩, later, read⟩ := Option.bind_eq_some_iff.1 read
      obtain ⟨rfl, rfl⟩ := Prod.mk.inj (Option.some.inj read)
      exact List.forall_mem_cons.2 ⟨here, genuine_readItems later⟩
    · obtain ⟨rfl, rfl⟩ := Prod.mk.inj (Option.some.inj read)
      exact List.forall_mem_singleton.2 here
    · cases read

/-- What is read as members is genuine. -/
theorem genuine_readMembers : ∀ {fuel : Nat} {cs rest : List Char}
    {members : List (Option String × Json)},
    readMembers fuel cs = some (members, rest) → ∀ member ∈ members, member.2.Genuine
  | 0, _, _, _, read => by cases read
  | fuel + 1, cs, rest, members, read => by
    rw [readMembers] at read
    split at read
    · obtain ⟨⟨key, _⟩, _, read⟩ := Option.bind_eq_some_iff.1 read
      dsimp only at read
      split at read
      · obtain ⟨⟨j, after⟩, first, read⟩ := Option.bind_eq_some_iff.1 read
        have here := genuine_readValue first
        dsimp only at read
        split at read
        · obtain ⟨⟨others, last⟩, later, read⟩ := Option.bind_eq_some_iff.1 read
          obtain ⟨rfl, rfl⟩ := Prod.mk.inj (Option.some.inj read)
          exact List.forall_mem_cons.2 ⟨here, genuine_readMembers later⟩
        · obtain ⟨rfl, rfl⟩ := Prod.mk.inj (Option.some.inj read)
          exact List.forall_mem_singleton.2 here
        · cases read
      · cases read
    · cases read

end

/-- What is read from a text is genuine. -/
theorem genuine_of_parse {text : String} {j : Json} (read : parse text = some j) : j.Genuine := by
  unfold parse at read
  dsimp only at read
  split at read
  · rename_i found
    split at read
    · obtain rfl := Option.some.inj read
      exact genuine_readValue found
    · cases read
  · cases read

/-- What has a JSON form of its own is genuine. -/
theorem Faithful.genuine {j : Json} (h : j.Faithful) : j.Genuine := by
  induction h with
  | null => exact .null
  | bool b => exact .bool b
  | natural fits => exact .integer (by omega)
  | negative fits => exact .integer (by omega)
  | decimal finite => exact .decimal finite
  | string s => exact .string s
  | array _ ih => exact .array ih
  | object _ _ ih => exact .object ih

/-- A number that is taken from a genuine value is finite. -/
theorem Genuine.isFinite_of_readNumeric {j : Json} (h : j.Genuine) {x : Binary64}
    (read : readNumeric j = .ok x) : x.isFinite = true := by
  cases h with
  | @integer i fits =>
    obtain rfl := Except.ok.inj read
    have bound : Binary64.Representable (2 ^ (64 + Binary64.unitExponent)) :=
      Binary64.representable_two_pow (by decide)
    have size : i.natAbs * Binary64.unit ≤ 2 ^ (64 + Binary64.unitExponent) * 1 := by
      rw [Nat.mul_one, Nat.pow_add, ← Binary64.unit]
      exact Nat.mul_le_mul_right Binary64.unit fits.le
    exact (Binary64.Within.ofQuotient Nat.one_pos bound size).isFinite
  | decimal finite =>
    obtain rfl := Except.ok.inj read
    exact finite
  | null | bool | string | array | object | unreadable => cases read

/-- A record whose members are genuine. -/
def Record.Genuine (r : Record) : Prop := ∀ m ∈ r.members, m.2.Genuine

/-- A genuine value is read as a record of genuine members. -/
theorem Genuine.exists_of_readRecord {α : Type} {names : List String}
    {readMembers : Record → Reading α} {j : Json} {a : α} (h : j.Genuine)
    (read : readRecord names readMembers j = .ok a) :
    ∃ r : Record, r.Genuine ∧ readMembers r = .done a := by
  obtain ⟨r, record, done⟩ := Json.exists_of_readRecord read
  refine ⟨r, ?_, done⟩
  cases h with
  | object each =>
    obtain rfl := Option.some.inj record
    exact each
  | @array items each =>
    obtain rfl := Option.some.inj record
    exact fun m given => each m.2 (List.of_mem_zip given).2
  | null | bool | integer | decimal | string | unreadable => cases record

/-- A member of a genuine record is read from a genuine value. -/
theorem Record.Genuine.exists_of_field {α : Type} {r : Record} {name : String}
    {read : Json → Except Refusal α} {a : α} (h : r.Genuine)
    (done : r.field name read = .done a) : ∃ j : Json, j.Genuine ∧ read j = .ok a := by
  obtain ⟨m, given, reads⟩ := Json.exists_of_field done
  exact ⟨m.2, h m given, reads⟩

end RunReport.Json
