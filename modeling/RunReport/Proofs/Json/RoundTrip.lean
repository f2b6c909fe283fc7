import RunReport.Proofs.Json.Numerals
import RunReport.Proofs.Json.Strings

/-!
# Reading what was written

Any value that is written as JSON, compact or indented, is read back. What is
read is the value itself but for what has no JSON form: an infinite or undefined
number and an unreadable value come back as `null`, and an integer beyond 64
bits as the nearest binary64 number. Texts and keys come back as they were, and
so do the order of members and keys that occur twice.
-/

namespace RunReport.Json

mutual

/-- The value that is written for a value: what is no number stands as `null`, and an integer
as its digits. -/
def asWritten : Json → Json
  | .null => .null
  | .unreadable => .null
  | .bool b => .bool b
  | .integer i => ofWhole (decide (i < 0)) (Digits.numeral i.natAbs)
  | .decimal x => if x.isFinite then .decimal x else .null
  | .string s => .string s
  | .array items => .array (asWrittenItems items)
  | .object members => .object (asWrittenMembers members)

/-- `asWritten` on each item of a list. -/
def asWrittenItems : List Json → List Json
  | [] => []
  | j :: rest => asWritten j :: asWrittenItems rest

/-- `asWritten` on each value of a list of members. -/
def asWrittenMembers : List (String × Json) → List (String × Json)
  | [] => []
  | (key, j) :: rest => (key, asWritten j) :: asWrittenMembers rest

end

/-- An object with keys that could be read is that object. -/
theorem ofMembers_map_some (members : List (String × Json)) :
    ofMembers (members.map fun (key, j) => (some key, j)) = .object members := by
  have whole := @mapM_map_some (String × Json) (Option String × Json)
    (fun member => (some member.1, member.2)) (fun member => member.1.map (·, member.2))
    (fun _ => rfl) members
  unfold ofMembers
  rw [whole]

/-- Blanks in front of a text make no difference. -/
theorem skipBlanks_append {blanks : List Char} (blank : ∀ c ∈ blanks, isBlank c = true)
    (cs : List Char) : skipBlanks (blanks ++ cs) = skipBlanks cs :=
  List.dropWhile_append_of_pos blank

/-- A text that starts with something else has no leading blanks. -/
theorem skipBlanks_cons {c : Char} (other : isBlank c = false) (cs : List Char) :
    skipBlanks (c :: cs) = c :: cs := by
  rw [skipBlanks, List.dropWhile_cons_of_neg (by simp [other])]

/-- Blanks in front of a value make no difference. -/
theorem readValue_blanks {blanks : List Char} (blank : ∀ c ∈ blanks, isBlank c = true)
    (fuel : Nat) (cs : List Char) : readValue fuel (blanks ++ cs) = readValue fuel cs := by
  cases fuel with
  | zero => rfl
  | succ fuel => rw [readValue, readValue, skipBlanks_append blank]

/-- A line break and its indentation are blanks. -/
theorem isBlank_lineBreak {spacing : Spacing} {depth : Nat} :
    ∀ c ∈ spacing.lineBreak depth, isBlank c = true := by
  intro c hc
  cases spacing with
  | compact => cases hc
  | indented =>
    rcases List.mem_cons.1 hc with newline | space
    · rw [newline]
      decide
    · rw [List.eq_of_mem_replicate space]
      decide

/-- Numbers start with a minus sign or a digit. -/
def StartsNumber (c : Char) : Prop := c = '-' ∨ c.isDigit = true

/-- A character that is neither does not start a number. -/
theorem StartsNumber.ne {c d : Char} (h : StartsNumber c) (sign : d ≠ '-')
    (digit : d.isDigit = false) : c ≠ d := by
  rintro rfl
  rcases h with minus | isDigit
  · exact sign minus
  · rw [digit] at isDigit
    cases isDigit

/-- A number does not start with a blank. -/
theorem StartsNumber.isBlank {c : Char} (h : StartsNumber c) : isBlank c = false := by
  have space := decide_eq_false (h.ne (d := ' ') (by decide) (by decide))
  have tab := decide_eq_false (h.ne (d := '\t') (by decide) (by decide))
  have line := decide_eq_false (h.ne (d := '\n') (by decide) (by decide))
  have carriage := decide_eq_false (h.ne (d := '\r') (by decide) (by decide))
  rw [Json.isBlank, space, tab, line, carriage]
  rfl

/-- What is read as a number starts like one. -/
theorem exists_of_readNumber {cs : List Char} {r : Json × List Char} (h : readNumber cs = some r) :
    ∃ c rest, cs = c :: rest ∧ StartsNumber c := by
  cases cs with
  | nil => cases h
  | cons c rest =>
    refine ⟨c, rest, rfl, ?_⟩
    by_contra other
    obtain ⟨sign, digit⟩ := not_or.1 other
    unfold readNumber at h
    dsimp only at h
    split at h
    · rename_i same
      exact sign (List.cons.inj same).1
    · rw [List.takeWhile_cons_of_neg digit] at h
      cases h

/-- What is read as a number is read as a value. -/
theorem readValue_of_readNumber {cs : List Char} {r : Json × List Char} (h : readNumber cs = some r)
    (fuel : Nat) : readValue (fuel + 1) cs = some r := by
  obtain ⟨c, rest, rfl, start⟩ := exists_of_readNumber h
  rw [readValue, skipBlanks_cons start.isBlank]
  split
  case h_7 => exact h
  all_goals
    rename_i same
    exact absurd (List.cons.inj same).1 (start.ne (by decide) (by decide))

/-- A text that is read as a value wherever it does not run into a number, and
that shows by its first character that it is no end of a list. -/
structure IsText (written : List Char) (j : Json) : Prop where
  /-- The text starts with neither a blank nor a closing bracket. -/
  starts : ∃ c rest, written = c :: rest ∧ isBlank c = false ∧ c ≠ ']'
  /-- The text is read, and nothing behind it. -/
  reads : ∀ fuel rest, 2 * written.length ≤ fuel → Stops rest →
    readValue fuel (written ++ rest) = some (j, rest)

/-- What is read for any fuel is a text of what it is read as. -/
theorem isText_of_reads {c : Char} {cs : List Char} {j : Json} (visible : isBlank c = false)
    (other : c ≠ ']') (h : ∀ fuel rest, 2 * cs.length < fuel → Stops rest →
      readValue (fuel + 1) (c :: cs ++ rest) = some (j, rest)) : IsText (c :: cs) j := by
  refine ⟨⟨c, cs, rfl, visible, other⟩, fun fuel rest enough stop => ?_⟩
  rw [List.length_cons] at enough
  obtain ⟨fuel, rfl⟩ := Nat.exists_eq_add_one.2 (show 0 < fuel by omega)
  exact h fuel rest (by omega) stop

/-- What is read as a number is a text of the number. -/
theorem isText_of_readNumber {written : List Char} {j : Json}
    (h : ∀ rest, Stops rest → readNumber (written ++ rest) = some (j, rest)) :
    IsText written j := by
  have alone := h [] fun c hc => by cases hc
  rw [List.append_nil] at alone
  obtain ⟨c, rest, rfl, start⟩ := exists_of_readNumber alone
  exact isText_of_reads start.isBlank (start.ne (by decide) (by decide))
    fun fuel rest _ stop => readValue_of_readNumber (h rest stop) fuel

/-- The word for nothing is its text. -/
theorem isText_null : IsText "null".toList .null :=
  isText_of_reads (by decide) (by decide) fun _ _ _ _ => rfl

/-- The words for truth and falsehood are their texts. -/
theorem isText_bool (spacing : Spacing) (depth : Nat) (b : Bool) :
    IsText (writeValue spacing depth (.bool b)) (.bool b) := by
  cases b with
  | true => exact isText_of_reads (by decide) (by decide) fun _ _ _ _ => rfl
  | false => exact isText_of_reads (by decide) (by decide) fun _ _ _ _ => rfl

/-- The digits of an integer are a text of what they denote. -/
theorem isText_integer (i : Int) : IsText (Digits.intText i).toList
    (ofWhole (decide (i < 0)) (Digits.numeral i.natAbs)) := by
  have text : (Digits.intText i).toList =
      Binary64.withSign (decide (i < 0)) (Digits.numeral i.natAbs) := by
    unfold Digits.intText Digits.text
    by_cases negative : i < 0
    · simp [negative, Binary64.withSign]
    · simp [negative, Binary64.withSign]
  refine isText_of_readNumber fun rest stop => ?_
  rw [text, withSign_append, readNumber_numeral stop]

/-- The text of a number is a text of the number, if that is finite. -/
theorem isText_decimal (x : Binary64) :
    IsText (writeDecimal x) (if x.isFinite then .decimal x else .null) := by
  by_cases finite : x.isFinite = true
  · rw [if_pos finite]
    exact isText_of_readNumber fun rest stop => readNumber_writeDecimal finite stop
  · rw [if_neg finite, writeDecimal, if_neg finite]
    exact isText_null

/-- A text in quotes is a text of itself. -/
theorem isText_string (s : String) : IsText (writeString s) (.string s) := by
  have text : writeString s = '"' :: (s.toList.flatMap escapeChar ++ ['"']) := rfl
  rw [text]
  refine isText_of_reads (by decide) (by decide) fun fuel rest _ _ => ?_
  rw [List.cons_append, List.append_assoc, List.singleton_append, readValue,
    skipBlanks_cons (by decide)]
  simp only [readString_writeString, Option.map_some, ofText]

/-- A text that starts with another character does not go on like a number. -/
theorem stops_cons {c : Char} {rest : List Char}
    (other : c.isDigit = false ∧ c ≠ '.' ∧ c ≠ 'e' ∧ c ≠ 'E') : Stops (c :: rest) := by
  intro d hd
  obtain rfl : c = d := Option.some.inj hd
  exact other

/-- Blanks do not go on like a number. -/
theorem stops_blanks {blanks rest : List Char} (blank : ∀ c ∈ blanks, isBlank c = true)
    (stop : Stops rest) : Stops (blanks ++ rest) := by
  cases blanks with
  | nil => exact stop
  | cons c cs =>
    have isBlank := blank c List.mem_cons_self
    refine stops_cons ?_
    simp only [Json.isBlank, Bool.or_eq_true, decide_eq_true_eq] at isBlank
    rcases isBlank with ((rfl | rfl) | rfl) | rfl <;> decide

/-- The rest of a list does not go on like a number. -/
theorem stops_writeItems (spacing : Spacing) (depth : Nat) (items : List Json) (rest : List Char) :
    Stops (writeItems spacing depth items ++ rest) := by
  cases items with
  | nil =>
    rw [writeItems, List.append_assoc]
    exact stops_blanks isBlank_lineBreak (stops_cons (by decide))
  | cons j items =>
    rw [writeItems]
    exact stops_cons (by decide)

/-- The rest of an object does not go on like a number. -/
theorem stops_writeMembers (spacing : Spacing) (depth : Nat) (members : List (String × Json))
    (rest : List Char) : Stops (writeMembers spacing depth members ++ rest) := by
  cases members with
  | nil =>
    rw [writeMembers, List.append_assoc]
    exact stops_blanks isBlank_lineBreak (stops_cons (by decide))
  | cons member members =>
    rw [writeMembers]
    exact stops_cons (by decide)

/-- The last item of a list. -/
theorem readItems_last {fuel : Nat} {cs middle rest : List Char} {j : Json}
    (value : readValue fuel cs = some (j, middle)) (close : skipBlanks middle = ']' :: rest) :
    readItems (fuel + 1) cs = some ([j], rest) := by
  rw [readItems, value]
  simp only [Option.bind_eq_bind, Option.bind_some, close]

/-- An item with more items behind it. -/
theorem readItems_more {fuel : Nat} {cs middle more rest : List Char} {j : Json} {items : List Json}
    (value : readValue fuel cs = some (j, middle)) (comma : skipBlanks middle = ',' :: more)
    (others : readItems fuel more = some (items, rest)) :
    readItems (fuel + 1) cs = some (j :: items, rest) := by
  rw [readItems, value]
  simp only [Option.bind_eq_bind, Option.bind_some, comma, others]

/-- A key in quotes behind blanks, before a colon. -/
theorem skipBlanks_key {blanks : List Char} (blank : ∀ c ∈ blanks, isBlank c = true)
    (key : String) (cs : List Char) :
    skipBlanks (blanks ++ (writeString key ++ ':' :: cs)) =
      '"' :: (key.toList.flatMap escapeChar ++ '"' :: ':' :: cs) := by
  have text : writeString key ++ ':' :: cs =
      '"' :: (key.toList.flatMap escapeChar ++ '"' :: ':' :: cs) := by simp [writeString]
  rw [skipBlanks_append blank, text, skipBlanks_cons (by decide)]

/-- The last member of an object. -/
theorem readMembers_last {fuel : Nat} {blanks cs middle rest : List Char} {key : String} {j : Json}
    (blank : ∀ c ∈ blanks, isBlank c = true) (value : readValue fuel cs = some (j, middle))
    (close : skipBlanks middle = '\x7d' :: rest) :
    readMembers (fuel + 1) (blanks ++ (writeString key ++ ':' :: cs)) =
      some ([(some key, j)], rest) := by
  have colon : skipBlanks (':' :: cs) = ':' :: cs := skipBlanks_cons (by decide) cs
  rw [readMembers, skipBlanks_key blank]
  simp only [readString_writeString, Option.bind_eq_bind, Option.bind_some, colon, value, close]

/-- A member with more members behind it. -/
theorem readMembers_more {fuel : Nat} {blanks cs middle more rest : List Char} {key : String}
    {j : Json} {members : List (Option String × Json)}
    (blank : ∀ c ∈ blanks, isBlank c = true) (value : readValue fuel cs = some (j, middle))
    (comma : skipBlanks middle = ',' :: more)
    (others : readMembers fuel more = some (members, rest)) :
    readMembers (fuel + 1) (blanks ++ (writeString key ++ ':' :: cs)) =
      some ((some key, j) :: members, rest) := by
  have colon : skipBlanks (':' :: cs) = ':' :: cs := skipBlanks_cons (by decide) cs
  rw [readMembers, skipBlanks_key blank]
  simp only [readString_writeString, Option.bind_eq_bind, Option.bind_some, colon, value, comma,
    others]

/-- A list with items is read from its first item on. -/
theorem readValue_array {fuel : Nat} {blanks first rest more : List Char} {items : List Json}
    (blank : ∀ c ∈ blanks, isBlank c = true)
    (starts : ∃ c cs, first = c :: cs ∧ isBlank c = false ∧ c ≠ ']')
    (read : readItems fuel (blanks ++ (first ++ rest)) = some (items, more)) :
    readValue (fuel + 1) ('[' :: (blanks ++ (first ++ rest))) = some (.array items, more) := by
  obtain ⟨c, cs, rfl, visible, other⟩ := starts
  have start : skipBlanks (blanks ++ (c :: cs ++ rest)) = c :: (cs ++ rest) := by
    rw [skipBlanks_append blank, List.cons_append, skipBlanks_cons visible]
  rw [readValue, skipBlanks_cons (by decide)]
  simp only [start, read]
  split
  · rename_i same
    exact absurd (List.cons.inj same).1 other
  · rfl

/-- An object with members is read from its first key on. -/
theorem readValue_object {fuel : Nat} {blanks cs more : List Char} {key : String}
    {members : List (String × Json)} (blank : ∀ c ∈ blanks, isBlank c = true)
    (read : readMembers fuel (blanks ++ (writeString key ++ ':' :: cs)) =
      some (members.map fun (key, j) => (some key, j), more)) :
    readValue (fuel + 1) ('\x7b' :: (blanks ++ (writeString key ++ ':' :: cs))) =
      some (.object members, more) := by
  rw [readValue, skipBlanks_cons (by decide)]
  simp only [skipBlanks_key blank, read, Option.map_some, ofMembers_map_some]
  rfl

/-- Between a key and its value stand a colon and blanks. -/
theorem exists_colon (spacing : Spacing) :
    ∃ gap, spacing.colon = ':' :: gap ∧ ∀ c ∈ gap, isBlank c = true := by
  cases spacing with
  | compact => exact ⟨[], rfl, List.forall_mem_nil _⟩
  | indented => exact ⟨[' '], rfl, List.forall_mem_singleton.2 rfl⟩

mutual

/-- What is written for a value is a text of what the value comes back as. -/
theorem isText_writeValue (spacing : Spacing) : ∀ (j : Json) (depth : Nat),
    IsText (writeValue spacing depth j) j.asWritten
  | .null, _ => by
    rw [writeValue, asWritten]
    exact isText_null
  | .unreadable, _ => by
    rw [writeValue, asWritten]
    exact isText_null
  | .bool b, depth => by
    rw [asWritten]
    exact isText_bool spacing depth b
  | .integer i, _ => by
    rw [writeValue, asWritten]
    exact isText_integer i
  | .decimal x, _ => by
    rw [writeValue, asWritten]
    exact isText_decimal x
  | .string s, _ => by
    rw [writeValue, asWritten]
    exact isText_string s
  | .array [], _ => by
    rw [writeValue, asWritten, asWrittenItems]
    exact isText_of_reads (by decide) (by decide) fun _ _ _ _ => rfl
  | .array (j :: items), depth => by
    have first := isText_writeValue spacing j (depth + 1)
    rw [writeValue, asWritten, asWrittenItems, List.cons_append, List.cons_append,
      List.append_assoc]
    refine isText_of_reads (by decide) (by decide) fun fuel rest enough _ => ?_
    rw [List.length_append, List.length_append] at enough
    obtain ⟨fuel, rfl⟩ := Nat.exists_eq_add_one.2 (show 0 < fuel by omega)
    rw [List.cons_append, List.append_assoc, List.append_assoc]
    refine readValue_array isBlank_lineBreak first.starts ?_
    refine readItems_writeItems spacing items depth (by omega) ?_
    rw [readValue_blanks isBlank_lineBreak]
    exact first.reads fuel _ (by omega) (stops_writeItems spacing depth items rest)
  | .object [], _ => by
    rw [writeValue, asWritten, asWrittenMembers]
    exact isText_of_reads (by decide) (by decide) fun _ _ _ _ => rfl
  | .object ((key, j) :: members), depth => by
    have first := isText_writeValue spacing j (depth + 1)
    obtain ⟨gap, colon, blank⟩ := exists_colon spacing
    have text : writeValue spacing depth (.object ((key, j) :: members)) =
        '\x7b' :: (spacing.lineBreak (depth + 1) ++ (writeString key ++ ':' ::
          (gap ++ (writeValue spacing (depth + 1) j ++ writeMembers spacing depth members)))) := by
      simp [writeValue, colon]
    rw [text, asWritten]
    refine isText_of_reads (by decide) (by decide) fun fuel rest enough _ => ?_
    simp only [List.length_append, List.length_cons] at enough
    obtain ⟨fuel, rfl⟩ := Nat.exists_eq_add_one.2 (show 0 < fuel by omega)
    simp only [List.cons_append, List.append_assoc]
    refine readValue_object isBlank_lineBreak ?_
    rw [asWrittenMembers]
    refine readMembers_writeMembers spacing members depth (by omega) isBlank_lineBreak ?_
    rw [readValue_blanks blank]
    exact first.reads fuel _ (by omega) (stops_writeMembers spacing depth members rest)

/-- What is written for the items after a first one is read behind that one. -/
theorem readItems_writeItems (spacing : Spacing) : ∀ (items : List Json) (depth : Nat)
    {fuel : Nat} {cs rest : List Char} {j : Json},
    2 * (writeItems spacing depth items).length ≤ fuel →
    readValue fuel cs = some (j, writeItems spacing depth items ++ rest) →
    readItems (fuel + 1) cs = some (j :: asWrittenItems items, rest)
  | [], depth, fuel, cs, rest, j, enough, value => by
    rw [writeItems] at value
    refine readItems_last value ?_
    rw [List.append_assoc, skipBlanks_append isBlank_lineBreak]
    rfl
  | k :: items, depth, fuel, cs, rest, j, enough, value => by
    have next := isText_writeValue spacing k (depth + 1)
    rw [writeItems, List.cons_append, List.cons_append, List.append_assoc] at value enough
    rw [List.length_cons, List.length_append, List.length_append] at enough
    rw [List.cons_append, List.append_assoc, List.append_assoc] at value
    obtain ⟨fuel, rfl⟩ := Nat.exists_eq_add_one.2 (show 0 < fuel by omega)
    refine readItems_more value (skipBlanks_cons (by decide) _) ?_
    refine readItems_writeItems spacing items depth (by omega) ?_
    rw [readValue_blanks isBlank_lineBreak]
    exact next.reads fuel _ (by omega) (stops_writeItems spacing depth items rest)

/-- What is written for the members after a first one is read behind that one. -/
theorem readMembers_writeMembers (spacing : Spacing) : ∀ (members : List (String × Json))
    (depth : Nat) {fuel : Nat} {blanks cs rest : List Char} {key : String} {j : Json},
    2 * (writeMembers spacing depth members).length ≤ fuel →
    (∀ c ∈ blanks, isBlank c = true) →
    readValue fuel cs = some (j, writeMembers spacing depth members ++ rest) →
    readMembers (fuel + 1) (blanks ++ (writeString key ++ ':' :: cs)) =
      some (((key, j) :: asWrittenMembers members).map fun (key, j) => (some key, j), rest)
  | [], depth, fuel, blanks, cs, rest, key, j, enough, blank, value => by
    rw [writeMembers] at value
    refine readMembers_last blank value ?_
    rw [List.append_assoc, skipBlanks_append isBlank_lineBreak]
    rfl
  | (k, v) :: members, depth, fuel, blanks, cs, rest, key, j, enough, blank, value => by
    have next := isText_writeValue spacing v (depth + 1)
    obtain ⟨gap, colon, gapBlank⟩ := exists_colon spacing
    have text : writeMembers spacing depth ((k, v) :: members) =
        ',' :: (spacing.lineBreak (depth + 1) ++ (writeString k ++ ':' ::
          (gap ++ (writeValue spacing (depth + 1) v ++ writeMembers spacing depth members)))) := by
      simp [writeMembers, colon]
    rw [text] at value enough
    simp only [List.length_append, List.length_cons] at enough
    simp only [List.cons_append, List.append_assoc] at value
    obtain ⟨fuel, rfl⟩ := Nat.exists_eq_add_one.2 (show 0 < fuel by omega)
    rw [asWrittenMembers, List.map_cons]
    refine readMembers_more blank value (skipBlanks_cons (by decide) _) ?_
    refine readMembers_writeMembers spacing members depth (by omega) isBlank_lineBreak ?_
    rw [readValue_blanks gapBlank]
    exact next.reads fuel _ (by omega) (stops_writeMembers spacing depth members rest)

end

/-- What is read from the text of a value, with blanks behind it, is what the
value comes back as. -/
theorem parse_writeValue (spacing : Spacing) (j : Json) {blanks : List Char}
    (blank : ∀ c ∈ blanks, isBlank c = true) :
    parse (String.ofList (writeValue spacing 0 j ++ blanks)) = some j.asWritten := by
  have text := isText_writeValue spacing j 0
  have nothing : Stops [] := fun c hc => by cases hc
  have stop := stops_blanks blank nothing
  rw [List.append_nil] at stop
  have read := text.reads (2 * (writeValue spacing 0 j ++ blanks).length + 1) blanks
    (by rw [List.length_append]; omega) stop
  have empty : skipBlanks blanks = [] := by
    rw [← List.append_nil blanks, skipBlanks_append blank]
    rfl
  simp only [parse, String.toList_ofList, read, empty, List.isEmpty_nil, if_true]

/-- A value written as indented text is read back. -/
theorem parse_pretty (j : Json) : parse j.pretty = some j.asWritten := by
  have read := parse_writeValue .indented j (List.forall_mem_nil _)
  rwa [List.append_nil] at read

/-- A value written as compact text is read back. -/
theorem parse_compact (j : Json) : parse j.compact = some j.asWritten := by
  have read := parse_writeValue .compact j (List.forall_mem_nil _)
  rwa [List.append_nil] at read

/-- The items of an array come back one by one. -/
theorem asWritten_array (items : List Json) :
    (Json.array items).asWritten = .array (items.map asWritten) := by
  have each : asWrittenItems items = items.map asWritten := by
    induction items with
    | nil => rfl
    | cons j items ih => rw [asWrittenItems, List.map_cons, ih]
  rw [asWritten, each]

/-- The members of an object come back one by one. -/
theorem asWritten_object (members : List (String × Json)) :
    (Json.object members).asWritten =
      .object (members.map fun (key, j) => (key, j.asWritten)) := by
  have each : asWrittenMembers members = members.map fun (key, j) => (key, j.asWritten) := by
    induction members with
    | nil => rfl
    | cons member members ih => rw [asWrittenMembers, List.map_cons, ih]
  rw [asWritten, each]

/-- A key of written members has what was written for the first member of that key. -/
theorem lookup_map {α : Type} (write : α → Json) (key : String) (members : List (String × α)) :
    lookup key (members.map fun (k, a) => (k, write a)) =
      ((members.find? (·.1 = key)).map (·.2)).map write := by
  induction members with
  | nil => rfl
  | cons member members ih =>
    obtain ⟨k, a⟩ := member
    rw [List.map_cons, lookup]
    by_cases same : k = key
    · rw [if_pos same, List.find?_cons_of_pos (by simpa using same)]
      rfl
    · rw [if_neg same, ih, List.find?_cons_of_neg (by simpa using same)]

/-- A natural number of 64 bits comes back as it was. -/
theorem asWritten_natCast {n : Nat} (h : n < 2 ^ 64) :
    (Json.integer (n : Int)).asWritten = .integer n := by
  rw [asWritten, decide_eq_false (Int.not_lt.2 (Int.natCast_nonneg n)), ofWhole]
  simp only [Bool.false_eq_true, if_false, Int.natAbs_natCast, Digits.value_numeral, h, if_true]

end RunReport.Json
