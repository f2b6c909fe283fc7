import RunReport.Proofs.Template.Composition

/-!
# Paths that end in a key

A key of an object may be any text, but a tag asks for a path, which is written
between marks, parted by points and trimmed. A path can end in a key if the key has
no point and no closing mark and does not end in a blank. Otherwise the tag asks for
something else: its path ends at the mark, loses the blanks at its end, and leads
through the key part by part.
-/

namespace RunReport.Template

open Search

/-- A key that a path can end in. -/
structure EndsPath (key : List Char) : Prop where
  /-- No point parts the key. -/
  undivided : '.' ∉ key
  /-- No tag ends within the key. -/
  unclosed : ¬ closing <:+: key
  /-- The key does not end in a blank, which would be taken for one around the path. -/
  kept : ∀ c, key.getLast? = some c → Text.isBlank c = false

variable {front key : List Char}

/-- A key can end a path if it has no point, no mark is found in it and trimming leaves it. -/
theorem endsPath_iff :
    EndsPath key ↔ '.' ∉ key ∧ (cut? closing key).isNone = true ∧ Text.trimEnd key = key := by
  rw [Option.isNone_iff_eq_none, cut?_eq_none_iff closing_ne_nil, Text.trimEnd_eq_self_iff]
  exact ⟨fun ⟨undivided, unclosed, kept⟩ => ⟨undivided, unclosed, kept⟩,
    fun ⟨undivided, unclosed, kept⟩ => ⟨undivided, unclosed, kept⟩⟩

instance : DecidablePred EndsPath := fun _ => decidable_of_iff _ endsPath_iff.symm

/-- A tag as it is written, character by character. -/
theorem toList_tagText (path : String) :
    (tagText path).toList = opening ++ (' ' :: path.toList ++ ' ' :: closing) := by
  simp [tagText, opening, closing]

/-- A template that begins with a tag is filled in with what the tag is filled in with and
then with what the rest of it is. -/
theorem render_of_opening {context : Json} {source out : String} {rest body later : List Char}
    (written : source.toList = opening ++ rest) (closes : Leftmost closing rest body later) :
    render source context = .ok out ↔ ∃ text others, fill context (.tag 0 body) = .ok text ∧
      fillFrom context (2 + byteLength body + 2) later = .ok others ∧
        out.toList = text ++ others := by
  have filling : render source context = (fillFrom context 0 source.toList).map String.ofList := rfl
  have opens : Leftmost opening source.toList [] rest := written ▸ Leftmost.here opening rest
  rw [filling, fillFrom_of_tag opens closes, Traversal.map_eq_ok_iff]
  have start : 0 + byteLength [] = 0 := rfl
  rw [start, Nat.zero_add]
  constructor
  · rintro ⟨_, filled, rfl⟩
    obtain ⟨text, first, further⟩ := Traversal.bind_eq_ok_iff.1 filled
    obtain ⟨others, behind, same⟩ := Traversal.bind_eq_ok_iff.1 further
    obtain rfl := Except.ok.inj same
    exact ⟨text, others, first, behind, String.toList_ofList⟩
  · rintro ⟨text, others, first, behind, same⟩
    refine ⟨text ++ others, ?_, by rw [← same, String.ofList_toList]⟩
    exact Traversal.bind_eq_ok_iff.2 ⟨text, first, Traversal.bind_eq_ok_iff.2 ⟨others, behind, rfl⟩⟩

/-- A template that begins with an offending tag is refused for it. -/
theorem render_of_offends {context : Json} {source : String} {rest : List Char} {fault : Fault}
    (written : source.toList = opening ++ rest) (offends : Offends context 0 rest fault) :
    render source context = .error fault := by
  have filling : render source context = (fillFrom context 0 source.toList).map String.ofList := rfl
  rw [filling, written, fillFrom_of_offends offends]
  rfl

/-- A tag whose path ends in a key is closed behind the key, or where the key closes it. -/
theorem exists_closes (unclosed : ¬ closing <:+: front) (apart : front.getLast? ≠ some '\x7d')
    (key : List Char) :
    ∃ body later, Leftmost closing (front ++ key ++ ' ' :: closing) (front ++ body) later ∧
      (¬ closing <:+: key ∧ body = key ++ [' '] ∧ later = [] ∨
        ∃ rest, key = body ++ closing ++ rest) := by
  have behind (rest : List Char) :
      cut? closing (front ++ rest) = (cut? closing rest).map (Prod.map (front ++ ·) id) :=
    cut?_append_of_none ((cut?_eq_none_iff closing_ne_nil).2 unclosed) fun ⟨last, _⟩ => apart last
  have closes {body rest later : List Char} (found : Leftmost closing rest body later) :
      Leftmost closing (front ++ rest) (front ++ body) later := by
    rw [← cut?_eq_some_iff closing_ne_nil] at found ⊢
    rw [behind, found]
    rfl
  rw [List.append_assoc]
  cases inKey : cut? closing key with
  | some found =>
    obtain ⟨body, rest⟩ := found
    have first := (cut?_eq_some_iff closing_ne_nil).1 inKey
    exact ⟨body, _, closes (first.append _), Or.inr ⟨rest, first.whole⟩⟩
  | none =>
    have last : cut? closing (key ++ ' ' :: closing) = some (key ++ [' '], []) := by
      rw [closing, cut?_append_of_none inKey (by simp)]
      rfl
    exact ⟨_, _, closes ((cut?_eq_some_iff closing_ne_nil).1 last),
      Or.inl ⟨(cut?_eq_none_iff closing_ne_nil).1 inKey, rfl, rfl⟩⟩

/-- A path into an object of texts is one of its keys, and one without a point. -/
theorem leadsTo_iff_of_texts {members : List (String × Json)} {j : Json}
    (texts : ∀ key j, Json.lookup key members = some j → ∃ s, j = .string s) :
    LeadsTo (.object members) key j ↔
      '.' ∉ key ∧ Json.lookup (String.ofList key) members = some j := by
  constructor
  · rintro ⟨segments, present, apart, rfl, led⟩
    cases led with
    | here => exact absurd rfl present
    | member found further =>
      obtain ⟨s, rfl⟩ := texts _ _ found
      cases further
      rw [List.intercalate_singleton]
      exact ⟨apart _ List.mem_cons_self, found⟩
  · rintro ⟨undivided, found⟩
    refine ⟨[key], List.cons_ne_nil _ _, ?_, List.intercalate_singleton, .member found (.here j)⟩
    simpa using undivided

end RunReport.Template
