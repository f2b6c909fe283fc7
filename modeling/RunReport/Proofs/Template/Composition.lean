import RunReport.Proofs.Template.Grammar
import RunReport.Proofs.Text.Trimming

/-!
# Templates one after the other

A template that is filled in, followed by a second one, is filled in as both are,
unless the two braces of an opening mark come together where they meet. A fault
in the second one stays the same but for the byte it is found at, which moves by
the bytes of the first. So a template is refused exactly at its first tag that
has no end, is empty, or leads to no scalar, and what is reported is the byte at
which that tag begins.
-/

namespace RunReport.Template

open Search

variable {context : Json} {position : Nat} {cs more out : List Char}

/-- Bytes of two texts add up. -/
theorem byteLength_append (x y : List Char) :
    byteLength (x ++ y) = byteLength x + byteLength y := by
  induction x with
  | nil => exact (Nat.zero_add _).symm
  | cons c x ih => rw [List.cons_append, byteLength_cons, byteLength_cons, ih, Nat.add_assoc]

/-- The bytes of a text are those of its UTF-8 form. -/
theorem byteLength_toList (s : String) : byteLength s.toList = s.utf8ByteSize := by
  have each : ∀ cs : List Char, byteLength cs = (String.ofList cs).utf8ByteSize := by
    intro cs
    induction cs with
    | nil => rfl
    | cons c cs ih =>
      rw [byteLength_cons, String.ofList_cons, String.utf8ByteSize_append,
        String.utf8ByteSize_singleton, ih]
  rw [each, String.ofList_toList]

/-- Each of the two marks of a tag has two bytes. -/
theorem byteLength_tag (position : Nat) (before body later : List Char) :
    position + byteLength (before ++ opening ++ (body ++ closing ++ later)) =
      position + byteLength before + 2 + byteLength body + 2 + byteLength later := by
  have marks : byteLength opening = 2 ∧ byteLength closing = 2 := by decide
  simp only [byteLength_append, marks]
  omega

/-- The fault at a byte that is moved by the given number. -/
def Fault.moved (bytes : Nat) : Fault → Fault
  | unterminated start => unterminated (start + bytes)
  | emptyTag start => emptyTag (start + bytes)
  | missing path => missing path
  | notScalar path => notScalar path

/-- A tag is filled in alike wherever it begins. -/
theorem fill_tag_add (start bytes : Nat) (body : List Char) :
    fill context (.tag (start + bytes) body) =
      (fill context (.tag start body)).mapError (Fault.moved bytes) := by
  simp only [fill]
  split
  · rfl
  split
  · rfl
  split
  · rfl
  · rfl

/-- A text is filled in alike wherever it begins. -/
theorem fillFrom_add (bytes : Nat) :
    fillFrom context (position + bytes) cs =
      (fillFrom context position cs).mapError (Fault.moved bytes) := by
  induction cs using tagInduction generalizing position with
  | plain cs plain =>
    rw [fillFrom_of_plain plain, fillFrom_of_plain plain]
    rfl
  | unclosed cs before rest opens unclosed =>
    rw [fillFrom_of_unclosed opens unclosed, fillFrom_of_unclosed opens unclosed,
      Nat.add_right_comm]
    rfl
  | tag cs before rest body later opens closes ih =>
    have place : ∀ n, position + bytes + n = position + n + bytes := fun n => Nat.add_right_comm _ _ _
    rw [fillFrom_of_tag opens closes, fillFrom_of_tag opens closes, place, fill_tag_add,
      Nat.add_right_comm _ bytes, Nat.add_right_comm _ bytes, Nat.add_right_comm _ bytes, ih]
    cases fill context (.tag (position + byteLength before) body) with
    | error fault => rfl
    | ok text =>
      cases fillFrom context (position + byteLength before + 2 + byteLength body + 2) later with
      | error fault => rfl
      | ok others => rfl

/-- Literal text in front moves the tags behind it. -/
theorem fillFrom_append_of_plain (plain : ¬ opening <:+: cs)
    (apart : ¬ (cs.getLast? = some '\x7b' ∧ more.head? = some '\x7b')) :
    fillFrom context position (cs ++ more) =
      (fillFrom context (position + byteLength cs) more).map (cs ++ ·) := by
  have joined : cut? opening (cs ++ more) =
      (cut? opening more).map (Prod.map (cs ++ ·) id) :=
    cut?_append_of_none ((cut?_eq_none_iff opening_ne_nil).2 plain) apart
  have found : ∀ {before after : List Char}, Leftmost opening more before after →
      Leftmost opening (cs ++ more) (cs ++ before) after := by
    intro before after opens
    rw [← cut?_eq_some_iff opening_ne_nil, joined, (cut?_eq_some_iff opening_ne_nil).2 opens]
    rfl
  have bytes : ∀ before, position + byteLength (cs ++ before) =
      position + byteLength cs + byteLength before := by
    intro before
    rw [byteLength_append, Nat.add_assoc]
  induction more using tagInduction with
  | plain more plain' =>
    have whole : ¬ opening <:+: cs ++ more := by
      rw [← cut?_eq_none_iff opening_ne_nil, joined, (cut?_eq_none_iff opening_ne_nil).2 plain']
      rfl
    rw [fillFrom_of_plain whole, fillFrom_of_plain plain']
    rfl
  | unclosed more before rest opens unclosed =>
    rw [fillFrom_of_unclosed (found opens) unclosed, fillFrom_of_unclosed opens unclosed, bytes]
    rfl
  | tag more before rest body later opens closes _ =>
    rw [fillFrom_of_tag (found opens) closes, fillFrom_of_tag opens closes, bytes]
    cases fill context _ with
    | error fault => rfl
    | ok text =>
      cases fillFrom context _ later with
      | error fault => rfl
      | ok others => simp [bind, Except.bind, pure, Except.pure, Except.map]

/-- What comes behind a text that is filled in is filled in on its own. -/
theorem fillFrom_append (filled : fillFrom context position cs = .ok out)
    (apart : ¬ (cs.getLast? = some '\x7b' ∧ more.head? = some '\x7b')) :
    fillFrom context position (cs ++ more) =
      (fillFrom context (position + byteLength cs) more).map (out ++ ·) := by
  induction cs using tagInduction generalizing position out with
  | plain cs plain =>
    rw [fillFrom_of_plain plain] at filled
    obtain rfl := Except.ok.inj filled
    exact fillFrom_append_of_plain plain apart
  | unclosed cs before rest opens unclosed =>
    rw [fillFrom_of_unclosed opens unclosed] at filled
    cases filled
  | tag cs before rest body later opens closes ih =>
    rw [fillFrom_of_tag opens closes] at filled
    obtain ⟨text, inserted, further⟩ := Traversal.bind_eq_ok_iff.1 filled
    obtain ⟨others, behind, same⟩ := Traversal.bind_eq_ok_iff.1 further
    obtain rfl : before ++ text ++ others = out := Except.ok.inj same
    have whole : cs = before ++ opening ++ (body ++ closing ++ later) := by
      rw [opens.whole, closes.whole]
    have last : later.getLast? = some '\x7b' → cs.getLast? = some '\x7b' := by
      intro last
      rw [whole, List.getLast?_append, List.getLast?_append, last]
      rfl
    have rest := ih behind fun ⟨ends, begins⟩ => apart ⟨last ends, begins⟩
    rw [fillFrom_of_tag (opens.append more) (closes.append more), inserted, Traversal.ok_bind,
      rest, ← byteLength_tag, ← whole]
    cases fillFrom context (position + byteLength cs) more with
    | error fault => rfl
    | ok text => simp [bind, Except.bind, pure, Except.pure, Except.map]

/-- Why a tag cannot be filled in that begins at the given byte, the given text
standing behind its opening mark. -/
inductive Offends (context : Json) (start : Nat) (rest : List Char) : Fault → Prop where
  /-- It has no end. -/
  | unterminated (unclosed : ¬ closing <:+: rest) : Offends context start rest (.unterminated start)
  /-- It holds nothing but blanks. -/
  | emptyTag {body later : List Char} (closes : Leftmost closing rest body later)
    (blank : ∀ c ∈ body, Text.isBlank c = true) : Offends context start rest (.emptyTag start)
  /-- Its path leads nowhere. -/
  | missing {body later : List Char} (closes : Leftmost closing rest body later)
    (present : Text.trim body ≠ []) (astray : ∀ j, ¬ LeadsTo context (Text.trim body) j) :
    Offends context start rest (.missing (String.ofList (Text.trim body)))
  /-- Its path leads to a value that is no scalar. -/
  | notScalar {body later : List Char} {j : Json} (closes : Leftmost closing rest body later)
    (present : Text.trim body ≠ []) (leads : LeadsTo context (Text.trim body) j)
    (composite : ∀ text, ¬ ShownAs j text) :
    Offends context start rest (.notScalar (String.ofList (Text.trim body)))

/-- A closed tag is refused exactly for what is wrong with it. -/
theorem fill_tag_eq_error_iff {start : Nat} {rest body later : List Char} {fault : Fault}
    (closes : Leftmost closing rest body later) :
    fill context (.tag start body) = .error fault ↔ Offends context start rest fault := by
  have body_eq : ∀ {body' later' : List Char}, Leftmost closing rest body' later' → body' = body :=
    fun closes' => (closes'.unique closing_ne_nil closes).1
  constructor
  · intro refused
    simp only [fill] at refused
    split at refused
    · rename_i empty
      obtain rfl := Except.error.inj refused
      exact .emptyTag closes (Text.trim_eq_nil_iff.1 (List.isEmpty_iff.1 empty))
    rename_i filled
    have present : Text.trim body ≠ [] := fun empty => filled (List.isEmpty_iff.2 empty)
    split at refused
    · rename_i missing
      obtain rfl := Except.error.inj refused
      refine .missing closes present fun j leads => ?_
      exact absurd (missing.symm.trans (resolve_eq_some_iff.2 leads)) (by simp)
    rename_i j found
    split at refused
    · cases refused
    · rename_i composite
      obtain rfl := Except.error.inj refused
      refine .notScalar closes present (resolve_eq_some_iff.1 found) fun text shown => ?_
      exact absurd (composite.symm.trans (scalarText_eq_some_iff.2 shown)) (by simp)
  · intro offends
    cases offends with
    | unterminated unclosed => exact absurd closes.occurs unclosed
    | emptyTag closes' blank =>
      obtain rfl := body_eq closes'
      simp [fill, Text.trim_eq_nil_iff.2 blank]
    | missing closes' present astray =>
      obtain rfl := body_eq closes'
      have nowhere : resolve context _ = none := Option.eq_none_iff_forall_ne_some.2 fun j found =>
        astray j (resolve_eq_some_iff.1 found)
      simp [fill, present, nowhere]
    | notScalar closes' present leads composite =>
      obtain rfl := body_eq closes'
      have textless : scalarText _ = none := Option.eq_none_iff_forall_ne_some.2 fun text shown =>
        composite text (scalarText_eq_some_iff.1 shown)
      simp [fill, present, resolve_eq_some_iff.2 leads, textless]

/-- A text that begins with an offending tag is refused for it. -/
theorem fillFrom_of_offends {rest : List Char} {fault : Fault}
    (offends : Offends context position rest fault) :
    fillFrom context position (opening ++ rest) = .error fault := by
  have opens := Leftmost.here opening rest
  have refused : ∀ {body later : List Char}, Leftmost closing rest body later →
      fillFrom context position (opening ++ rest) = .error fault := by
    intro body later closes
    have wrong : fill context (.tag (position + byteLength []) body) = .error fault :=
      (fill_tag_eq_error_iff closes).2 offends
    rw [fillFrom_of_tag opens closes, wrong]
    rfl
  cases offends with
  | unterminated unclosed => exact fillFrom_of_unclosed opens unclosed
  | emptyTag closes _ => exact refused closes
  | missing closes _ _ => exact refused closes
  | notScalar closes _ _ _ => exact refused closes

/-- A text is refused exactly at a tag that offends and has nothing to be refused
before it. -/
theorem fillFrom_eq_error_iff {fault : Fault} :
    fillFrom context position cs = .error fault ↔ ∃ before rest,
      cs = before ++ opening ++ rest ∧ before.getLast? ≠ some '\x7b' ∧
        (∃ out, fillFrom context position before = .ok out) ∧
        Offends context (position + byteLength before) rest fault := by
  constructor
  · intro refused
    induction cs using tagInduction generalizing position with
    | plain cs plain =>
      rw [fillFrom_of_plain plain] at refused
      cases refused
    | unclosed cs before rest opens unclosed =>
      rw [fillFrom_of_unclosed opens unclosed] at refused
      obtain rfl := Except.error.inj refused
      exact ⟨before, rest, opens.whole, opens.getLast?_ne,
        ⟨before, fillFrom_of_plain (opens.notBefore opening_ne_nil)⟩, .unterminated unclosed⟩
    | tag cs before rest body later opens closes ih =>
      rw [fillFrom_of_tag opens closes] at refused
      rcases Traversal.bind_eq_error_iff.1 refused with here | ⟨text, inserted, behind⟩
      · exact ⟨before, rest, opens.whole, opens.getLast?_ne,
          ⟨before, fillFrom_of_plain (opens.notBefore opening_ne_nil)⟩,
          (fill_tag_eq_error_iff closes).1 here⟩
      · rcases Traversal.bind_eq_error_iff.1 behind with further | ⟨_, _, wrong⟩
        · obtain ⟨x, y, split, ends, ⟨out, filled⟩, offends⟩ := ih further
          refine ⟨before ++ opening ++ (body ++ closing ++ x), y, ?_, ?_, ?_, ?_⟩
          · rw [opens.whole, closes.whole, split]
            simp
          · rw [List.getLast?_append, List.getLast?_append]
            cases last : x.getLast? with
            | none => simp [closing]
            | some c => exact fun same => ends (last.trans same)
          · have filled' : fillFrom context position (before ++ opening ++ (body ++ closing ++ x)) =
                .ok (before ++ text ++ out) := by
              rw [fillFrom_of_tag (opens.change _) (closes.change x), inserted, Traversal.ok_bind,
                filled]
              rfl
            exact ⟨_, filled'⟩
          · rwa [byteLength_tag]
        · cases wrong
  · rintro ⟨before, rest, rfl, ends, ⟨out, filled⟩, offends⟩
    rw [List.append_assoc, fillFrom_append filled fun ⟨last, _⟩ => ends last,
      fillFrom_of_offends offends]
    rfl

/-- A template behind another one that is filled in: what comes of both is
what comes of each of them, and a fault is the same but for the byte it is found
at, which moves by the bytes in front. A template is refused exactly when what
stands before one of its opening marks is filled in and the tag that begins there
offends, and for what is wrong with that tag, at the byte of that mark. -/
theorem render_composes (context : Json) :
    (∀ a b out : String, render a context = .ok out →
      ¬ (a.toList.getLast? = some '\x7b' ∧ b.toList.head? = some '\x7b') →
        (∀ further, render b context = .ok further →
          render (a ++ b) context = .ok (out ++ further)) ∧
        ∀ fault, render b context = .error fault →
          render (a ++ b) context = .error (fault.moved a.utf8ByteSize)) ∧
    ∀ (source : String) (fault : Fault), render source context = .error fault ↔
      ∃ before rest : String, source = before ++ String.ofList opening ++ rest ∧
        before.toList.getLast? ≠ some '\x7b' ∧ (∃ out, render before context = .ok out) ∧
        Offends context before.utf8ByteSize rest.toList fault := by
  have filling : ∀ s : String,
      render s context = (fillFrom context 0 s.toList).map String.ofList := fun _ => rfl
  constructor
  · intro a b out given apart
    obtain ⟨cs, filled, rfl⟩ := Traversal.map_eq_ok_iff.1 ((filling a).symm.trans given)
    have both : render (a ++ b) context =
        ((fillFrom context 0 b.toList).mapError (Fault.moved a.utf8ByteSize)).map
          fun further => String.ofList (cs ++ further) := by
      rw [filling, String.toList_append, fillFrom_append filled apart, byteLength_toList,
        fillFrom_add]
      cases fillFrom context 0 b.toList <;> rfl
    rw [both, filling]
    constructor
    · intro further given'
      obtain ⟨ds, filled', rfl⟩ := Traversal.map_eq_ok_iff.1 given'
      rw [filled', ← String.ofList_append]
      rfl
    · intro fault refused
      rw [Traversal.map_eq_error_iff.1 refused]
      rfl
  · intro source fault
    rw [filling, Traversal.map_eq_error_iff, fillFrom_eq_error_iff]
    constructor
    · rintro ⟨before, rest, split, ends, ⟨out, filled⟩, offends⟩
      refine ⟨String.ofList before, String.ofList rest, ?_, ?_, ⟨String.ofList out, ?_⟩, ?_⟩
      · rw [← String.ofList_append, ← String.ofList_append, ← split, String.ofList_toList]
      · rwa [String.toList_ofList]
      · rw [filling, String.toList_ofList, filled]
        rfl
      · rwa [← byteLength_toList, String.toList_ofList, String.toList_ofList,
          ← Nat.zero_add (byteLength before)]
    · rintro ⟨before, rest, rfl, ends, ⟨out, given⟩, offends⟩
      obtain ⟨cs, filled, _⟩ := Traversal.map_eq_ok_iff.1 ((filling before).symm.trans given)
      refine ⟨before.toList, rest.toList, ?_, ends, ⟨cs, filled⟩, ?_⟩
      · rw [String.toList_append, String.toList_append, String.toList_ofList]
      · rwa [byteLength_toList, Nat.zero_add]

/-- A blank tag behind another tag and a letter of two bytes. -/
theorem render_composes_accented :
    render ("é" ++ tagText "k") (.object [("k", .string "v")]) = .ok "év" ∧
      render (tagText "") (.object [("k", .string "v")]) = .error (.emptyTag 0) ∧
      render ("é" ++ tagText "k" ++ tagText "") (.object [("k", .string "v")]) =
        .error (.emptyTag 9) := by
  have filled : render ("é" ++ tagText "k") (.object [("k", .string "v")]) = .ok "év" := by
    decide +kernel
  have blank : render (tagText "") (.object [("k", .string "v")]) = .error (.emptyTag 0) := by
    decide +kernel
  have apart : ¬ (("é" ++ tagText "k").toList.getLast? = some '\x7b' ∧
      (tagText "").toList.head? = some '\x7b') := by decide +kernel
  have bytes : 0 + ("é" ++ tagText "k").utf8ByteSize = 9 := by decide +kernel
  have moved := ((render_composes _).1 _ _ _ filled apart).2 _ blank
  rw [Fault.moved, bytes] at moved
  exact ⟨filled, blank, moved⟩

end RunReport.Template
