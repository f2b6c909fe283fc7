import RunReport.Proofs.Traversal
import RunReport.Proofs.Text.Leftmost
import RunReport.Template.Basic
import RunReport.Template.Standard

/-!
# The grammar of templates

A template is read from the left: a tag begins at the leftmost opening mark of
what is left of the text and ends at the leftmost closing mark behind it. Each tag
holds a path, blanks around it aside, that leads through the context to a scalar
value. A template is filled in exactly when it can be read in this way, and then
into its literal texts with the texts of these values in between.
-/

namespace RunReport.Template

open Search

/-- The mark at which a tag begins. -/
def opening : List Char := ['\x7b', '\x7b']

/-- The mark at which a tag ends. -/
def closing : List Char := ['\x7d', '\x7d']

theorem opening_ne_nil : opening ≠ [] := List.cons_ne_nil _ _

theorem closing_ne_nil : closing ≠ [] := List.cons_ne_nil _ _

/-- A tag and the literal text in front of it. -/
structure Tag where
  /-- The text between the tag before and this one. -/
  before : List Char
  /-- What stands between the marks of the tag. -/
  body : List Char

/-- A tag as it is written. -/
def Tag.written (tag : Tag) : List Char := tag.before ++ opening ++ tag.body ++ closing

/-- A text read as tags and the literal text behind the last one. -/
inductive Reads : List Char → List Tag → List Char → Prop where
  /-- A text without an opening mark is literal. -/
  | literal {cs : List Char} (plain : ¬ opening <:+: cs) : Reads cs [] cs
  /-- A tag begins at the leftmost opening mark and ends at the leftmost closing one
  behind it. -/
  | tag {cs before rest body later : List Char} {tags : List Tag} {last : List Char}
    (opens : Leftmost opening cs before rest) (closes : Leftmost closing rest body later)
    (further : Reads later tags last) : Reads cs (⟨before, body⟩ :: tags) last

/-- What is read is the text, tag by tag. -/
theorem Reads.whole {cs last : List Char} {tags : List Tag} (h : Reads cs tags last) :
    cs = tags.flatMap Tag.written ++ last := by
  induction h with
  | literal plain => rfl
  | tag opens closes further ih =>
    rw [opens.whole, closes.whole, ih]
    simp [Tag.written]

/-- An index into an array is written as digits, a plus sign in front being
allowed, and is below the machine's limit. -/
structure DenotesIndex (segment : List Char) (i : Nat) : Prop where
  /-- The digits, with or without the sign. -/
  written : ∃ digits, (segment = digits ∨ segment = '+' :: digits) ∧ digits ≠ [] ∧
    (∀ c ∈ digits, c.isDigit = true) ∧ Digits.value digits = i
  /-- The limit. -/
  small : i < 2 ^ 64

/-- Segments lead from a value to one inside of it. -/
inductive Follows : Json → List (List Char) → Json → Prop where
  /-- No segments lead nowhere else. -/
  | here (j : Json) : Follows j [] j
  /-- A segment leads into an object by key. -/
  | member {members : List (String × Json)} {key : List Char} {rest : List (List Char)}
    {j target : Json} (found : Json.lookup (String.ofList key) members = some j)
    (further : Follows j rest target) : Follows (.object members) (key :: rest) target
  /-- A segment leads into an array by index. -/
  | item {items : List Json} {segment : List Char} {i : Nat} {rest : List (List Char)}
    {j target : Json} (denotes : DenotesIndex segment i) (found : items[i]? = some j)
    (further : Follows j rest target) : Follows (.array items) (segment :: rest) target

/-- A path leads from a context to a value: its segments do, which are joined by
points and hold none. -/
def LeadsTo (context : Json) (path : List Char) (target : Json) : Prop :=
  ∃ segments : List (List Char), segments ≠ [] ∧ (∀ segment ∈ segments, '.' ∉ segment) ∧
    ['.'].intercalate segments = path ∧ Follows context segments target

/-- The text that a scalar value is inserted as: a string verbatim, nothing for
`null`, and the JSON form of truth values and numbers. -/
inductive ShownAs : Json → List Char → Prop where
  /-- A string stands for itself. -/
  | string (s : String) : ShownAs (.string s) s.toList
  /-- Nothing is shown as nothing. -/
  | null : ShownAs .null []
  /-- A truth value. -/
  | bool (b : Bool) : ShownAs (.bool b) (Json.bool b).compact.toList
  /-- A whole number. -/
  | integer (i : Int) : ShownAs (.integer i) (Json.integer i).compact.toList
  /-- Any other number. -/
  | decimal (x : Binary64) : ShownAs (.decimal x) (Json.decimal x).compact.toList

/-- What a tag inserts: the text of the scalar that its path leads to, the path
being what it holds without the blanks at both ends. -/
structure Inserts (context : Json) (body text : List Char) : Prop where
  /-- The path is not empty. -/
  present : Text.trim body ≠ []
  /-- It leads to a scalar with that text. -/
  leads : ∃ j, LeadsTo context (Text.trim body) j ∧ ShownAs j text

/-- The literal texts with the inserted texts between them. -/
def interleaved (tags : List Tag) (texts : List (List Char)) (last : List Char) : List Char :=
  (List.zipWith (fun tag text => tag.before ++ text) tags texts).flatten ++ last

variable {context : Json}

/-- A segment without the sign in front of it. -/
def unsigned : List Char → List Char
  | '+' :: rest => rest
  | rest => rest

/-- A sign may be there or not. -/
theorem unsigned_written (segment : List Char) :
    segment = unsigned segment ∨ segment = '+' :: unsigned segment := by
  unfold unsigned
  split
  · exact Or.inr rfl
  · exact Or.inl rfl

/-- Digits are read with and without a sign. -/
theorem unsigned_of_written {segment digits : List Char}
    (written : segment = digits ∨ segment = '+' :: digits)
    (numeric : ∀ c ∈ digits, c.isDigit = true) : unsigned segment = digits := by
  rcases written with rfl | rfl
  · unfold unsigned
    split
    · exact absurd (numeric '+' List.mem_cons_self) (by decide)
    · rfl
  · rfl

/-- An index is read exactly from its written forms. -/
theorem index?_eq_some_iff {segment : List Char} {i : Nat} :
    index? segment = some i ↔ DenotesIndex segment i := by
  have reading : index? segment =
      if (unsigned segment).isEmpty || !(unsigned segment).all Char.isDigit then none
      else if Digits.value (unsigned segment) < 2 ^ 64 then
        some (Digits.value (unsigned segment))
      else none := rfl
  rw [reading]
  constructor
  · intro found
    split at found
    · exact absurd found (by simp)
    rename_i valid
    split at found
    · rename_i small
      obtain rfl := Option.some.inj found
      simp only [Bool.or_eq_true, Bool.not_eq_true', not_or, Bool.not_eq_false,
        List.isEmpty_iff, List.all_eq_true] at valid
      exact ⟨⟨_, unsigned_written segment, valid.1, valid.2, rfl⟩, small⟩
    · exact absurd found (by simp)
  · rintro ⟨⟨digits, written, present, numeric, rfl⟩, small⟩
    have valid : ¬ (digits.isEmpty || !digits.all Char.isDigit) = true := by
      simp [present, List.all_eq_true.2 numeric]
    rw [unsigned_of_written written numeric, if_neg valid, if_pos small]

/-- The parts of a path are what stands between its points. -/
theorem segments_eq_splitOn (path : List Char) : segments path = path.splitOn '.' := by
  induction path with
  | nil => rfl
  | cons c rest ih =>
    rw [segments, List.splitOn, List.splitOnP_cons_eq_if_modifyHead, ← List.splitOn, ← ih]
    by_cases point : c = '.'
    · simp [point]
    · rw [if_neg point, if_neg (by simpa using point)]
      cases parts : segments rest with
      | nil => exact absurd (ih.symm.trans parts) (List.splitOn_ne_nil _ _)
      | cons first others => rfl

/-- The parts of a path hold no points. -/
theorem point_notMem_of_mem_segments {path segment : List Char} (h : segment ∈ segments path) :
    '.' ∉ segment := by
  induction path generalizing segment with
  | nil =>
    rw [List.mem_singleton.1 h]
    exact List.not_mem_nil
  | cons c rest ih =>
    rw [segments] at h
    split at h
    · rcases List.mem_cons.1 h with rfl | later
      · exact List.not_mem_nil
      · exact ih later
    · rename_i other
      cases parts : segments rest with
      | nil => exact absurd ((segments_eq_splitOn rest).symm.trans parts) (List.splitOn_ne_nil _ _)
      | cons first others =>
        rw [parts] at h ih
        rcases List.mem_cons.1 h with rfl | later
        · exact List.mem_cons.not.2 (not_or.2 ⟨Ne.symm other, ih List.mem_cons_self⟩)
        · exact ih (List.mem_cons_of_mem _ later)

/-- A segment leads into an object or an array, and nowhere else. -/
theorem step_eq_some_iff {segment : List Char} {j target : Json} :
    step segment j = some target ↔ Follows j [segment] target := by
  constructor
  · intro led
    cases j with
    | object members => exact .member led (.here target)
    | array items =>
      obtain ⟨i, denotes, found⟩ := Option.bind_eq_some_iff.1 led
      exact .item (index?_eq_some_iff.1 denotes) found (.here target)
    | null | bool b | integer i | decimal x | string s | unreadable => cases led
  · intro led
    cases led with
    | member found further =>
      cases further
      exact found
    | item denotes found further =>
      cases further
      exact Option.bind_eq_some_iff.2 ⟨_, index?_eq_some_iff.2 denotes, found⟩

/-- Segments lead on one after the other. -/
theorem follows_cons_iff {segment : List Char} {rest : List (List Char)} {j target : Json} :
    Follows j (segment :: rest) target ↔
      ∃ next, Follows j [segment] next ∧ Follows next rest target := by
  constructor
  · intro led
    cases led with
    | member found further => exact ⟨_, .member found (.here _), further⟩
    | item denotes found further => exact ⟨_, .item denotes found (.here _), further⟩
  · rintro ⟨next, led, further⟩
    cases led with
    | member found here =>
      cases here
      exact .member found further
    | item denotes found here =>
      cases here
      exact .item denotes found further

/-- A path is resolved to the value that it leads to. -/
theorem resolve_eq_some_iff {path : List Char} {target : Json} :
    resolve context path = some target ↔ LeadsTo context path target := by
  have follow : ∀ (parts : List (List Char)) (j : Json),
      parts.foldlM (fun node segment => step segment node) j = some target ↔
        Follows j parts target := by
    intro parts
    induction parts with
    | nil =>
      intro j
      refine ⟨fun same => Option.some.inj same ▸ .here j, fun led => ?_⟩
      cases led
      rfl
    | cons segment rest ih =>
      intro j
      rw [List.foldlM_cons, follows_cons_iff]
      refine Option.bind_eq_some_iff.trans (exists_congr fun next => ?_)
      rw [step_eq_some_iff, ih]
  rw [resolve, follow, segments_eq_splitOn]
  constructor
  · intro led
    refine ⟨_, List.splitOn_ne_nil _ _, fun segment given => ?_, List.intercalate_splitOn _, led⟩
    exact point_notMem_of_mem_segments (segments_eq_splitOn path ▸ given)
  · rintro ⟨parts, present, apart, rfl, led⟩
    rwa [List.splitOn_intercalate _ apart present]

/-- Scalars have the text that they are inserted as, and only they have one. -/
theorem scalarText_eq_some_iff {j : Json} {text : List Char} :
    scalarText j = some text ↔ ShownAs j text := by
  have form : ∀ j : Json, (j.compact).toList = Json.writeValue .compact 0 j := fun j =>
    String.toList_ofList
  constructor
  · intro shown
    cases j with
    | string s => exact Option.some.inj shown ▸ .string s
    | null => exact Option.some.inj shown ▸ .null
    | bool b => exact Option.some.inj shown ▸ form (.bool b) ▸ .bool b
    | integer i => exact Option.some.inj shown ▸ form (.integer i) ▸ .integer i
    | decimal x => exact Option.some.inj shown ▸ form (.decimal x) ▸ .decimal x
    | array items => cases shown
    | object members => cases shown
    | unreadable => cases shown
  · intro shown
    cases shown with
    | string s => rfl
    | null => rfl
    | bool b => exact congrArg some (form _).symm
    | integer i => exact congrArg some (form _).symm
    | decimal x => exact congrArg some (form _).symm

/-- A path leads to one value only. -/
theorem LeadsTo.unique {path : List Char} {j j' : Json} (h : LeadsTo context path j)
    (h' : LeadsTo context path j') : j = j' :=
  Option.some.inj ((resolve_eq_some_iff.2 h).symm.trans (resolve_eq_some_iff.2 h'))

/-- A tag is filled in exactly with what it inserts. -/
theorem fill_tag_eq_ok_iff {start : Nat} {body text : List Char} :
    fill context (.tag start body) = .ok text ↔ Inserts context body text := by
  simp only [fill]
  split
  · rename_i empty
    exact iff_of_false (by simp) fun h => h.present (List.isEmpty_iff.1 empty)
  rename_i filled
  have present : Text.trim body ≠ [] := fun empty => filled (List.isEmpty_iff.2 empty)
  split
  · rename_i missing
    refine iff_of_false (by simp) fun h => ?_
    obtain ⟨j, led, _⟩ := h.leads
    exact absurd (missing.symm.trans (resolve_eq_some_iff.2 led)) (by simp)
  rename_i j found
  have led := resolve_eq_some_iff.1 found
  split
  · rename_i shown scalar
    rw [Except.ok.injEq]
    constructor
    · rintro rfl
      exact ⟨present, j, led, scalarText_eq_some_iff.1 scalar⟩
    · rintro ⟨_, _, led', shown'⟩
      obtain rfl := led.unique led'
      exact Option.some.inj (scalar.symm.trans (scalarText_eq_some_iff.2 shown'))
  · rename_i composite
    refine iff_of_false (by simp) fun ⟨_, _, led', shown'⟩ => ?_
    obtain rfl := led.unique led'
    exact absurd (composite.symm.trans (scalarText_eq_some_iff.2 shown')) (by simp)

/-- Bytes of a text are those of its first character and of the others. -/
theorem byteLength_cons (c : Char) (cs : List Char) :
    byteLength (c :: cs) = c.utf8Size + byteLength cs := by
  have shift : ∀ (cs : List Char) (n : Nat),
      cs.foldl (fun n c => n + c.utf8Size) n = n + byteLength cs := by
    intro cs
    induction cs with
    | nil => intro n; rfl
    | cons c cs ih =>
      intro n
      rw [byteLength, List.foldl_cons, List.foldl_cons, ih, ih (0 + _), Nat.zero_add, Nat.add_assoc]
  rw [byteLength, List.foldl_cons, shift, Nat.zero_add]

/-- A scan that holds characters back, counting their bytes, until a mark of two equal
characters is ahead cuts at the leftmost mark. -/
theorem scan_eq {α : Type} (mark : Char) (scan : List Char → Nat → List Char → α)
    (stop : List Char → α) (hit : List Char → Nat → List Char → α)
    (ends : ∀ held position, scan held position [] = stop held.reverse)
    (marked : ∀ held position rest,
      scan held position (mark :: mark :: rest) = hit held.reverse position rest)
    (goesOn : ∀ held position c cs, ¬ [mark, mark] <+: c :: cs →
      scan held position (c :: cs) = scan (c :: held) (position + c.utf8Size) cs)
    (held : List Char) (position : Nat) (cs : List Char) :
    scan held position cs = match cut? [mark, mark] cs with
      | none => stop (held.reverse ++ cs)
      | some (before, rest) =>
        hit (held.reverse ++ before) (position + byteLength before) rest := by
  induction cs generalizing held position with
  | nil => simp [ends, cut?]
  | cons c cs ih =>
    by_cases begins : [mark, mark] <+: c :: cs
    · obtain ⟨rest, split⟩ := begins
      obtain ⟨rfl, later⟩ := List.cons.inj split
      obtain rfl : mark :: rest = cs := later
      have here : cut? [mark, mark] (mark :: mark :: rest) = some ([], rest) :=
        (cut?_eq_some_iff (List.cons_ne_nil _ _)).2 (Leftmost.here [mark, mark] rest)
      rw [marked, here]
      simp [byteLength]
    · rw [goesOn _ _ _ _ begins, ih, cut?, if_neg (mt List.isPrefixOf_iff_prefix.1 begins)]
      cases cut? [mark, mark] cs with
      | none => simp
      | some found => simp [byteLength_cons, Nat.add_assoc]

/-- Literal text is cut at the leftmost opening mark. -/
theorem cut_literal (held : List Char) (position : Nat) (cs : List Char) :
    cut .literal held position cs = match cut? opening cs with
      | none => [.literal (held.reverse ++ cs)]
      | some (before, rest) => .literal (held.reverse ++ before) ::
          cut (.tag (position + byteLength before)) [] (position + byteLength before + 2) rest := by
  have goesOn : ∀ held position c cs, ¬ opening <+: c :: cs →
      cut .literal held position (c :: cs) =
        cut .literal (c :: held) (position + c.utf8Size) cs := by
    intro held position c cs apart
    refine cut.eq_2 _ _ _ _ ?_
    rintro rest rfl rfl
    exact apart ⟨rest, rfl⟩
  exact scan_eq '\x7b' (cut .literal) (fun text => [.literal text])
    (fun text start rest => .literal text :: cut (.tag start) [] (start + 2) rest)
    (fun _ _ => rfl) (fun _ _ _ => rfl) goesOn held position cs

/-- A tag is cut off at the leftmost closing mark. -/
theorem cut_tag (start : Nat) (held : List Char) (position : Nat) (cs : List Char) :
    cut (.tag start) held position cs = match cut? closing cs with
      | none => [.unterminated start]
      | some (body, later) => .tag start (held.reverse ++ body) ::
          cut .literal [] (position + byteLength body + 2) later := by
  have goesOn : ∀ held position c cs, ¬ closing <+: c :: cs →
      cut (.tag start) held position (c :: cs) =
        cut (.tag start) (c :: held) (position + c.utf8Size) cs := by
    intro held position c cs apart
    refine cut.eq_5 _ _ _ _ _ ?_
    rintro rest rfl rfl
    exact apart ⟨rest, rfl⟩
  exact scan_eq '\x7d' (cut (.tag start)) (fun _ => [.unterminated start])
    (fun body last later => .tag start body :: cut .literal [] (last + 2) later)
    (fun _ _ => rfl) (fun _ _ _ => rfl) goesOn held position cs

/-- What a text is filled in with that begins at the given byte of a template. -/
def fillFrom (context : Json) (position : Nat) (cs : List Char) : Except Fault (List Char) :=
  fillAll context (cut .literal [] position cs)

variable {position : Nat} {cs before rest body later out : List Char}

/-- Literal text is left as it is. -/
theorem fillFrom_of_plain (plain : ¬ opening <:+: cs) : fillFrom context position cs = .ok cs := by
  rw [fillFrom, cut_literal, (cut?_eq_none_iff opening_ne_nil).2 plain]
  simp [fillAll, fill, bind, Except.bind, pure, Except.pure]

/-- A tag without end is a fault. -/
theorem fillFrom_of_unclosed (opens : Leftmost opening cs before rest)
    (unclosed : ¬ closing <:+: rest) :
    fillFrom context position cs = .error (.unterminated (position + byteLength before)) := by
  rw [fillFrom, cut_literal, (cut?_eq_some_iff opening_ne_nil).2 opens]
  dsimp only
  rw [cut_tag, (cut?_eq_none_iff closing_ne_nil).2 unclosed]
  rfl

/-- A closed tag is filled in, and then what comes behind it. -/
theorem fillFrom_of_tag (opens : Leftmost opening cs before rest)
    (closes : Leftmost closing rest body later) :
    fillFrom context position cs = (do
      let text ← fill context (.tag (position + byteLength before) body)
      let others ← fillFrom context (position + byteLength before + 2 + byteLength body + 2) later
      return before ++ text ++ others) := by
  rw [fillFrom, cut_literal, (cut?_eq_some_iff opening_ne_nil).2 opens]
  dsimp only
  rw [cut_tag, (cut?_eq_some_iff closing_ne_nil).2 closes]
  simp only [fillAll, fillFrom, List.reverse_nil, List.nil_append]
  cases fill context (.tag (position + byteLength before) body) with
  | error fault => rfl
  | ok text =>
    cases fillAll context _ with
    | error fault => rfl
    | ok others => simp [fill, bind, Except.bind, pure, Except.pure]

/-- A text is plain, or its first tag has no end, or something shorter comes
behind its first tag. -/
@[elab_as_elim]
theorem tagInduction {motive : List Char → Prop}
    (plain : ∀ cs, ¬ opening <:+: cs → motive cs)
    (unclosed : ∀ cs before rest, Leftmost opening cs before rest → ¬ closing <:+: rest →
      motive cs)
    (tag : ∀ cs before rest body later, Leftmost opening cs before rest →
      Leftmost closing rest body later → motive later → motive cs)
    (cs : List Char) : motive cs := by
  induction size : cs.length using Nat.strongRecOn generalizing cs with
  | ind n ih =>
    cases first : cut? opening cs with
    | none => exact plain cs ((cut?_eq_none_iff opening_ne_nil).1 first)
    | some found =>
      obtain ⟨before, rest⟩ := found
      have opens := (cut?_eq_some_iff opening_ne_nil).1 first
      cases second : cut? closing rest with
      | none => exact unclosed cs before rest opens ((cut?_eq_none_iff closing_ne_nil).1 second)
      | some found =>
        obtain ⟨body, later⟩ := found
        have closes := (cut?_eq_some_iff closing_ne_nil).1 second
        refine tag cs before rest body later opens closes (ih later.length ?_ later rfl)
        have one := opens.length_lt opening_ne_nil
        have two := closes.length_lt closing_ne_nil
        omega

/-- A text is filled in exactly when it is read as literal texts and tags that
insert something, and then with what these insert between the literal texts. -/
theorem fillFrom_eq_ok_iff :
    fillFrom context position cs = .ok out ↔ ∃ tags last texts, Reads cs tags last ∧
      List.Forall₂ (fun tag text => Inserts context tag.body text) tags texts ∧
      out = interleaved tags texts last := by
  induction cs using tagInduction generalizing position out with
  | plain cs plain =>
    rw [fillFrom_of_plain plain, Except.ok.injEq]
    constructor
    · rintro rfl
      exact ⟨[], cs, [], .literal plain, .nil, rfl⟩
    · rintro ⟨_, _, _, reads, inserts, rfl⟩
      cases reads with
      | literal _ =>
        cases inserts
        rfl
      | tag opens => exact absurd opens.occurs plain
  | unclosed cs before rest opens unclosed =>
    rw [fillFrom_of_unclosed opens unclosed]
    refine iff_of_false (by simp) ?_
    rintro ⟨_, _, _, reads, _⟩
    cases reads with
    | literal plain => exact plain opens.occurs
    | tag opens' closes =>
      obtain ⟨rfl, rfl⟩ := opens.unique opening_ne_nil opens'
      exact unclosed closes.occurs
  | tag cs before rest body later opens closes ih =>
    rw [fillFrom_of_tag opens closes, Traversal.bind_eq_ok_iff]
    constructor
    · rintro ⟨text, inserted, further⟩
      obtain ⟨others, filled, same⟩ := Traversal.bind_eq_ok_iff.1 further
      obtain ⟨tags, last, texts, reads, inserts, rfl⟩ := ih.1 filled
      refine ⟨_, last, text :: texts, .tag opens closes reads,
        .cons (fill_tag_eq_ok_iff.1 inserted) inserts, ?_⟩
      rw [← Except.ok.inj same]
      simp [interleaved]
    · rintro ⟨_, _, _, reads, inserts, rfl⟩
      cases reads with
      | literal plain => exact absurd opens.occurs plain
      | tag opens' closes' further =>
        obtain ⟨rfl, rfl⟩ := opens.unique opening_ne_nil opens'
        obtain ⟨rfl, rfl⟩ := closes.unique closing_ne_nil closes'
        cases inserts with
        | cons here others =>
          refine ⟨_, fill_tag_eq_ok_iff.2 here, Traversal.bind_eq_ok_iff.2
            ⟨_, ih.2 ⟨_, _, _, further, others, rfl⟩, ?_⟩⟩
          simp [interleaved, pure, Except.pure]

/-- A template is filled in exactly when it is literal texts and closed tags in
turn, each tag beginning at the leftmost opening mark and ending at the leftmost
closing one behind it, and the path in each tag leads to a scalar. The result is
the literal texts as they are with the texts of the scalars between them, which
are not read again. -/
theorem render_eq_ok_iff {source out : String} :
    render source context = .ok out ↔ ∃ tags last texts,
      source.toList = tags.flatMap Tag.written ++ last ∧ Reads source.toList tags last ∧
        List.Forall₂ (fun tag text => Inserts context tag.body text) tags texts ∧
        out.toList = interleaved tags texts last := by
  have filling : render source context = (fillFrom context 0 source.toList).map String.ofList := rfl
  rw [filling, Traversal.map_eq_ok_iff]
  constructor
  · rintro ⟨cs, filled, rfl⟩
    obtain ⟨tags, last, texts, reads, inserts, rfl⟩ := fillFrom_eq_ok_iff.1 filled
    exact ⟨tags, last, texts, reads.whole, reads, inserts, String.toList_ofList⟩
  · rintro ⟨tags, last, texts, _, reads, inserts, same⟩
    refine ⟨_, fillFrom_eq_ok_iff.2 ⟨tags, last, texts, reads, inserts, rfl⟩, ?_⟩
    rw [← same, String.ofList_toList]

/-- Of three braces the first two open the tag, and a mark in an inserted text is
not read again. -/
example : render ("\x7b" ++ tagText "k" ++ "\x7d") (.object [("\x7b k", .string (tagText "k"))]) =
    .ok (tagText "k" ++ "\x7d") := by decide +kernel

end RunReport.Template
