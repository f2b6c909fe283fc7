import Mathlib
import RunReport.Proofs.Text.Search
import RunReport.Proofs.Text.Stretches
import RunReport.Section.Basic

/-!
# Normal forms of titles

The normal form of a title consists of its stretches of ASCII letters and digits, in lower
case and joined by single dashes. A title is read once: whether a dash is written is decided
by the last character that was written, so a letter or digit leaves the writing open, and
another character closes it by a dash that is taken back if nothing follows. A text is its own
normal form exactly when it has small letters, digits and dashes only, no dash at an end and
no two dashes in a row.
-/

namespace RunReport

namespace slug

/-- A small ASCII letter or a digit. -/
def IsPlain (c : Char) : Prop := c.isLower = true ∨ c.isDigit = true

/-- The form of a text with single dashes between small letters and digits. -/
structure IsNormal (cs : List Char) : Prop where
  /-- There are small ASCII letters, digits and dashes only. -/
  plain : ∀ c ∈ cs, IsPlain c ∨ c = '-'
  /-- The text does not start with a dash. -/
  start : cs.head? ≠ some '-'
  /-- It does not end in one. -/
  last : cs.getLast? ≠ some '-'
  /-- No dash stands behind another one. -/
  single : ¬ ['-', '-'] <:+: cs

/-- Words with a dash before each of them. -/
def dashed (words : List (List Char)) : List Char := words.flatMap fun word => '-' :: word

/-- Words joined by dashes are the first one and the others with a dash before each. -/
theorem intercalate_cons (word : List Char) (words : List (List Char)) :
    ['-'].intercalate (word :: words) = word ++ dashed words := by
  induction words generalizing word with
  | nil => rw [List.intercalate_singleton, dashed, List.flatMap_nil, List.append_nil]
  | cons next words ih =>
    rw [List.intercalate_cons_cons, ih, dashed, dashed, List.flatMap_cons, List.append_assoc]
    rfl

variable {c last : Char} {written text cs seen word : List Char} {words : List (List Char)}

/-! ### Letters and digits in lower case -/

/-- What is no large letter stays as it is in lower case. -/
theorem toLower_of_plain (plain : IsPlain c) : c.toLower = c := by
  refine Char.toLower_eq_of_not_isUpper fun upper => ?_
  rcases plain with lower | digit
  · exact Char.not_isUpper_of_isLower lower upper
  · simp [Char.isUpper, Char.isDigit, UInt32.le_iff_toNat_le] at upper digit
    omega

/-- A letter or digit is in lower case a small letter or a digit. -/
theorem plain_toLower (given : c.isAlphanum = true) : IsPlain c.toLower := by
  rw [Char.isAlphanum, Bool.or_eq_true] at given
  rw [IsPlain, Char.isLower_toLower_eq_isAlpha]
  exact given.imp_right fun digit => (toLower_of_plain (Or.inr digit)).symm ▸ digit

/-- A dash is neither. -/
theorem ne_dash_of_plain (plain : IsPlain c) : c ≠ '-' := by
  rintro rfl
  exact plain.elim nofun nofun

/-! ### What is written -/

/-- A letter or digit is written in lower case. -/
theorem write_of_isAlphanum (given : c.isAlphanum = true) :
    write written c = c.toLower :: written := if_pos given

/-- At the start another character is not written. -/
theorem write_nil_of_other (other : c.isAlphanum = false) : write [] c = [] :=
  if_neg (by simp [other])

/-- Behind a letter or digit another character is written as a dash. -/
theorem write_cons_of_other (other : c.isAlphanum = false) (filled : last ≠ '-') :
    write (last :: text) c = '-' :: last :: text := by
  simp [write, other, filled]

/-- Behind a dash another character is not written. -/
theorem write_dash_of_other (other : c.isAlphanum = false) :
    write ('-' :: text) c = '-' :: text := by
  simp [write, other]

/-- Nothing is taken back behind a letter or digit. -/
theorem finish_cons (filled : last ≠ '-') : finish (last :: text) = (last :: text).reverse := by
  rw [finish, List.dropWhile_cons_of_neg (by simpa using filled)]

/-- A dash at the end is taken back. -/
theorem finish_dash (filled : last ≠ '-') :
    finish ('-' :: last :: text) = (last :: text).reverse := by
  rw [finish, List.dropWhile_cons_of_pos (by simp), ← finish, finish_cons filled]

/-- The stretches of letters and digits that start in the second list, in lower case. -/
def wordsIn (seen cs : List Char) : List (List Char) :=
  (Stretch.startingIn Char.isAlphanum seen cs).map fun s => s.inner.map Char.toLower

/-- A letter or digit behind none starts a word. -/
theorem wordsIn_cons_of_start (here : c.isAlphanum = true)
    (fresh : seen.getLast?.any Char.isAlphanum = false) :
    wordsIn seen (c :: cs) =
      (c.toLower :: (cs.takeWhile Char.isAlphanum).map Char.toLower) ::
        wordsIn (seen ++ [c]) cs := by
  rw [wordsIn, Stretch.startingIn_cons_of_start here fresh, List.map_cons, wordsIn]
  rfl

/-- A character within a word starts none. -/
theorem wordsIn_cons_of_inside (inside : seen.getLast?.any Char.isAlphanum = true) :
    wordsIn seen (c :: cs) = wordsIn (seen ++ [c]) cs := by
  rw [wordsIn, Stretch.startingIn_cons_of_inside inside, wordsIn]

/-- Nor does what is neither letter nor digit. -/
theorem wordsIn_cons_of_other (other : c.isAlphanum = false) :
    wordsIn seen (c :: cs) = wordsIn (seen ++ [c]) cs := by
  rw [wordsIn, Stretch.startingIn_cons_of_other other, wordsIn]

/-- What is written behind a letter or digit: within a word the rest of it comes first, and
then, as behind a dash, each further word with a dash before it. -/
theorem finish_foldl_write_cons (filled : last ≠ '-') :
    (seen.getLast?.any Char.isAlphanum = true →
      finish (cs.foldl write (last :: text)) = (last :: text).reverse ++
        ((cs.takeWhile Char.isAlphanum).map Char.toLower ++ dashed (wordsIn seen cs))) ∧
    (seen.getLast?.any Char.isAlphanum = false →
      finish (cs.foldl write ('-' :: last :: text)) =
        (last :: text).reverse ++ dashed (wordsIn seen cs)) := by
  induction cs generalizing last text seen with
  | nil =>
    have none : dashed (wordsIn seen []) = [] := rfl
    rw [none]
    refine ⟨fun _ => (finish_cons filled).trans ?_, fun _ => (finish_dash filled).trans ?_⟩
    · exact (List.append_nil _).symm
    · exact (List.append_nil _).symm
  | cons c cs ih =>
    rw [List.foldl_cons, List.foldl_cons]
    have read : (seen ++ [c]).getLast?.any Char.isAlphanum = c.isAlphanum := by simp
    cases kind : c.isAlphanum with
    | true =>
      have lower := ne_dash_of_plain (plain_toLower kind)
      rw [write_of_isAlphanum kind, write_of_isAlphanum kind]
      refine ⟨fun inside => ?_, fun fresh => ?_⟩
      · rw [(ih lower).1 (read.trans kind), List.takeWhile_cons_of_pos kind,
          wordsIn_cons_of_inside inside]
        simp
      · rw [(ih lower).1 (read.trans kind), wordsIn_cons_of_start kind fresh]
        simp [dashed]
    | false =>
      rw [write_cons_of_other kind filled, write_dash_of_other kind,
        (ih filled).2 (read.trans kind), wordsIn_cons_of_other kind]
      refine ⟨fun _ => ?_, fun _ => rfl⟩
      rw [List.takeWhile_cons_of_neg (by simp [kind])]
      rfl

/-- What is written from the start are the words, joined by dashes. -/
theorem finish_foldl_write_nil (fresh : seen.getLast?.any Char.isAlphanum = false) :
    finish (cs.foldl write []) = ['-'].intercalate (wordsIn seen cs) := by
  induction cs generalizing seen with
  | nil => rfl
  | cons c cs ih =>
    have read : (seen ++ [c]).getLast?.any Char.isAlphanum = c.isAlphanum := by simp
    rw [List.foldl_cons]
    cases kind : c.isAlphanum with
    | true =>
      have lower := ne_dash_of_plain (plain_toLower kind)
      rw [write_of_isAlphanum kind, (finish_foldl_write_cons lower).1 (read.trans kind),
        wordsIn_cons_of_start kind fresh, intercalate_cons]
      rfl
    | false =>
      rw [write_nil_of_other kind, ih (read.trans kind), wordsIn_cons_of_other kind]

/-! ### Normal forms -/

/-- Words without dashes, each behind a dash, have single dashes and end in none. -/
theorem clear_dashed (absent : ∀ word ∈ words, word ≠ [] ∧ '-' ∉ word) :
    Search.Clear '-' '-' (dashed words) := by
  induction words with
  | nil => exact .of_notMem List.not_mem_nil
  | cons word words ih =>
    obtain ⟨⟨filled, none⟩, later⟩ := List.forall_mem_cons.1 absent
    have here : Search.Clear '-' '-' word := .of_notMem none
    rw [dashed, List.flatMap_cons, ← dashed]
    refine Search.Clear.append ⟨List.isChain_cons.2 ⟨?_, here.chain⟩, ?_⟩ (ih later)
    · intro d first _ dash
      exact none (dash ▸ List.mem_of_head? first)
    · rw [List.getLast?_cons_of_ne_nil filled]
      exact here.last

/-- Words of small letters and digits, joined by dashes, are in normal form. -/
theorem isNormal_intercalate
    (plain : ∀ word ∈ words, word ≠ [] ∧ ∀ c ∈ word, IsPlain c) :
    IsNormal (['-'].intercalate words) := by
  have absent : ∀ word ∈ words, word ≠ [] ∧ '-' ∉ word := fun word given =>
    ⟨(plain word given).1, fun dash => ne_dash_of_plain ((plain word given).2 _ dash) rfl⟩
  cases words with
  | nil => exact ⟨by simp, by simp, by simp, by simp⟩
  | cons word words =>
    obtain ⟨⟨filled, none⟩, later⟩ := List.forall_mem_cons.1 absent
    have clear : Search.Clear '-' '-' (word ++ dashed words) :=
      .append (.of_notMem none) (clear_dashed later)
    rw [intercalate_cons]
    refine ⟨fun c given => ?_, fun dash => ?_, clear.last, fun double => ?_⟩
    · obtain ⟨here, others⟩ := List.forall_mem_cons.1 plain
      rcases List.mem_append.1 given with inside | behind
      · exact Or.inl (here.2 c inside)
      · obtain ⟨other, listed, inside⟩ := List.mem_flatMap.1 behind
        rcases List.mem_cons.1 inside with dash | inside
        · exact Or.inr dash
        · exact Or.inl ((others other listed).2 c inside)
    · rw [List.head?_append_of_ne_nil _ filled] at dash
      exact none (List.mem_of_head? dash)
    · simpa using clear.chain.infix double

/-- A text of small letters, digits and single dashes is written as it is, unless it starts
with a dash that would stand behind another one or at the start. -/
theorem foldl_write_of_single
    (plain : ∀ c ∈ cs, IsPlain c ∨ c = '-')
    (single : ¬ ['-', '-'] <:+: cs)
    (follows : cs.head? = some '-' → ∃ last text, written = last :: text ∧ last ≠ '-') :
    cs.foldl write written = cs.reverse ++ written := by
  induction cs generalizing written with
  | nil => rfl
  | cons c cs ih =>
    obtain ⟨here, later⟩ := List.forall_mem_cons.1 plain
    have rest : ¬ ['-', '-'] <:+: cs := fun double => single (List.infix_cons double)
    rw [List.foldl_cons, List.reverse_cons, List.append_assoc, List.singleton_append]
    rcases here with letter | rfl
    · have kind : c.isAlphanum = true := by
        rw [Char.isAlphanum, Char.isAlpha, Bool.or_eq_true, Bool.or_eq_true, or_assoc]
        exact Or.inr letter
      rw [write_of_isAlphanum kind, toLower_of_plain letter]
      exact ih later rest fun _ => ⟨c, written, rfl, ne_dash_of_plain letter⟩
    · obtain ⟨last, text, rfl, filled⟩ := follows rfl
      rw [write_cons_of_other (by decide) filled]
      refine ih later rest fun dash => ?_
      obtain ⟨others, rfl⟩ := List.head?_eq_some_iff.1 dash
      exact absurd ⟨[], others, rfl⟩ single

/-- The words of a title are filled with small letters and digits. -/
theorem plain_of_mem_wordsIn (given : word ∈ wordsIn seen cs) :
    word ≠ [] ∧ ∀ c ∈ word, IsPlain c := by
  obtain ⟨s, found, rfl⟩ := List.mem_map.1 given
  have maximal := (Stretch.mem_startingIn_iff.1 found).1.2
  refine ⟨List.map_eq_nil_iff.not.2 maximal.filled, ?_⟩
  exact List.forall_mem_map.2 fun c inside => plain_toLower (maximal.within c inside)

end slug

/-- The normal form of a title has its words, joined by dashes. -/
theorem toList_slug (title : String) :
    (slug title).toList = ['-'].intercalate (slug.wordsIn [] title.toList) := by
  rw [slug, String.toList_ofList]
  exact slug.finish_foldl_write_nil rfl

/-- So it is in normal form. -/
theorem isNormal_slug (title : String) : slug.IsNormal (slug title).toList :=
  toList_slug title ▸ slug.isNormal_intercalate fun _ given => slug.plain_of_mem_wordsIn given

/-- A text is its own normal form exactly when it is in normal form. -/
theorem slug_eq_self_iff {title : String} : slug title = title ↔ slug.IsNormal title.toList := by
  refine ⟨fun same => same ▸ isNormal_slug title, fun normal => ?_⟩
  have written : title.toList.foldl slug.write [] = title.toList.reverse := by
    rw [slug.foldl_write_of_single normal.plain normal.single (absurd · normal.start),
      List.append_nil]
  have kept : slug.finish title.toList.reverse = title.toList := by
    rw [slug.finish, List.dropWhile_eq_self_iff.2, List.reverse_reverse]
    intro filled dash
    have last := normal.last
    rw [← List.head?_reverse, List.head?_eq_getElem?, List.getElem?_eq_getElem filled] at last
    exact last (congrArg some (of_decide_eq_true dash))
  rw [slug, written, kept, String.ofList_toList]

/-- The normal form of a title joins all of its stretches of ASCII letters and digits by single
dashes, in order and in lower case. It has small letters, digits and dashes only, no dash at an
end and no two dashes in a row, and is its own normal form. -/
theorem slug_joins_stretches (title : String) :
    (∃ stretches,
      (∀ other, Stretch.AllOf Char.isAlphanum title.toList other ↔ other = stretches) ∧
      slug title =
        "-".intercalate (stretches.map fun s => String.ofList (s.inner.map Char.toLower))) ∧
    slug.IsNormal (slug title).toList ∧ slug (slug title) = slug title := by
  have all := Stretch.allOf_startingIn Char.isAlphanum title.toList
  refine ⟨⟨_, fun other => ⟨fun also => also.eq all, fun same => same ▸ all⟩, ?_⟩,
    isNormal_slug title, slug_eq_self_iff.2 (isNormal_slug title)⟩
  rw [← String.toList_inj, toList_slug, String.toList_intercalate, List.map_map, slug.wordsIn]
  simp [Function.comp_def]

example : slug "  Größe 2 -- (End-to-end)" = "gr-e-2-end-to-end" := by decide

end RunReport
