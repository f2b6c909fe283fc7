import Mathlib.Algebra.BigOperators.Group.List.Basic
import Mathlib.Algebra.Order.Ring.Nat

/-!
# Posts and spans

A line of cells is a fence: posts with spans of characters between them. Where the posts
stand follows from the lengths of the spans alone, so that lines with spans of the same
lengths have their posts at the same places. Every other character of a fence is one of
a span, and each span stands between its two posts.
-/

namespace RunReport.Text

/-- A post and then spans, each with the post behind it. -/
def fence (post : Char) : List (List Char × Char) → List Char
  | [] => [post]
  | (span, next) :: rest => post :: (span ++ fence next rest)

/-- Where the posts stand that have spans of the given lengths between them, the first one
at `start`. -/
def posts (start : ℕ) : List ℕ → List ℕ
  | [] => [start]
  | n :: ns => start :: posts (start + n + 1) ns

/-- There is one post more than there are spans. -/
theorem length_posts (start : ℕ) (ns : List ℕ) : (posts start ns).length = ns.length + 1 := by
  induction ns generalizing start with
  | nil => rfl
  | cons n ns ih => rw [posts, List.length_cons, ih, List.length_cons]

/-- No post stands before the first. -/
theorem le_of_mem_posts {start k : ℕ} {ns : List ℕ} (h : k ∈ posts start ns) : start ≤ k := by
  induction ns generalizing start with
  | nil => exact Nat.le_of_eq (List.mem_singleton.1 h).symm
  | cons n ns ih =>
    rcases List.mem_cons.1 h with rfl | later
    · exact Nat.le_refl _
    · have := ih later
      omega

/-- No post stands beyond all spans and other posts. -/
theorem lt_of_mem_posts {start k : ℕ} {ns : List ℕ} (h : k ∈ posts start ns) :
    k < start + ns.sum + ns.length + 1 := by
  induction ns generalizing start with
  | nil =>
    rw [List.mem_singleton.1 h]
    exact Nat.lt_succ_self start
  | cons n ns ih =>
    rw [List.sum_cons, List.length_cons]
    rcases List.mem_cons.1 h with rfl | later
    · omega
    · have := ih later
      omega

/-- Each post stands behind the one before it. -/
theorem posts_pairwise (start : ℕ) (ns : List ℕ) : (posts start ns).Pairwise (· < ·) := by
  induction ns generalizing start with
  | nil => exact List.pairwise_singleton _ _
  | cons n ns ih =>
    refine List.pairwise_cons.2 ⟨fun k later => ?_, ih _⟩
    have := le_of_mem_posts later
    omega

/-- The first post stands at the start. -/
theorem head?_posts (start : ℕ) (ns : List ℕ) : (posts start ns).head? = some start := by
  cases ns <;> rfl

/-- The last post stands behind all spans and other posts. -/
theorem getLast?_posts (start : ℕ) (ns : List ℕ) :
    (posts start ns).getLast? = some (start + ns.sum + ns.length) := by
  induction ns generalizing start with
  | nil => rfl
  | cons n ns ih =>
    have present : posts (start + n + 1) ns ≠ [] := by
      intro none
      have size := length_posts (start + n + 1) ns
      rw [none, List.length_nil] at size
      omega
    rw [posts, List.getLast?_cons_of_ne_nil present, ih, List.sum_cons, List.length_cons]
    congr 1
    omega

/-- No two posts stand at one place. -/
theorem posts_inj {start j j' k : ℕ} {ns : List ℕ} (h : (posts start ns)[j]? = some k)
    (h' : (posts start ns)[j']? = some k) : j = j' := by
  have distinct : (posts start ns).Nodup := (posts_pairwise start ns).imp Nat.ne_of_lt
  exact (List.getElem?_inj (List.getElem?_eq_some_iff.1 h).1 distinct).1 (h.trans h'.symm)

/-- The last post by its number. -/
theorem getElem?_posts_last (start : ℕ) (ns : List ℕ) :
    (posts start ns)[ns.length]? = some (start + ns.sum + ns.length) := by
  rw [← getLast?_posts, List.getLast?_eq_getElem?, length_posts, Nat.add_sub_cancel]

/-- Lengths of the spans. -/
def spanLengths (spans : List (List Char × Char)) : List ℕ := spans.map (·.1.length)

variable {spans : List (List Char × Char)} {post : Char}

/-- A fence is as long as its spans and posts together. -/
theorem length_fence (post : Char) (spans : List (List Char × Char)) :
    (fence post spans).length = (spanLengths spans).sum + spans.length + 1 := by
  induction spans generalizing post with
  | nil => rfl
  | cons entry rest ih =>
    obtain ⟨span, next⟩ := entry
    have lengths : (spanLengths ((span, next) :: rest)).sum =
        span.length + (spanLengths rest).sum := List.sum_cons
    rw [fence, List.length_cons, List.length_append, ih, lengths, List.length_cons]
    omega

/-- What stands behind a span of a fence. -/
theorem getElem?_fence_cons (post next : Char) (span : List Char)
    (rest : List (List Char × Char)) (i : ℕ) :
    (fence post ((span, next) :: rest))[span.length + 1 + i]? = (fence next rest)[i]? := by
  have place : span.length + 1 + i = span.length + i + 1 := by omega
  rw [fence, place, List.getElem?_cons_succ, List.getElem?_append_right (Nat.le_add_right _ _),
    Nat.add_sub_cancel_left]

/-- The posts stand where they should. -/
theorem getElem?_fence_post {start j k : ℕ} (h : (posts start (spanLengths spans))[j]? = some k) :
    (fence post spans)[k - start]? = (post :: spans.map (·.2))[j]? := by
  induction spans generalizing post start j with
  | nil =>
    cases j with
    | zero =>
      obtain rfl := Option.some.inj h
      rw [Nat.sub_self]
      rfl
    | succ j => cases h
  | cons entry rest ih =>
    obtain ⟨span, next⟩ := entry
    cases j with
    | zero =>
      obtain rfl := Option.some.inj h
      rw [Nat.sub_self]
      rfl
    | succ j =>
      have later : (posts (start + span.length + 1) (spanLengths rest))[j]? = some k := h
      have behind := le_of_mem_posts (List.mem_of_getElem? later)
      have place : k - start = span.length + 1 + (k - (start + span.length + 1)) := by omega
      rw [place, getElem?_fence_cons, ih later]
      rfl

/-- Between two posts stands the span. -/
theorem take_drop_fence {start j k k' : ℕ} {span : List Char} {next : Char}
    (hspan : spans[j]? = some (span, next))
    (h : (posts start (spanLengths spans))[j]? = some k)
    (h' : (posts start (spanLengths spans))[j + 1]? = some k') :
    ((fence post spans).take (k' - start)).drop (k - start + 1) = span := by
  induction spans generalizing post start j with
  | nil => cases hspan
  | cons entry rest ih =>
    obtain ⟨first, between⟩ := entry
    cases j with
    | zero =>
      obtain ⟨rfl, rfl⟩ := Prod.mk.inj (Option.some.inj hspan)
      obtain rfl := Option.some.inj h
      have second : (posts (start + first.length + 1) (spanLengths rest))[0]? = some k' := h'
      rw [← List.head?_eq_getElem?, head?_posts] at second
      obtain rfl := Option.some.inj second
      have place : start + first.length + 1 - start = first.length + 1 := by omega
      rw [place, Nat.sub_self, fence, List.take_succ_cons, List.drop_succ_cons, List.drop_zero,
        List.take_left' rfl]
    | succ j =>
      have later : (posts (start + first.length + 1) (spanLengths rest))[j]? = some k := h
      have later' : (posts (start + first.length + 1) (spanLengths rest))[j + 1]? = some k' := h'
      have behind := le_of_mem_posts (List.mem_of_getElem? later)
      have behind' := le_of_mem_posts (List.mem_of_getElem? later')
      have place : k - start + 1 = first.length + (k - (start + first.length + 1) + 1) + 1 := by
        omega
      have place' : k' - start = first.length + (k' - (start + first.length + 1)) + 1 := by omega
      rw [place, place', fence, List.take_succ_cons, List.drop_succ_cons,
        List.take_length_add_append, List.drop_length_add_append]
      exact ih hspan later later'

/-- What is no post is one of the characters of a span. -/
theorem exists_mem_span {start i : ℕ} (inside : i < (fence post spans).length)
    (h : start + i ∉ posts start (spanLengths spans)) :
    ∃ entry ∈ spans, ∃ c ∈ entry.1, (fence post spans)[i]? = some c := by
  induction spans generalizing post start i with
  | nil =>
    have first : i = 0 := by simpa [fence] using inside
    exact absurd (first ▸ List.mem_singleton_self start) h
  | cons entry rest ih =>
    obtain ⟨span, next⟩ := entry
    obtain ⟨notFirst, notLater⟩ := not_or.1 (List.mem_cons.not.1 h)
    by_cases here : i ≤ span.length
    · obtain ⟨i, rfl⟩ := Nat.exists_eq_succ_of_ne_zero (show i ≠ 0 by omega)
      have within : i < span.length := here
      refine ⟨(span, next), List.mem_cons_self, span[i], List.getElem_mem within, ?_⟩
      rw [fence, Nat.succ_eq_add_one, List.getElem?_cons_succ, List.getElem?_append_left within,
        List.getElem?_eq_getElem within]
    · obtain ⟨later, rfl⟩ := Nat.exists_eq_add_of_le (show span.length + 1 ≤ i by omega)
      rw [getElem?_fence_cons]
      have shifted : start + (span.length + 1 + later) = start + span.length + 1 + later := by omega
      have shorter : later < (fence next rest).length := by
        rw [fence, List.length_cons, List.length_append] at inside
        omega
      obtain ⟨entry, given, c, hc, found⟩ := ih shorter (shifted ▸ notLater)
      exact ⟨entry, List.mem_cons_of_mem _ given, c, hc, found⟩

section Even

variable {parts : List (List Char)}

/-- A fence of one kind of post. -/
def evenFence (post : Char) (parts : List (List Char)) : List Char :=
  fence post (parts.map fun part => (part, post))

/-- Its spans are as long as the parts. -/
theorem spanLengths_even (post : Char) (parts : List (List Char)) :
    spanLengths (parts.map fun part => (part, post)) = parts.map List.length := by
  simp [spanLengths]

/-- It is as long as its parts and posts together. -/
theorem length_evenFence (post : Char) (parts : List (List Char)) :
    (evenFence post parts).length = (parts.map List.length).sum + parts.length + 1 := by
  rw [evenFence, length_fence, spanLengths_even, List.length_map]

/-- If no part has such a character, then the posts are where the fence has one. -/
theorem getElem?_evenFence_iff (none : ∀ part ∈ parts, post ∉ part) {i : ℕ} :
    (evenFence post parts)[i]? = some post ↔ i ∈ posts 0 (parts.map List.length) := by
  constructor
  · intro found
    by_contra other
    obtain ⟨inside, _⟩ := List.getElem?_eq_some_iff.1 found
    rw [← spanLengths_even post parts] at other
    obtain ⟨entry, given, c, hc, character⟩ :=
      @exists_mem_span _ post 0 i inside (by rwa [Nat.zero_add])
    obtain ⟨part, among, rfl⟩ := List.mem_map.1 given
    obtain rfl := Option.some.inj (found.symm.trans character)
    exact none part among hc
  · intro there
    obtain ⟨j, place⟩ := List.getElem?_of_mem there
    have within : j < (parts.map List.length).length + 1 :=
      length_posts 0 _ ▸ (List.getElem?_eq_some_iff.1 place).1
    rw [List.length_map] at within
    rw [← spanLengths_even post parts] at place
    refine (getElem?_fence_post place).trans ?_
    cases j with
    | zero => rfl
    | succ j =>
      rw [List.map_map, List.getElem?_cons_succ, List.getElem?_map,
        List.getElem?_eq_getElem (Nat.lt_of_succ_lt_succ within)]
      rfl

/-- If no part has such a character, then only the posts are such characters. -/
theorem count_evenFence (none : ∀ part ∈ parts, post ∉ part) :
    (evenFence post parts).count post = parts.length + 1 := by
  unfold evenFence
  induction parts with
  | nil => simp [fence]
  | cons part parts ih =>
    obtain ⟨first, later⟩ := List.forall_mem_cons.1 none
    rw [List.map_cons, fence, List.count_cons_self, List.count_append, List.count_eq_zero.2 first,
      ih later, List.length_cons, Nat.zero_add]

/-- Between two posts stands the part. -/
theorem take_drop_evenFence {j k k' : ℕ} {part : List Char} (hpart : parts[j]? = some part)
    (h : (posts 0 (parts.map List.length))[j]? = some k)
    (h' : (posts 0 (parts.map List.length))[j + 1]? = some k') :
    ((evenFence post parts).take k').drop (k + 1) = part := by
  rw [← spanLengths_even post parts] at h h'
  have entry : (parts.map fun part => (part, post))[j]? = some (part, post) := by
    rw [List.getElem?_map, hpart]
    rfl
  exact take_drop_fence entry h h'

end Even

end RunReport.Text
