import RunReport.Proofs.Distribution.Population

/-!
# Merging in any order and bracketing

A merge tree says in which order and bracketing distributions are merged two
by two. In exact arithmetic a merged distribution is determined by the
populations at the leaves alone: its count, range, weighted sums and second
moment are theirs, and without any sample it has the greatest of their members.
So two trees over the same distributions, in whatever order and bracketing,
give the same result, and no clamp ever changes a centre.
-/

namespace RunReport

/-- An order and bracketing in which distributions are merged two by two. -/
inductive MergeTree (α : Type) where
  /-- One distribution. -/
  | leaf (d : Distribution α)
  /-- Two merged parts, merged. -/
  | join (left right : MergeTree α)

namespace MergeTree

variable {α : Type} [Arithmetic α]

/-- The distributions at the leaves, from left to right. -/
def leaves : MergeTree α → List (Distribution α)
  | leaf d => [d]
  | join left right => left.leaves ++ right.leaves

/-- The distribution that the tree merges its leaves into. -/
def merged : MergeTree α → Except (MergeRefusal α) (Distribution α)
  | leaf d => .ok d
  | join left right => do
    let a ← left.merged
    let b ← right.merged
    a.merge b

/-- The tree that merges a list from left to right. -/
def fromLeft (t : MergeTree α) : List (Distribution α) → MergeTree α
  | [] => t
  | d :: rest => fromLeft (join t (leaf d)) rest

omit [Arithmetic α] in
/-- Merging from left to right leaves the distributions in order. -/
theorem leaves_fromLeft (t : MergeTree α) (ds : List (Distribution α)) :
    (fromLeft t ds).leaves = t.leaves ++ ds := by
  induction ds generalizing t with
  | nil => simp [fromLeft]
  | cons d rest ih => simp [fromLeft, ih, leaves]

/-- A tree from left to right merges as a list does. -/
theorem merged_fromLeft (t : MergeTree α) (ds : List (Distribution α)) :
    (fromLeft t ds).merged = t.merged >>= fun first => Distribution.mergeAll (first :: ds) := by
  induction ds generalizing t with
  | nil =>
    change t.merged = t.merged >>= pure
    rw [bind_pure]
  | cons d rest ih =>
    rw [fromLeft, ih]
    cases ht : t.merged with
    | error cause => simp [merged, ht, bind, Except.bind]
    | ok first =>
      simp only [merged, ht, bind, Except.bind, Distribution.mergeAll, List.foldlM_cons]

/-- Trees over centred distributions of one grid merge into one that pools
their leaves, as long as the total count fits. -/
theorem exists_merged {t : MergeTree ℚ} {grid : List ℚ}
    (centred : ∀ d ∈ t.leaves, d.Centred ∧ d.grid = grid)
    (fits : Distribution.totalCount t.leaves < 2 ^ 64) :
    ∃ m, t.merged = .ok m ∧ m.Centred ∧ m.grid = grid ∧ Distribution.Pools t.leaves m := by
  induction t with
  | leaf d =>
    obtain ⟨hd, hgrid⟩ := centred d (by simp [leaves])
    exact ⟨d, rfl, hd, hgrid, Distribution.pools_singleton d⟩
  | join left right ihl ihr =>
    simp only [leaves, Distribution.totalCount_append] at fits
    obtain ⟨a, hl, ha, agrid, apools⟩ :=
      ihl (fun d hd => centred d (List.mem_append_left _ hd)) (by omega)
    obtain ⟨b, hr, hb, bgrid, bpools⟩ :=
      ihr (fun d hd => centred d (List.mem_append_right _ hd)) (by omega)
    have counts : a.sampleCount.toNat + b.sampleCount.toNat < 2 ^ 64 := by
      rw [apools.count, bpools.count]
      exact fits
    have same : a.grid = b.grid := agrid.trans bgrid.symm
    have agrees := Distribution.sameGrid_of_grid_eq same
    have merges : (join left right).merged = .ok (a.pool b) := by
      refine Traversal.bind_eq_ok_iff.2 ⟨a, hl, Traversal.bind_eq_ok_iff.2 ⟨b, hr, ?_⟩⟩
      exact Distribution.merge_eq_ok_iff.2 ⟨agrees, counts, rfl⟩
    exact ⟨_, merges, ha.pool hb, (Distribution.grid_pool agrees).trans agrid,
      apools.pool bpools ha hb same counts⟩

/-- At every join the merged centre is the exact blend of both centres: their
weighted mean, or the greater one when neither side has samples. -/
def ClampsNothing : MergeTree ℚ → Prop
  | leaf _ => True
  | join left right => left.ClampsNothing ∧ right.ClampsNothing ∧
    ∀ a b m, left.merged = .ok a → right.merged = .ok b → a.merge b = .ok m →
      m.centrality = Distribution.blend a b a.centrality b.centrality

/-- Centred distributions are merged without any clamp. -/
theorem clampsNothing_of_centred {t : MergeTree ℚ} {grid : List ℚ}
    (centred : ∀ d ∈ t.leaves, d.Centred ∧ d.grid = grid)
    (fits : Distribution.totalCount t.leaves < 2 ^ 64) : t.ClampsNothing := by
  induction t with
  | leaf d => trivial
  | join left right ihl ihr =>
    simp only [leaves, Distribution.totalCount_append] at fits
    have onLeft : ∀ d ∈ left.leaves, d.Centred ∧ d.grid = grid :=
      fun d hd => centred d (List.mem_append_left _ hd)
    have onRight : ∀ d ∈ right.leaves, d.Centred ∧ d.grid = grid :=
      fun d hd => centred d (List.mem_append_right _ hd)
    refine ⟨ihl onLeft (by omega), ihr onRight (by omega), fun a b m hl hr merges => ?_⟩
    obtain ⟨a', hl', ha, -⟩ := exists_merged onLeft (by omega)
    obtain ⟨b', hr', hb, -⟩ := exists_merged onRight (by omega)
    obtain rfl : a' = a := Except.ok.inj (hl'.symm.trans hl)
    obtain rfl : b' = b := Except.ok.inj (hr'.symm.trans hr)
    rw [(Distribution.merge_eq_ok_iff.1 merges).2.2, Distribution.centrality_pool ha hb]

omit [Arithmetic α] in
/-- A tree has leaves. -/
theorem leaves_ne_nil (t : MergeTree α) : t.leaves ≠ [] := by
  induction t with
  | leaf d => simp [leaves]
  | join left right ihl _ => simp [leaves, ihl]

/-- In exact arithmetic any two merge trees over the same lawful distributions
of one grid, empty and populated ones in any mixture, succeed with equal
results as soon as the total count fits; the result is determined by the leaves
and obeys the rules again, and no centre was clamped on the way. -/
theorem merged_eq_of_leaves_perm {s t : MergeTree ℚ} {grid : List ℚ}
    (same : s.leaves.Perm t.leaves) (lawful : ∀ d ∈ s.leaves, d.Lawful ∧ d.grid = grid)
    (fits : Distribution.totalCount s.leaves < 2 ^ 64) :
    ∃ m, s.merged = .ok m ∧ t.merged = .ok m ∧ m.Lawful ∧ Distribution.Pools s.leaves m ∧
      s.ClampsNothing ∧ t.ClampsNothing := by
  have centred : ∀ d ∈ s.leaves, d.Centred ∧ d.grid = grid :=
    fun d hd => ⟨(lawful d hd).1.toCentred, (lawful d hd).2⟩
  have centredToo : ∀ d ∈ t.leaves, d.Centred ∧ d.grid = grid :=
    fun d hd => centred d (same.mem_iff.2 hd)
  have fitsToo : Distribution.totalCount t.leaves < 2 ^ 64 :=
    Distribution.totalCount_perm same ▸ fits
  obtain ⟨m, hm, mcentred, mgrid, mpools⟩ := exists_merged centred fits
  obtain ⟨n, hn, -, -, npools⟩ := exists_merged centredToo fitsToo
  obtain rfl : m = n := mpools.unique s.leaves_ne_nil (npools.perm same.symm)
  obtain ⟨part, hpart⟩ := List.exists_mem_of_ne_nil _ s.leaves_ne_nil
  obtain ⟨partLawful, partGrid⟩ := lawful part hpart
  exact ⟨m, hm, hn, partLawful.of_grid_eq mcentred (mgrid.trans partGrid.symm), mpools,
    clampsNothing_of_centred centred fits, clampsNothing_of_centred centredToo fitsToo⟩

/-- A constant distribution in its exact reading. -/
def constantLeaf (count : UInt64) (level : Nat) : MergeTree ℚ :=
  leaf (Distribution.constant count level).exact

/-- One empty and two populated distributions, merged in two orders and bracketings. -/
theorem merged_eq_of_three :
    let s := join (join (constantLeaf 0 9) (constantLeaf 2 1)) (constantLeaf 3 4)
    let t := join (constantLeaf 3 4) (join (constantLeaf 2 1) (constantLeaf 0 9))
    s.leaves.Perm t.leaves ∧
      (∀ d ∈ s.leaves, d.Lawful ∧ d.grid = [0, 1]) ∧
      Distribution.totalCount s.leaves < 2 ^ 64 ∧
      ∃ m, s.merged = .ok m ∧ t.merged = .ok m ∧ m.Lawful ∧ Distribution.Pools s.leaves m ∧
        s.ClampsNothing ∧ t.ClampsNothing := by
  intro s t
  have same : s.leaves.Perm t.leaves := by
    change [_, _, _].Perm [_, _, _]
    exact (List.Perm.swap _ _ _).trans
      (((List.Perm.swap _ _ _).cons _).trans (List.Perm.swap _ _ _))
  have lawful : ∀ d ∈ s.leaves, d.Lawful ∧ d.grid = [0, 1] := by
    intro d hd
    have accepted : ∀ c ∈ [Distribution.constant 0 9, Distribution.constant 2 1,
        Distribution.constant 3 4], c.make = .ok c := by decide +kernel
    obtain ⟨c, hc, rfl⟩ := List.mem_map.1 (show d ∈ [Distribution.constant 0 9,
      Distribution.constant 2 1, Distribution.constant 3 4].map Distribution.exact from hd)
    refine ⟨(Distribution.make_eq_ok_iff.1 (accepted c hc)).2.lawful_exact, ?_⟩
    simp only [List.mem_cons, List.not_mem_nil, or_false] at hc
    rcases hc with rfl | rfl | rfl <;> exact Distribution.grid_exact_constant _ _
  have fits : Distribution.totalCount s.leaves < 2 ^ 64 := by
    change 0 + (2 + (3 + 0)) < 2 ^ 64
    decide
  exact ⟨same, lawful, fits, merged_eq_of_leaves_perm same lawful fits⟩

end MergeTree

end RunReport
