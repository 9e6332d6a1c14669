import Mathlib.Data.List.Induction
import WorkerFleet.Proofs.Exact
import WorkerFleet.Proofs.Sample
import WorkerFleet.Reclaim

/-!
# Deficits of skipped jobs

Every algorithm with a skipped job has one deficit, in which its skips are added up one after the
other (`deficits_gathersAll`). For numbers of any kind this says all that a deficit holds, and
the heaviest comes first wherever weights can be put in order (`pairwise_deficits`). Over exact
numbers the additions are sums, and every skip counts in just one of them
(`deficits_groupsSkips`).
-/

namespace WorkerFleet

/-- The items added up from the first one on. -/
def total? {M : Type} [Add M] : List M → Option M
  | [] => none
  | x :: xs => some (xs.foldl (· + ·) x)

theorem total?_concat {M : Type} [Add M] (xs : List M) (x : M) :
    total? (xs ++ [x]) = some ((total? xs).elim x (· + x)) := by
  cases xs with
  | nil => rfl
  | cons y ys => simp [total?]

theorem eq_foldl_of_total? {M : Type} [Add M] {xs : List M} {y : M} (h : total? xs = some y) :
    ∃ x rest, xs = x :: rest ∧ y = rest.foldl (· + ·) x := by
  cases xs with
  | nil => cases h
  | cons x rest => exact ⟨x, rest, rfl, (Option.some.inj h).symm⟩

namespace Reclaim

section Skips
variable {K : Type} (a : String) (skipped : List (SkippedJob K))

/-- The places of the algorithm's skips. -/
def positions : List Nat := skipped.findIdxs (·.algorithm = a)

/-- What the algorithm's skipped jobs need, one by one. -/
def needs : List (Resources K) := (skipped.filter (·.algorithm = a)).map (·.resources)

variable {a skipped} {s : SkippedJob K}

theorem positions_concat_of_eq (h : a = s.algorithm) :
    positions a (skipped ++ [s]) = positions a skipped ++ [skipped.length] := by
  rw [positions, List.findIdxs_append, List.findIdxs_singleton, Nat.zero_add,
    if_pos (decide_eq_true h.symm), positions]

theorem positions_concat_of_ne (h : a ≠ s.algorithm) :
    positions a (skipped ++ [s]) = positions a skipped := by
  rw [positions, List.findIdxs_append, List.findIdxs_singleton, if_neg (by simpa using h.symm),
    List.append_nil, positions]

theorem needs_concat_of_eq (h : a = s.algorithm) :
    needs a (skipped ++ [s]) = needs a skipped ++ [s.resources] := by
  rw [needs, List.filter_append, List.filter_cons_of_pos (by simpa using h.symm), List.filter_nil,
    List.map_append, List.map_singleton, needs]

theorem needs_concat_of_ne (h : a ≠ s.algorithm) :
    needs a (skipped ++ [s]) = needs a skipped := by
  rw [needs, List.filter_append, List.filter_cons_of_neg (by simpa using h.symm), List.filter_nil,
    List.append_nil, needs]

theorem positions_eq_nil_iff : positions a skipped = [] ↔ a ∉ skipped.map (·.algorithm) := by
  rw [positions, List.findIdxs_eq_nil_iff]
  simp

theorem needs_eq_nil_iff : needs a skipped = [] ↔ a ∉ skipped.map (·.algorithm) := by
  rw [needs, List.map_eq_nil_iff, List.filter_eq_nil_iff]
  simp

theorem algorithm_of_mem_positions {i : Nat} (h : i ∈ positions a skipped) :
    skipped[i]?.map (·.algorithm) = some a := by
  obtain ⟨hi, ha⟩ := List.mem_findIdxs_iff_exists_getElem_pos.mp h
  rw [List.getElem?_eq_getElem hi, Option.map_some]
  exact congrArg some (of_decide_eq_true ha)

theorem lt_length_of_mem_positions {i : Nat} (h : i ∈ positions a skipped) :
    i < skipped.length :=
  List.lt_add_of_mem_findIdxs i h

end Skips

section Gather
variable {K : Type} [Quantity K]

def further (d : Deficit K) (weight : K) (resources : Resources K) : Deficit K :=
  { d with weight := d.weight + weight, resources := d.resources + resources }

theorem algorithms_addSkip (s : SkippedJob K) (weight : K) (index : Nat) (ds : List (Deficit K)) :
    (addSkip s weight index ds).map (·.algorithm) =
      if s.algorithm ∈ ds.map (·.algorithm) then ds.map (·.algorithm)
      else ds.map (·.algorithm) ++ [s.algorithm] := by
  induction ds with
  | nil => rfl
  | cons d ds ih =>
    unfold addSkip
    split
    · next hd => rw [if_pos (by simp [hd]), List.map_cons, List.map_cons]
    · next hd =>
      rw [List.map_cons, ih]
      split
      · next hmem => simp [hmem]
      · next hmem => simp [hmem, Ne.symm hd]

/-- A skip changes the deficit of its algorithm alone, or makes it. -/
theorem forall_mem_addSkip {P Q : Deficit K → Prop} {s : SkippedJob K} {weight : K} {index : Nat}
    {ds : List (Deficit K)} (hnodup : (ds.map (·.algorithm)).Nodup) (hds : ∀ d ∈ ds, P d)
    (hother : ∀ d, P d → d.algorithm ≠ s.algorithm → Q d)
    (hfurther : ∀ d, P d → d.algorithm = s.algorithm → Q (further d weight s.resources))
    (hfirst : s.algorithm ∉ ds.map (·.algorithm) →
      Q ⟨s.algorithm, weight, s.resources, index⟩) :
    ∀ d ∈ addSkip s weight index ds, Q d := by
  induction ds with
  | nil => exact List.forall_mem_singleton.mpr (hfirst List.not_mem_nil)
  | cons d ds ih =>
    obtain ⟨hd, hds⟩ := List.forall_mem_cons.mp hds
    obtain ⟨hnew, hnodup⟩ := List.nodup_cons.mp hnodup
    unfold addSkip
    split
    · next heq =>
      refine List.forall_mem_cons.mpr ⟨hfurther d hd heq, ?_⟩
      intro e he
      apply hother e (hds e he)
      intro hsame
      exact hnew (List.mem_map.mpr ⟨e, he, hsame.trans heq.symm⟩)
    · next hne =>
      refine List.forall_mem_cons.mpr ⟨hother d hd hne, ih hnodup hds ?_⟩
      intro hnone
      apply hfirst
      rw [List.map_cons, List.mem_cons, not_or]
      exact ⟨Ne.symm hne, hnone⟩

variable (weight : Nat → K) (skipped : List (SkippedJob K))

/-- The deficit is made of the skips of its algorithm, in their order. -/
structure Gathers (d : Deficit K) : Prop where
  weight : total? ((positions d.algorithm skipped).map weight) = some d.weight
  resources : total? (needs d.algorithm skipped) = some d.resources
  firstIndex : (positions d.algorithm skipped).head? = some d.firstIndex

/-- Every skipped algorithm has one deficit, made of its skips. -/
structure GathersAll (ds : List (Deficit K)) : Prop where
  nodup : (ds.map (·.algorithm)).Nodup
  algorithms : ∀ a, a ∈ ds.map (·.algorithm) ↔ a ∈ skipped.map (·.algorithm)
  gathers : ∀ d ∈ ds, Gathers weight skipped d

variable {weight skipped} {s : SkippedJob K} {d : Deficit K}

theorem Gathers.of_ne (h : Gathers weight skipped d) (hne : d.algorithm ≠ s.algorithm) :
    Gathers weight (skipped ++ [s]) d where
  weight := by rw [positions_concat_of_ne hne, h.weight]
  resources := by rw [needs_concat_of_ne hne, h.resources]
  firstIndex := by rw [positions_concat_of_ne hne, h.firstIndex]

theorem Gathers.further (h : Gathers weight skipped d) (heq : d.algorithm = s.algorithm) :
    Gathers weight (skipped ++ [s]) (further d (weight skipped.length) s.resources) where
  weight := by
    rw [Reclaim.further, positions_concat_of_eq heq, List.map_append, List.map_singleton,
      total?_concat, h.weight]
    rfl
  resources := by
    rw [Reclaim.further, needs_concat_of_eq heq, total?_concat, h.resources]
    rfl
  firstIndex := by
    rw [Reclaim.further, positions_concat_of_eq heq, List.head?_append, h.firstIndex]
    rfl

theorem gathers_first (hnew : s.algorithm ∉ skipped.map (·.algorithm)) :
    Gathers weight (skipped ++ [s])
      ⟨s.algorithm, weight skipped.length, s.resources, skipped.length⟩ where
  weight := by
    rw [positions_concat_of_eq rfl, positions_eq_nil_iff.mpr hnew]
    rfl
  resources := by
    rw [needs_concat_of_eq rfl, needs_eq_nil_iff.mpr hnew]
    rfl
  firstIndex := by
    rw [positions_concat_of_eq rfl, positions_eq_nil_iff.mpr hnew]
    rfl

theorem GathersAll.addSkip {ds : List (Deficit K)} (h : GathersAll weight skipped ds) :
    GathersAll weight (skipped ++ [s])
      (addSkip s (weight skipped.length) skipped.length ds) where
  nodup := by
    rw [algorithms_addSkip]
    split
    · exact h.nodup
    · next hnew => exact List.concat_eq_append ▸ h.nodup.concat hnew
  algorithms := by
    intro a
    rw [algorithms_addSkip, List.map_append, List.mem_append, ← h.algorithms]
    split
    · next hold =>
      refine ⟨.inl, fun h => h.elim id fun h => ?_⟩
      obtain rfl := List.mem_singleton.mp h
      exact hold
    · exact List.mem_append
  gathers := by
    refine forall_mem_addSkip h.nodup h.gathers ?_ ?_ ?_
    · exact fun d hd hne => hd.of_ne hne
    · exact fun d hd heq => hd.further heq
    · exact fun hnew => gathers_first fun hold => hnew ((h.algorithms _).mpr hold)

variable (weight skipped) in
-- By induction from the end: each skip is added to what the earlier ones made.
theorem foldl_addSkip_gathersAll : GathersAll weight skipped
    (skipped.zipIdx.foldl (fun ds e => Reclaim.addSkip e.1 (weight e.2) e.2 ds) []) := by
  induction skipped using List.reverseRecOn with
  | nil => exact ⟨List.nodup_nil, fun _ => Iff.rfl, List.forall_mem_nil _⟩
  | append_singleton skipped s ih =>
    rw [List.zipIdx_append, List.foldl_append, Nat.zero_add]
    exact ih.addSkip

theorem Gathers.firstIndex_mem (h : Gathers weight skipped d) :
    d.firstIndex ∈ positions d.algorithm skipped := List.mem_of_head? h.firstIndex

/-- What its first skip gives a weight and further skips leave it, the weight of a deficit has. -/
theorem Gathers.weight_induction {P : K → Prop} (h : Gathers weight skipped d)
    (hfirst : P (weight d.firstIndex))
    (hfurther : ∀ x, ∀ i ∈ positions d.algorithm skipped, P x → P (x + weight i)) :
    P d.weight := by
  obtain ⟨later, hpositions⟩ := List.head?_eq_some_iff.mp h.firstIndex
  have hweight := h.weight
  rw [hpositions, List.map_cons] at hweight
  rw [hpositions] at hfurther
  rw [← Option.some.inj hweight]
  refine List.foldlRecOn (motive := P) (later.map weight) _ hfirst ?_
  intro x hx w hw
  obtain ⟨i, hi, rfl⟩ := List.mem_map.mp hw
  exact hfurther x i (List.mem_cons_of_mem _ hi) hx

theorem Gathers.firstIndex_eq_findIdx (h : Gathers weight skipped d) :
    d.firstIndex = skipped.findIdx (·.algorithm = d.algorithm) := by
  have hhead := h.firstIndex
  rw [List.head?_eq_getElem?] at hhead
  obtain ⟨hlength, hfirst⟩ := List.getElem?_eq_some_iff.mp hhead
  exact hfirst.symm.trans (List.getElem_zero_findIdxs_eq_findIdx hlength)

theorem gather_gathersAll (weigh : Nat → K) (skipped : List (SkippedJob K)) :
    GathersAll (fun i => weigh (skipped.length - i)) skipped (gather weigh skipped) :=
  foldl_addSkip_gathersAll _ skipped

theorem nodup_firstIndexes_gather {weigh : Nat → K} :
    ((gather weigh skipped).map (·.firstIndex)).Nodup := by
  have hgather := gather_gathersAll weigh skipped
  refine hgather.nodup.of_map.map_on ?_
  intro d hd e he heq
  have hdfirst := algorithm_of_mem_positions
    (List.mem_of_head? (hgather.gathers d hd).firstIndex)
  have hefirst := algorithm_of_mem_positions
    (List.mem_of_head? (hgather.gathers e he).firstIndex)
  rw [heq, hefirst] at hdfirst
  exact List.inj_on_of_nodup_map hgather.nodup hd he (Option.some.inj hdfirst).symm

end Gather

section Order

/-- The relation is a strict order of the items, and a total one. -/
structure Orders {α : Type} (before : α → α → Bool) (xs : List α) : Prop where
  irrefl : ∀ x ∈ xs, before x x = false
  trans : ∀ x ∈ xs, ∀ y ∈ xs, ∀ z ∈ xs,
    before x y = true → before y z = true → before x z = true
  total : ∀ x ∈ xs, ∀ y ∈ xs, x ≠ y → before x y = true ∨ before y x = true

theorem Orders.subset {α : Type} {before : α → α → Bool} {xs ys : List α} (h : Orders before ys)
    (hsubset : xs ⊆ ys) : Orders before xs where
  irrefl x hx := h.irrefl x (hsubset hx)
  trans x hx y hy z hz := h.trans x (hsubset hx) y (hsubset hy) z (hsubset hz)
  total x hx y hy := h.total x (hsubset hx) y (hsubset hy)

theorem Orders.asymm {α : Type} {before : α → α → Bool} {xs : List α} (h : Orders before xs)
    {x y : α} (hx : x ∈ xs) (hy : y ∈ xs) (hxy : before x y = true) : ¬ before y x = true := by
  intro hyx
  have hxx := h.trans x hx y hy x hx hxy hyx
  rw [h.irrefl x hx] at hxx
  cases hxx

section Comparison
variable {K L : Type} [Quantity K] [LinearOrder L] (place : K → L)

/-- Heavier deficits come first, and of those of one weight the earlier. -/
theorem precedes_iff {a b : Deficit K}
    (hab : Quantity.lt a.weight b.weight = true ↔ place a.weight < place b.weight)
    (hba : Quantity.lt b.weight a.weight = true ↔ place b.weight < place a.weight) :
    Deficit.precedes a b = true ↔ place b.weight < place a.weight ∨
      place b.weight = place a.weight ∧ a.firstIndex < b.firstIndex := by
  unfold Deficit.precedes
  rcases lt_trichotomy (place a.weight) (place b.weight) with h | h | h
  · rw [if_neg (fun hlt => h.not_gt (hba.mp hlt)), if_pos (hab.mpr h)]
    simp [h.not_gt, h.ne']
  · rw [if_neg (fun hlt => h.not_gt (hba.mp hlt)), if_neg (fun hlt => h.not_lt (hab.mp hlt))]
    simp [h]
  · rw [if_pos (hba.mpr h)]
    simp [h]

/-- Deficits are ordered where their weights have places. -/
theorem orders_precedes {ds : List (Deficit K)}
    (hplace : ∀ a ∈ ds, ∀ b ∈ ds,
      (Quantity.lt a.weight b.weight = true ↔ place a.weight < place b.weight))
    (hindex : (ds.map (·.firstIndex)).Nodup) : Orders Deficit.precedes ds := by
  have hiff : ∀ a ∈ ds, ∀ b ∈ ds, (Deficit.precedes a b = true ↔
      place b.weight < place a.weight ∨
        place b.weight = place a.weight ∧ a.firstIndex < b.firstIndex) :=
    fun a ha b hb => precedes_iff place (hplace a ha b hb) (hplace b hb a ha)
  constructor
  · intro a ha
    simp [← Bool.not_eq_true, hiff a ha a ha]
  · intro a ha b hb c hc hab hbc
    rw [hiff a ha b hb] at hab
    rw [hiff b hb c hc] at hbc
    rw [hiff a ha c hc]
    rcases hab with hab | ⟨hab, hab'⟩ <;> rcases hbc with hbc | ⟨hbc, hbc'⟩
    · exact .inl (hbc.trans hab)
    · exact .inl (hbc ▸ hab)
    · exact .inl (hab ▸ hbc)
    · exact .inr ⟨hbc.trans hab, hab'.trans hbc'⟩
  · intro a ha b hb hne
    rw [hiff a ha b hb, hiff b hb a ha]
    have hindex : a.firstIndex ≠ b.firstIndex :=
      fun heq => hne (List.inj_on_of_nodup_map hindex ha hb heq)
    rcases lt_trichotomy (place a.weight) (place b.weight) with h | h | h
    · exact .inr (.inl h)
    · rcases Nat.lt_or_gt_of_ne hindex with hlt | hgt
      · exact .inl (.inr ⟨h.symm, hlt⟩)
      · exact .inr (.inr ⟨h, hgt⟩)
    · exact .inl (.inl h)

end Comparison

variable {K : Type} [Quantity K]

theorem insertBackward_perm (d : Deficit K) (ds : List (Deficit K)) :
    (insertBackward d ds).Perm (d :: ds) := by
  induction ds with
  | nil => exact .refl _
  | cons e ds ih =>
    unfold insertBackward
    split
    · exact (ih.cons e).trans (.swap d e ds)
    · exact .refl _

theorem insertBackward_pairwise {d : Deficit K} {ds : List (Deficit K)}
    (horders : Orders Deficit.precedes (d :: ds)) (hnew : d ∉ ds)
    (hsorted : ds.Pairwise fun x y => Deficit.precedes y x = true) :
    (insertBackward d ds).Pairwise fun x y => Deficit.precedes y x = true := by
  induction ds with
  | nil => exact List.pairwise_singleton _ _
  | cons e ds ih =>
    obtain ⟨he, hsorted⟩ := List.pairwise_cons.mp hsorted
    obtain ⟨hne, hnew⟩ := not_or.mp (List.mem_cons.not.mp hnew)
    have hrest : d :: ds ⊆ d :: e :: ds := List.cons_subset_cons d (List.subset_cons_self e ds)
    unfold insertBackward
    split
    · next hprecedes =>
      refine List.pairwise_cons.mpr ⟨?_, ih (horders.subset hrest) hnew hsorted⟩
      intro x hx
      rcases List.mem_cons.mp ((insertBackward_perm d ds).subset hx) with rfl | hx
      · exact hprecedes
      · exact he x hx
    · next hlast =>
      -- `e` precedes `d`, and so does all that precedes `e`.
      have hde : Deficit.precedes e d = true :=
        (horders.total d (by simp) e (by simp) hne).resolve_left hlast
      refine List.pairwise_cons.mpr ⟨?_, List.pairwise_cons.mpr ⟨he, hsorted⟩⟩
      intro x hx
      rcases List.mem_cons.mp hx with rfl | hx
      · exact hde
      · exact horders.trans x (by simp [hx]) e (by simp) d (by simp) (he x hx) hde

theorem foldl_insertBackward_perm (ds sorted : List (Deficit K)) :
    (ds.foldl (fun sorted d => insertBackward d sorted) sorted).Perm (ds ++ sorted) := by
  induction ds generalizing sorted with
  | nil => exact .refl _
  | cons d ds ih =>
    have hinsert := (insertBackward_perm d sorted).append_left ds
    exact (ih _).trans (hinsert.trans List.perm_middle)

theorem foldl_insertBackward_pairwise {ds sorted : List (Deficit K)}
    (horders : Orders Deficit.precedes (ds ++ sorted)) (hnodup : (ds ++ sorted).Nodup)
    (hsorted : sorted.Pairwise fun x y => Deficit.precedes y x = true) :
    (ds.foldl (fun sorted d => insertBackward d sorted) sorted).Pairwise
      fun x y => Deficit.precedes y x = true := by
  induction ds generalizing sorted with
  | nil => exact hsorted
  | cons d ds ih =>
    have hperm : (ds ++ insertBackward d sorted).Perm (d :: ds ++ sorted) :=
      ((insertBackward_perm d sorted).append_left ds).trans List.perm_middle
    have hinserted : d :: sorted ⊆ d :: ds ++ sorted :=
      List.cons_subset_cons d (List.subset_append_right ds sorted)
    have hnew : d ∉ sorted := fun hd =>
      (List.nodup_cons.mp hnodup).1 (List.mem_append_right ds hd)
    exact ih (horders.subset hperm.subset) (hperm.nodup_iff.mpr hnodup)
      (insertBackward_pairwise (horders.subset hinserted) hnew hsorted)

variable (weigh : Nat → K) (skipped : List (SkippedJob K))

theorem deficits_perm : (deficits weigh skipped).Perm (gather weigh skipped) := by
  have hsorted := foldl_insertBackward_perm (gather weigh skipped) []
  rw [List.append_nil] at hsorted
  exact (List.reverse_perm _).trans hsorted

/-- Wherever the deficits can be put in order, they are. -/
theorem pairwise_deficits (h : Orders Deficit.precedes (gather weigh skipped)) :
    (deficits weigh skipped).Pairwise fun d e => Deficit.precedes d e = true := by
  have hnodup := (gather_gathersAll weigh skipped).nodup.of_map
  rw [← List.append_nil (gather weigh skipped)] at h hnodup
  exact List.pairwise_reverse.mpr (foldl_insertBackward_pairwise h hnodup .nil)

theorem deficits_gathersAll :
    GathersAll (fun i => weigh (skipped.length - i)) skipped (deficits weigh skipped) := by
  have hgather := gather_gathersAll weigh skipped
  have hperm := deficits_perm weigh skipped
  exact {
    nodup := (hperm.map _).nodup_iff.mpr hgather.nodup
    algorithms := fun a => (hperm.map _).mem_iff.trans (hgather.algorithms a)
    gathers := fun d hd => hgather.gathers d (hperm.subset hd) }

theorem nodup_algorithms_deficits : ((deficits weigh skipped).map (·.algorithm)).Nodup :=
  (deficits_gathersAll weigh skipped).nodup

theorem mem_algorithms_deficits {a : String} :
    a ∈ (deficits weigh skipped).map (·.algorithm) ↔ a ∈ skipped.map (·.algorithm) :=
  (deficits_gathersAll weigh skipped).algorithms a

end Order

section Exact
variable {K : Type} [Quantity K] [Quantity.Exact K]

theorem precedes_exact_iff {d e : Deficit K} : Deficit.precedes d e = true ↔
    Quantity.lt e.weight d.weight = true ∨ e.weight = d.weight ∧ d.firstIndex < e.firstIndex := by
  let _ := Quantity.Exact.linearOrder K
  exact precedes_iff (K := K) (fun x => x) Iff.rfl Iff.rfl

theorem orders_gather_of_exact (weigh : Nat → K) (skipped : List (SkippedJob K)) :
    Orders Deficit.precedes (gather weigh skipped) := by
  let _ := Quantity.Exact.linearOrder K
  exact orders_precedes (K := K) (fun x => x) (fun _ _ _ _ => Iff.rfl) nodup_firstIndexes_gather

theorem Gathers.weight_eq_sum {weight : Nat → K} {skipped : List (SkippedJob K)} {d : Deficit K}
    (h : Gathers weight skipped d) :
    d.weight = Quantity.sum ((positions d.algorithm skipped).map weight) := by
  obtain ⟨x, rest, hlist, hsum⟩ := eq_foldl_of_total? h.weight
  rw [hsum, hlist, Quantity.foldl_add]

theorem Gathers.resources_eq_sum {weight : Nat → K} {skipped : List (SkippedJob K)}
    {d : Deficit K} (h : Gathers weight skipped d) :
    d.resources = Resources.sum (needs d.algorithm skipped) := by
  obtain ⟨r, rest, hlist, hsum⟩ := eq_foldl_of_total? h.resources
  rw [hsum, hlist, Resources.foldl_add]

/-- Every skip counts in one deficit. -/
theorem sum_resources_deficits (weigh : Nat → K) (skipped : List (SkippedJob K)) :
    Resources.sum ((deficits weigh skipped).map (·.resources)) = resourcesToFree skipped := by
  have hds := deficits_gathersAll weigh skipped
  apply Resources.ext_get
  intro dim
  -- In each dimension a deficit is the sum over the skips of its name.
  have hparts : (deficits weigh skipped).map (fun d => d.resources.get dim) =
      ((deficits weigh skipped).map (·.algorithm)).map fun a =>
        Quantity.sum ((skipped.filter (·.algorithm = a)).map (·.resources.get dim)) := by
    rw [List.map_map]
    refine List.map_congr_left fun d hd => ?_
    rw [(hds.gathers d hd).resources_eq_sum, Resources.get_sum, needs, List.map_map]
    rfl
  have hnames : ∀ s ∈ skipped, s.algorithm ∈ (deficits weigh skipped).map (·.algorithm) :=
    fun s hs => (hds.algorithms _).mpr (List.mem_map_of_mem hs)
  rw [Resources.get_sum, List.map_map, resourcesToFree, Resources.get_sum, List.map_map]
  exact (congrArg Quantity.sum hparts).trans
    (Quantity.sum_sums_by_name SkippedJob.algorithm (·.resources.get dim) hds.nodup hnames)

end Exact

/-- The skips of each algorithm are put together, nothing is lost, and the heaviest deficit comes
first. -/
structure GroupsSkips {K : Type} [Quantity K] (weigh : Nat → K) (skipped : List (SkippedJob K))
    (ds : List (Deficit K)) : Prop where
  distinct : (ds.map (·.algorithm)).Nodup
  algorithms : ∀ a, a ∈ ds.map (·.algorithm) ↔ a ∈ skipped.map (·.algorithm)
  firstIndex : ∀ d ∈ ds, d.firstIndex = skipped.findIdx (·.algorithm = d.algorithm)
  resources : ∀ d ∈ ds, d.resources =
    Resources.sum ((skipped.filter (·.algorithm = d.algorithm)).map (·.resources))
  weight : ∀ d ∈ ds, d.weight =
    Quantity.sum ((skipped.findIdxs (·.algorithm = d.algorithm)).map fun i =>
      weigh (skipped.length - i))
  sorted : ds.Pairwise fun d e => Quantity.lt e.weight d.weight = true ∨
    d.weight = e.weight ∧ d.firstIndex < e.firstIndex
  total : Resources.sum (ds.map (·.resources)) = resourcesToFree skipped

theorem deficits_groupsSkips {K : Type} [Quantity K] [Quantity.Exact K] (weigh : Nat → K)
    (skipped : List (SkippedJob K)) : GroupsSkips weigh skipped (deficits weigh skipped) := by
  have hds := deficits_gathersAll weigh skipped
  refine {
    distinct := hds.nodup
    algorithms := hds.algorithms
    firstIndex := fun d hd => (hds.gathers d hd).firstIndex_eq_findIdx
    resources := fun d hd => (hds.gathers d hd).resources_eq_sum
    weight := fun d hd => (hds.gathers d hd).weight_eq_sum
    sorted := ?_
    total := sum_resources_deficits weigh skipped }
  have hordered := pairwise_deficits weigh skipped (orders_gather_of_exact weigh skipped)
  refine hordered.imp fun hprecedes => ?_
  exact (precedes_exact_iff.mp hprecedes).imp_right fun h => ⟨h.1.symm, h.2⟩

/-- The first skip of `a` weighs as much as both of `b` together. -/
def evenSkips : List (SkippedJob Rat) := ["a", "b", "b"].map .sample

theorem groupsSkips_evenSkips :
    (deficits (fun position => (position : Rat)) evenSkips).map
      (fun d => (d.algorithm, d.weight, d.firstIndex)) = [("a", 3, 0), ("b", 3, 1)] ∧
    GroupsSkips (fun position => (position : Rat)) evenSkips
      (deficits (fun position => (position : Rat)) evenSkips) :=
  ⟨by decide +kernel, deficits_groupsSkips _ evenSkips⟩

end Reclaim

end WorkerFleet
