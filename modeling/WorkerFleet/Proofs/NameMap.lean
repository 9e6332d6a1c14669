import Mathlib.Data.List.Basic
import Mathlib.Data.List.Induction
import WorkerFleet.NameMap

/-!
# Reading a map after a change

What is read under a name after the operations that maps are built from, and the parts of a
map's entries that belong to one name.
-/

namespace WorkerFleet

namespace NameMap
variable {α β : Type}

theorem get?_map (f : α → β) (m : NameMap α) (name : String) :
    (m.map f).get? name = (m.get? name).map f := by
  rw [map, get?_filterMap]
  cases m.get? name <;> rfl

theorem get?_adjust (m : NameMap α) (name key : String) (f : α → α) :
    (m.adjust name f).get? key = (m.get? key).map fun v => if key = name then f v else v := by
  rw [adjust, get?_filterMap]
  cases m.get? key <;> rfl

theorem get?_erase (m : NameMap α) (name key : String) :
    (m.erase name).get? key = if key = name then none else m.get? key := by
  rw [erase, get?_filterMap]
  by_cases h : key = name
  · rw [if_pos h]
    cases m.get? key <;> simp [h]
  · rw [if_neg h]
    cases m.get? key <;> simp [h]

theorem get?_insertNew (m : NameMap α) (name key : String) (value : α) :
    (m.insertNew name value).get? key =
      (m.get? key <|> if name = key then some value else none) := by
  rw [insertNew, get?_upsert]
  by_cases h : name = key
  · rw [if_pos h, if_pos h]
    cases m.get? key <;> rfl
  · rw [if_neg h, if_neg h]
    cases m.get? key <;> rfl

/-- There is at most one entry of each name. -/
theorem filter_entries (m : NameMap α) (name : String) :
    m.entries.filter (fun e => e.1 = name) = (m.get? name).toList.map (name, ·) := by
  obtain ⟨entries, hascending⟩ := m
  unfold get?
  induction entries with
  | nil => rfl
  | cons e rest ih =>
    obtain ⟨hlt, hrest⟩ := List.pairwise_cons.mp hascending
    by_cases h : e.1 = name
    · have hnone : rest.filter (fun e => e.1 = name) = [] := by
        refine List.filter_eq_nil_iff.mpr ?_
        intro e' he' heq
        have hlt' := hlt e' he'
        rw [h, of_decide_eq_true heq] at hlt'
        exact String.lt_irrefl name hlt'
      rw [List.filter_cons_of_pos (by simpa using h), hnone,
        List.find?_cons_of_pos (by simpa using h), ← h]
      rfl
    · rw [List.filter_cons_of_neg (by simpa using h),
        List.find?_cons_of_neg (by simpa using h)]
      exact ih hrest

theorem filter_filterMap_entries (m : NameMap α) (f : String → α → Option β)
    (nameOf : β → String) (hname : ∀ e ∈ m.entries, ∀ b, f e.1 e.2 = some b → nameOf b = e.1)
    (name : String) :
    (m.entries.filterMap fun e => f e.1 e.2).filter (fun b => nameOf b = name) =
      ((m.get? name).bind (f name)).toList := by
  have hcommute : (m.entries.filterMap fun e => f e.1 e.2).filter (fun b => nameOf b = name) =
      (m.entries.filter fun e => e.1 = name).filterMap fun e => f e.1 e.2 := by
    rw [List.filter_filterMap, List.filterMap_filter]
    refine List.filterMap_congr ?_
    intro e he
    cases hf : f e.1 e.2 with
    | none => simp
    | some b =>
      have hb := hname e he b hf
      by_cases h : e.1 = name <;> simp [hb, h]
  rw [hcommute, filter_entries]
  cases m.get? name with
  | none => rfl
  | some v =>
    rw [Option.bind_some]
    cases h : f name v <;> simp [h]

theorem values_filterMap (f : String → α → Option β) (m : NameMap α) :
    (m.filterMap f).values = m.entries.filterMap fun e => f e.1 e.2 := by
  rw [values, filterMap, List.map_filterMap]
  refine List.filterMap_congr ?_
  intro e _
  cases f e.1 e.2 <;> rfl

theorem values_map (f : α → β) (m : NameMap α) : (m.map f).values = m.values.map f := by
  rw [map, values_filterMap, values, List.map_map, ← List.filterMap_eq_map]
  rfl

theorem nodup_keys (m : NameMap α) : m.keys.Nodup := by
  apply List.pairwise_map.mpr
  apply m.ascending.imp
  intro a b hlt heq
  exact String.lt_irrefl b.1 (heq ▸ hlt)

/-- Values that carry the names under which they are stand in name order. -/
theorem pairwise_values {m : NameMap α} {nameOf : α → String}
    (h : ∀ a v, m.get? a = some v → nameOf v = a) :
    m.values.Pairwise (nameOf · < nameOf ·) := by
  refine List.pairwise_map.mpr (m.ascending.imp_of_mem ?_)
  intro x y hx hy hlt
  rw [h x.1 x.2 (mem_entries.mp hx), h y.1 y.2 (mem_entries.mp hy)]
  exact hlt

/-- Of several entries under one name the last one is read. -/
theorem get?_ofList (es : List (String × α)) (name : String) :
    (ofList es).get? name = (es.reverse.find? fun e => e.1 = name).map (·.2) := by
  induction es using List.reverseRecOn with
  | nil => rfl
  | append_singleton es e ih =>
    have hlast : ofList (es ++ [e]) = (ofList es).insert e.1 e.2 := by
      rw [ofList, List.foldl_append]
      rfl
    rw [hlast, get?_insert, List.reverse_append, List.reverse_singleton, List.singleton_append]
    by_cases h : e.1 = name
    · rw [if_pos h, List.find?_cons_of_pos (by simpa using h)]
      rfl
    · rw [if_neg h, List.find?_cons_of_neg (by simpa using h)]
      exact ih

/-- The map holds what is counted, and no entry where that is nothing. -/
def Counts (m : NameMap Nat) (count : String → Nat) : Prop :=
  ∀ name, m.get? name = if count name = 0 then none else some (count name)

namespace Counts
variable {m : NameMap Nat} {count : String → Nat}

theorem empty : Counts .empty fun _ => 0 := fun _ => rfl

theorem upsert (h : m.Counts count) (name : String) :
    (m.upsert name fun n => n.getD 0 + 1).Counts
      (Function.update count name (count name + 1)) := by
  intro key
  rw [get?_upsert]
  by_cases hkey : name = key
  · subst hkey
    rw [if_pos rfl, Function.update_self, if_neg (Nat.succ_ne_zero _), h name]
    split
    · next hzero => rw [hzero]; rfl
    · rfl
  · rw [if_neg hkey, Function.update_of_ne (Ne.symm hkey), h key]

theorem getD_get? (h : m.Counts count) (name : String) : (m.get? name).getD 0 = count name := by
  rw [h name]
  split
  · next hzero => exact hzero.symm
  · rfl

theorem ne_zero_of_mem (h : m.Counts count) {e : String × Nat} (he : e ∈ m.entries) :
    e.2 ≠ 0 := by
  have hget := mem_entries.mp he
  rw [h e.1] at hget
  split at hget
  · cases hget
  · next hne => exact Option.some.inj hget ▸ hne

end Counts

theorem get?_eq_none_of_notMem_keys {m : NameMap α} {name : String} (h : name ∉ m.keys) :
    m.get? name = none := by
  apply Option.eq_none_iff_forall_ne_some.mpr
  intro value hvalue
  exact h (List.mem_map.mpr ⟨_, mem_entries.mpr hvalue, rfl⟩)

end NameMap

end WorkerFleet
