/-!
# Maps keyed by names

A `NameMap` is a list of entries in strictly ascending name order, so two maps with the
same entries are equal, and whoever walks a map meets the names in that order. Names are
ordered by code points.

Main statements: `get?_upsert` says what a write changes, `mem_entries` that the entries
are exactly what reading finds, and `ext` that reading decides equality.
-/

namespace WorkerFleet

universe u v

/-- A finite map from names to values. -/
structure NameMap (α : Type u) where
  entries : List (String × α)
  ascending : entries.Pairwise fun a b => a.1 < b.1

namespace NameMap
variable {α : Type u} {β : Type v}

def empty : NameMap α := ⟨[], .nil⟩

instance : Inhabited (NameMap α) := ⟨empty⟩

instance : EmptyCollection (NameMap α) := ⟨empty⟩

instance [DecidableEq α] : DecidableEq (NameMap α) := fun a b =>
  decidable_of_iff (a.entries = b.entries) (by cases a; cases b; simp)

def get? (m : NameMap α) (name : String) : Option α :=
  (m.entries.find? fun e => e.1 == name).map (·.2)

def contains (m : NameMap α) (name : String) : Bool := (m.get? name).isSome

def keys (m : NameMap α) : List String := m.entries.map (·.1)

def values (m : NameMap α) : List α := m.entries.map (·.2)

def size (m : NameMap α) : Nat := m.entries.length

def isEmpty (m : NameMap α) : Bool := m.entries.isEmpty

/-- Writes `f` of the present value, if any, under `name`. -/
def upsertEntry (name : String) (f : Option α → α) : List (String × α) → List (String × α)
  | [] => [(name, f none)]
  | (k, v) :: rest =>
    if name < k then (name, f none) :: (k, v) :: rest
    else if name = k then (k, f (some v)) :: rest
    else (k, v) :: upsertEntry name f rest

theorem mem_upsertEntry_key {name : String} {f : Option α → α} {es : List (String × α)}
    {e : String × α} (h : e ∈ upsertEntry name f es) : e.1 = name ∨ ∃ e' ∈ es, e.1 = e'.1 := by
  induction es with
  | nil => simp [upsertEntry] at h; simp [h]
  | cons a rest ih =>
    obtain ⟨k, v⟩ := a
    unfold upsertEntry at h
    split at h
    · rcases List.mem_cons.1 h with rfl | h
      · exact .inl rfl
      · exact .inr ⟨e, h, rfl⟩
    · split at h
      · rcases List.mem_cons.1 h with rfl | h
        · exact .inr ⟨(k, v), by simp⟩
        · exact .inr ⟨e, by simp [h]⟩
      · rcases List.mem_cons.1 h with rfl | h
        · exact .inr ⟨(k, v), by simp⟩
        · rcases ih h with h | ⟨e', he', h⟩
          · exact .inl h
          · exact .inr ⟨e', by simp [he'], h⟩

theorem lt_of_not_lt_of_ne {a b : String} (h : ¬ a < b) (hne : a ≠ b) : b < a := by
  refine String.not_le.1 fun hle => hne ?_
  exact String.le_antisymm hle (String.not_lt.1 h)

theorem ascending_upsertEntry (name : String) (f : Option α → α) {es : List (String × α)}
    (h : es.Pairwise fun a b => a.1 < b.1) :
    (upsertEntry name f es).Pairwise fun a b => a.1 < b.1 := by
  induction es with
  | nil => simp [upsertEntry]
  | cons a rest ih =>
    obtain ⟨k, v⟩ := a
    obtain ⟨hk, hrest⟩ := List.pairwise_cons.1 h
    unfold upsertEntry
    split
    · next hlt =>
      refine List.pairwise_cons.2 ⟨fun b hb => ?_, h⟩
      rcases List.mem_cons.1 hb with rfl | hb
      · exact hlt
      · exact String.lt_trans hlt (hk b hb)
    · next hlt =>
      split
      · exact List.pairwise_cons.2 ⟨hk, hrest⟩
      · next hne =>
        refine List.pairwise_cons.2 ⟨fun b hb => ?_, ih hrest⟩
        rcases mem_upsertEntry_key hb with hb | ⟨e', he', hb⟩
        · exact hb ▸ lt_of_not_lt_of_ne hlt hne
        · exact hb ▸ hk e' he'

/-- Writes `f` of the present value, if any, under `name`. -/
def upsert (m : NameMap α) (name : String) (f : Option α → α) : NameMap α :=
  ⟨upsertEntry name f m.entries, ascending_upsertEntry name f m.ascending⟩

def insert (m : NameMap α) (name : String) (value : α) : NameMap α :=
  m.upsert name fun _ => value

/-- Writes under `name` only where nothing is. -/
def insertNew (m : NameMap α) (name : String) (value : α) : NameMap α :=
  m.upsert name fun old => old.getD value

/-- A list of entries as a map; of entries with one name the last stays. -/
def ofList (es : List (String × α)) : NameMap α :=
  es.foldl (fun m e => m.insert e.1 e.2) empty

/-- Keeps, under their names, the values that `f` answers. -/
def filterMap (f : String → α → Option β) (m : NameMap α) : NameMap β where
  entries := m.entries.filterMap fun e => (f e.1 e.2).map (e.1, ·)
  ascending := by
    refine List.Pairwise.filterMap _ (fun a b hab a' ha b' hb => ?_) m.ascending
    simp only [Option.map_eq_some_iff] at ha hb
    obtain ⟨_, _, rfl⟩ := ha
    obtain ⟨_, _, rfl⟩ := hb
    exact hab

def map (f : α → β) (m : NameMap α) : NameMap β := m.filterMap fun _ v => some (f v)

/-- Changes the value under `name`, if there is one. -/
def adjust (m : NameMap α) (name : String) (f : α → α) : NameMap α :=
  m.filterMap fun k v => some (if k = name then f v else v)

def erase (m : NameMap α) (name : String) : NameMap α :=
  m.filterMap fun k v => if k = name then none else some v

theorem find?_upsertEntry (name key : String) (f : Option α → α) (es : List (String × α))
    (h : es.Pairwise fun a b => a.1 < b.1) :
    ((upsertEntry name f es).find? fun e => e.1 == key).map (·.2) =
      if name = key then some (f ((es.find? fun e => e.1 == key).map (·.2)))
      else (es.find? fun e => e.1 == key).map (·.2) := by
  induction es with
  | nil => by_cases hk : name = key <;> simp [upsertEntry, hk]
  | cons a rest ih =>
    obtain ⟨k, v⟩ := a
    obtain ⟨hlt, hrest⟩ := List.pairwise_cons.1 h
    unfold upsertEntry
    split
    · next hnk =>
      by_cases hk : name = key
      · subst hk
        have hmiss : ((k, v) :: rest).find? (fun e => e.1 == name) = none := by
          refine List.find?_eq_none.2 fun e he => ?_
          have : name < e.1 := by
            rcases List.mem_cons.1 he with rfl | he
            · exact hnk
            · exact String.lt_trans hnk (hlt e he)
          simp only [beq_iff_eq]
          intro heq
          rw [heq] at this
          exact String.lt_irrefl name this
        rw [hmiss]
        simp
      · simp [hk]
    · split
      · next heq =>
        subst heq
        by_cases hk : name = key <;> simp [hk]
      · next hnk hne =>
        by_cases hk : k = key
        · have : name ≠ key := by rintro rfl; exact hne hk.symm
          simp [hk, this]
        · rw [List.find?_cons_of_neg (by simpa using hk),
            List.find?_cons_of_neg (by simpa using hk)]
          exact ih hrest

@[simp] theorem get?_empty (name : String) : (empty : NameMap α).get? name = none := rfl

theorem get?_upsert (m : NameMap α) (name key : String) (f : Option α → α) :
    (m.upsert name f).get? key = if name = key then some (f (m.get? key)) else m.get? key :=
  find?_upsertEntry name key f m.entries m.ascending

theorem get?_insert (m : NameMap α) (name key : String) (value : α) :
    (m.insert name value).get? key = if name = key then some value else m.get? key :=
  get?_upsert m name key _

/-- The entries are exactly what reading finds. -/
theorem mem_entries {m : NameMap α} {name : String} {value : α} :
    (name, value) ∈ m.entries ↔ m.get? name = some value := by
  obtain ⟨es, h⟩ := m
  simp only [get?]
  induction es with
  | nil => simp
  | cons a rest ih =>
    obtain ⟨k, v⟩ := a
    obtain ⟨hlt, hrest⟩ := List.pairwise_cons.1 h
    by_cases hk : k = name
    · subst hk
      have hno : ∀ w, (k, w) ∉ rest := fun w hw => String.lt_irrefl k (hlt _ hw)
      simp [hno, eq_comm]
    · rw [List.find?_cons_of_neg (by simpa using hk), ← ih hrest]
      have : name ≠ k := fun h => hk h.symm
      simp [this]

theorem get?_filterMap (f : String → α → Option β) (m : NameMap α) (name : String) :
    (m.filterMap f).get? name = (m.get? name).bind (f name) := by
  refine Option.ext fun b => ?_
  rw [← mem_entries, Option.bind_eq_some_iff]
  simp only [filterMap, List.mem_filterMap, Option.map_eq_some_iff]
  constructor
  · rintro ⟨⟨k, v⟩, he, c, hc, heq⟩
    cases heq
    exact ⟨v, mem_entries.1 he, hc⟩
  · rintro ⟨v, hv, hb⟩
    exact ⟨(name, v), mem_entries.2 hv, b, hb, rfl⟩

/-- Two maps in which reading finds the same are equal. -/
theorem ext {a b : NameMap α} (h : ∀ name, a.get? name = b.get? name) : a = b := by
  have key : ∀ e, e ∈ a.entries ↔ e ∈ b.entries := fun e => by
    obtain ⟨k, v⟩ := e
    rw [mem_entries, mem_entries, h]
  have hperm : a.entries.Perm b.entries := by
    have nodup : ∀ m : NameMap α, m.entries.Nodup := fun m => by
      refine List.Pairwise.imp (fun {x y} hxy => ?_) m.ascending
      rintro rfl
      exact String.lt_irrefl x.1 hxy
    exact (List.perm_ext_iff_of_nodup (nodup a) (nodup b)).2 key
  have heq : a.entries = b.entries :=
    hperm.eq_of_pairwise (fun x y _ _ hxy hyx =>
      absurd (String.lt_trans hxy hyx) (String.lt_irrefl x.1)) a.ascending b.ascending
  cases a; cases b; simp_all

end NameMap

end WorkerFleet
