/-!
# Taking the first fitting item

Supply is handed out by taking, from a list in priority order, the first item that fits.
Main statement: `takeFirst?_eq_some_iff` splits the list around the item that is taken.
-/

namespace WorkerFleet

universe u
variable {α : Type u}

/-- The first item with `p`, and the list without it. -/
def takeFirst? (p : α → Bool) : List α → Option (α × List α)
  | [] => none
  | x :: xs => if p x then some (x, xs) else (takeFirst? p xs).map fun (y, rest) => (y, x :: rest)

theorem takeFirst?_eq_none_iff {p : α → Bool} {xs : List α} :
    takeFirst? p xs = none ↔ ∀ x ∈ xs, p x = false := by
  induction xs with
  | nil => simp [takeFirst?]
  | cons x xs ih => cases hx : p x <;> simp [takeFirst?, hx, ih]

theorem takeFirst?_eq_some_iff {p : α → Bool} {xs rest : List α} {y : α} :
    takeFirst? p xs = some (y, rest) ↔
      ∃ before after, xs = before ++ y :: after ∧ rest = before ++ after ∧ p y = true ∧
        ∀ x ∈ before, p x = false := by
  induction xs generalizing rest with
  | nil => simp [takeFirst?]
  | cons x xs ih =>
    cases hx : p x with
    | true =>
      simp only [takeFirst?, hx, if_true, Option.some.injEq, Prod.mk.injEq]
      constructor
      · rintro ⟨rfl, rfl⟩
        exact ⟨[], xs, by simp [hx]⟩
      · rintro ⟨before, after, heq, rfl, _, hb⟩
        cases before with
        | nil => simpa using heq
        | cons b bs =>
          obtain ⟨rfl, _⟩ := List.cons.inj heq
          simp [hb x (by simp)] at hx
    | false =>
      simp only [takeFirst?, hx, Bool.false_eq_true, if_false, Option.map_eq_some_iff]
      constructor
      · rintro ⟨⟨z, zs⟩, hz, heq⟩
        obtain ⟨rfl, rfl⟩ := Prod.mk.inj heq
        obtain ⟨before, after, rfl, rfl, hp, hb⟩ := ih.1 hz
        exact ⟨x :: before, after, by simp, by simp, hp, by simpa [hx] using hb⟩
      · rintro ⟨before, after, heq, rfl, hp, hb⟩
        cases before with
        | nil =>
          obtain ⟨rfl, _⟩ := List.cons.inj heq
          simp [hp] at hx
        | cons b bs =>
          obtain ⟨rfl, rfl⟩ := List.cons.inj heq
          exact ⟨(y, bs ++ after), ih.2 ⟨bs, after, rfl, rfl, hp, fun z hz => hb z (by simp [hz])⟩,
            rfl⟩

theorem perm_of_takeFirst? {p : α → Bool} {xs rest : List α} {y : α}
    (h : takeFirst? p xs = some (y, rest)) : xs.Perm (y :: rest) := by
  obtain ⟨before, after, rfl, rfl, -, -⟩ := takeFirst?_eq_some_iff.1 h
  exact List.perm_middle

theorem filter_eq_cons_of_takeFirst? {p : α → Bool} {xs rest : List α} {y : α}
    (h : takeFirst? p xs = some (y, rest)) : xs.filter p = y :: rest.filter p := by
  obtain ⟨before, after, rfl, rfl, hy, hbefore⟩ := takeFirst?_eq_some_iff.1 h
  have hnone : before.filter p = [] := List.filter_eq_nil_iff.2 (by simpa using hbefore)
  rw [List.filter_append, List.filter_append, hnone, List.filter_cons_of_pos hy]
  rfl

theorem filter_eq_of_takeFirst? {p q : α → Bool} {xs rest : List α} {y : α}
    (h : takeFirst? p xs = some (y, rest)) (hy : q y = false) : xs.filter q = rest.filter q := by
  obtain ⟨before, after, rfl, rfl, -, -⟩ := takeFirst?_eq_some_iff.1 h
  rw [List.filter_append, List.filter_append, List.filter_cons_of_neg (by simp [hy])]

theorem takeFirst?_map {β : Type u} {p : α → Bool} {q : β → Bool} {f : α → β}
    (h : ∀ x, q (f x) = p x) (xs : List α) :
    takeFirst? q (xs.map f) = (takeFirst? p xs).map fun e => (f e.1, e.2.map f) := by
  induction xs with
  | nil => rfl
  | cons x xs ih =>
    cases hx : p x with
    | true => simp [takeFirst?, h, hx]
    | false => cases ht : takeFirst? p xs <;> simp [takeFirst?, h, hx, ih, ht]

/-- The later list is looked through only where the earlier one has nothing. -/
theorem takeFirst?_append (p : α → Bool) (xs ys : List α) :
    takeFirst? p (xs ++ ys) =
      match takeFirst? p xs with
      | some (y, rest) => some (y, rest ++ ys)
      | none => (takeFirst? p ys).map fun e => (e.1, xs ++ e.2) := by
  induction xs with
  | nil => cases h : takeFirst? p ys <;> simp [takeFirst?, h]
  | cons x xs ih =>
    cases hx : p x with
    | true => simp [takeFirst?, hx]
    | false =>
      cases h : takeFirst? p xs <;> simp [takeFirst?, hx, ih, h, Function.comp_def]

end WorkerFleet
