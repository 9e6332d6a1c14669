import WorkerFleet.Proofs.JobNames
import WorkerFleet.Proofs.Sample

/-!
# Orders to one factory

A factory is asked for one job after the other, from any templates and configurations and at
any times. Some of the orders fail. The jobs that are made are numbered without gaps, so no two
have one name, and an order that fails might as well not have been given (`made_namesApart`).
-/

namespace WorkerFleet

/-- What a factory is told about one job. -/
structure JobOrder (K : Type) where
  template : Template K
  request : Request
  config : Config K
  now : Millis

namespace JobFactory
variable {K : Type} [Quantity K]

def fill (factory : JobFactory) (order : JobOrder K) :
    Except (TemplateError K) (JobSpec K) × JobFactory :=
  factory.build order.template order.request order.config order.now

def after (factory : JobFactory) (orders : List (JobOrder K)) : JobFactory :=
  orders.foldl (fun f order => (f.fill order).2) factory

def made (factory : JobFactory) : List (JobOrder K) → List (JobSpec K)
  | [] => []
  | order :: rest =>
    (factory.fill order).1.toOption.toList ++ (factory.fill order).2.made rest

/-- What a factory makes of orders, whichever of them fail. -/
structure NamesApart (factory : JobFactory) (orders : List (JobOrder K)) : Prop where
  distinct : (factory.made orders).Pairwise fun a b => a.name ≠ b.name
  /-- The numbers fit a word of 64 bits. -/
  counted : (factory.after orders).next < Nat.pow 2 64
  unchanged : ∀ before order later e, orders = before ++ order :: later →
    ((factory.after before).fill order).1 = .error e →
      factory.after (before ++ [order]) = factory.after before ∧
        factory.made orders = factory.made (before ++ later)

variable {factory : JobFactory} {order : JobOrder K}

/-- An order fails and changes nothing, or its job takes the next number. -/
theorem fill_cases (factory : JobFactory) (order : JobOrder K) :
    (∃ e, factory.fill order = (.error e, factory)) ∨
      ∃ spec, factory.fill order = (.ok spec, ⟨factory.next + 1⟩) ∧
        spec.name = jobName order.template.name order.now factory.next := by
  cases hfill : factory.fill order with
  | mk built later =>
    cases built with
    | error e =>
      obtain rfl := build_error hfill
      exact .inl ⟨e, rfl⟩
    | ok spec =>
      obtain ⟨hname, _, _, hnext⟩ := build_ok hfill
      refine .inr ⟨spec, ?_, hname⟩
      rw [← hnext]

theorem fill_of_error {e : TemplateError K} (h : (factory.fill order).1 = .error e) :
    factory.fill order = (.error e, factory) := by
  rcases fill_cases factory order with ⟨e', hfill⟩ | ⟨spec, hfill, _⟩
  · rw [hfill] at h ⊢
    obtain rfl := Except.error.inj h
    rfl
  · rw [hfill] at h
    cases h

theorem after_append (factory : JobFactory) (orders later : List (JobOrder K)) :
    factory.after (orders ++ later) = (factory.after orders).after later := List.foldl_append

theorem made_append (factory : JobFactory) (orders later : List (JobOrder K)) :
    factory.made (orders ++ later) = factory.made orders ++ (factory.after orders).made later := by
  induction orders generalizing factory with
  | nil => rfl
  | cons order rest ih =>
    rw [List.cons_append, made, ih, made, List.append_assoc]
    rfl

theorem after_singleton_of_error {e : TemplateError K}
    (h : (factory.fill order).1 = .error e) : factory.after [order] = factory := by
  rw [after, List.foldl_cons, fill_of_error h]
  rfl

theorem made_cons_of_error {e : TemplateError K} (h : (factory.fill order).1 = .error e)
    (rest : List (JobOrder K)) : factory.made (order :: rest) = factory.made rest := by
  rw [made, fill_of_error h]
  rfl

/-- The jobs have the numbers from the factory's next one on, and an order uses up at most
one. -/
theorem made_numberedWithin (factory : JobFactory) (orders : List (JobOrder K)) :
    NumberedWithin factory.next (factory.after orders).next
        ((factory.made orders).map (·.name)) ∧
      (factory.after orders).next ≤ factory.next + orders.length := by
  induction orders generalizing factory with
  | nil => exact ⟨.nil (Nat.le_refl _), Nat.le_refl _⟩
  | cons order rest ih =>
    rw [after, List.foldl_cons, made, List.length_cons]
    rcases fill_cases factory order with ⟨e, hfill⟩ | ⟨spec, hfill, hname⟩
    · obtain ⟨hnumbered, hnext⟩ := ih factory
      rw [hfill]
      exact ⟨hnumbered, Nat.le_succ_of_le hnext⟩
    · obtain ⟨hnumbered, hnext⟩ := ih ⟨factory.next + 1⟩
      have hfirst := NumberedWithin.singleton order.template.name order.now factory.next
      rw [← hname] at hfirst
      rw [hfill, Nat.add_comm rest.length, ← Nat.add_assoc]
      exact ⟨hfirst.append hnumbered, hnext⟩

theorem made_namesApart (orders : List (JobOrder K)) (h : orders.length < Nat.pow 2 64) :
    NamesApart fresh orders := by
  obtain ⟨hnumbered, hnext⟩ := made_numberedWithin fresh orders
  have hfresh : fresh.next = 0 := rfl
  refine ⟨List.pairwise_map.mp hnumbered.nodup, by omega, ?_⟩
  rintro before order later e rfl hfails
  constructor
  · rw [after_append, after_singleton_of_error hfails]
  · rw [made_append, made_append, made_cons_of_error hfails]

/-- Two templates of which one is called as the other's jobs begin, and one that asks for less
than nothing, which fails. The clock goes backwards between the first and the last order. -/
def dashedOrders : List (JobOrder Float) :=
  let request : Request := ⟨"green", false, 0⟩
  [⟨.sample "green" 1, request, .default, 16⟩, ⟨.sample "green" (-1), request, .default, 16⟩,
    ⟨.sample "green-10" 1, request, .default, 1⟩, ⟨.sample "green" 1, request, .default, 1⟩]

theorem namesApart_dashedOrders :
    (fresh.made dashedOrders).map (·.name) = ["green-10-0", "green-10-1-1", "green-1-2"] ∧
      dashedOrders.length < Nat.pow 2 64 ∧ NamesApart fresh dashedOrders :=
  ⟨by decide +kernel, by decide, made_namesApart dashedOrders (by decide)⟩

end JobFactory

end WorkerFleet
