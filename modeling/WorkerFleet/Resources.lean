import WorkerFleet.Quantity

/-!
# Resources

A cpu/gpu/memory triple, compared and combined dimension by dimension. Memory is counted
in MiB.
-/

namespace WorkerFleet

inductive Dimension where
  | cpu
  | gpu
  | mem
deriving DecidableEq, Repr

namespace Dimension

def all : List Dimension := [cpu, gpu, mem]

def name : Dimension → String
  | cpu => "cpu"
  | gpu => "gpu"
  | mem => "mem"

theorem mem_all (d : Dimension) : d ∈ all := by cases d <;> simp [all]

end Dimension

@[ext] structure Resources (K : Type) where
  cpu : K
  gpu : K
  mem : K
deriving DecidableEq, Repr

namespace Resources
variable {K : Type}

def get (r : Resources K) : Dimension → K
  | .cpu => r.cpu
  | .gpu => r.gpu
  | .mem => r.mem

/-- The triple with `f d` in dimension `d`. -/
def ofDimensions (f : Dimension → K) : Resources K := ⟨f .cpu, f .gpu, f .mem⟩

@[simp] theorem get_ofDimensions (f : Dimension → K) (d : Dimension) :
    (ofDimensions f).get d = f d := by cases d <;> rfl

theorem ext_get {a b : Resources K} (h : ∀ d, a.get d = b.get d) : a = b :=
  Resources.ext (h .cpu) (h .gpu) (h .mem)

variable [Quantity K]

def zero : Resources K := ofDimensions fun _ => Quantity.zero

instance : Add (Resources K) := ⟨fun a b => ofDimensions fun d => a.get d + b.get d⟩

instance : Sub (Resources K) := ⟨fun a b => ofDimensions fun d => a.get d - b.get d⟩

/-- What is left of `a` after `b`, no dimension below zero. -/
def leftAfter (a b : Resources K) : Resources K :=
  ofDimensions fun d => Quantity.positivePart (a.get d - b.get d)

def fitsWithin (r available : Resources K) : Bool :=
  Dimension.all.all fun d => Quantity.le (r.get d) (available.get d)

def lacking (r available : Resources K) : List Dimension :=
  Dimension.all.filter fun d => Quantity.lt (available.get d) (r.get d)

def isPositive (r : Resources K) : Bool :=
  Dimension.all.any fun d => Quantity.isPositive (r.get d)

def sum (rs : List (Resources K)) : Resources K := rs.foldl (· + ·) zero

@[simp] theorem get_zero (d : Dimension) : (zero : Resources K).get d = Quantity.zero :=
  get_ofDimensions _ d

@[simp] theorem get_add (a b : Resources K) (d : Dimension) :
    (a + b).get d = a.get d + b.get d := get_ofDimensions _ d

@[simp] theorem get_sub (a b : Resources K) (d : Dimension) :
    (a - b).get d = a.get d - b.get d := get_ofDimensions _ d

@[simp] theorem get_leftAfter (a b : Resources K) (d : Dimension) :
    (a.leftAfter b).get d = Quantity.positivePart (a.get d - b.get d) := get_ofDimensions _ d

theorem fitsWithin_iff {r available : Resources K} :
    r.fitsWithin available = true ↔ ∀ d, Quantity.le (r.get d) (available.get d) = true := by
  rw [fitsWithin, List.all_eq_true]
  exact ⟨fun h d => h d d.mem_all, fun h d _ => h d⟩

theorem mem_lacking {r available : Resources K} {d : Dimension} :
    d ∈ r.lacking available ↔ Quantity.lt (available.get d) (r.get d) = true := by
  simp [lacking, d.mem_all]

theorem isPositive_iff {r : Resources K} :
    r.isPositive = true ↔ ∃ d, Quantity.isPositive (r.get d) = true := by
  rw [isPositive, List.any_eq_true]
  exact ⟨fun ⟨d, _, h⟩ => ⟨d, h⟩, fun ⟨d, h⟩ => ⟨d, d.mem_all, h⟩⟩

end Resources

end WorkerFleet
