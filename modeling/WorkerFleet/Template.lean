import WorkerFleet.Memory
import WorkerFleet.NameMap

/-!
# Templates and requests

A template says how an algorithm is run; a request asks for one run of it. Requests travel
as a list, the highest priority first.
-/

namespace WorkerFleet

/-- A Unix time, or a span of time, in milliseconds. -/
abbrev Millis := UInt64

/-- Milliseconds from `start` to `now`, none where `start` lies ahead. -/
def Millis.since (now start : Millis) : Nat := now.toNat - start.toNat

structure Request where
  algorithm : String
  /-- Asks for a worker that is kept warm. -/
  hot : Bool
  enqueuedAt : Millis
deriving DecidableEq, Repr

/-- A request that stands for a warm worker of `algorithm`. -/
def Request.forHot (algorithm : String) : Request := ⟨algorithm, true, 0⟩

/-- Resource requests as written down; what is left out is taken from a fallback. -/
structure ResourceSpec (K : Type) where
  cpu : Option K
  gpu : Option K
  /-- A memory quantity such as `256Mi`. -/
  mem : Option String
deriving DecidableEq, Repr

/-- Every dimension is finite and not below zero. -/
def Resources.isRequest {K : Type} [Quantity K] (r : Resources K) : Bool :=
  Dimension.all.all fun d => !Quantity.lt (r.get d) Quantity.zero && Quantity.isFinite (r.get d)

namespace ResourceSpec
variable {K : Type}

def empty : ResourceSpec K := ⟨none, none, none⟩

variable [Quantity K]

def check (r : Resources K) : Except (ResourceError K) (Resources K) :=
  match Dimension.all.find? fun d =>
      Quantity.lt (r.get d) Quantity.zero || !Quantity.isFinite (r.get d) with
  | some d => .error (.invalidRequest d (r.get d))
  | none => .ok r

/-- The quantities that `spec` stands for, gaps filled from `fallback` and then with zero. -/
def resolve (spec fallback : ResourceSpec K) : Except (ResourceError K) (Resources K) :=
  let cpu := (spec.cpu <|> fallback.cpu).getD Quantity.zero
  let gpu := (spec.gpu <|> fallback.gpu).getD Quantity.zero
  match spec.mem <|> fallback.mem with
  | none => check ⟨cpu, gpu, Quantity.zero⟩
  | some text =>
    match Memory.parse text with
    | .ok mem => check ⟨cpu, gpu, mem⟩
    | .error e => .error e

theorem check_eq_ok_iff {r s : Resources K} : check r = .ok s ↔ r = s ∧ r.isRequest = true := by
  have hfind : Dimension.all.find? (fun d =>
      Quantity.lt (r.get d) Quantity.zero || !Quantity.isFinite (r.get d)) = none ↔
      r.isRequest = true := by
    rw [List.find?_eq_none, Resources.isRequest, List.all_eq_true]
    refine forall_congr' fun d => forall_congr' fun _ => ?_
    cases Quantity.lt (r.get d) Quantity.zero <;> cases Quantity.isFinite (r.get d) <;> simp
  unfold check
  split
  · next d h => simp [← hfind, h]
  · next h => simp [hfind.1 h]

theorem isRequest_of_resolve {spec fallback : ResourceSpec K} {r : Resources K}
    (h : spec.resolve fallback = .ok r) : r.isRequest = true := by
  unfold resolve at h
  split at h
  · obtain ⟨rfl, hr⟩ := check_eq_ok_iff.1 h; exact hr
  · split at h
    · obtain ⟨rfl, hr⟩ := check_eq_ok_iff.1 h; exact hr
    · cases h

end ResourceSpec

structure Mount where
  name : String
  path : String
deriving DecidableEq, Repr

structure TemplateOptions where
  /-- Debug algorithms are run by hand; their workers are never reclaimed. -/
  debug : Bool
deriving DecidableEq, Repr

structure Template (K : Type) where
  name : String
  algorithmImage : String
  /-- Replaces the default worker image. -/
  workerImage : Option String
  resources : ResourceSpec K
  algorithmEnv : NameMap String
  workerEnv : NameMap String
  nodeSelector : NameMap String
  mounts : List Mount
  entryPoint : Option String
  options : TemplateOptions
  /-- Workers kept warm even without requests. -/
  minHotWorkers : UInt32
deriving DecidableEq

/-- Templates under the names by which requests ask for them. -/
abbrev Templates (K : Type) := NameMap (Template K)

def Templates.OwnNames {K : Type} (templates : Templates K) : Prop :=
  ∀ name template, templates.get? name = some template → template.name = name

namespace Templates
variable {K : Type} {templates : Templates K}

theorem ownNames_iff : templates.OwnNames ↔ ∀ e ∈ templates.entries, e.2.name = e.1 := by
  constructor
  · intro h e he
    exact h e.1 e.2 (NameMap.mem_entries.1 he)
  · intro h name template htemplate
    exact h (name, template) (NameMap.mem_entries.2 htemplate)

instance : Decidable templates.OwnNames := decidable_of_iff _ ownNames_iff.symm

end Templates

end WorkerFleet
