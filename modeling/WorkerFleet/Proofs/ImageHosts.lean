import Mathlib.Data.List.TakeWhile
import WorkerFleet.Job

/-!
# Images and registry hosts

An image names a host in front of its first slash, or it names none and a registry is put in
front of it. Where the registry begins with a host, the result names that host, no other
registry changes it any more, and it tells which image it was made of (`resolve_settles`).
-/

namespace WorkerFleet.Image

/-- A path segment that stands for a registry host. -/
def IsHostName (segment : List Char) : Prop :=
  '.' ∈ segment ∨ ':' ∈ segment ∨ segment = "localhost".toList

instance : DecidablePred IsHostName := fun _ => inferInstanceAs (Decidable (_ ∨ _ ∨ _))

/-- The image has a first slash and a host in front of it. -/
def NamesHost (image : List Char) : Prop :=
  ∃ host path, image = host ++ '/' :: path ∧ '/' ∉ host ∧ IsHostName host

/-- Without the slashes at its end, the registry begins with a host. -/
def BeginsWithHost (registry : String) : Prop :=
  IsHostName ((dropTrailingSlashes registry.toList).takeWhile (· != '/'))

instance : DecidablePred BeginsWithHost := fun _ => inferInstanceAs (Decidable (IsHostName _))

/-- What is resolved against the registry is resolved for good. -/
structure Settles (registry : String) : Prop where
  namesHost : ∀ image, NamesHost (resolve image (some registry)).toList
  stays : ∀ image other,
    resolve (resolve image (some registry)) other = resolve image (some registry)
  distinct : ∀ a b, ¬ NamesHost a.toList → ¬ NamesHost b.toList → a ≠ b →
    resolve a (some registry) ≠ resolve b (some registry)

theorem isHost_iff {segment : List Char} : isHost segment = true ↔ IsHostName segment := by
  rw [isHost, IsHostName, Bool.or_eq_true, Bool.or_eq_true, List.contains_iff_mem,
    List.contains_iff_mem, decide_eq_true_iff, or_assoc]

/-- A text is cut at its first `c`, if there is one. -/
theorem takeWhile_bne_cases (cs : List Char) (c : Char) :
    c ∉ cs ∧ cs.takeWhile (· != c) = cs ∨
      ∃ rest, c ∉ cs.takeWhile (· != c) ∧ cs = cs.takeWhile (· != c) ++ c :: rest := by
  have hparts := List.takeWhile_append_dropWhile (p := (· != c)) (l := cs)
  have hstop := List.head?_dropWhile_not (· != c) cs
  have hfront : c ∉ cs.takeWhile (· != c) := by
    intro hc
    exact absurd rfl (bne_iff_ne.mp (List.mem_takeWhile_imp (p := (· != c)) hc))
  cases hrest : cs.dropWhile (· != c) with
  | nil =>
    rw [hrest, List.append_nil] at hparts
    exact .inl ⟨hparts ▸ hfront, hparts⟩
  | cons d rest =>
    rw [hrest] at hstop hparts
    obtain rfl : d = c := by simpa using hstop
    exact .inr ⟨rest, hfront, hparts.symm⟩

theorem takeWhile_bne_append {host : List Char} {c : Char} (h : c ∉ host) (path : List Char) :
    (host ++ c :: path).takeWhile (· != c) = host := by
  rw [List.takeWhile_append_of_pos, List.takeWhile_cons_of_neg (by simp), List.append_nil]
  intro d hd
  exact bne_iff_ne.mpr fun heq => h (heq ▸ hd)

theorem namesHost_iff {image : List Char} : namesHost image = true ↔ NamesHost image := by
  rw [namesHost, firstSegment?]
  constructor
  · intro h
    split at h
    · next hslash =>
      rcases takeWhile_bne_cases image '/' with ⟨hnone, _⟩ | ⟨path, hfront, hpath⟩
      · exact absurd (List.contains_iff_mem.mp hslash) hnone
      · exact ⟨_, path, hpath, hfront, isHost_iff.mp h⟩
    · cases h
  · rintro ⟨host, path, rfl, hslash, hhost⟩
    rw [if_pos (List.contains_iff_mem.mpr (by simp)), takeWhile_bne_append hslash]
    exact isHost_iff.mpr hhost

theorem resolve_of_namesHost {image : String} (h : NamesHost image.toList)
    (registry : Option String) : resolve image registry = image := by
  unfold resolve
  cases registry with
  | none => rfl
  | some registry => simp [namesHost_iff.mpr h]

variable {image registry : String}

namespace BeginsWithHost

theorem isEmpty_eq_false (h : BeginsWithHost registry) : registry.isEmpty = false := by
  rw [Bool.eq_false_iff]
  intro hempty
  obtain rfl := String.isEmpty_iff.mp hempty
  revert h
  decide

/-- The registry's host is the host of what the registry is put in front of, whether the registry
goes on with a path or not. -/
theorem namesHost_append (h : BeginsWithHost registry) (path : List Char) :
    NamesHost (dropTrailingSlashes registry.toList ++ '/' :: path) := by
  unfold BeginsWithHost at h
  rcases takeWhile_bne_cases (dropTrailingSlashes registry.toList) '/' with
    ⟨hslash, hwhole⟩ | ⟨rest, hslash, hparts⟩
  · exact ⟨_, path, rfl, hslash, hwhole ▸ h⟩
  · refine ⟨_, rest ++ '/' :: path, ?_, hslash, h⟩
    rw [← List.cons_append, ← List.append_assoc, ← hparts]

theorem resolve_of_not_namesHost (hregistry : BeginsWithHost registry)
    (h : ¬ NamesHost image.toList) :
    (resolve image (some registry)).toList =
      dropTrailingSlashes registry.toList ++ '/' :: image.toList := by
  have hnone : namesHost image.toList = false := Bool.eq_false_iff.mpr (mt namesHost_iff.mp h)
  rw [resolve, hregistry.isEmpty_eq_false, hnone]
  exact String.toList_ofList

end BeginsWithHost

theorem resolve_settles (h : BeginsWithHost registry) : Settles registry := by
  have hnames : ∀ image, NamesHost (resolve image (some registry)).toList := by
    intro image
    by_cases himage : NamesHost image.toList
    · rwa [resolve_of_namesHost himage]
    · rw [h.resolve_of_not_namesHost himage]
      exact h.namesHost_append _
  refine ⟨hnames, fun image other => resolve_of_namesHost (hnames image) other, ?_⟩
  intro a b ha hb hne heq
  have hlists := congrArg String.toList heq
  rw [h.resolve_of_not_namesHost ha, h.resolve_of_not_namesHost hb] at hlists
  exact hne (String.toList_inj.mp (List.cons.inj (List.append_cancel_left hlists)).2)

/-- A registry with a port and a path, and slashes at its end. -/
theorem settles_port :
    BeginsWithHost "reg:5000/team//" ∧ Settles "reg:5000/team//" ∧
      resolve "algo/green:v1" (some "reg:5000/team//") = "reg:5000/team/algo/green:v1" :=
  ⟨by decide, resolve_settles (by decide), by decide⟩

end WorkerFleet.Image
