import Mathlib.Data.List.Basic

/-!
# A ledger of handles and resources

A trace records when a handle gets a value and when it is read, when a resource is acquired and when
its release is attempted. A lifetime has a setup, some use that only reads handles, and a teardown.
It is safe if no handle is read before it has a value, and if what is released is what was
acquired, in reverse order.
-/

namespace LayerPingPong.Ledger

inductive Entry (Handle Resource : Type) where
  | assign (handle : Handle)
  | read (handle : Handle)
  | acquire (resource : Resource)
  | release (resource : Resource)
  deriving DecidableEq, Repr

variable {Handle Resource : Type}

@[simp]
def Entry.assigned : Entry Handle Resource → Option Handle
  | .assign handle => some handle
  | _ => none

@[simp]
def Entry.acquired : Entry Handle Resource → Option Resource
  | .acquire resource => some resource
  | _ => none

@[simp]
def Entry.released : Entry Handle Resource → Option Resource
  | .release resource => some resource
  | _ => none

/-- What the entries of a trace say, in order. -/
def collect {Value : Type} (value : Entry Handle Resource → Option Value)
    (trace : List (Entry Handle Resource)) : List Value := trace.filterMap value

/-- What follows a call that may fail and leave the function. -/
def guarded (succeeds : Bool) (rest : List (Entry Handle Resource)) :
    List (Entry Handle Resource) := if succeeds then rest else []

/-- What follows a call that may fail and does not leave the function. -/
def acquireIf (succeeds : Bool) (resource : Resource) (rest : List (Entry Handle Resource)) :
    List (Entry Handle Resource) := if succeeds then .acquire resource :: rest else rest

/-- Every handle read is among the known ones or has been assigned before. -/
def ReadsAssigned : List Handle → List (Entry Handle Resource) → Prop
  | _, [] => True
  | known, .read handle :: trace => handle ∈ known ∧ ReadsAssigned known trace
  | known, .assign handle :: trace => ReadsAssigned (known ++ [handle]) trace
  | known, .acquire _ :: trace | known, .release _ :: trace => ReadsAssigned known trace

instance ReadsAssigned.decidable [DecidableEq Handle] (known : List Handle)
    (trace : List (Entry Handle Resource)) : Decidable (ReadsAssigned known trace) :=
  match trace with
  | [] => inferInstanceAs (Decidable True)
  | .read handle :: trace =>
    haveI := ReadsAssigned.decidable known trace
    inferInstanceAs (Decidable (handle ∈ known ∧ ReadsAssigned known trace))
  | .assign handle :: trace => ReadsAssigned.decidable (known ++ [handle]) trace
  | .acquire _ :: trace | .release _ :: trace => ReadsAssigned.decidable known trace

/-- The resources are released exactly once each, the last one acquired first. -/
def Settled (trace : List (Entry Handle Resource)) : Prop :=
  collect Entry.released trace = (collect Entry.acquired trace).reverse

instance [DecidableEq Resource] (trace : List (Entry Handle Resource)) :
    Decidable (Settled trace) := inferInstanceAs (Decidable (_ = _))

/-- The resource is acquired and never released. -/
def Leaks (trace : List (Entry Handle Resource)) (resource : Resource) : Prop :=
  resource ∈ collect Entry.acquired trace ∧ resource ∉ collect Entry.released trace

structure Safe (trace : List (Entry Handle Resource)) : Prop where
  reads : ReadsAssigned [] trace
  settled : Settled trace

section Simp

section Collect

variable {Value : Type} (value : Entry Handle Resource → Option Value)
  {trace rest : List (Entry Handle Resource)} {resource : Resource} {succeeds : Bool}

@[simp]
theorem collect_nil : collect value [] = [] := rfl

@[simp]
theorem collect_cons (entry : Entry Handle Resource) :
    collect value (entry :: trace) = (value entry).toList ++ collect value trace := by
  unfold collect
  cases hvalue : value entry with
  | none => rw [List.filterMap_cons_none hvalue]; rfl
  | some result => rw [List.filterMap_cons_some hvalue]; rfl

@[simp]
theorem collect_append (first second : List (Entry Handle Resource)) :
    collect value (first ++ second) = collect value first ++ collect value second :=
  List.filterMap_append

@[simp]
theorem collect_guarded :
    collect value (guarded succeeds rest) = if succeeds then collect value rest else [] := by
  cases succeeds <;> rfl

@[simp]
theorem collect_acquireIf :
    collect value (acquireIf succeeds resource rest) =
      if succeeds then (value (.acquire resource)).toList ++ collect value rest
      else collect value rest := by
  cases succeeds with
  | false => rfl
  | true => exact collect_cons value _

end Collect

variable {known : List Handle} {trace rest : List (Entry Handle Resource)} {handle : Handle}
  {resource : Resource} {succeeds : Bool}

@[simp]
theorem readsAssigned_nil : ReadsAssigned known ([] : List (Entry Handle Resource)) := trivial

@[simp]
theorem readsAssigned_read :
    ReadsAssigned known (.read handle :: trace) ↔ handle ∈ known ∧ ReadsAssigned known trace :=
  Iff.rfl

@[simp]
theorem readsAssigned_assign :
    ReadsAssigned known (.assign handle :: trace) ↔ ReadsAssigned (known ++ [handle]) trace :=
  Iff.rfl

@[simp]
theorem readsAssigned_acquire :
    ReadsAssigned known (.acquire resource :: trace) ↔ ReadsAssigned known trace := Iff.rfl

@[simp]
theorem readsAssigned_release :
    ReadsAssigned known (.release resource :: trace) ↔ ReadsAssigned known trace := Iff.rfl

@[simp]
theorem readsAssigned_guarded :
    ReadsAssigned known (guarded succeeds rest) ↔ (succeeds = true → ReadsAssigned known rest) := by
  cases succeeds with
  | false => simp [guarded]
  | true => simp [guarded]

@[simp]
theorem readsAssigned_acquireIf :
    ReadsAssigned known (acquireIf succeeds resource rest) ↔ ReadsAssigned known rest := by
  cases succeeds <;> exact Iff.rfl

end Simp

theorem readsAssigned_append {known : List Handle} {first second : List (Entry Handle Resource)} :
    ReadsAssigned known (first ++ second) ↔
      ReadsAssigned known first ∧ ReadsAssigned (known ++ collect Entry.assigned first) second := by
  induction first generalizing known with
  | nil =>
    rw [List.nil_append, collect_nil, List.append_nil]
    exact (and_iff_right trivial).symm
  | cons entry first ih =>
    cases entry with
    | assign handle =>
      change ReadsAssigned (known ++ [handle]) (first ++ second) ↔ _
      rw [ih, List.append_assoc]
      rfl
    | read handle =>
      change handle ∈ known ∧ ReadsAssigned known (first ++ second) ↔ _
      rw [ih, ← and_assoc]
      rfl
    | acquire resource | release resource =>
      change ReadsAssigned known (first ++ second) ↔ _
      rw [ih]
      rfl

theorem readsAssigned_of_forall_mem {known : List Handle} (h : ∀ handle, handle ∈ known)
    (trace : List (Entry Handle Resource)) : ReadsAssigned known trace := by
  induction trace generalizing known with
  | nil => trivial
  | cons entry trace ih =>
    cases entry with
    | assign handle => exact ih fun other ↦ List.mem_append_left [handle] (h other)
    | read handle => exact ⟨h handle, ih h⟩
    | acquire resource | release resource => exact ih h

/-- Nothing but reads of these handles. -/
def ReadsOnly (handles : List Handle) (trace : List (Entry Handle Resource)) : Prop :=
  ∀ entry ∈ trace, ∃ handle ∈ handles, entry = .read handle

theorem ReadsOnly.flatMap {Part : Type} {handles : List Handle} {parts : List Part}
    {trace : Part → List (Entry Handle Resource)} (h : ∀ part, ReadsOnly handles (trace part)) :
    ReadsOnly handles (parts.flatMap trace) := by
  intro entry hentry
  obtain ⟨part, -, hmem⟩ := List.mem_flatMap.mp hentry
  exact h part entry hmem

theorem readsOnly_map {handles reads : List Handle} (h : reads ⊆ handles) :
    ReadsOnly handles (reads.map Entry.read : List (Entry Handle Resource)) := by
  intro entry hentry
  obtain ⟨handle, hhandle, rfl⟩ := List.mem_map.mp hentry
  exact ⟨handle, h hhandle, rfl⟩

theorem ReadsOnly.collect_eq_nil {Value : Type} {handles : List Handle}
    {trace : List (Entry Handle Resource)} (h : ReadsOnly handles trace)
    {value : Entry Handle Resource → Option Value} (hvalue : ∀ handle, value (.read handle) = none) :
    collect value trace = [] := by
  rw [collect, List.filterMap_eq_nil_iff]
  intro entry hentry
  obtain ⟨handle, -, rfl⟩ := h entry hentry
  exact hvalue handle

/-- A lifetime whose use only reads handles is judged by its setup and its teardown, as far as the
resources go. -/
theorem safe_lifetime_iff {handles : List Handle} {setup use teardown : List (Entry Handle Resource)}
    (huse : ReadsOnly handles use) (hteardown : collect Entry.acquired teardown = [])
    (hsetup : collect Entry.released setup = []) :
    Safe (setup ++ use ++ teardown) ↔
      ReadsAssigned [] setup ∧ ReadsAssigned (collect Entry.assigned setup) use ∧
        ReadsAssigned (collect Entry.assigned setup) teardown ∧
        collect Entry.released teardown = (collect Entry.acquired setup).reverse := by
  have hassigned : collect Entry.assigned use = [] := huse.collect_eq_nil fun _ ↦ rfl
  have hacquired : collect Entry.acquired use = [] := huse.collect_eq_nil fun _ ↦ rfl
  have hreleased : collect Entry.released use = [] := huse.collect_eq_nil fun _ ↦ rfl
  have hreads : ReadsAssigned [] (setup ++ use ++ teardown) ↔
      ReadsAssigned [] setup ∧ ReadsAssigned (collect Entry.assigned setup) use ∧
        ReadsAssigned (collect Entry.assigned setup) teardown := by
    rw [readsAssigned_append, readsAssigned_append, collect_append, hassigned,
      List.append_nil, List.nil_append, and_assoc]
  have hsettled : Settled (setup ++ use ++ teardown) ↔
      collect Entry.released teardown = (collect Entry.acquired setup).reverse := by
    unfold Settled
    rw [collect_append, collect_append, collect_append, collect_append,
      hsetup, hreleased, hacquired, hteardown, List.append_nil, List.append_nil, List.nil_append,
      List.append_nil]
  constructor
  · intro h
    obtain ⟨hfirst, hsecond, hthird⟩ := hreads.mp h.reads
    exact ⟨hfirst, hsecond, hthird, hsettled.mp h.settled⟩
  · intro h
    exact ⟨hreads.mpr ⟨h.1, h.2.1, h.2.2.1⟩, hsettled.mpr h.2.2.2⟩

/-- If the setup gives every handle a value, only the resources matter. -/
theorem safe_lifetime_iff_settled {handles : List Handle}
    {setup use teardown : List (Entry Handle Resource)} (huse : ReadsOnly handles use)
    (hteardown : collect Entry.acquired teardown = [])
    (hsetup : collect Entry.released setup = []) (hreads : ReadsAssigned [] setup)
    (hassigned : ∀ handle, handle ∈ collect Entry.assigned setup) :
    Safe (setup ++ use ++ teardown) ↔
      collect Entry.released teardown = (collect Entry.acquired setup).reverse := by
  rw [safe_lifetime_iff huse hteardown hsetup]
  constructor
  · intro h
    exact h.2.2.2
  · intro h
    exact ⟨hreads, readsAssigned_of_forall_mem hassigned use,
      readsAssigned_of_forall_mem hassigned teardown, h⟩

end LayerPingPong.Ledger
