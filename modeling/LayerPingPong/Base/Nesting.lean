import LayerPingPong.Base.Ledger

/-!
# Nested lifetimes

An object acquires only while it is set up and releases only while it is torn down. Two objects with
handles and resources of their own are nested if the second one is set up after the first one and
torn down before it. Whatever reads happen between, the whole is safe exactly if both lifetimes are.
-/

namespace LayerPingPong.Ledger

variable {Handle Handle' Resource Resource' Value : Type}

structure Object (Handle Resource : Type) where
  setup : List (Entry Handle Resource)
  teardown : List (Entry Handle Resource)
  setup_released : collect Entry.released setup = []
  teardown_acquired : collect Entry.acquired teardown = []

/-- A lifetime in which these handles are read between setup and teardown. -/
def Object.lifetime (object : Object Handle Resource) (reads : List Handle) :
    List (Entry Handle Resource) :=
  object.setup ++ reads.map Entry.read ++ object.teardown

/-! ## The lifetime of one object -/

theorem readsAssigned_map_read {known reads : List Handle} :
    ReadsAssigned known (reads.map Entry.read : List (Entry Handle Resource)) ↔ reads ⊆ known := by
  induction reads with
  | nil => simp
  | cons handle reads ih =>
    rw [List.map_cons, readsAssigned_read, ih, List.cons_subset]

theorem collect_map_read {value : Entry Handle Resource → Option Value}
    (hvalue : ∀ handle, value (.read handle) = none) (reads : List Handle) :
    collect value (reads.map Entry.read) = [] :=
  (readsOnly_map fun _ h ↦ h).collect_eq_nil hvalue

/-- The reads and the teardown need what the setup gives a value. -/
theorem reads_lifetime_iff (object : Object Handle Resource) (reads : List Handle) :
    ReadsAssigned [] (object.lifetime reads) ↔
      ReadsAssigned [] object.setup ∧ reads ⊆ collect Entry.assigned object.setup ∧
        ReadsAssigned (collect Entry.assigned object.setup) object.teardown := by
  unfold Object.lifetime
  rw [readsAssigned_append, readsAssigned_append, readsAssigned_map_read, collect_append,
    collect_map_read fun _ ↦ rfl, List.append_nil, List.nil_append, and_assoc]

/-- What is released last has to be what was acquired first. -/
theorem settled_lifetime_iff (object : Object Handle Resource) (reads : List Handle) :
    Settled (object.lifetime reads) ↔
      collect Entry.released object.teardown = (collect Entry.acquired object.setup).reverse := by
  unfold Settled Object.lifetime
  rw [collect_append, collect_append, collect_append, collect_append, object.setup_released,
    object.teardown_acquired, collect_map_read fun _ ↦ rfl, collect_map_read fun _ ↦ rfl,
    List.append_nil, List.append_nil, List.nil_append, List.append_nil]

theorem leaks_lifetime_iff (object : Object Handle Resource) (reads : List Handle)
    (resource : Resource) :
    Leaks (object.lifetime reads) resource ↔
      resource ∈ collect Entry.acquired object.setup ∧
        resource ∉ collect Entry.released object.teardown := by
  unfold Leaks Object.lifetime
  rw [collect_append, collect_append, collect_append, collect_append, object.setup_released,
    object.teardown_acquired, collect_map_read fun _ ↦ rfl, collect_map_read fun _ ↦ rfl,
    List.append_nil, List.append_nil, List.nil_append, List.nil_append]

@[simp]
def Entry.map (handle : Handle → Handle') (resource : Resource → Resource') :
    Entry Handle Resource → Entry Handle' Resource'
  | .assign value => .assign (handle value)
  | .read value => .read (handle value)
  | .acquire value => .acquire (resource value)
  | .release value => .release (resource value)

/-- What an entry says of some of the handles and resources. -/
@[simp]
def Entry.restrict (handle : Handle → Option Handle') (resource : Resource → Option Resource') :
    Entry Handle Resource → Option (Entry Handle' Resource')
  | .assign value => (handle value).map .assign
  | .read value => (handle value).map .read
  | .acquire value => (resource value).map .acquire
  | .release value => (resource value).map .release

abbrev Entry.inl : Entry Handle Resource → Entry (Handle ⊕ Handle') (Resource ⊕ Resource') :=
  Entry.map Sum.inl Sum.inl

abbrev Entry.inr : Entry Handle' Resource' → Entry (Handle ⊕ Handle') (Resource ⊕ Resource') :=
  Entry.map Sum.inr Sum.inr

abbrev Entry.left : Entry (Handle ⊕ Handle') (Resource ⊕ Resource') →
    Option (Entry Handle Resource) := Entry.restrict Sum.getLeft? Sum.getLeft?

abbrev Entry.right : Entry (Handle ⊕ Handle') (Resource ⊕ Resource') →
    Option (Entry Handle' Resource') := Entry.restrict Sum.getRight? Sum.getRight?

/-- A selection that the renaming does not affect. -/
theorem collect_map {handle : Handle → Handle'} {resource : Resource → Resource'}
    {value : Entry Handle Resource → Option Value} {value' : Entry Handle' Resource' → Option Value}
    (h : ∀ entry, value' (entry.map handle resource) = value entry)
    (trace : List (Entry Handle Resource)) :
    collect value' (trace.map (Entry.map handle resource)) = collect value trace := by
  unfold collect
  rw [List.filterMap_map]
  apply congrArg (List.filterMap · trace)
  funext entry
  exact h entry

theorem collect_acquired_map (handle : Handle → Handle') (resource : Resource → Resource')
    (trace : List (Entry Handle Resource)) :
    collect Entry.acquired (trace.map (Entry.map handle resource)) =
      (collect Entry.acquired trace).map resource := by
  rw [collect, collect, List.map_filterMap, ← collect]
  apply collect_map
  intro entry
  cases entry <;> rfl

theorem collect_released_map (handle : Handle → Handle') (resource : Resource → Resource')
    (trace : List (Entry Handle Resource)) :
    collect Entry.released (trace.map (Entry.map handle resource)) =
      (collect Entry.released trace).map resource := by
  rw [collect, collect, List.map_filterMap, ← collect]
  apply collect_map
  intro entry
  cases entry <;> rfl

/-! ## One object inside the other -/

/-- The second object is set up after the first one and torn down before it. -/
def Object.nest (outer : Object Handle Resource) (inner : Object Handle' Resource') :
    Object (Handle ⊕ Handle') (Resource ⊕ Resource') where
  setup := outer.setup.map Entry.inl ++ inner.setup.map Entry.inr
  teardown := inner.teardown.map Entry.inr ++ outer.teardown.map Entry.inl
  setup_released := by
    rw [collect_append, collect_released_map, collect_released_map, outer.setup_released,
      inner.setup_released]
    rfl
  teardown_acquired := by
    rw [collect_append, collect_acquired_map, collect_acquired_map, outer.teardown_acquired,
      inner.teardown_acquired]
    rfl

section Parts

variable {trace : List (Entry Handle Resource)} {handle : Handle → Handle'}
  {resource : Resource → Resource'}

theorem collect_map_some
    {value : Entry Handle' Resource' → Option (Entry Handle Resource)}
    (h : ∀ entry, value (Entry.map handle resource entry) = some entry) :
    collect value (trace.map (Entry.map handle resource)) = trace :=
  (collect_map h trace).trans List.filterMap_some

theorem collect_map_none {value : Entry Handle' Resource' → Option Value}
    (h : ∀ entry, value (Entry.map handle resource entry) = none) :
    collect value (trace.map (Entry.map handle resource)) = [] :=
  (collect_map h trace).trans (List.filterMap_eq_nil_iff.mpr fun _ _ ↦ rfl)

theorem collect_restrict_read (handle : Handle → Option Handle')
    (resource : Resource → Option Resource') (reads : List Handle) :
    collect (Entry.restrict handle resource) (reads.map Entry.read) =
      (reads.filterMap handle).map Entry.read := by
  rw [collect, List.filterMap_map, List.map_filterMap]
  rfl

end Parts

/-- Each part of an entry of one object is that entry, or nothing. -/
theorem parts_inl (entry : Entry Handle Resource) :
    Entry.left (entry.inl : Entry (Handle ⊕ Handle') (Resource ⊕ Resource')) = some entry ∧
      Entry.right (entry.inl : Entry (Handle ⊕ Handle') (Resource ⊕ Resource')) = none := by
  cases entry <;> exact ⟨rfl, rfl⟩

theorem parts_inr (entry : Entry Handle' Resource') :
    Entry.left (entry.inr : Entry (Handle ⊕ Handle') (Resource ⊕ Resource')) = none ∧
      Entry.right (entry.inr : Entry (Handle ⊕ Handle') (Resource ⊕ Resource')) = some entry := by
  cases entry <;> exact ⟨rfl, rfl⟩

variable (outer : Object Handle Resource) (inner : Object Handle' Resource')
  (reads : List (Handle ⊕ Handle'))

theorem lifetime_nest_left :
    collect Entry.left ((outer.nest inner).lifetime reads) =
      outer.lifetime (reads.filterMap Sum.getLeft?) := by
  simp only [Object.lifetime, Object.nest, collect_append, collect_restrict_read,
    collect_map_some fun entry ↦ (parts_inl entry).1, collect_map_none fun entry ↦ (parts_inr entry).1,
    List.append_nil, List.nil_append]

theorem lifetime_nest_right :
    collect Entry.right ((outer.nest inner).lifetime reads) =
      inner.lifetime (reads.filterMap Sum.getRight?) := by
  simp only [Object.lifetime, Object.nest, collect_append, collect_restrict_read,
    collect_map_none fun entry ↦ (parts_inl entry).2, collect_map_some fun entry ↦ (parts_inr entry).2,
    List.append_nil, List.nil_append]

/-- The handles of two objects are given values apart from each other. -/
theorem readsAssigned_sum_iff {known : List (Handle ⊕ Handle')}
    {trace : List (Entry (Handle ⊕ Handle') (Resource ⊕ Resource'))} :
    ReadsAssigned known trace ↔
      ReadsAssigned (known.filterMap Sum.getLeft?) (collect Entry.left trace) ∧
        ReadsAssigned (known.filterMap Sum.getRight?) (collect Entry.right trace) := by
  induction trace generalizing known with
  | nil => simp
  | cons entry trace ih =>
    cases entry with
    | assign handle =>
      rw [readsAssigned_assign, ih, List.filterMap_append, List.filterMap_append]
      cases handle <;> simp [List.filterMap_cons]
    | read handle =>
      rw [readsAssigned_read, ih]
      cases handle with
      | inl handle => simp [and_assoc]
      | inr handle => simp [and_left_comm]
    | acquire resource | release resource => cases resource <;> simp [ih]

theorem settled_nest_iff :
    Settled ((outer.nest inner).lifetime reads) ↔
      Settled (outer.lifetime (reads.filterMap Sum.getLeft?)) ∧
        Settled (inner.lifetime (reads.filterMap Sum.getRight?)) := by
  rw [settled_lifetime_iff, settled_lifetime_iff, settled_lifetime_iff]
  simp only [Object.nest, collect_append, collect_acquired_map, collect_released_map,
    List.reverse_append, ← List.map_reverse]
  constructor
  · intro h
    have hleft := congrArg (List.filterMap Sum.getLeft?) h
    have hright := congrArg (List.filterMap Sum.getRight?) h
    constructor
    · simpa [List.filterMap_map, Function.comp_def] using hleft
    · simpa [List.filterMap_map, Function.comp_def] using hright
  · intro h
    rw [h.1, h.2]

/-- Nothing that one object does gives back a resource of the other. -/
theorem leaks_nest_inl_iff (resource : Resource) :
    Leaks ((outer.nest inner).lifetime reads) (.inl resource) ↔
      Leaks (outer.lifetime (reads.filterMap Sum.getLeft?)) resource := by
  rw [leaks_lifetime_iff, leaks_lifetime_iff]
  simp only [Object.nest, collect_append, collect_acquired_map, collect_released_map,
    List.mem_append, List.mem_map, Sum.inl.injEq, exists_eq_right, reduceCtorEq, and_false,
    exists_false, or_false, false_or]

theorem leaks_nest_inr_iff (resource : Resource') :
    Leaks ((outer.nest inner).lifetime reads) (.inr resource) ↔
      Leaks (inner.lifetime (reads.filterMap Sum.getRight?)) resource := by
  rw [leaks_lifetime_iff, leaks_lifetime_iff]
  simp only [Object.nest, collect_append, collect_acquired_map, collect_released_map,
    List.mem_append, List.mem_map, Sum.inr.injEq, exists_eq_right, reduceCtorEq, and_false,
    exists_false, or_false, false_or]

theorem reads_nest_iff :
    ReadsAssigned [] ((outer.nest inner).lifetime reads) ↔
      ReadsAssigned [] (outer.lifetime (reads.filterMap Sum.getLeft?)) ∧
        ReadsAssigned [] (inner.lifetime (reads.filterMap Sum.getRight?)) := by
  rw [readsAssigned_sum_iff, lifetime_nest_left, lifetime_nest_right]
  rfl

/-- In every part, the handles of the first object are read before those of the second one. -/
def inTurn (parts : List (List Handle × List Handle')) : List (Handle ⊕ Handle') :=
  parts.flatMap fun part ↦ part.1.map Sum.inl ++ part.2.map Sum.inr

end LayerPingPong.Ledger
