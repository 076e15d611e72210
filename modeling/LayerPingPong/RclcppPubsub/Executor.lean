import Mathlib.Data.Fintype.EquivFin
import LayerPingPong.Base.TransitionSystem

/-!
# Executors of the rclcpp layer

`ExecutorSingleton::get_instance` makes an executor in every call, assigns it to the variable `exec`
that all calls share, and returns a copy, all under a lock. Publishers and subscribers call it from
any number of threads. The executors are shared pointers, so the address of one that nothing points
to any more can be that of the next one.
-/

namespace LayerPingPong.RclcppPubsub.Executor

open TransitionSystem

/-- How far the constructor of a publisher or subscriber is. The lock is held from `locked` on,
until after `exec_` has been initialised. -/
inductive Phase where
  | absent
  | called
  | locked
  | assigned
  | copied
  | constructed
  deriving DecidableEq, Repr

/-- The call holds `mtx`. -/
def Phase.inside : Phase → Bool
  | .locked | .assigned | .copied => true
  | _ => false

/-- `exec_` has been initialised. -/
def Phase.initialised : Phase → Bool
  | .copied | .constructed => true
  | _ => false

/-- The call has not returned. -/
def Phase.calling : Phase → Bool
  | .called | .locked | .assigned | .copied => true
  | _ => false

inductive Event (Object : Type) where
  | call (object : Object)
  | lock (object : Object)
  /-- `exec` is assigned what `std::make_shared` has allocated. -/
  | assign (object : Object) (executor : ℕ)
  | copy (object : Object)
  | unlock (object : Object)
  /-- `exec_->add_node(node_)`, in the constructor of a publisher and in `set_callback`. -/
  | addNode (object : Object)
  | destroy (object : Object)
  deriving DecidableEq, Repr

/-- `holders` are the objects with their `exec_`, and `nodes` the nodes added to an executor, each
with the object it belongs to. -/
structure State (Object : Type) where
  phase : Object → Phase
  mtx : Option Object
  exec : Option ℕ
  holders : List (Object × ℕ)
  nodes : List (ℕ × Object)

variable {Object : Type} [DecidableEq Object]

/-- The executors that a shared pointer points to. -/
def State.inUse (state : State Object) : List ℕ :=
  state.exec.toList ++ state.holders.map Prod.snd

/-- `exec_` of an object. -/
def State.executor (state : State Object) (object : Object) : Option ℕ :=
  (state.holders.find? fun holder ↦ holder.1 = object).map Prod.snd

/-- The objects whose callbacks `exec_->spin_once` of an object can run. -/
def State.served (state : State Object) (object : Object) : List Object :=
  (state.nodes.filter fun node ↦ some node.1 = state.executor object).map Prod.snd

def State.goTo (state : State Object) (object : Object) (phase : Phase) : State Object :=
  { state with phase := Function.update state.phase object phase }

/-- A new executor has no nodes. An executor points weakly to its nodes, and a destroyed object
leaves none. -/
def step (state : State Object) : Event Object → Option (State Object)
  | .call object =>
    if state.phase object = .absent then some (state.goTo object .called) else none
  | .lock object =>
    if state.phase object = .called ∧ state.mtx = none then
      some { state.goTo object .locked with mtx := some object }
    else none
  | .assign object executor =>
    if state.phase object = .locked ∧ executor ∉ state.inUse then
      some { state.goTo object .assigned with
        exec := some executor
        nodes := state.nodes.filter fun node ↦ node.1 ≠ executor }
    else none
  | .copy object =>
    match state.exec with
    | some executor =>
      if state.phase object = .assigned then
        some { state.goTo object .copied with holders := state.holders ++ [(object, executor)] }
      else none
    | none => none
  | .unlock object =>
    if state.phase object = .copied then
      some { state.goTo object .constructed with mtx := none }
    else none
  | .addNode object =>
    match state.executor object with
    | some executor =>
      if state.phase object = .constructed then
        some { state with nodes := state.nodes ++ [(executor, object)] }
      else none
    | none => none
  | .destroy object =>
    if state.phase object = .constructed then
      some { state.goTo object .absent with
        holders := state.holders.filter fun holder ↦ holder.1 ≠ object
        nodes := state.nodes.filter fun node ↦ node.2 ≠ object }
    else none

/-- Before the first call. -/
def State.start : State Object where
  phase _ := .absent
  mtx := none
  exec := none
  holders := []
  nodes := []

/-- All interleavings of the calls. -/
def calls (Object : Type) [DecidableEq Object] : System (State Object) (Event Object) where
  initial state := state = .start
  step := step

/-- What each step requires and does. -/
inductive Transition (state : State Object) : Event Object → State Object → Prop where
  | call {object : Object} : state.phase object = .absent →
      Transition state (.call object) (state.goTo object .called)
  | lock {object : Object} : state.phase object = .called → state.mtx = none →
      Transition state (.lock object) { state.goTo object .locked with mtx := some object }
  | assign {object : Object} {executor : ℕ} : state.phase object = .locked →
      executor ∉ state.inUse →
      Transition state (.assign object executor) { state.goTo object .assigned with
        exec := some executor
        nodes := state.nodes.filter fun node ↦ node.1 ≠ executor }
  | copy {object : Object} {executor : ℕ} : state.exec = some executor →
      state.phase object = .assigned →
      Transition state (.copy object) { state.goTo object .copied with
        holders := state.holders ++ [(object, executor)] }
  | unlock {object : Object} : state.phase object = .copied →
      Transition state (.unlock object) { state.goTo object .constructed with mtx := none }
  | addNode {object : Object} {executor : ℕ} : state.executor object = some executor →
      state.phase object = .constructed →
      Transition state (.addNode object) { state with nodes := state.nodes ++ [(executor, object)] }
  | destroy {object : Object} : state.phase object = .constructed →
      Transition state (.destroy object) { state.goTo object .absent with
        holders := state.holders.filter fun holder ↦ holder.1 ≠ object
        nodes := state.nodes.filter fun node ↦ node.2 ≠ object }

variable {state next : State Object} {event : Event Object}

theorem transition_of_step (h : step state event = some next) : Transition state event next := by
  cases event
  all_goals dsimp only [step] at h
  case call =>
    split at h
    · rename_i hphase
      cases h
      exact .call hphase
    · cases h
  case lock =>
    split at h
    · rename_i hlock
      cases h
      exact .lock hlock.1 hlock.2
    · cases h
  case assign =>
    split at h
    · rename_i hassign
      cases h
      exact .assign hassign.1 hassign.2
    · cases h
  case copy =>
    split at h
    · rename_i hexec
      split at h
      · rename_i hphase
        cases h
        exact .copy hexec hphase
      · cases h
    · cases h
  case unlock =>
    split at h
    · rename_i hphase
      cases h
      exact .unlock hphase
    · cases h
  case addNode =>
    split at h
    · rename_i hexecutor
      split at h
      · rename_i hphase
        cases h
        exact .addNode hexecutor hphase
      · cases h
    · cases h
  case destroy =>
    split at h
    · rename_i hphase
      cases h
      exact .destroy hphase
    · cases h

/-- What holds of the new phase of one object and of the old phases of the others. -/
theorem forall_update (holds : Object → Phase → Prop) {object : Object} {phase : Phase}
    (hnew : holds object phase) (hold : ∀ other ≠ object, holds other (state.phase other)) :
    ∀ other, holds other (Function.update state.phase object phase other) :=
  (Function.forall_update_iff state.phase holds).mpr ⟨hnew, hold⟩

/-! ## The lock -/

/-- A call holds `mtx` from its lock to its unlock. -/
def HoldsIff (mtx : Option Object) (object : Object) (phase : Phase) : Prop :=
  phase.inside = true ↔ mtx = some object

/-- One call at most is between its lock and its unlock. -/
def Excludes (state : State Object) : Prop :=
  ∀ object, HoldsIff state.mtx object (state.phase object)

/-- A step that leaves the lock as it is. -/
theorem Excludes.stay (h : Excludes state) {object : Object} {phase : Phase}
    (hinside : phase.inside = (state.phase object).inside) :
    ∀ other, HoldsIff state.mtx other (Function.update state.phase object phase other) := by
  apply forall_update (HoldsIff state.mtx) _ fun other _ ↦ h other
  rw [HoldsIff, hinside]
  exact h object

theorem Excludes.preserved (h : Excludes state) (htransition : Transition state event next) :
    Excludes next := by
  cases htransition with
  | call hphase => exact h.stay (by rw [hphase]; rfl)
  | @lock object hphase hmtx =>
    apply forall_update (HoldsIff (some object)) (iff_of_true rfl rfl)
    intro other hne
    have hother : (state.phase other).inside = true ↔ state.mtx = some other := h other
    apply iff_of_false
    · rw [hother, hmtx]
      exact (Option.some_ne_none other).symm
    · exact fun hsome ↦ hne (Option.some.inj hsome).symm
  | assign hphase _ => exact h.stay (by rw [hphase]; rfl)
  | copy _ hphase => exact h.stay (by rw [hphase]; rfl)
  | @unlock object hphase =>
    have hmtx := (h object).mp (by rw [hphase]; rfl)
    have hnone (other : Object) : (none : Option Object) ≠ some other :=
      (Option.some_ne_none other).symm
    have hconstructed : HoldsIff none object .constructed :=
      iff_of_false Bool.false_ne_true (hnone object)
    apply forall_update (HoldsIff none) hconstructed
    intro other hne
    have hother : (state.phase other).inside = true ↔ state.mtx = some other := h other
    apply iff_of_false
    · rw [hother, hmtx]
      exact fun hsome ↦ hne (Option.some.inj hsome).symm
    · exact hnone other
  | addNode _ _ => exact h
  | destroy hphase => exact h.stay (by rw [hphase]; rfl)

/-! ## The executors -/

/-- `exec_` has been initialised where it must be. -/
def HasExecutor (holders : List (Object × ℕ)) (object : Object) (phase : Phase) : Prop :=
  phase.initialised = true → ∃ executor, (object, executor) ∈ holders

/-- `exec` is nobody's while it has not been copied. -/
def ExecFresh (exec : Option ℕ) (holders : List (Object × ℕ)) (phase : Phase) : Prop :=
  phase = .assigned → ∃ executor, exec = some executor ∧ executor ∉ holders.map Prod.snd

/-- `exec_` of each object is its own, and nodes have been added by the holders only. -/
structure Separate (state : State Object) : Prop where
  distinct : (state.holders.map Prod.snd).Nodup
  initialised : ∀ object, HasExecutor state.holders object (state.phase object)
  fresh : ∀ object, ExecFresh state.exec state.holders (state.phase object)
  owned : ∀ node ∈ state.nodes, (node.2, node.1) ∈ state.holders

theorem mem_holders_of_executor {object : Object} {executor : ℕ}
    (h : state.executor object = some executor) : (object, executor) ∈ state.holders := by
  obtain ⟨holder, hfind, rfl⟩ := Option.map_eq_some_iff.mp h
  have hobject : holder.1 = object := by simpa using List.find?_some hfind
  rw [← hobject]
  exact List.mem_of_find?_eq_some hfind

/-- A step of a call that makes no pointer to an executor. -/
theorem Separate.goTo (h : Separate state) (object : Object) (phase : Phase)
    (hinitialised : phase.initialised = true → (state.phase object).initialised = true)
    (hassigned : phase ≠ .assigned) : Separate (state.goTo object phase) where
  distinct := h.distinct
  initialised := forall_update (HasExecutor state.holders)
    (fun hphase ↦ h.initialised object (hinitialised hphase)) fun other _ ↦ h.initialised other
  fresh := forall_update (fun _ ↦ ExecFresh state.exec state.holders)
    (fun hphase ↦ absurd hphase hassigned) fun other _ ↦ h.fresh other
  owned := h.owned

/-- A new executor. -/
theorem Separate.assign (h : Separate state) {object : Object} {executor : ℕ}
    (hnew : executor ∉ state.inUse) : Separate { state.goTo object .assigned with
      exec := some executor
      nodes := state.nodes.filter fun node ↦ node.1 ≠ executor } where
  distinct := h.distinct
  initialised := forall_update (HasExecutor state.holders)
    (fun hphase ↦ absurd hphase Bool.false_ne_true) fun other _ ↦ h.initialised other
  fresh _ _ := ⟨executor, rfl, fun hmem ↦ hnew (List.mem_append_right _ hmem)⟩
  owned node hmem := h.owned node (List.mem_of_mem_filter hmem)

/-- The holder of the lock is the only one that can have assigned `exec`. -/
theorem Separate.copy (h : Separate state) (hlock : Excludes state) {object : Object}
    {executor : ℕ} (hexec : state.exec = some executor) (hphase : state.phase object = .assigned) :
    Separate { state.goTo object .copied with
      holders := state.holders ++ [(object, executor)] } := by
  obtain ⟨fresh, hfresh, hnew⟩ := h.fresh object hphase
  obtain rfl : fresh = executor := Option.some.inj (hfresh.symm.trans hexec)
  refine ⟨?_, ?_, ?_, fun node hmem ↦ List.mem_append_left _ (h.owned node hmem)⟩
  · change ((state.holders ++ [(object, fresh)]).map Prod.snd).Nodup
    rw [List.map_append, List.map_singleton, ← List.concat_eq_append, List.nodup_concat]
    exact ⟨hnew, h.distinct⟩
  · apply forall_update (HasExecutor (state.holders ++ [(object, fresh)]))
    · exact fun _ ↦ ⟨fresh, List.mem_append_right _ List.mem_cons_self⟩
    · intro other _ hother
      obtain ⟨executor, hmem⟩ := h.initialised other hother
      exact ⟨executor, List.mem_append_left _ hmem⟩
  · apply forall_update fun _ ↦ ExecFresh state.exec (state.holders ++ [(object, fresh)])
    · exact fun hcopied ↦ Phase.noConfusion hcopied
    · intro other hne hother
      have hmtx := (hlock object).mp (by rw [hphase]; rfl)
      have hmtx' := (hlock other).mp (by rw [hother]; rfl)
      exact absurd (Option.some.inj (hmtx'.symm.trans hmtx)) hne

theorem Separate.destroy (h : Separate state) (object : Object) :
    Separate { state.goTo object .absent with
      holders := state.holders.filter fun holder ↦ holder.1 ≠ object
      nodes := state.nodes.filter fun node ↦ node.2 ≠ object } := by
  have hfewer : (state.holders.filter fun holder ↦ holder.1 ≠ object).Sublist state.holders :=
    List.filter_sublist
  refine ⟨h.distinct.sublist (hfewer.map _), ?_, ?_, fun node hmem ↦ ?_⟩
  · apply forall_update (HasExecutor (state.holders.filter fun holder ↦ holder.1 ≠ object))
    · exact fun hphase ↦ absurd hphase Bool.false_ne_true
    · intro other hne hother
      obtain ⟨executor, hmem⟩ := h.initialised other hother
      exact ⟨executor, List.mem_filter.mpr ⟨hmem, decide_eq_true hne⟩⟩
  · apply forall_update fun _ ↦
      ExecFresh state.exec (state.holders.filter fun holder ↦ holder.1 ≠ object)
    · exact fun habsent ↦ Phase.noConfusion habsent
    · intro other _ hother
      obtain ⟨executor, hexec, hnew⟩ := h.fresh other hother
      exact ⟨executor, hexec, fun hmem ↦ hnew ((hfewer.map _).subset hmem)⟩
  · obtain ⟨hold, hne⟩ := List.mem_filter.mp hmem
    exact List.mem_filter.mpr ⟨h.owned node hold, hne⟩

theorem Separate.preserved (h : Separate state) (hlock : Excludes state)
    (htransition : Transition state event next) : Separate next := by
  cases htransition with
  | @call object hphase =>
    exact h.goTo object .called (fun hcalled ↦ absurd hcalled Bool.false_ne_true) Phase.noConfusion
  | @lock object hphase _ =>
    have hmoved := h.goTo object .locked
      (fun hlocked ↦ absurd hlocked Bool.false_ne_true) Phase.noConfusion
    exact ⟨hmoved.distinct, hmoved.initialised, hmoved.fresh, hmoved.owned⟩
  | assign _ hnew => exact h.assign hnew
  | copy hexec hphase => exact h.copy hlock hexec hphase
  | @unlock object hphase =>
    have hmoved := h.goTo object .constructed (fun _ ↦ by rw [hphase]; rfl)
      Phase.noConfusion
    exact ⟨hmoved.distinct, hmoved.initialised, hmoved.fresh, hmoved.owned⟩
  | addNode hexecutor _ =>
    refine ⟨h.distinct, h.initialised, h.fresh, fun node hmem ↦ ?_⟩
    rcases List.mem_append.mp hmem with hold | hnew
    · exact h.owned node hold
    · rw [List.mem_singleton.mp hnew]
      exact mem_holders_of_executor hexecutor
  | @destroy object _ => exact h.destroy object

theorem invariant_of_reachable (h : (calls Object).Reachable state) :
    Excludes state ∧ Separate state := by
  apply h.invariant fun state ↦ Excludes state ∧ Separate state
  · rintro _ rfl
    refine ⟨fun object ↦ iff_of_false Bool.false_ne_true (Option.some_ne_none object).symm, ?_⟩
    exact ⟨List.nodup_nil, fun _ hphase ↦ absurd hphase Bool.false_ne_true,
      fun _ hphase ↦ Phase.noConfusion hphase, fun _ hmem ↦ absurd hmem List.not_mem_nil⟩
  · intro state event next ⟨hlock, hseparate⟩ _ hstep
    have htransition := transition_of_step hstep
    exact ⟨hlock.preserved htransition, hseparate.preserved hlock htransition⟩

/-! ## No executor is shared -/

omit [DecidableEq Object] in
theorem Separate.eq_of_mem_holders (h : Separate state) {first second : Object} {executor : ℕ}
    (hfirst : (first, executor) ∈ state.holders) (hsecond : (second, executor) ∈ state.holders) :
    first = second := by
  have hinjective := List.inj_on_of_nodup_map h.distinct
  exact congrArg Prod.fst (hinjective hfirst hsecond rfl)

theorem Separate.eq_of_mem_served (h : Separate state) {object other : Object}
    (hserved : other ∈ state.served object) : other = object := by
  obtain ⟨node, hmem, rfl⟩ := List.mem_map.mp hserved
  obtain ⟨hnode, hexecutor⟩ := List.mem_filter.mp hmem
  have hholder := mem_holders_of_executor (of_decide_eq_true hexecutor).symm
  exact h.eq_of_mem_holders (h.owned node hnode) hholder

theorem exists_executor {object : Object} {executor : ℕ}
    (h : (object, executor) ∈ state.holders) : ∃ executor, state.executor object = some executor := by
  apply Option.isSome_iff_exists.mp
  rw [State.executor, Option.isSome_map, List.find?_isSome]
  exact ⟨(object, executor), h, decide_eq_true rfl⟩

/-- A step of a call that has begun. -/
def Event.proceeds : Event Object → Bool
  | .lock _ | .assign _ _ | .copy _ | .unlock _ => true
  | _ => false

/-- The call that holds the lock can go on, and without one any call can take it. -/
theorem exists_proceeds (hlock : Excludes state) (h : Separate state) {object : Object}
    (hcalling : (state.phase object).calling = true) :
    ∃ event next, event.proceeds = true ∧ step state event = some next := by
  cases hmtx : state.mtx with
  | none =>
    have hcalled : state.phase object = .called := by
      have hinside := hlock object
      rw [hmtx] at hinside
      cases hphase : state.phase object with
      | called => rfl
      | absent | constructed =>
        rw [hphase] at hcalling
        cases hcalling
      | locked | assigned | copied =>
        rw [hphase] at hinside
        exact absurd (hinside.mp rfl) (Option.some_ne_none object).symm
    exact ⟨.lock object, _, rfl, if_pos ⟨hcalled, hmtx⟩⟩
  | some holder =>
    have hinside := (hlock holder).mpr hmtx
    cases hphase : state.phase holder with
    | locked =>
      obtain ⟨executor, hnew⟩ := Infinite.exists_notMem_finset state.inUse.toFinset
      rw [List.mem_toFinset] at hnew
      exact ⟨.assign holder executor, _, rfl, if_pos ⟨hphase, hnew⟩⟩
    | assigned =>
      obtain ⟨executor, hexec, -⟩ := h.fresh holder hphase
      refine ⟨.copy holder, { state.goTo holder .copied with
        holders := state.holders ++ [(holder, executor)] }, rfl, ?_⟩
      rw [step, hexec]
      exact if_pos hphase
    | copied => exact ⟨.unlock holder, _, rfl, if_pos hphase⟩
    | absent | called | constructed =>
      rw [hphase] at hinside
      cases hinside

/-- What holds of the executors, however the calls of `get_instance` interleave. -/
structure Isolated (state : State Object) : Prop where
  distinct : ∀ (first second : Object) (executor : ℕ), state.executor first = some executor →
    state.executor second = some executor → first = second
  served : ∀ object, ∀ other ∈ state.served object, other = object
  initialised : ∀ object, state.phase object = .constructed →
    ∃ executor, state.executor object = some executor
  proceeds : ∀ object, (state.phase object).calling = true →
    ∃ event next, event.proceeds = true ∧ step state event = some next

/-- Despite its name, `ExecutorSingleton` gives every publisher and subscriber an executor of its
own, so `spin` and `spin_once` run no callback of another one, and no call waits forever. -/
theorem executors_isolated (h : (calls Object).Reachable state) : Isolated state := by
  obtain ⟨hlock, hseparate⟩ := invariant_of_reachable h
  refine ⟨fun first second executor hfirst hsecond ↦ ?_, fun object other ↦ ?_,
    fun object hphase ↦ ?_, fun object ↦ ?_⟩
  · exact hseparate.eq_of_mem_holders (mem_holders_of_executor hfirst)
      (mem_holders_of_executor hsecond)
  · exact hseparate.eq_of_mem_served
  · obtain ⟨executor, hmem⟩ := hseparate.initialised object (by rw [hphase]; rfl)
    exact exists_executor hmem
  · exact exists_proceeds hlock hseparate

/-- Two subscribers are constructed at the same time. When one has been destroyed and `exec` points
to the executor of the other, the next object gets the executor at the old address. -/
theorem executors_isolated_reused : ∃ state : State ℕ, state.executor 2 = some 5 ∧
    state.served 1 = [1] ∧ Isolated state := by
  have hrun : (calls ℕ).run .start [.call 0, .call 1, .lock 0, .assign 0 5, .copy 0, .unlock 0,
      .lock 1, .assign 1 6, .copy 1, .unlock 1, .addNode 0, .addNode 1, .destroy 0, .call 2,
      .lock 2, .assign 2 5, .copy 2] = some _ := rfl
  exact ⟨_, rfl, rfl, executors_isolated (System.Reachable.run (.initial rfl) _ hrun)⟩

end LayerPingPong.RclcppPubsub.Executor
