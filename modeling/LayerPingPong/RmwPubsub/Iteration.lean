import LayerPingPong.RmwPubsub.Delivery

/-!
# The loop of the rmw subscriber against repeated single calls

`spin_once` puts the subscription into `subscribers[0]` on every call, `spin` only before its loop.
The two agree as long as no wait follows one that has nulled the entry.
-/

namespace LayerPingPong.RmwPubsub

variable {Message : Type}

/-- A call of `spin_once` that meets this turn times out or fails. -/
def Turn.ends (turn : Turn Message) : Bool :=
  match turn.wait, turn.take with
  | .ok true, .error _ => true
  | .ok _, _ => false
  | .timeout, _ | .error _, _ => true

/-- Everything but the lines printed. -/
def Action.isCall : Action Message → Bool
  | .print _ => false
  | _ => true

/-- Every take that is made returns a message. -/
def TakesMessages (actions : List (Action Message)) : Prop :=
  ∀ outcome, Action.take outcome ∈ actions → ∃ message, outcome = .ok (some message)

/-- No turn follows the first wait that nulls the entry, unless the loop has ended before. -/
def NulledLast (turns : List (Turn Message)) : Prop :=
  ∀ past turn rest, turns = past ++ turn :: rest → (∀ earlier ∈ past, earlier.wait = .ok true) →
    turn.wait = .ok false → rest = []

theorem NulledLast.tail {turn : Turn Message} {turns : List (Turn Message)}
    (h : NulledLast (turn :: turns)) (hwait : turn.wait = .ok true) : NulledLast turns := by
  intro past later rest hsplit hpast
  apply h (turn :: past) later rest (by rw [hsplit, List.cons_append])
  exact List.forall_mem_cons.mpr ⟨hwait, hpast⟩

theorem TakesMessages.of_append_right {first second : List (Action Message)}
    (h : TakesMessages (first ++ second)) : TakesMessages second := by
  intro outcome hmem
  exact h outcome (List.mem_append_right _ hmem)

section Loop

variable (callback : Message → Message)

theorem loopBody_of_nulled {turn : Turn Message} (hwait : turn.wait = .ok false)
    (timeout : RmwTime) (data : Message) :
    loopBody callback true timeout data turn =
      ⟨[.wait true timeout (.ok false), .print "unknown fired!?"], false, false, data⟩ := by
  simp [loopBody, hwait]

/-- With the entry set, the wait is given the handle. -/
theorem loopBody_live {turn : Turn Message} {timeout time : RmwTime} {data : Message}
    {entry : Bool} {outcome : WaitOutcome}
    (h : Action.wait entry time outcome ∈ (loopBody callback true timeout data turn).actions) :
    entry = true := by
  obtain ⟨wait, take⟩ := turn
  rcases wait with (_ | _) | _ | _ <;> cases take <;> simp_all [loopBody]

/-- The take of a turn whose wait keeps the entry is made, so it returns a message. -/
theorem take_of_takesMessages {turn : Turn Message} {turns : List (Turn Message)}
    (hwait : turn.wait = .ok true) (timeout : RmwTime) (data : Message)
    (h : TakesMessages (spinFrom callback true timeout data (turn :: turns))) :
    ∃ message, turn.take = .ok (some message) ∧
      spinFrom callback true timeout data (turn :: turns) =
        [.wait true timeout (.ok true), .take (.ok (some message)), .callback message] ++
          spinFrom callback true timeout (callback message) turns := by
  have hmade : Action.take turn.take ∈ spinFrom callback true timeout data (turn :: turns) := by
    unfold spinFrom
    cases htake : turn.take <;> simp [loopBody, hwait, htake]
  obtain ⟨message, htake⟩ := h turn.take hmade
  refine ⟨message, htake, ?_⟩
  rw [spinFrom_cons_take callback (Turn.succeeds_iff.mpr ⟨hwait, _, htake⟩),
    loopBody_of_take callback hwait htake]
  rfl

/-- The wait after one that has nulled the entry is given the null pointer. -/
theorem wait_null_mem (timeout : RmwTime) (data : Message) {past rest : List (Turn Message)}
    {turn next : Turn Message} (hpast : ∀ earlier ∈ past, earlier.wait = .ok true)
    (hnull : turn.wait = .ok false)
    (htakes : TakesMessages (spinFrom callback true timeout data (past ++ turn :: next :: rest))) :
    Action.wait false timeout next.wait ∈
      spinFrom callback true timeout data (past ++ turn :: next :: rest) := by
  induction past generalizing data with
  | nil =>
    have hfirst : Action.wait false timeout next.wait ∈
        (loopBody callback false timeout data next).actions := by
      cases hwait : next.wait <;> simp [loopBody, hwait]
    have hnext : Action.wait false timeout next.wait ∈
        spinFrom callback false timeout data (next :: rest) := by
      unfold spinFrom
      dsimp only
      split
      · exact hfirst
      · exact List.mem_append_left _ hfirst
    rw [List.nil_append, spinFrom, loopBody_of_nulled callback hnull]
    exact List.mem_append_right _ hnext
  | cons earlier past ih =>
    rw [List.forall_mem_cons] at hpast
    rw [List.cons_append] at htakes ⊢
    obtain ⟨message, -, heq⟩ := take_of_takesMessages callback hpast.1 timeout data htakes
    rw [heq] at htakes ⊢
    exact List.mem_append_right _ (ih _ hpast.2 htakes.of_append_right)

end Loop

variable (callback : Message → Message) [Inhabited Message]

/-- Calls of `spin_once` up to the first one that times out or fails. -/
def iterateSpinOnce (timeout : Int64) : List (Turn Message) → List (Action Message)
  | [] => []
  | turn :: turns =>
    if turn.ends then spinOnce callback timeout turn
    else spinOnce callback timeout turn ++ iterateSpinOnce timeout turns

/-- `spin` makes the calls of the iterated `spin_once`, and all its waits are given the handle. -/
structure IteratesSpinOnce (timeout : Int64) (turns : List (Turn Message)) : Prop where
  calls : (spin callback timeout turns).filter Action.isCall =
    (iterateSpinOnce callback timeout turns).filter Action.isCall
  live : ∀ entry time outcome, Action.wait entry time outcome ∈ spin callback timeout turns →
    entry = true

theorem spinFrom_eq_iterateSpinOnce {turns : List (Turn Message)} (timeout : Int64)
    (data : Message) (h : NulledLast turns)
    (htakes : TakesMessages (spinFrom callback true (waitTimeout timeout) data turns)) :
    spinFrom callback true (waitTimeout timeout) data turns =
      iterateSpinOnce callback timeout turns := by
  induction turns generalizing data with
  | nil => rfl
  | cons turn turns ih =>
    cases hwait : turn.wait with
    | ok kept =>
      cases kept with
      | true =>
        obtain ⟨message, htake, heq⟩ := take_of_takesMessages callback hwait _ data htakes
        have hends : turn.ends = false := by simp [Turn.ends, hwait, htake]
        rw [heq] at htakes ⊢
        rw [ih _ (h.tail hwait) htakes.of_append_right, iterateSpinOnce, hends, spinOnce,
          loopBody_of_take callback hwait htake]
        rfl
      | false =>
        have hends : turn.ends = false := by simp [Turn.ends, hwait]
        obtain rfl := h [] turn turns rfl nofun hwait
        rw [iterateSpinOnce, hends, spinOnce, spinFrom, loopBody_of_nulled callback hwait,
          loopBody_of_nulled callback hwait]
        rfl
    | timeout | error text =>
      simp [spinFrom, iterateSpinOnce, spinOnce, loopBody, Turn.ends, hwait]

theorem iterateSpinOnce_live {timeout : Int64} {turns : List (Turn Message)} {entry : Bool}
    {time : RmwTime} {outcome : WaitOutcome}
    (h : Action.wait entry time outcome ∈ iterateSpinOnce callback timeout turns) :
    entry = true := by
  induction turns with
  | nil => cases h
  | cons turn turns ih =>
    unfold iterateSpinOnce at h
    split at h
    · exact loopBody_live callback h
    · rcases List.mem_append.mp h with hfirst | hrest
      · exact loopBody_live callback hfirst
      · exact ih hrest

/-- `spin` is the iterated `spin_once` exactly if no turn follows a wait that nulls the entry. -/
theorem iteratesSpinOnce_iff_nulledLast {timeout : Int64} {turns : List (Turn Message)}
    (htakes : TakesMessages (spin callback timeout turns)) :
    IteratesSpinOnce callback timeout turns ↔ NulledLast turns := by
  constructor
  · intro h past turn rest hsplit hpast hnull
    cases rest with
    | nil => rfl
    | cons next rest =>
      rw [hsplit] at htakes h
      have hmem := wait_null_mem callback (waitTimeout timeout) default hpast hnull htakes
      cases h.live _ _ _ hmem
  · intro h
    have heq := spinFrom_eq_iterateSpinOnce callback timeout default h htakes
    refine ⟨congrArg _ heq, fun entry time outcome hmem ↦ ?_⟩
    rw [spin, heq] at hmem
    exact iterateSpinOnce_live callback hmem

/-- A message, then a wait that nulls the entry and is the last one. -/
theorem iteratesSpinOnce_iff_nulledLast_two :
    IteratesSpinOnce id 3000000000 [⟨.ok true, .ok (some 7)⟩, ⟨.ok false, .ok none⟩] := by
  have htakes : TakesMessages
      (spin id 3000000000 [⟨.ok true, .ok (some 7)⟩, ⟨.ok false, .ok none⟩]) := by
    intro outcome hmem
    simp [spin, spinFrom, loopBody] at hmem
    exact ⟨7, hmem⟩
  refine (iteratesSpinOnce_iff_nulledLast id htakes).mpr ?_
  intro past turn rest hsplit hpast hnull
  rcases past with _ | ⟨first, _ | ⟨second, past⟩⟩
  · simp at hsplit
    simp [← hsplit.1] at hnull
  · simp at hsplit
    exact hsplit.2.2
  · simp at hsplit

/-- Between two messages a wait returns for something else. `spin` never takes the second one. -/
theorem spin_deaf_after_null :
    let turns : List (Turn ℕ) :=
      [⟨.ok true, .ok (some 7)⟩, ⟨.ok false, .ok none⟩, ⟨.ok true, .ok (some 8)⟩]
    TakesMessages (spin id 3000000000 turns) ∧ TakesMessages (iterateSpinOnce id 3000000000 turns) ∧
      (spin id 3000000000 turns).filterMap Action.delivered = [7] ∧
      (iterateSpinOnce id 3000000000 turns).filterMap Action.delivered = [7, 8] ∧
      ¬ IteratesSpinOnce id 3000000000 turns := by
  intro turns
  refine ⟨?_, ?_, by decide, by decide, fun h ↦ absurd h.calls (by decide)⟩
  · intro outcome hmem
    simp [turns, spin, spinFrom, loopBody] at hmem
    exact ⟨7, hmem⟩
  · intro outcome hmem
    simp [turns, iterateSpinOnce, spinOnce, Turn.ends, loopBody] at hmem
    rcases hmem with hmem | hmem
    · exact ⟨7, hmem⟩
    · exact ⟨8, hmem⟩

end LayerPingPong.RmwPubsub
