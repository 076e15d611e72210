import LayerPingPong.Base.Accounting
import LayerPingPong.RmwPubsub.Subscriber

/-!
# What the rmw subscriber delivers

A take that returns `RMW_RET_OK` is followed by a callback, whether or not it has taken anything.
The callbacks are the messages taken exactly as long as no take returns `RMW_RET_OK` with `taken`
false. Once `rmw_wait` has nulled the entry, `spin` makes no further take.
-/

namespace LayerPingPong.RmwPubsub

open Accounting

variable {Message : Type}

/-- The message of a take that returned `RMW_RET_OK` with `taken` true. -/
def Action.taken : Action Message → Option Message
  | .take (.ok taken) => taken
  | _ => none

/-- The message handed to `callback_`. -/
def Action.delivered : Action Message → Option Message
  | .callback data => some data
  | _ => none

/-- The callbacks are the messages taken, each once and in order. -/
abbrev DeliversExactly (actions : List (Action Message)) : Prop :=
  Balanced Action.taken Action.delivered actions

/-- The take of the turn, if it is made, does not succeed without a message. -/
def Turn.Honest (turn : Turn Message) : Prop := turn.wait = .ok true → turn.take ≠ .ok none

/-- The wait keeps the entry and the take returns `RMW_RET_OK`. -/
def Turn.succeeds (turn : Turn Message) : Bool :=
  match turn.wait, turn.take with
  | .ok true, .ok _ => true
  | _, _ => false

theorem Turn.succeeds_iff {turn : Turn Message} :
    turn.succeeds = true ↔ turn.wait = .ok true ∧ ∃ taken, turn.take = .ok taken := by
  obtain ⟨wait, take⟩ := turn
  rcases wait with (_ | _) | _ | _ <;> cases take <;> simp [Turn.succeeds]

theorem Turn.Honest.of_not_succeeds {turn : Turn Message} (h : ¬ turn.succeeds = true) :
    turn.Honest := fun hwait htake ↦ h (Turn.succeeds_iff.mpr ⟨hwait, none, htake⟩)

/-- Nothing is taken or delivered. -/
structure Idle (actions : List (Action Message)) : Prop where
  taken : actions.filterMap Action.taken = []
  delivered : actions.filterMap Action.delivered = []

theorem idle_nil : Idle ([] : List (Action Message)) := ⟨rfl, rfl⟩

theorem Idle.append {first second : List (Action Message)} (hfirst : Idle first)
    (hsecond : Idle second) : Idle (first ++ second) where
  taken := by rw [List.filterMap_append, hfirst.taken, hsecond.taken, List.append_nil]
  delivered := by rw [List.filterMap_append, hfirst.delivered, hsecond.delivered, List.append_nil]

theorem Idle.balanced {actions : List (Action Message)} (h : Idle actions) :
    DeliversExactly actions := h.delivered.trans h.taken.symm

theorem Idle.covered {actions : List (Action Message)} (h : Idle actions) :
    Covered Action.taken Action.delivered actions := by
  unfold Covered
  rw [h.taken, h.delivered]

variable (callback : Message → Message)

/-! ## One turn -/

theorem loopBody_of_take {turn : Turn Message} {taken : Option Message}
    (hwait : turn.wait = .ok true) (htake : turn.take = .ok taken) (timeout : RmwTime)
    (data : Message) :
    loopBody callback true timeout data turn =
      ⟨[.wait true timeout (.ok true), .take (.ok taken), .callback (taken.getD data)], false, true,
        callback (taken.getD data)⟩ := by
  simp [loopBody, hwait, htake]

/-- Any other turn delivers nothing, and neither does the rest of the function. -/
theorem loopBody_of_no_take {entry : Bool} {turn : Turn Message}
    (h : ¬ (entry = true ∧ turn.succeeds = true)) (timeout : RmwTime) (data : Message) :
    Idle (loopBody callback entry timeout data turn).actions ∧
      ((loopBody callback entry timeout data turn).returned = true ∨
        (loopBody callback entry timeout data turn).entry = false) := by
  obtain ⟨wait, take⟩ := turn
  cases wait with
  | ok kept =>
    cases kept with
    | false =>
      cases entry with
      | false | true => exact ⟨⟨rfl, rfl⟩, .inr rfl⟩
    | true =>
      cases entry with
      | false => exact ⟨⟨rfl, rfl⟩, .inr rfl⟩
      | true =>
        cases take with
        | ok taken => exact absurd ⟨rfl, rfl⟩ h
        | error text => exact ⟨⟨rfl, rfl⟩, .inl rfl⟩
  | timeout | error => exact ⟨⟨rfl, rfl⟩, .inl rfl⟩

theorem loopBody_covered (timeout : RmwTime) (data : Message) (turn : Turn Message) :
    Covered Action.taken Action.delivered (loopBody callback true timeout data turn).actions := by
  by_cases hsucceeds : turn.succeeds = true
  · obtain ⟨hwait, taken, htake⟩ := Turn.succeeds_iff.mp hsucceeds
    rw [loopBody_of_take callback hwait htake]
    cases taken with
    | none => exact Nat.zero_le 1
    | some message => exact Nat.le_refl 1
  · exact (loopBody_of_no_take callback (fun h ↦ hsucceeds h.2) timeout data).1.covered

theorem loopBody_deliversExactly_iff (timeout : RmwTime) (data : Message) (turn : Turn Message) :
    DeliversExactly (loopBody callback true timeout data turn).actions ↔ turn.Honest := by
  by_cases hsucceeds : turn.succeeds = true
  · obtain ⟨hwait, taken, htake⟩ := Turn.succeeds_iff.mp hsucceeds
    rw [loopBody_of_take callback hwait htake]
    cases taken with
    | none => exact iff_of_false (List.cons_ne_nil data []) fun h ↦ h hwait htake
    | some message => exact iff_of_true rfl fun _ ↦ by simp [htake]
  · exact iff_of_true (loopBody_of_no_take callback (fun h ↦ hsucceeds h.2) timeout data).1.balanced
      (.of_not_succeeds hsucceeds)

/-! ## Whole calls -/

/-- With the entry nulled, `spin` makes no take any more. -/
theorem spinFrom_idle (timeout : RmwTime) (data : Message) (turns : List (Turn Message)) :
    Idle (spinFrom callback false timeout data turns) := by
  induction turns generalizing data with
  | nil => exact idle_nil
  | cons turn turns ih =>
    have hnone : ¬ (false = true ∧ turn.succeeds = true) := fun h ↦ Bool.false_ne_true h.1
    obtain ⟨hidle, hrest⟩ := loopBody_of_no_take callback hnone timeout data
    unfold spinFrom
    dsimp only
    split
    · exact hidle
    · rename_i hreturned
      rw [hrest.resolve_left hreturned]
      exact hidle.append (ih _)

/-- The first turn without a successful take is the last that can matter. -/
theorem spinFrom_cons_idle {turn : Turn Message} (h : ¬ turn.succeeds = true) (timeout : RmwTime)
    (data : Message) (turns : List (Turn Message)) :
    Idle (spinFrom callback true timeout data (turn :: turns)) := by
  have hnone : ¬ (true = true ∧ turn.succeeds = true) := fun hboth ↦ h hboth.2
  obtain ⟨hidle, hrest⟩ := loopBody_of_no_take callback hnone timeout data
  unfold spinFrom
  dsimp only
  split
  · exact hidle
  · rename_i hreturned
    rw [hrest.resolve_left hreturned]
    exact hidle.append (spinFrom_idle _ _ _ _)

theorem spinFrom_cons_take {turn : Turn Message} (h : turn.succeeds = true) (timeout : RmwTime)
    (data : Message) (turns : List (Turn Message)) :
    spinFrom callback true timeout data (turn :: turns) =
      (loopBody callback true timeout data turn).actions ++
        spinFrom callback true timeout (loopBody callback true timeout data turn).data turns := by
  obtain ⟨hwait, taken, htake⟩ := Turn.succeeds_iff.mp h
  simp [spinFrom, loopBody_of_take callback hwait htake]

theorem spinFrom_covered (timeout : RmwTime) (data : Message) (turns : List (Turn Message)) :
    Covered Action.taken Action.delivered (spinFrom callback true timeout data turns) := by
  induction turns generalizing data with
  | nil => exact covered_nil
  | cons turn turns ih =>
    by_cases hsucceeds : turn.succeeds = true
    · rw [spinFrom_cons_take callback hsucceeds]
      exact (loopBody_covered callback timeout data turn).append (ih _)
    · exact (spinFrom_cons_idle callback hsucceeds timeout data turns).covered

theorem spinFrom_deliversExactly_iff (timeout : RmwTime) (data : Message)
    (turns : List (Turn Message)) :
    DeliversExactly (spinFrom callback true timeout data turns) ↔
      ∀ turn ∈ turns.takeWhile Turn.succeeds, turn.Honest := by
  induction turns generalizing data with
  | nil => exact iff_of_true idle_nil.balanced nofun
  | cons turn turns ih =>
    by_cases hsucceeds : turn.succeeds = true
    · rw [spinFrom_cons_take callback hsucceeds]
      calc
        _ ↔ DeliversExactly (loopBody callback true timeout data turn).actions ∧
            DeliversExactly (spinFrom callback true timeout
              (loopBody callback true timeout data turn).data turns) :=
          balanced_append_iff (loopBody_covered _ _ _ _) (spinFrom_covered _ _ _ _)
        _ ↔ turn.Honest ∧ ∀ turn ∈ turns.takeWhile Turn.succeeds, turn.Honest :=
          and_congr (loopBody_deliversExactly_iff callback timeout data turn) (ih _)
        _ ↔ _ := by rw [List.takeWhile_cons_of_pos hsucceeds, List.forall_mem_cons]
    · rw [List.takeWhile_cons_of_neg hsucceeds]
      exact iff_of_true (spinFrom_cons_idle callback hsucceeds timeout data turns).balanced nofun

variable [Inhabited Message]

/-- The turns of a call in which a take can succeed. -/
def Call.turns : Call Message → List (Turn Message)
  | .spin _ turns => turns.takeWhile Turn.succeeds
  | .spinOnce _ turn => [turn]

theorem actions_covered (call : Call Message) :
    Covered Action.taken Action.delivered (call.actions callback) := by
  cases call with
  | spin timeout turns => exact spinFrom_covered callback (waitTimeout timeout) default turns
  | spinOnce timeout turn => exact loopBody_covered callback (waitTimeout timeout) default turn

theorem actions_deliversExactly_iff (call : Call Message) :
    DeliversExactly (call.actions callback) ↔ ∀ turn ∈ call.turns, turn.Honest := by
  cases call with
  | spin timeout turns => exact spinFrom_deliversExactly_iff callback (waitTimeout timeout) default turns
  | spinOnce timeout turn =>
    rw [Call.turns, List.forall_mem_singleton]
    exact loopBody_deliversExactly_iff callback (waitTimeout timeout) default turn

/-- Over any number of calls, the subscriber delivers exactly what it took if and only if each
successful take has taken a message. -/
theorem session_deliversExactly_iff_honest (calls : List (Call Message)) :
    DeliversExactly (session callback calls) ↔
      ∀ call ∈ calls, ∀ turn ∈ call.turns, turn.Honest := by
  rw [session, DeliversExactly, balanced_flatMap_iff (actions_covered callback)]
  exact forall₂_congr fun call _ ↦ actions_deliversExactly_iff callback call

/-- A take that takes nothing hands the previous message, or a zeroed one, to the callback. -/
theorem session_emptyTake_delivered :
    (session id [.spin 3000000000 [⟨.ok true, .ok (some 7)⟩, ⟨.ok true, .ok none⟩]]).filterMap
        Action.delivered = [7, 7] ∧
      (session id [.spinOnce 3000000000 ⟨.ok true, .ok none⟩]).filterMap Action.delivered = [0] ∧
      ¬ DeliversExactly
        (session id [.spin 3000000000 [⟨.ok true, .ok (some 7)⟩, ⟨.ok true, .ok none⟩]]) ∧
      ¬ DeliversExactly (session id [.spinOnce 3000000000 ⟨.ok true, .ok (none : Option ℕ)⟩]) := by
  decide

end LayerPingPong.RmwPubsub
