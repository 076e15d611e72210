import Mathlib.Data.List.Chain
import LayerPingPong.Base.Accounting
import LayerPingPong.RclPubsub.Subscriber

/-!
# What the rcl subscriber delivers

Every take is followed by a callback, whatever `rcl_take` returned, and a wait that fails leaves the
entry in the wait set, so that a take follows. The callbacks are therefore the messages taken
exactly as long as no wait fails and no take does.
-/

namespace LayerPingPong.RclPubsub

open Accounting

variable {Message : Type}

/-- The message of a take that returned `RCL_RET_OK`. -/
def Action.taken : Action Message → Option Message
  | .take (.ok message) => some message
  | _ => none

/-- The message handed to `callback_`. -/
def Action.delivered : Action Message → Option Message
  | .callback data => some data
  | _ => none

def Action.isWait : Action Message → Bool
  | .wait _ _ => true
  | _ => false

/-- A wait that returned neither `RCL_RET_OK` nor `RCL_RET_TIMEOUT`. -/
def Action.isFailedWait : Action Message → Bool
  | .wait _ .error => true
  | _ => false

/-- The next action after a failed wait is another wait. -/
def QuietAfterError (actions : List (Action Message)) : Prop :=
  actions.IsChain fun action next ↦ action.isFailedWait = true → next.isWait = true

/-- The callbacks are the messages taken, and nothing happens between a failed wait and the next
one. -/
structure DeliversExactly (actions : List (Action Message)) : Prop where
  delivered : Balanced Action.taken Action.delivered actions
  quiet : QuietAfterError actions

/-- A part of a trace that starts with a wait and has a callback for each message taken. -/
structure Part (actions : List (Action Message)) : Prop where
  covered : Covered Action.taken Action.delivered actions
  head : ∀ first ∈ actions.head?, first.isWait = true

theorem part_nil : Part ([] : List (Action Message)) := ⟨covered_nil, nofun⟩

theorem Part.append {first second : List (Action Message)} (hfirst : Part first)
    (hsecond : Part second) : Part (first ++ second) := by
  refine ⟨hfirst.covered.append hsecond.covered, ?_⟩
  cases first with
  | nil => exact hsecond.head
  | cons action rest => exact hfirst.head

theorem deliversExactly_nil : DeliversExactly ([] : List (Action Message)) :=
  ⟨rfl, List.isChain_nil⟩

theorem deliversExactly_append_iff {first second : List (Action Message)} (hfirst : Part first)
    (hsecond : Part second) :
    DeliversExactly (first ++ second) ↔ DeliversExactly first ∧ DeliversExactly second := by
  have hquiet : QuietAfterError (first ++ second) ↔
      QuietAfterError first ∧ QuietAfterError second := by
    unfold QuietAfterError
    rw [List.isChain_append]
    constructor
    · rintro ⟨hleft, hright, -⟩
      exact ⟨hleft, hright⟩
    · rintro ⟨hleft, hright⟩
      exact ⟨hleft, hright, fun _ _ next hnext _ ↦ hsecond.head next hnext⟩
  have hbalanced := balanced_append_iff hfirst.covered hsecond.covered
  constructor
  · rintro ⟨hdelivered, hchain⟩
    exact ⟨⟨(hbalanced.mp hdelivered).1, (hquiet.mp hchain).1⟩,
      ⟨(hbalanced.mp hdelivered).2, (hquiet.mp hchain).2⟩⟩
  · rintro ⟨hleft, hright⟩
    exact ⟨hbalanced.mpr ⟨hleft.delivered, hright.delivered⟩,
      hquiet.mpr ⟨hleft.quiet, hright.quiet⟩⟩

/-- Neither the wait nor the take that follows it fails. -/
def Turn.Clean (turn : Turn Message) : Prop :=
  turn.wait ≠ .error ∧ (turn.wait = .ok true → turn.take ≠ .error)

theorem Turn.Clean.of_timeout {turn : Turn Message} (h : turn.wait = .timeout) : turn.Clean := by
  simp [Turn.Clean, h]

theorem ready_iff {outcome : WaitOutcome} :
    entryAfterWait true outcome = true ↔ outcome = .ok true ∨ outcome = .error := by
  cases outcome <;> simp [entryAfterWait]

variable (callback : Message → Message)

theorem loopBody_of_ready {turn : Turn Message} (h : entryAfterWait true turn.wait = true)
    (timeoutNs : Int64) (data : Message) :
    loopBody callback timeoutNs data turn =
      ([.wait timeoutNs turn.wait, .take turn.take, .callback (turn.take.fill data)],
        callback (turn.take.fill data)) := by
  have htimeout : turn.wait ≠ .timeout := by
    rcases ready_iff.mp h with hok | herror
    · simp [hok]
    · simp [herror]
  simp [loopBody, htimeout, h]

theorem loopBody_of_not_ready {turn : Turn Message} (h : ¬ entryAfterWait true turn.wait = true)
    (timeoutNs : Int64) (data : Message) :
    loopBody callback timeoutNs data turn = ([.wait timeoutNs turn.wait], data) := by
  simp [loopBody, h]

theorem loopBody_part (timeoutNs : Int64) (data : Message) (turn : Turn Message) :
    Part (loopBody callback timeoutNs data turn).1 := by
  by_cases hready : entryAfterWait true turn.wait = true
  · rw [loopBody_of_ready callback hready]
    refine ⟨?_, by simp [Action.isWait]⟩
    cases turn.take with
    | ok message => exact Nat.le_refl 1
    | error => exact Nat.zero_le 1
  · rw [loopBody_of_not_ready callback hready]
    exact ⟨Nat.le_refl 0, by simp [Action.isWait]⟩

/-- The actions of one turn are in order exactly when nothing fails in it. -/
theorem loopBody_deliversExactly_iff (timeoutNs : Int64) (data : Message) (turn : Turn Message) :
    DeliversExactly (loopBody callback timeoutNs data turn).1 ↔ turn.Clean := by
  by_cases hready : entryAfterWait true turn.wait = true
  · rw [loopBody_of_ready callback hready]
    rcases ready_iff.mp hready with hwait | hwait
    · have hquiet : QuietAfterError [.wait timeoutNs turn.wait, .take turn.take,
          .callback (turn.take.fill data)] := by
        simp [QuietAfterError, hwait, Action.isFailedWait]
      have hdelivered : Balanced Action.taken Action.delivered [.wait timeoutNs turn.wait,
          .take turn.take, .callback (turn.take.fill data)] ↔ turn.take ≠ .error := by
        cases turn.take with
        | ok message => exact iff_of_true rfl nofun
        | error => exact iff_of_false (List.cons_ne_nil data []) fun h ↦ h rfl
      calc
        _ ↔ turn.take ≠ .error := ⟨fun h ↦ hdelivered.mp h.1, fun h ↦ ⟨hdelivered.mpr h, hquiet⟩⟩
        _ ↔ turn.Clean := by simp [Turn.Clean, hwait]
    · refine iff_of_false (fun h ↦ ?_) fun h ↦ h.1 hwait
      simpa [QuietAfterError, hwait, Action.isFailedWait, Action.isWait] using h.quiet
  · rw [loopBody_of_not_ready callback hready]
    have hwait : turn.wait ≠ .ok true ∧ turn.wait ≠ .error :=
      not_or.mp fun h ↦ hready (ready_iff.mpr h)
    exact iff_of_true ⟨rfl, List.isChain_singleton _⟩ ⟨hwait.2, fun h ↦ absurd h hwait.1⟩

/-! ## Whole calls -/

theorem spinFrom_part (timeoutNs : Int64) (data : Message) (turns : List (Turn Message)) :
    Part (spinFrom callback timeoutNs data turns) := by
  induction turns generalizing data with
  | nil => exact part_nil
  | cons turn turns ih =>
    have hbody := loopBody_part callback timeoutNs data turn
    unfold spinFrom
    dsimp only
    split
    · exact hbody
    · exact hbody.append (ih _)

/-- The turns of `spin` up to the first timeout. -/
def beforeTimeout (turns : List (Turn Message)) : List (Turn Message) :=
  turns.takeWhile fun turn ↦ turn.wait ≠ .timeout

theorem spinFrom_deliversExactly_iff (timeoutNs : Int64) (data : Message)
    (turns : List (Turn Message)) :
    DeliversExactly (spinFrom callback timeoutNs data turns) ↔
      ∀ turn ∈ beforeTimeout turns, turn.Clean := by
  induction turns generalizing data with
  | nil => exact iff_of_true deliversExactly_nil nofun
  | cons turn turns ih =>
    have hbody := loopBody_deliversExactly_iff callback timeoutNs data turn
    unfold spinFrom beforeTimeout
    dsimp only
    by_cases htimeout : turn.wait = .timeout
    · rw [if_pos htimeout, hbody, List.takeWhile_cons_of_neg (by simpa using htimeout)]
      exact iff_of_true (.of_timeout htimeout) nofun
    · rw [if_neg htimeout, deliversExactly_append_iff (loopBody_part _ _ _ _) (spinFrom_part _ _ _ _),
        hbody, ih, List.takeWhile_cons_of_pos (by simpa using htimeout), List.forall_mem_cons]
      rfl

variable [Inhabited Message]

/-- The turns a call goes through before a timeout. -/
def Call.turns : Call Message → List (Turn Message)
  | .spin _ turns => beforeTimeout turns
  | .spinOnce _ turn => [turn]

theorem actions_part (call : Call Message) : Part (call.actions callback) := by
  cases call with
  | spin timeoutNs turns => exact spinFrom_part callback timeoutNs default turns
  | spinOnce timeoutNs turn => exact loopBody_part callback timeoutNs default turn

theorem actions_deliversExactly_iff (call : Call Message) :
    DeliversExactly (call.actions callback) ↔ ∀ turn ∈ call.turns, turn.Clean := by
  cases call with
  | spin timeoutNs turns => exact spinFrom_deliversExactly_iff callback timeoutNs default turns
  | spinOnce timeoutNs turn =>
    rw [Call.turns, List.forall_mem_singleton]
    exact loopBody_deliversExactly_iff callback timeoutNs default turn

theorem session_part (calls : List (Call Message)) : Part (session callback calls) := by
  induction calls with
  | nil => exact part_nil
  | cons call calls ih => exact (actions_part callback call).append ih

/-- Over any number of calls, the subscriber delivers exactly what it took if and only if no wait
and no take it makes fails. -/
theorem session_deliversExactly_iff_clean (calls : List (Call Message)) :
    DeliversExactly (session callback calls) ↔
      ∀ call ∈ calls, ∀ turn ∈ call.turns, turn.Clean := by
  induction calls with
  | nil => exact iff_of_true deliversExactly_nil nofun
  | cons call calls ih =>
    have hsplit : session callback (call :: calls) =
        call.actions callback ++ session callback calls := List.flatMap_cons
    rw [hsplit, deliversExactly_append_iff (actions_part callback call) (session_part callback calls),
      actions_deliversExactly_iff, ih, List.forall_mem_cons]

/-- A failed take hands the previous message to the callback again, and a failed wait is followed by
a take and a callback. -/
theorem session_failedTake_delivered :
    (session id [.spin 3000000000 [⟨.ok true, .ok 7⟩, ⟨.ok true, .error⟩]]).filterMap
        Action.delivered = [7, 7] ∧
      ¬ DeliversExactly (session id [.spin 3000000000 [⟨.ok true, .ok 7⟩, ⟨.ok true, .error⟩]]) ∧
      ¬ DeliversExactly (session id [.spinOnce 3000000000 ⟨.error, .ok 7⟩]) := by
  refine ⟨by decide, ?_, ?_⟩
  · rintro ⟨hdelivered, -⟩
    exact absurd hdelivered (by decide)
  · rintro ⟨-, hquiet⟩
    exact absurd (List.isChain_cons_cons.mp hquiet).1 (by decide)

end LayerPingPong.RclPubsub
