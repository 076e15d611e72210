import Mathlib.Data.List.Forall2
import LayerPingPong.RclPubsub.Delivery
import LayerPingPong.RmwPubsub.Delivery

/-!
# The rcl subscriber against the rmw subscriber

Both subscribers run the same sessions, the one on `rcl_wait` and `rcl_take` and the other on
`rmw_wait` and `rmw_take_with_info`. When these report the same, the rmw subscriber never delivers
anything but what the rcl subscriber delivers. It stops at the first turn without a successful take,
and the rcl subscriber goes on to the next timeout.
-/

namespace LayerPingPong.LayerPubsubCommon

open Accounting

variable {Message : Type}

/-- The waits end in the same way. -/
inductive SameWait : RclPubsub.WaitOutcome → RmwPubsub.WaitOutcome → Prop
  | ok (ready : Bool) : SameWait (.ok ready) (.ok ready)
  | timeout : SameWait .timeout .timeout
  | error (text : String) : SameWait .error (.error text)

/-- The takes return the same message or none. `rcl_take` fails when there is nothing to take. -/
inductive SameTake : RclPubsub.TakeOutcome Message → RmwPubsub.TakeOutcome Message → Prop
  | message (message : Message) : SameTake (.ok message) (.ok (some message))
  | nothing : SameTake .error (.ok none)
  | error (text : String) : SameTake .error (.error text)

structure SameTurn (turn : RclPubsub.Turn Message) (turn' : RmwPubsub.Turn Message) : Prop where
  wait : SameWait turn.wait turn'.wait
  take : SameTake turn.take turn'.take

/-- The same call with the same timeout, and the middleware reports the same in each turn. -/
inductive SameCall : RclPubsub.Call Message → RmwPubsub.Call Message → Prop
  | spin (timeout : Int64) {turns : List (RclPubsub.Turn Message)}
      {turns' : List (RmwPubsub.Turn Message)} : List.Forall₂ SameTurn turns turns' →
      SameCall (.spin timeout turns) (.spin timeout turns')
  | spinOnce (timeout : Int64) {turn : RclPubsub.Turn Message} {turn' : RmwPubsub.Turn Message} :
      SameTurn turn turn' → SameCall (.spinOnce timeout turn) (.spinOnce timeout turn')

/-- The wait keeps the entry, or fails and leaves it. -/
def Offers (turn : RmwPubsub.Turn Message) : Prop :=
  turn.wait = .ok true ∨ ∃ text, turn.wait = .error text

/-- From the first turn without a successful take to the first timeout, no wait leaves the entry
non-null. -/
def NothingMissed (turns : List (RmwPubsub.Turn Message)) : Prop :=
  ∀ turn ∈ (turns.dropWhile RmwPubsub.Turn.succeeds).takeWhile fun turn ↦ turn.wait ≠ .timeout,
    ¬ Offers turn

theorem nothingMissed_nil : NothingMissed ([] : List (RmwPubsub.Turn Message)) :=
  fun _ hmem ↦ absurd hmem List.not_mem_nil

/-- The turns that the middleware reports to a call. -/
def turnsOf : RmwPubsub.Call Message → List (RmwPubsub.Turn Message)
  | .spin _ turns => turns
  | .spinOnce _ turn => [turn]

/-! ## One turn -/

section Turn

variable {turn : RclPubsub.Turn Message} {turn' : RmwPubsub.Turn Message}

theorem SameTurn.ready_iff (h : SameTurn turn turn') :
    RclPubsub.entryAfterWait true turn.wait = true ↔ Offers turn' := by
  obtain ⟨wait, take⟩ := turn
  obtain ⟨wait', take'⟩ := turn'
  obtain ⟨hwait, -⟩ := h
  cases hwait <;> simp [Offers, RclPubsub.entryAfterWait]

theorem SameTurn.timeout_iff (h : SameTurn turn turn') :
    turn.wait = .timeout ↔ turn'.wait = .timeout := by
  obtain ⟨wait, take⟩ := turn
  obtain ⟨wait', take'⟩ := turn'
  obtain ⟨hwait, -⟩ := h
  cases hwait <;> simp

/-- A successful take leaves the same in `data`. -/
theorem SameTurn.fill_eq (h : SameTurn turn turn') {taken : Option Message}
    (htake : turn'.take = .ok taken) (data : Message) : turn.take.fill data = taken.getD data := by
  obtain ⟨wait, take⟩ := turn
  obtain ⟨wait', take'⟩ := turn'
  obtain ⟨-, hsame⟩ := h
  cases hsame with
  | message message | nothing =>
    cases htake
    rfl
  | error text => cases htake

end Turn

/-! ## The loop -/

variable (callback : Message → Message)

/-- The rcl subscriber delivers something in each turn that leaves the entry non-null. -/
theorem delivered_eq_nil_iff (timeoutNs : Int64) (data : Message)
    {turns : List (RclPubsub.Turn Message)} {turns' : List (RmwPubsub.Turn Message)}
    (h : List.Forall₂ SameTurn turns turns') :
    (RclPubsub.spinFrom callback timeoutNs data turns).filterMap RclPubsub.Action.delivered = [] ↔
      ∀ turn ∈ turns'.takeWhile fun turn ↦ turn.wait ≠ .timeout, ¬ Offers turn := by
  induction h generalizing data with
  | nil => exact iff_of_true rfl fun _ hmem ↦ absurd hmem List.not_mem_nil
  | @cons turn turn' turns turns' hturn _ ih =>
    unfold RclPubsub.spinFrom
    dsimp only
    by_cases htimeout : turn.wait = .timeout
    · have htimeout' := hturn.timeout_iff.mp htimeout
      rw [if_pos htimeout, List.takeWhile_cons_of_neg (by simpa using htimeout')]
      exact iff_of_true (by simp [RclPubsub.loopBody, htimeout, RclPubsub.Action.delivered])
        fun _ hmem ↦ absurd hmem List.not_mem_nil
    · have htimeout' : turn'.wait ≠ .timeout := fun h ↦ htimeout (hturn.timeout_iff.mpr h)
      rw [if_neg htimeout, List.takeWhile_cons_of_pos (by simpa using htimeout'),
        List.forall_mem_cons, List.filterMap_append, List.append_eq_nil_iff, ih]
      apply and_congr_left'
      rw [← hturn.ready_iff]
      by_cases hready : RclPubsub.entryAfterWait true turn.wait = true
      · rw [RclPubsub.loopBody_of_ready callback hready]
        simp [hready, RclPubsub.Action.delivered]
      · rw [RclPubsub.loopBody_of_not_ready callback hready]
        simp [hready, RclPubsub.Action.delivered]

/-- What the rmw loop delivers comes first in what the rcl loop delivers, and is all of it if no
wait after that leaves the entry non-null. -/
theorem spinFrom_agree (timeoutNs : Int64) (timeout : RmwPubsub.RmwTime) (data : Message)
    {turns : List (RclPubsub.Turn Message)} {turns' : List (RmwPubsub.Turn Message)}
    (h : List.Forall₂ SameTurn turns turns') :
    ∃ rest, (RclPubsub.spinFrom callback timeoutNs data turns).filterMap
          RclPubsub.Action.delivered =
        (RmwPubsub.spinFrom callback true timeout data turns').filterMap
          RmwPubsub.Action.delivered ++ rest ∧
      (rest = [] ↔ NothingMissed turns') := by
  induction h generalizing data with
  | nil => exact ⟨[], rfl, iff_of_true rfl nothingMissed_nil⟩
  | @cons turn turn' turns turns' hturn hturns ih =>
    unfold NothingMissed
    by_cases hsucceeds : turn'.succeeds = true
    · obtain ⟨hwait, taken, htake⟩ := RmwPubsub.Turn.succeeds_iff.mp hsucceeds
      have hready : RclPubsub.entryAfterWait true turn.wait = true :=
        hturn.ready_iff.mpr (.inl hwait)
      have htimeout : turn.wait ≠ .timeout := by
        intro htimeout
        rw [htimeout] at hready
        cases hready
      obtain ⟨rest, hrest, hiff⟩ := ih (callback (taken.getD data))
      refine ⟨rest, ?_, ?_⟩
      · rw [RmwPubsub.spinFrom_cons_take callback hsucceeds,
          RmwPubsub.loopBody_of_take callback hwait htake, RclPubsub.spinFrom, if_neg htimeout,
          RclPubsub.loopBody_of_ready callback hready, hturn.fill_eq htake]
        exact congrArg (taken.getD data :: ·) hrest
      · rw [List.dropWhile_cons_of_pos hsucceeds]
        exact hiff
    · refine ⟨(RclPubsub.spinFrom callback timeoutNs data (turn :: turns)).filterMap
        RclPubsub.Action.delivered, ?_, ?_⟩
      · rw [(RmwPubsub.spinFrom_cons_idle callback hsucceeds timeout data turns').delivered,
          List.nil_append]
      · rw [List.dropWhile_cons_of_neg hsucceeds]
        exact delivered_eq_nil_iff callback timeoutNs data (.cons hturn hturns)

/-! ## Whole sessions -/

variable [Inhabited Message]

theorem actions_agree {call : RclPubsub.Call Message} {call' : RmwPubsub.Call Message}
    (h : SameCall call call') :
    ∃ rest, (call.actions callback).filterMap RclPubsub.Action.delivered =
        (call'.actions callback).filterMap RmwPubsub.Action.delivered ++ rest ∧
      (rest = [] ↔ NothingMissed (turnsOf call')) := by
  cases h with
  | spin timeout hturns =>
    exact spinFrom_agree callback timeout (RmwPubsub.waitTimeout timeout) default hturns
  | @spinOnce timeout turn turn' hturn =>
    obtain ⟨rest, hrest, hiff⟩ := spinFrom_agree callback timeout (RmwPubsub.waitTimeout timeout)
      default (.cons hturn .nil)
    refine ⟨rest, ?_, hiff⟩
    simp only [RclPubsub.spinFrom, RmwPubsub.spinFrom, List.append_nil, ite_self] at hrest
    exact hrest

/-- In the same sessions, the rmw subscriber delivers part of what the rcl subscriber delivers, and
all of it exactly if in no call a wait leaves the entry non-null between the first turn without a
successful take and the first timeout. -/
theorem sessions_agree_iff {calls : List (RclPubsub.Call Message)}
    {calls' : List (RmwPubsub.Call Message)} (h : List.Forall₂ SameCall calls calls') :
    ((RmwPubsub.session callback calls').filterMap RmwPubsub.Action.delivered).Sublist
      ((RclPubsub.session callback calls).filterMap RclPubsub.Action.delivered) ∧
    ((RclPubsub.session callback calls).filterMap RclPubsub.Action.delivered =
        (RmwPubsub.session callback calls').filterMap RmwPubsub.Action.delivered ↔
      ∀ call ∈ calls', NothingMissed (turnsOf call)) := by
  induction h with
  | nil => exact ⟨.slnil, iff_of_true rfl fun _ hmem ↦ absurd hmem List.not_mem_nil⟩
  | @cons call call' calls calls' hcall _ ih =>
    obtain ⟨hsublist, hiff⟩ := ih
    obtain ⟨rest, hrest, hnone⟩ := actions_agree callback hcall
    have hfirst : ((call'.actions callback).filterMap RmwPubsub.Action.delivered).Sublist
        ((call.actions callback).filterMap RclPubsub.Action.delivered) := by
      rw [hrest]
      exact List.sublist_append_left _ _
    have hall : (call.actions callback).filterMap RclPubsub.Action.delivered =
        (call'.actions callback).filterMap RmwPubsub.Action.delivered ↔
          NothingMissed (turnsOf call') := by
      rw [← hnone, hrest, List.append_right_eq_self]
    unfold RclPubsub.session RmwPubsub.session at hsublist hiff ⊢
    rw [List.flatMap_cons, List.flatMap_cons, List.filterMap_append, List.filterMap_append,
      append_eq_append_iff_of_sublist hfirst hsublist, List.forall_mem_cons, hall, hiff]
    exact ⟨hfirst.append hsublist, Iff.rfl⟩

/-- After a wait that is not for the subscription, only the rcl subscriber takes the next message.
A failed wait at the end makes it deliver once more. -/
theorem sessions_agree_iff_two :
    let turns : List (RclPubsub.Turn ℕ) :=
      [⟨.ok true, .ok 7⟩, ⟨.ok false, .error⟩, ⟨.ok true, .ok 8⟩, ⟨.timeout, .error⟩]
    let turns' : List (RmwPubsub.Turn ℕ) :=
      [⟨.ok true, .ok (some 7)⟩, ⟨.ok false, .ok none⟩, ⟨.ok true, .ok (some 8)⟩,
        ⟨.timeout, .ok none⟩]
    (RclPubsub.session id [.spin 3000000000 turns]).filterMap RclPubsub.Action.delivered ≠
      (RmwPubsub.session id [.spin 3000000000 turns']).filterMap RmwPubsub.Action.delivered := by
  intro turns turns'
  have hturns : List.Forall₂ SameTurn turns turns' :=
    .cons ⟨.ok true, .message 7⟩ (.cons ⟨.ok false, .nothing⟩
      (.cons ⟨.ok true, .message 8⟩ (.cons ⟨.timeout, .nothing⟩ .nil)))
  have hcalls : List.Forall₂ SameCall [RclPubsub.Call.spin 3000000000 turns]
      [RmwPubsub.Call.spin 3000000000 turns'] := .cons (.spin 3000000000 hturns) .nil
  intro h
  have hnothing := (sessions_agree_iff id hcalls).2.mp h _ List.mem_cons_self
  have hmissed : (⟨.ok true, .ok (some 8)⟩ : RmwPubsub.Turn ℕ) ∈
      (turns'.dropWhile RmwPubsub.Turn.succeeds).takeWhile fun turn ↦ turn.wait ≠ .timeout := by
    decide
  exact hnothing _ hmissed (.inl rfl)

end LayerPingPong.LayerPubsubCommon
