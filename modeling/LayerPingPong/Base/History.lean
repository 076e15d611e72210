import Mathlib.Data.List.DropRight
import Mathlib.Data.List.ReduceOption
import LayerPingPong.Base.Simulation

/-!
# Queues with a bounded history

A reader keeps the last elements that arrived, up to a depth, and hands them over in order. An
element that arrives at a full history drives out the oldest one. A reader without an element can
give up waiting for one.
-/

namespace LayerPingPong.History

open TransitionSystem

/-- The unread elements, and the record of what arrived and what was handed over. -/
structure Queue (α : Type) where
  unread : List α
  arrived : List α
  delivered : List α
  deriving DecidableEq, Repr

inductive Event (α : Type) where
  | arrive (element : α)
  | deliver
  | giveUp
  deriving DecidableEq, Repr

variable {α : Type}

def Queue.empty : Queue α where
  unread := []
  arrived := []
  delivered := []

variable (depth : ℕ)

/-- The history after an arrival. -/
def keepLast (unread : List α) (element : α) : List α := (unread ++ [element]).rtake depth

def step (queue : Queue α) : Event α → Option (Queue α)
  | .arrive element => some { queue with
      unread := keepLast depth queue.unread element
      arrived := queue.arrived ++ [element] }
  | .deliver =>
    match queue.unread with
    | [] => none
    | element :: unread => some { queue with
        unread
        delivered := queue.delivered ++ [element] }
  | .giveUp => some queue

def reader : System (Queue α) (Event α) where
  initial queue := queue = .empty
  step := step depth

/-- Nobody gives up while an element is unread. -/
def Patient (queue : Queue α) : Event α → Prop
  | .giveUp => queue.unread = []
  | _ => True

instance (queue : Queue α) (event : Event α) : Decidable (Patient queue event) :=
  match event with
  | .giveUp => inferInstanceAs (Decidable (queue.unread = []))
  | .arrive _ | .deliver => inferInstanceAs (Decidable True)

/-- How the waits of a reader end: with an element or without. -/
def outcome (queue : Queue α) : Event α → List (Option α)
  | .arrive _ => []
  | .deliver => (queue.unread.head?.map some).toList
  | .giveUp => [none]

/-! ## The history -/

section Depth

variable {depth} {unread : List α} {element : α}

theorem keepLast_eq_drop (hdepth : 0 < depth) :
    keepLast depth unread element = unread.drop (unread.length + 1 - depth) ++ [element] := by
  rw [keepLast, List.rtake, List.length_append, List.length_singleton]
  apply List.drop_append_of_le_length
  omega

theorem keepLast_sublist : (keepLast depth unread element).Sublist (unread ++ [element]) :=
  List.drop_sublist _ _

theorem length_keepLast_le : (keepLast depth unread element).length ≤ depth := by
  rw [keepLast, List.rtake, List.length_drop]
  omega

theorem keepLast_of_lt (h : unread.length < depth) :
    keepLast depth unread element = unread ++ [element] := by
  rw [keepLast, List.rtake, List.length_append, List.length_singleton, Nat.sub_eq_zero_of_le h,
    List.drop_zero]

end Depth

/-! ## Order and losses -/

/-- What is handed over and what is unread has arrived in this order, and without a full history
nothing is missing. -/
structure Ordered (queue : Queue α) : Prop where
  sublist : (queue.delivered ++ queue.unread).Sublist queue.arrived
  bounded : queue.unread.length ≤ depth
  complete : queue.arrived.length ≤ depth → queue.delivered ++ queue.unread = queue.arrived

variable {depth}

theorem ordered_empty : Ordered depth (.empty : Queue α) where
  sublist := List.Sublist.refl _
  bounded := Nat.zero_le _
  complete _ := rfl

theorem Ordered.preserved {queue next : Queue α} {event : Event α} (h : Ordered depth queue)
    (hstep : step depth queue event = some next) : Ordered depth next := by
  cases event with
  | arrive element =>
    cases hstep
    refine ⟨?_, length_keepLast_le, fun hroom ↦ ?_⟩
    · calc
        List.Sublist _ (queue.delivered ++ (queue.unread ++ [element])) :=
          List.Sublist.append_left keepLast_sublist _
        _ = queue.delivered ++ queue.unread ++ [element] := (List.append_assoc _ _ _).symm
        List.Sublist _ (queue.arrived ++ [element]) := h.sublist.append_right _
    · rw [List.length_append, List.length_singleton] at hroom
      have hcomplete := h.complete (Nat.le_of_succ_le hroom)
      have hlt : queue.unread.length < depth := by
        rw [← hcomplete, List.length_append] at hroom
        omega
      change queue.delivered ++ keepLast depth queue.unread element = queue.arrived ++ [element]
      rw [keepLast_of_lt hlt, ← List.append_assoc, hcomplete]
  | deliver =>
    dsimp only [step] at hstep
    split at hstep
    · cases hstep
    · rename_i element unread hunread
      cases hstep
      have hmoved : queue.delivered ++ [element] ++ unread = queue.delivered ++ queue.unread := by
        rw [hunread, List.append_assoc, List.singleton_append]
      obtain ⟨hsublist, hbounded, hcomplete⟩ := h
      rw [← hmoved] at hsublist hcomplete
      rw [hunread, List.length_cons] at hbounded
      exact ⟨hsublist, Nat.le_of_succ_le hbounded, hcomplete⟩
  | giveUp =>
    cases hstep
    exact h

/-- What is handed over is what the waits ended with. -/
theorem delivered_eq_append {queue last : Queue α} {happened : List (Event α)}
    (hrun : (reader depth).run queue happened = some last) :
    last.delivered =
      queue.delivered ++ ((reader depth).reports outcome queue happened).reduceOption := by
  induction happened generalizing queue with
  | nil =>
    cases hrun
    exact (List.append_nil _).symm
  | cons event happened ih =>
    obtain ⟨next, hnext, hrest⟩ := Option.bind_eq_some_iff.mp hrun
    rw [ih hrest, System.reports, hnext, List.reduceOption_append, ← List.append_assoc]
    congr 1
    cases event with
    | arrive element | giveUp =>
      cases hnext
      exact (List.append_nil _).symm
    | deliver =>
      dsimp only [reader, step] at hnext
      split at hnext
      · cases hnext
      · rename_i element unread hunread
        cases hnext
        simp [outcome, hunread, List.reduceOption]

theorem ordered_of_reachable {queue : Queue α} (h : (reader depth).Reachable queue) :
    Ordered depth queue := by
  refine h.invariant (Ordered depth) ?_ fun _ _ _ hold _ hstep ↦ hold.preserved hstep
  rintro _ rfl
  exact ordered_empty

end LayerPingPong.History
