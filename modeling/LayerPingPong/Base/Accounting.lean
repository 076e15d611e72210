import Mathlib.Algebra.Order.Ring.Int
import Mathlib.Data.List.Basic

/-!
# Accounting for the outputs of a trace

A trace of actions is balanced when the values it puts out are the values it took in, in the same
order. If no part of a trace puts out fewer values than it takes in, the parts cannot make up for
one another: the whole is balanced exactly when each part is.
-/

namespace LayerPingPong.Accounting

variable {Action Value : Type} (input output : Action → Option Value)

/-- The outputs of the trace are its inputs, each once and in order. -/
def Balanced (trace : List Action) : Prop := trace.filterMap output = trace.filterMap input

/-- Every input is followed by some output, though not necessarily the same value. -/
def Covered (trace : List Action) : Prop :=
  (trace.filterMap input).length ≤ (trace.filterMap output).length

instance [DecidableEq Value] (trace : List Action) : Decidable (Balanced input output trace) :=
  inferInstanceAs (Decidable (_ = _))

variable {input output}

theorem covered_nil : Covered input output [] := le_rfl

theorem Covered.append {first second : List Action} (hfirst : Covered input output first)
    (hsecond : Covered input output second) : Covered input output (first ++ second) := by
  unfold Covered
  rw [List.filterMap_append, List.filterMap_append, List.length_append, List.length_append]
  exact Nat.add_le_add hfirst hsecond

theorem balanced_append_iff {first second : List Action} (hfirst : Covered input output first)
    (hsecond : Covered input output second) :
    Balanced input output (first ++ second) ↔
      Balanced input output first ∧ Balanced input output second := by
  unfold Balanced
  rw [List.filterMap_append, List.filterMap_append]
  constructor
  · intro h
    have htotal := congrArg List.length h
    rw [List.length_append, List.length_append] at htotal
    have hlength : (first.filterMap output).length = (first.filterMap input).length := by
      unfold Covered at hfirst hsecond
      omega
    exact List.append_inj h hlength
  · rintro ⟨hleft, hright⟩
    rw [hleft, hright]

section Parts

variable {Part : Type} {actions : Part → List Action}
  (h : ∀ part, Covered input output (actions part))

include h

theorem Covered.flatMap (parts : List Part) : Covered input output (parts.flatMap actions) := by
  induction parts with
  | nil => exact covered_nil
  | cons part parts ih => exact (h part).append ih

theorem balanced_flatMap_iff (parts : List Part) :
    Balanced input output (parts.flatMap actions) ↔
      ∀ part ∈ parts, Balanced input output (actions part) := by
  induction parts with
  | nil => simp [Balanced]
  | cons part parts ih =>
    rw [List.flatMap_cons, balanced_append_iff (h part) (Covered.flatMap h parts), ih,
      List.forall_mem_cons]

end Parts

/-! ## Two traces -/

/-- Parts that put out no more than others cannot make up for one another either. -/
theorem append_eq_append_iff_of_sublist {first second first' second' : List Value}
    (hfirst : first'.Sublist first) (hsecond : second'.Sublist second) :
    first ++ second = first' ++ second' ↔ first = first' ∧ second = second' := by
  constructor
  · intro h
    have htotal := congrArg List.length h
    rw [List.length_append, List.length_append] at htotal
    have hle := hfirst.length_le
    have hle' := hsecond.length_le
    have hlength : first.length = first'.length := by omega
    exact List.append_inj h hlength
  · rintro ⟨rfl, rfl⟩
    rfl

end LayerPingPong.Accounting
