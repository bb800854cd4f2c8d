import Mathlib.Logic.Relation

/-! Runs of a transition system: what every step preserves holds wherever a run gets. -/

namespace Pyomb

theorem invariant_of_run {S : Type*} {step : S → S → Prop} {Inv : S → Prop}
    (hstep : ∀ s t, Inv s → step s t → Inv t) {s t : S} (hs : Inv s)
    (hrun : Relation.ReflTransGen step s t) : Inv t := by
  induction hrun with
  | refl => exact hs
  | tail _ h ih => exact hstep _ _ ih h

end Pyomb
