import Mathlib.Data.List.Basic

/-!
# Traces that part

Two traces diverge when they agree up to some event and then show different ones.  What
follows cannot make up for it: traces that diverge differ however they go on.
-/

namespace CimArm

variable {α : Type}

/-- The traces agree for a while and then show different events. -/
def Diverges (t t' : List α) : Prop :=
  ∃ shared a b rest rest', t = shared ++ a :: rest ∧ t' = shared ++ b :: rest' ∧ a ≠ b

namespace Diverges

variable {t t' : List α}

theorem ne (diverges : Diverges t t') : t ≠ t' := by
  obtain ⟨shared, a, b, rest, rest', rfl, rfl, differ⟩ := diverges
  intro same
  exact differ (List.cons.inj (List.append_cancel_left same)).1

theorem of_ne {a b : α} (differ : a ≠ b) (rest rest' : List α) :
    Diverges (a :: rest) (b :: rest') :=
  ⟨[], a, b, rest, rest', rfl, rfl, differ⟩

theorem append (diverges : Diverges t t') (more more' : List α) :
    Diverges (t ++ more) (t' ++ more') := by
  obtain ⟨shared, a, b, rest, rest', rfl, rfl, differ⟩ := diverges
  exact ⟨shared, a, b, rest ++ more, rest' ++ more', by simp, by simp, differ⟩

theorem prepend (diverges : Diverges t t') (before : List α) :
    Diverges (before ++ t) (before ++ t') := by
  obtain ⟨shared, a, b, rest, rest', rfl, rfl, differ⟩ := diverges
  exact ⟨before ++ shared, a, b, rest, rest', by simp, by simp, differ⟩

end Diverges

end CimArm
