import Mathlib.Logic.Function.Iterate
import Mathlib.Tactic.SplitIfs

/-!
# Progress of a deterministic machine

A machine is a step function that is iterated.  `Eventually step P s` says that some number of
steps leads from `s` to a state with `P`, and `Forever step P s` that every number of steps
does.  `runWhile` steps as long as a condition holds, for so many rounds at most; where it
ends does not depend on how many there are to spare.
-/

namespace CimArm.Progress

open Function

variable {S : Type} (step : S → S)

def Eventually (P : S → Prop) (s : S) : Prop := ∃ k : Nat, P (step^[k] s)

def Forever (P : S → Prop) (s : S) : Prop := ∀ k : Nat, P (step^[k] s)

variable {step} {P Q : S → Prop} {s : S}

theorem Eventually.now (here : P s) : Eventually step P s := ⟨0, here⟩

theorem Eventually.next (later : Eventually step P (step s)) : Eventually step P s := by
  rcases later with ⟨k, reached⟩
  exact ⟨k + 1, by rwa [iterate_succ_apply]⟩

theorem Eventually.then (first : Eventually step P s)
    (second : ∀ t, P t → Eventually step Q t) : Eventually step Q s := by
  rcases first with ⟨k, reached⟩
  rcases second _ reached with ⟨l, arrived⟩
  exact ⟨l + k, by rwa [iterate_add_apply]⟩

theorem Forever.of_invariant (kept : ∀ s, P s → P (step s)) (start : P s) : Forever step P s := by
  intro k
  induction k generalizing s with
  | zero => exact start
  | succ k ih =>
    rw [iterate_succ_apply]
    exact ih (kept s start)

theorem Forever.mono (implies : ∀ s, P s → Q s) (always : Forever step P s) :
    Forever step Q s := by
  intro k
  exact implies _ (always k)

theorem Forever.not_eventually (always : Forever step P s) (apart : ∀ s, P s → ¬Q s) :
    ¬Eventually step Q s := by
  rintro ⟨k, reached⟩
  exact apart _ (always k) reached

/-! ## Loops with a condition -/

/-- `while (go) { step }`, with fuel. -/
def runWhile (go : S → Bool) (step : S → S) : Nat → S → Option S
  | 0, _ => none
  | fuel + 1, s => if go s then runWhile go step fuel (step s) else some s

variable {go : S → Bool} {t : S}

theorem runWhile_mono {fuel more : Nat} (ends : runWhile go step fuel s = some t)
    (enough : fuel ≤ more) : runWhile go step more s = some t := by
  induction fuel generalizing s more with
  | zero => cases ends
  | succ fuel ih =>
    obtain ⟨more, rfl⟩ : ∃ more', more = more' + 1 := ⟨more - 1, by omega⟩
    rw [runWhile] at ends ⊢
    split_ifs at ends ⊢ with goes
    · exact ih ends (Nat.le_of_succ_le_succ enough)
    · exact ends

theorem exists_runWhile_iff : (∃ fuel, runWhile go step fuel s = some t) ↔
    ∃ k, step^[k] s = t ∧ go t = false ∧ ∀ j < k, go (step^[j] s) = true := by
  constructor
  · rintro ⟨fuel, ends⟩
    induction fuel generalizing s with
    | zero => cases ends
    | succ fuel ih =>
      rw [runWhile] at ends
      split_ifs at ends with goes
      · obtain ⟨k, reached, stops, before⟩ := ih ends
        refine ⟨k + 1, reached, stops, fun j hj => ?_⟩
        cases j with
        | zero => exact goes
        | succ j => exact before j (Nat.lt_of_succ_lt_succ hj)
      · exact ⟨0, Option.some.inj ends, by simpa [Option.some.inj ends] using goes, by simp⟩
  · rintro ⟨k, reached, stops, before⟩
    refine ⟨k + 1, ?_⟩
    induction k generalizing s with
    | zero =>
      obtain rfl : s = t := reached
      rw [runWhile, if_neg (by simp [stops])]
    | succ k ih =>
      have goes : go s = true := before 0 (Nat.succ_pos k)
      rw [runWhile, if_pos goes]
      exact ih reached fun j hj => before (j + 1) (Nat.succ_lt_succ hj)

end CimArm.Progress
