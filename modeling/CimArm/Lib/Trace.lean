/-!
# Properties along a run

A machine is a function from operations to state changes; a run performs a list of
operations in turn.  `Always step P ops s` says that `P` holds of the state before
every operation of the run, and `Always.of_invariant` is the induction over runs,
done once: an invariant that every operation keeps as long as the run meets a
condition gives what the invariant implies at each step.
-/

namespace CimArm.Trace

variable {Op S : Type} (step : Op → S → S)

/-- `P` holds of the state before every operation of a run. -/
def Always (P : S → Op → Prop) : List Op → S → Prop
  | [], _ => True
  | op :: ops, s => P s op ∧ Always P ops (step op s)

/-- The state after a run. -/
def after : List Op → S → S
  | [], s => s
  | op :: ops, s => after ops (step op s)

instance decidableAlways (P : S → Op → Prop) [∀ s op, Decidable (P s op)] :
    (ops : List Op) → (s : S) → Decidable (Always step P ops s)
  | [], _ => isTrue trivial
  | op :: ops, s =>
    have := decidableAlways P ops (step op s)
    inferInstanceAs (Decidable (_ ∧ _))

variable {step}

variable (ops : List Op) {P : S → Op → Prop} (Inv : S → Prop) {Ok : S → Op → Prop}

theorem after_append (more : List Op) (s : S) :
    after step (ops ++ more) s = after step more (after step ops s) := by
  induction ops generalizing s with
  | nil => rfl
  | cons op ops ih => exact ih (step op s)

theorem Always.append_iff (more : List Op) (s : S) :
    Always step P (ops ++ more) s ↔ Always step P ops s ∧ Always step P more (after step ops s) := by
  induction ops generalizing s with
  | nil => exact ⟨fun rest => ⟨trivial, rest⟩, fun both => both.2⟩
  | cons op ops ih =>
    rw [List.cons_append]
    constructor
    · rintro ⟨here, rest⟩
      obtain ⟨rest, rest'⟩ := (ih (step op s)).1 rest
      exact ⟨⟨here, rest⟩, rest'⟩
    · rintro ⟨⟨here, rest⟩, rest'⟩
      exact ⟨here, (ih (step op s)).2 ⟨rest, rest'⟩⟩

theorem after_of_invariant (kept : ∀ (s : S) (op : Op), Inv s → Inv (step op s)) (ops : List Op)
    {s : S} (start : Inv s) : Inv (after step ops s) := by
  induction ops generalizing s with
  | nil => exact start
  | cons op ops ih => exact ih (kept s op start)

theorem Always.unconditional (s : S) : Always step (fun _ _ => True) ops s := by
  induction ops generalizing s with
  | nil => trivial
  | cons op ops ih => exact ⟨trivial, ih _⟩

theorem Always.forall_iff {P : Op → Prop} (s : S) :
    Always step (fun _ op => P op) ops s ↔ ∀ op ∈ ops, P op := by
  induction ops generalizing s with
  | nil => simp [Always]
  | cons op ops ih => rw [Always, ih, List.forall_mem_cons]

/-- The induction over runs: each operation that meets the condition keeps the
invariant and shows the property. -/
theorem Always.of_invariant (kept : ∀ {s : S} {op : Op}, Inv s → Ok s op → Inv (step op s) ∧ P s op)
    {ops : List Op} {s : S} (start : Inv s) (ok : Always step Ok ops s) : Always step P ops s := by
  induction ops generalizing s with
  | nil => trivial
  | cons op ops ih =>
    rcases kept start ok.1 with ⟨next, shown⟩
    exact ⟨shown, ih next ok.2⟩

theorem Always.after_of_invariant (kept : ∀ {s : S} {op : Op}, Inv s → Ok s op → Inv (step op s))
    {ops : List Op} {s : S} (start : Inv s) (ok : Always step Ok ops s) :
    Inv (after step ops s) := by
  induction ops generalizing s with
  | nil => exact start
  | cons op ops ih => exact ih (kept start ok.1) ok.2

/-- Where, under an invariant, two conditions amount to the same and either keeps it, the runs
that meet them are the same. -/
theorem Always.congr_of_invariant {Q : S → Op → Prop}
    (same : ∀ {s : S} {op : Op}, Inv s → Ok s op → (P s op ↔ Q s op))
    (kept : ∀ {s : S} {op : Op}, Inv s → Ok s op → Q s op → Inv (step op s)) {ops : List Op} {s : S}
    (start : Inv s) (ok : Always step Ok ops s) : Always step P ops s ↔ Always step Q ops s := by
  induction ops generalizing s with
  | nil => exact Iff.rfl
  | cons op ops ih =>
    have here := same start ok.1
    constructor
    · rintro ⟨shown, rest⟩
      exact ⟨here.1 shown, (ih (kept start ok.1 (here.1 shown)) ok.2).1 rest⟩
    · rintro ⟨meets, rest⟩
      exact ⟨here.2 meets, (ih (kept start ok.1 meets) ok.2).2 rest⟩

end CimArm.Trace
