import Mathlib.Data.List.Nodup
import Mathlib.Logic.Function.Basic

/-!
# Announced changes

Values are kept by key and compared with a report one key at a time: where the report says
something else, the value is replaced and the change announced.  Over keys of which none comes
twice, each change is announced once (`observeAll_announced`), and a report that was kept is
announced no more (`observeAll_kept`).

A trouble and its end are announced in turn: `Alternates` is said of a list of announcements
of which some are of one kind and the others of the other.
-/

namespace CimArm.Changes

open List Function

variable {α β : Type}

section

variable [DecidableEq β]

/-- What there is to announce of some keys. -/
def changes (report value : α → β) (keys : List α) : List (α × β) :=
  keys.filterMap fun key => if report key ≠ value key then some (key, report key) else none

theorem changes_cons (report value : α → β) (key : α) (keys : List α) :
    changes report value (key :: keys) =
      if report key ≠ value key then (key, report key) :: changes report value keys
      else changes report value keys := by
  unfold changes
  rw [filterMap_cons]
  by_cases changed : report key ≠ value key
  · rw [if_pos changed, if_pos changed]
  · rw [if_neg changed, if_neg changed]

/-- A change is announced if and only if its key was looked at and said something else. -/
theorem mem_changes {report value : α → β} {keys : List α} {key : α} {v : β} :
    (key, v) ∈ changes report value keys ↔ key ∈ keys ∧ v = report key ∧ v ≠ value key := by
  unfold changes
  rw [mem_filterMap]
  constructor
  · intro announced
    obtain ⟨first, among, announced⟩ := announced
    split at announced
    · next changed =>
      obtain ⟨rfl, rfl⟩ := Prod.mk.inj (Option.some.inj announced)
      exact ⟨among, rfl, changed⟩
    · exact absurd announced (by simp)
  · intro ⟨among, same, changed⟩
    subst same
    exact ⟨key, among, if_pos changed⟩

theorem nodup_changes {report value : α → β} {keys : List α} (distinct : keys.Nodup) :
    ((changes report value keys).map Prod.fst).Nodup := by
  have sub : ((changes report value keys).map Prod.fst).Sublist keys := by
    induction keys with
    | nil => exact List.Sublist.slnil
    | cons first keys ih =>
      have rest := ih (nodup_cons.mp distinct).2
      rw [changes_cons]
      by_cases changed : report first ≠ value first
      · rw [if_pos changed]
        exact rest.cons_cons first
      · rw [if_neg changed]
        exact rest.cons first
  exact sub.nodup distinct

end

section

variable [DecidableEq α] [DecidableEq β]

/-- The values kept, and the changes announced so far. -/
structure Watched (α β : Type) : Type where
  value : α → β
  announced : List (α × β)

def Watched.observe (w : Watched α β) (key : α) (v : β) : Watched α β :=
  if v ≠ w.value key then
    { value := Function.update w.value key v, announced := w.announced ++ [(key, v)] }
  else w

/-- A report is compared key by key. -/
def Watched.observeAll (report : α → β) (keys : List α) (w : Watched α β) : Watched α β :=
  keys.foldl (fun w key => w.observe key (report key)) w

namespace Watched

variable (report : α → β) {keys : List α} (w : Watched α β)

@[simp] theorem observeAll_nil : w.observeAll report [] = w := rfl

variable (key : α)

@[simp] theorem observeAll_cons (keys : List α) : w.observeAll report (key :: keys) =
      (w.observe key (report key)).observeAll report keys :=
  rfl

theorem observeAll_append (keys later : List α) :
    w.observeAll report (keys ++ later) = (w.observeAll report keys).observeAll report later :=
  foldl_append

theorem observe_value (v : β) : (w.observe key v).value = Function.update w.value key v := by
  unfold observe
  split
  · rfl
  · next same => rw [not_not.mp same, update_eq_self]

theorem observe_same {key : α} {v : β} (same : v = w.value key) : w.observe key v = w :=
  if_neg (not_not.mpr same)

theorem observeAll_value : (w.observeAll report keys).value key =
    if key ∈ keys then report key else w.value key := by
  induction keys generalizing w with
  | nil => rfl
  | cons first keys ih =>
    rw [observeAll_cons, ih, observe_value]
    by_cases later : key ∈ keys
    · rw [if_pos later, if_pos (mem_cons_of_mem _ later)]
    · rw [if_neg later]
      by_cases here : key = first
      · rw [here, update_self, if_pos mem_cons_self]
      · rw [update_of_ne here, if_neg (not_mem_cons_of_ne_of_not_mem here later)]

theorem observeAll_announced (distinct : keys.Nodup) :
    (w.observeAll report keys).announced = w.announced ++ changes report w.value keys := by
  induction keys generalizing w with
  | nil => exact (append_nil _).symm
  | cons first keys ih =>
    obtain ⟨absent, rest⟩ := nodup_cons.mp distinct
    have same : changes report (w.observe first (report first)).value keys =
        changes report w.value keys := by
      refine filterMap_congr fun key among => ?_
      have other : key ≠ first := fun here => absent (here ▸ among)
      rw [observe_value, update_of_ne other]
    rw [observeAll_cons, ih _ rest, same, changes_cons]
    by_cases changed : report first ≠ w.value first
    · rw [observe, if_pos changed, if_pos changed, append_assoc, singleton_append]
    · rw [observe, if_neg changed, if_neg changed]

theorem observeAll_kept (kept : ∀ key ∈ keys, report key = w.value key) :
    w.observeAll report keys = w := by
  induction keys with
  | nil => rfl
  | cons first keys ih =>
    rw [observeAll_cons, observe_same w (kept first mem_cons_self)]
    exact ih fun key among => kept key (mem_cons_of_mem _ among)

end Watched

end

/-! ## Alternation -/

/-- Announcements of two kinds in turn; the first of them is of the kind given. -/
def Alternates (kind : β → Bool) : Bool → List β → Prop
  | _, [] => True
  | next, b :: rest => kind b = next ∧ Alternates kind (!next) rest

/-- The kind that comes next. -/
def turn (next : Bool) (announced : List β) : Bool :=
  if announced.length % 2 = 0 then next else !next

theorem turn_cons (next : Bool) (b : β) (rest : List β) :
    turn next (b :: rest) = turn (!next) rest := by
  unfold turn
  rw [length_cons]
  rcases Nat.mod_two_eq_zero_or_one rest.length with even | odd
  · rw [if_neg (by omega), if_pos even]
  · rw [if_pos (by omega), if_neg (by omega), Bool.not_not]

theorem turn_append (next : Bool) (first later : List β) :
    turn next (first ++ later) = turn (turn next first) later := by
  induction first generalizing next with
  | nil => rfl
  | cons b first ih => rw [cons_append, turn_cons, turn_cons, ih]

theorem Alternates.append {kind : β → Bool} {next : Bool} {first later : List β}
    (before : Alternates kind next first) (after : Alternates kind (turn next first) later) :
    Alternates kind next (first ++ later) := by
  induction first generalizing next with
  | nil => exact after
  | cons b first ih =>
    obtain ⟨here, rest⟩ := before
    rw [turn_cons] at after
    exact ⟨here, ih rest after⟩

end CimArm.Changes
