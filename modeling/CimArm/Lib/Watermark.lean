import Mathlib.Data.List.Infix
import Mathlib.Data.List.Pairwise

/-!
# Sending records by a watermark

Records with numbers are written in turn; those of one kind have numbers that increase,
and the oldest records may be dropped.  A reader keeps a mark, takes the records of the
kind it wants that are retained with numbers above the mark up to a new one, and moves
the mark there.  Whatever the marks, the numbers taken increase, none is taken twice, and
none that is retained is left out (`Kept.write`, `Kept.take`).
-/

namespace CimArm.Watermark

open List

variable {R : Type} (number : R → Nat) (counted : R → Prop) (wanted : R → Bool)

/-- The records wanted with numbers above one mark up to another. -/
def between (rows : List R) (mark mark' : Nat) : List R :=
  rows.filter fun r => decide (mark < number r ∧ number r ≤ mark') && wanted r

/-- All that was written, what is retained of it, the mark and all that was taken. -/
structure Ledger (R : Type) : Type where
  written : List R
  rows : List R
  mark : Nat
  sent : List R

/-- What holds of a ledger that started at a mark. -/
structure Kept (mark₀ : Nat) (l : Ledger R) : Prop where
  increasing : l.written.Pairwise fun a b => counted a → counted b → number a < number b
  suffix : l.rows <:+ l.written
  above : mark₀ ≤ l.mark
  reached : l.mark = mark₀ ∨ ∃ r ∈ l.written, counted r ∧ number r = l.mark
  sent_increasing : l.sent.Pairwise fun a b => number a < number b
  sent_from : ∀ r ∈ l.sent, r ∈ l.written ∧ wanted r = true ∧ mark₀ < number r ∧ number r ≤ l.mark
  complete : ∀ r ∈ l.rows, wanted r = true → mark₀ < number r → number r ≤ l.mark → r ∈ l.sent

variable {number counted wanted} {mark₀ : Nat} {l : Ledger R}

variable {rows : List R}

theorem mem_between {mark mark' : Nat} {r : R} : r ∈ between number wanted rows mark mark' ↔
      r ∈ rows ∧ wanted r = true ∧ mark < number r ∧ number r ≤ mark' := by
  rw [between, mem_filter, Bool.and_eq_true, decide_eq_true_eq]
  exact and_congr_right fun _ => and_comm

@[simp] theorem between_self {mark : Nat} : between number wanted rows mark mark = [] := by
  refine filter_eq_nil_iff.2 fun r _ both => ?_
  have inside := of_decide_eq_true (Bool.and_eq_true_iff.1 both).1
  exact Nat.not_lt.2 inside.2 inside.1

theorem Kept.start {written : List R} (mark₀ : Nat)
    (increasing : written.Pairwise fun a b => counted a → counted b → number a < number b)
    (suffix : rows <:+ written) : Kept number counted wanted mark₀ ⟨written, rows, mark₀, []⟩ where
  increasing := increasing
  suffix := suffix
  above := Nat.le_refl _
  reached := .inl rfl
  sent_increasing := .nil
  sent_from := fun _ none => nomatch none
  complete := fun _ _ _ low high => absurd low (Nat.not_lt.2 high)

theorem Kept.write (kept : Kept number counted wanted mark₀ l)
    (counts : ∀ r, wanted r = true → counted r) {r : R}
    (grows : ∀ a ∈ l.written, counted a → counted r → number a < number r)
    (suffix : rows <:+ l.rows ++ [r]) :
    Kept number counted wanted mark₀ { l with written := l.written ++ [r], rows := rows } where
  increasing := by
    refine pairwise_append.2 ⟨kept.increasing, pairwise_singleton _ _, ?_⟩
    intro a ha b hb
    rw [mem_singleton.1 hb]
    exact grows a ha
  suffix := by
    obtain ⟨dropped, written⟩ := kept.suffix
    obtain ⟨gone, rest⟩ := suffix
    refine ⟨dropped ++ gone, ?_⟩
    rw [append_assoc, rest, ← append_assoc, written]
  above := kept.above
  reached := by
    rcases kept.reached with start | ⟨a, ha, both⟩
    · exact .inl start
    · exact .inr ⟨a, mem_append_left _ ha, both⟩
  sent_increasing := kept.sent_increasing
  sent_from := fun a ha =>
    ⟨mem_append_left _ (kept.sent_from a ha).1, (kept.sent_from a ha).2⟩
  complete := by
    intro a ha want low high
    rcases mem_append.1 (suffix.subset ha) with old | new
    · exact kept.complete a old want low high
    · -- a record just written is above the mark
      obtain rfl := mem_singleton.1 new
      rcases kept.reached with start | ⟨b, hb, count, same⟩
      · exact absurd low (Nat.not_lt.2 (start ▸ high))
      · have more := grows b hb count (counts a want)
        exact absurd (Nat.lt_of_lt_of_le more high) (Nat.not_lt.2 (Nat.le_of_eq same.symm))

/-- What is wanted above the mark is taken, and the mark moves to the last that was seen. -/
theorem Kept.take (kept : Kept number counted wanted mark₀ l)
    (counts : ∀ r, wanted r = true → counted r) {mark' : Nat} (above : l.mark ≤ mark')
    (reached : mark' = l.mark ∨ ∃ r ∈ l.rows, counted r ∧ number r = mark') :
    Kept number counted wanted mark₀
      { l with mark := mark', sent := l.sent ++ between number wanted l.rows l.mark mark' } where
  increasing := kept.increasing
  suffix := kept.suffix
  above := Nat.le_trans kept.above above
  reached := by
    rcases reached with same | ⟨r, hr, both⟩
    · exact same ▸ kept.reached
    · exact .inr ⟨r, kept.suffix.subset hr, both⟩
  sent_increasing := by
    refine pairwise_append.2 ⟨kept.sent_increasing, ?_, fun a ha b hb =>
      Nat.lt_of_le_of_lt (kept.sent_from a ha).2.2.2 (mem_between.1 hb).2.2.1⟩
    have rows := (kept.increasing.sublist kept.suffix.sublist).sublist
      (filter_sublist (p := fun r =>
        decide (l.mark < number r ∧ number r ≤ mark') && wanted r))
    refine List.Pairwise.imp_of_mem (fun ha hb increases => ?_) rows
    exact increases (counts _ (mem_between.1 ha).2.1) (counts _ (mem_between.1 hb).2.1)
  sent_from := by
    intro r hr
    rcases mem_append.1 hr with before | now
    · obtain ⟨written, want, low, high⟩ := kept.sent_from r before
      exact ⟨written, want, low, Nat.le_trans high above⟩
    · obtain ⟨retained, want, low, high⟩ := mem_between.1 now
      exact ⟨kept.suffix.subset retained, want, Nat.lt_of_le_of_lt kept.above low, high⟩
  complete := by
    intro r hr want low high
    rcases Nat.lt_or_ge l.mark (number r) with more | less
    · exact mem_append_right _ (mem_between.2 ⟨hr, want, more, high⟩)
    · exact mem_append_left _ (kept.complete r hr want low less)

/-! ## Taking the first of the records ahead -/

section ahead

variable {pre rest l : List R} {mark : Nat}

theorem le_last (increasing : l.Pairwise fun a b => number a < number b) {r : R} (hr : r ∈ l) :
    number r ≤ (l.getLast?.map number).getD mark := by
  obtain ⟨init, last, rfl⟩ := (eq_nil_or_concat l).resolve_left (ne_nil_of_mem hr)
  rw [concat_eq_append] at *
  rw [List.getLast?_concat]
  rcases mem_append.1 hr with before | same
  · exact Nat.le_of_lt
      ((pairwise_append.1 increasing).2.2 r before last (mem_singleton_self _))
  · exact Nat.le_of_eq (congrArg number (mem_singleton.1 same))

theorem between_append {later : List R} {mark' : Nat}
    (below : ∀ r ∈ pre, wanted r = true → number r ≤ mark)
    (upTo : ∀ r ∈ l, wanted r = true → number r ≤ mark')
    (past : ∀ r ∈ later, wanted r = true → mark' < number r) :
    between number wanted (pre ++ (l ++ later)) mark mark' =
      l.filter fun r => decide (mark < number r) && wanted r := by
  have before : pre.filter (fun r => decide (mark < number r ∧ number r ≤ mark') && wanted r) =
      [] := by
    refine filter_eq_nil_iff.2 fun r hr both => ?_
    obtain ⟨inside, want⟩ := Bool.and_eq_true_iff.1 both
    exact Nat.not_lt.2 (below r hr want) (of_decide_eq_true inside).1
  have left : later.filter (fun r => decide (mark < number r ∧ number r ≤ mark') && wanted r) =
      [] := by
    refine filter_eq_nil_iff.2 fun r hr both => ?_
    obtain ⟨inside, want⟩ := Bool.and_eq_true_iff.1 both
    exact Nat.not_lt.2 (of_decide_eq_true inside).2 (past r hr want)
  rw [between, filter_append, filter_append, before, left, nil_append, append_nil]
  refine filter_congr fun r hr => ?_
  cases want : wanted r with
  | false => rw [Bool.and_false, Bool.and_false]
  | true => rw [Bool.and_true, Bool.and_true, decide_eq_decide, and_iff_left (upTo r hr want)]

/-- Where the records up to a place are not above the mark and those after it are, the
first of these wanted are those up to the last of them. -/
theorem prefix_eq_between (below : ∀ r ∈ pre, wanted r = true → number r ≤ mark)
    (above : ∀ r ∈ rest, wanted r = true → mark < number r)
    (increasing : (rest.filter wanted).Pairwise fun a b => number a < number b)
    (starts : l <+: rest.filter wanted) :
    l = between number wanted (pre ++ rest) mark ((l.getLast?.map number).getD mark) := by
  obtain ⟨later, split⟩ := starts
  have ahead (r : R) (hr : r ∈ l ++ later) : r ∈ rest ∧ wanted r = true := by
    rw [split] at hr
    exact mem_filter.1 hr
  rw [← split, pairwise_append] at increasing
  obtain ⟨inside, -, across⟩ := increasing
  have past : ∀ r ∈ later, (l.getLast?.map number).getD mark < number r := by
    intro r hr
    cases last : l.getLast? with
    | none =>
      have here := ahead r (mem_append_right _ hr)
      exact above r here.1 here.2
    | some a => exact across a (mem_of_getLast? last) r hr
  -- what is wanted of the rest comes in the two parts
  have parts : between number wanted (pre ++ rest) mark ((l.getLast?.map number).getD mark) =
      between number wanted (pre ++ (l ++ later)) mark ((l.getLast?.map number).getD mark) := by
    rw [between, between, filter_append, filter_append, split, filter_filter]
    congr 1
    refine filter_congr fun r _ => ?_
    rw [Bool.and_assoc, Bool.and_self]
  rw [parts, between_append below (fun r hr _ => le_last inside hr) fun r hr _ => past r hr]
  refine (filter_eq_self.2 fun r hr => ?_).symm
  obtain ⟨here, want⟩ := ahead r (mem_append_left _ hr)
  rw [want, decide_eq_true (above r here want)]
  rfl

/-- The mark that the last of them gives is not below the old one, and is one of them. -/
theorem last_or (above : ∀ r ∈ l, mark < number r) :
    mark ≤ (l.getLast?.map number).getD mark ∧
      ((l.getLast?.map number).getD mark = mark ∨
        ∃ r ∈ l, number r = (l.getLast?.map number).getD mark) := by
  cases last : l.getLast? with
  | none => exact ⟨Nat.le_refl _, .inl rfl⟩
  | some r =>
    have hr := mem_of_getLast? last
    exact ⟨Nat.le_of_lt (above r hr), .inr ⟨r, hr, rfl⟩⟩

end ahead

theorem Kept.nodup (kept : Kept number counted wanted mark₀ l) : (l.sent.map number).Nodup :=
  pairwise_map.2 (kept.sent_increasing.imp Nat.ne_of_lt)

end CimArm.Watermark
