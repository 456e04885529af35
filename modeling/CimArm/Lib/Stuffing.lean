import Mathlib.Data.List.Chain

/-!
# Escaping by doubling

A framing that ends a frame with an escape symbol followed by an end symbol sends
every escape symbol of the data twice.  `stuff` doubles, `collapse` reads a doubled
escape symbol as one, and the lemmas say when a list read back is the one sent and when
the end mark does not occur in what is sent.

`Apart dle etx l` is the condition of a list in which no escape symbol stands directly
before another or before an end symbol: then collapsing it changes nothing, and the
stuffed list has no end mark, also with an escape symbol in front of it or behind it.
-/

namespace CimArm.Stuffing

section

variable {A : Type} (dle etx : A)

/-- No escape symbol directly before another or before an end symbol. -/
def Apart (l : List A) : Prop := l.IsChain fun a b => a = dle → b ≠ dle ∧ b ≠ etx

/-- The end mark, an escape symbol before an end symbol, does not occur. -/
def NoMark (l : List A) : Prop := l.IsChain fun a b => ¬ (a = dle ∧ b = etx)

variable {dle etx}

theorem Apart.tail {a : A} {l : List A} (apart : Apart dle etx (a :: l)) : Apart dle etx l :=
  List.IsChain.tail apart

theorem Apart.head {l : List A} (apart : Apart dle etx (dle :: l)) : l.head? ≠ some etx := by
  cases l with
  | nil => simp
  | cons b l => simpa using (apart.rel_head? (y := b) rfl rfl).2

end

variable {A : Type} [DecidableEq A] (dle etx : A)

/-- Every escape symbol twice. -/
def stuff : List A → List A
  | [] => []
  | a :: l => if a = dle then dle :: dle :: stuff l else a :: stuff l

/-- Two escape symbols in a row as one. -/
def collapse : List A → List A
  | a :: b :: l => if a = dle ∧ b = dle then b :: collapse l else a :: collapse (b :: l)
  | l => l

instance (l : List A) : Decidable (Apart dle etx l) :=
  inferInstanceAs (Decidable (l.IsChain _))

variable {dle etx}

variable (l : List A)

theorem stuff_cons_dle : stuff dle (dle :: l) = dle :: dle :: stuff dle l := by
  rw [stuff, if_pos rfl]

theorem stuff_cons_of_ne {a : A} (ne : a ≠ dle) (l : List A) :
    stuff dle (a :: l) = a :: stuff dle l := by
  rw [stuff, if_neg ne]

theorem head?_stuff : (stuff dle l).head? = l.head? := by
  cases l with
  | nil => rfl
  | cons a l =>
    by_cases dles : a = dle
    · rw [dles, stuff_cons_dle]
      rfl
    · rw [stuff_cons_of_ne dles]
      rfl

theorem collapse_cons_of_ne {a : A} (ne : a ≠ dle) (l : List A) :
    collapse dle (a :: l) = a :: collapse dle l := by
  cases l with
  | nil => rfl
  | cons b l => rw [collapse, if_neg fun h => ne h.1]

theorem collapse_stuff (e : A) : collapse dle (stuff dle l ++ [e]) = l ++ [e] := by
  induction l with
  | nil => rfl
  | cons a l ih =>
    by_cases dles : a = dle
    · rw [dles, stuff_cons_dle]
      change collapse dle (dle :: dle :: (stuff dle l ++ [e])) = _
      rw [collapse, if_pos ⟨rfl, rfl⟩, ih]
      rfl
    · rw [stuff_cons_of_ne dles]
      change collapse dle (a :: (stuff dle l ++ [e])) = _
      rw [collapse_cons_of_ne dles, ih]
      rfl

theorem collapse_of_apart {l : List A} (apart : Apart dle etx l) {e : A} (he : e ≠ dle) :
    collapse dle (l ++ [e]) = l ++ [e] := by
  induction l with
  | nil => rfl
  | cons a l ih =>
    have tail := apart.tail
    by_cases dles : a = dle
    · have next : (l ++ [e]).head? ≠ some dle := by
        cases l with
        | nil => simpa using he
        | cons b l => simpa using (apart.rel_head? (y := b) rfl dles).1
      rcases l with _ | ⟨b, l⟩
      · change collapse dle (a :: e :: []) = _
        rw [collapse, if_neg fun h => he h.2]
        rfl
      · have ne : b ≠ dle := by simpa using next
        change collapse dle (a :: b :: (l ++ [e])) = _
        rw [collapse, if_neg fun h => ne h.2]
        exact congrArg _ (ih tail)
    · change collapse dle (a :: (l ++ [e])) = _
      rw [collapse_cons_of_ne dles, ih tail]
      rfl

theorem noMark_stuff (ne : dle ≠ etx) {l : List A} (apart : Apart dle etx l) :
    NoMark dle etx (stuff dle l ++ [dle]) := by
  induction l with
  | nil => exact List.isChain_singleton dle
  | cons a l ih =>
    have rest := ih apart.tail
    have next : (stuff dle l ++ [dle]).head? = some (l.head?.getD dle) := by
      rw [List.head?_append, head?_stuff]
      cases l <;> rfl
    by_cases dles : a = dle
    · subst dles
      rw [stuff_cons_dle]
      have inner : NoMark a etx (a :: (stuff a l ++ [a])) := by
        refine List.IsChain.cons rest fun y hy mark => ?_
        rw [next, Option.mem_some_iff] at hy
        cases l with
        | nil => exact ne (hy.trans mark.2)
        | cons b l => exact apart.head (congrArg some (hy.trans mark.2))
      exact List.IsChain.cons inner fun y hy mark =>
        ne ((Option.some_inj.1 hy).trans mark.2)
    · rw [stuff_cons_of_ne dles]
      exact List.IsChain.cons rest fun y _ mark => dles mark.1

end CimArm.Stuffing
