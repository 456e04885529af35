import CimArm.Device.ConvertionTable
import Mathlib.Data.List.Nodup

/-!
# The denominations of a bill acceptor

An acceptor has a currency and its denominations, each with a state and a level of security.
When its validator has reported the table of denominations, `configureDenominations` adds the
amounts that are missing and then removes those that the table does not have.

It looks at 24 rows of the table, which has 26, and at the amount of a row alone.

* `configureDenominations_synced`: the acceptor has what the table reports just in case all of
  it is in the acceptor's currency and in the first 24 rows.

What is written to the database is left out.
-/

namespace CimArm.BillAcceptor

open List

open ConvertionTable (JCMDenomination)

/-! ## Denominations -/

inductive DenominationState
  | undefined | accept | reject
deriving DecidableEq, Repr

inductive DenominationSecurity
  | undefined | standard | high
deriving DecidableEq, Repr

structure Denomination : Type where
  amount : Int
  state : DenominationState
  security : DenominationSecurity
deriving DecidableEq, Repr

/-- A currency and its denominations, each amount once. -/
structure AcceptedCurrency : Type where
  currencyId : Int
  denominations : List Denomination
  distinct : (denominations.map Denomination.amount).Nodup

/-- The table of the driver. -/
structure DeviceTable : Type where
  rows : List JCMDenomination
  length_rows : rows.length = 26

/-- A `long` in 64 bits, with seven decimals. -/
def ENCODE_DECIMAL (a : Int) : Int := a * 10 ^ 7

def existsDenomination (denominations : List Denomination) (amount : Int) : Bool :=
  denominations.any fun d => d.amount = amount

theorem existsDenomination_iff {denominations : List Denomination} {amount : Int} :
    existsDenomination denominations amount = true ↔
      amount ∈ denominations.map Denomination.amount := by
  simp [existsDenomination]

def hasDenominationInList (table : DeviceTable) (amount : Int) : Bool :=
  (table.rows.take 24).any fun row => row.amount ≠ 0 ∧ ENCODE_DECIMAL row.amount = amount

namespace AcceptedCurrency

/-- An amount that is there already is not added. -/
def addDenomination (self : AcceptedCurrency) (d : Denomination) : AcceptedCurrency :=
  if absent : d.amount ∉ self.denominations.map Denomination.amount then
    { self with
      denominations := self.denominations ++ [d]
      distinct := by
        have distinct := self.distinct.concat absent
        rwa [concat_eq_append, ← map_singleton, ← map_append] at distinct }
  else self

def removeAt (self : AcceptedCurrency) (index : Nat) : AcceptedCurrency :=
  { self with
    denominations := self.denominations.eraseIdx index
    distinct := self.distinct.sublist ((eraseIdx_sublist _ index).map _) }

end AcceptedCurrency

/-! ## The configuration -/

/-- A row whose amount the acceptor does not have is added. -/
def addRow (anAcceptedCurrency : AcceptedCurrency) (row : JCMDenomination) : AcceptedCurrency :=
  if row.amount = 0 then anAcceptedCurrency
  else
    let amount := ENCODE_DECIMAL row.amount
    if existsDenomination anAcceptedCurrency.denominations amount then anAcceptedCurrency
    else anAcceptedCurrency.addDenomination ⟨amount, .accept, .standard⟩

/-- The loop over the acceptor's denominations, with so many left and the next at `index`.  A
collection has no element behind its end. -/
def removeLoop (table : DeviceTable) : Nat → Nat → AcceptedCurrency → AcceptedCurrency
  | 0, _, anAcceptedCurrency => anAcceptedCurrency
  | left + 1, index, anAcceptedCurrency =>
    match anAcceptedCurrency.denominations[index]? with
    | none => anAcceptedCurrency
    | some denomination =>
      if hasDenominationInList table denomination.amount then
        removeLoop table left (index + 1) anAcceptedCurrency
      else removeLoop table left index (anAcceptedCurrency.removeAt index)

def configureDenominations (anAcceptedCurrency : AcceptedCurrency) (table : DeviceTable) :
    AcceptedCurrency :=
  let anAcceptedCurrency := (table.rows.take 24).foldl addRow anAcceptedCurrency
  removeLoop table anAcceptedCurrency.denominations.length 0 anAcceptedCurrency

/-! ## What should be -/

/-- The table reports an amount of a currency. -/
def Reported (table : DeviceTable) (currencyId amount : Int) : Prop :=
  ∃ row ∈ table.rows, row.amount ≠ 0 ∧ row.currencyId = currencyId ∧
    ENCODE_DECIMAL row.amount = amount

/-- The acceptor accepts an amount of a currency. -/
def Accepted (acceptor : AcceptedCurrency) (currencyId amount : Int) : Prop :=
  acceptor.currencyId = currencyId ∧ amount ∈ acceptor.denominations.map Denomination.amount

/-- What is accepted is what is reported; of what there was, the reported is kept as it was, and
the other is removed. -/
structure Synced (table : DeviceTable) (before after : AcceptedCurrency) : Prop where
  accepted_iff : ∀ currencyId amount,
    Accepted after currencyId amount ↔ Reported table currencyId amount
  kept : ∀ d ∈ before.denominations, Reported table before.currencyId d.amount →
    d ∈ after.denominations
  removed : ∀ d ∈ before.denominations, ¬Reported table before.currencyId d.amount →
    d.amount ∉ after.denominations.map Denomination.amount

/-- Every reported row is in the currency, and its amount is in the first 24 rows. -/
def Covered (table : DeviceTable) (currencyId : Int) : Prop :=
  ∀ row ∈ table.rows, row.amount ≠ 0 → row.currencyId = currencyId ∧
    ∃ first ∈ table.rows.take 24, first.amount = row.amount

/-! ## The two loops -/

section

variable {table : DeviceTable} {acceptor : AcceptedCurrency}

theorem hasDenominationInList_iff {amount : Int} :
    hasDenominationInList table amount = true ↔
      ∃ row ∈ table.rows.take 24, row.amount ≠ 0 ∧ ENCODE_DECIMAL row.amount = amount := by
  simp [hasDenominationInList]

theorem addRow_currencyId (row : JCMDenomination) :
    (addRow acceptor row).currencyId = acceptor.currencyId := by
  rw [addRow]
  split
  · rfl
  · dsimp only
    split
    · rfl
    · rw [AcceptedCurrency.addDenomination]
      split
      · rfl
      · rfl

theorem mem_addRow (row : JCMDenomination) (d : Denomination) :
    d ∈ (addRow acceptor row).denominations ↔ d ∈ acceptor.denominations ∨
      row.amount ≠ 0 ∧ ENCODE_DECIMAL row.amount ∉ acceptor.denominations.map Denomination.amount ∧
        d = ⟨ENCODE_DECIMAL row.amount, .accept, .standard⟩ := by
  rw [addRow]
  split
  · rename_i empty
    simp [empty]
  · rename_i reported
    dsimp only
    split
    · rename_i present
      have present := existsDenomination_iff.1 present
      simp [present]
    · rename_i absent
      have absent : ENCODE_DECIMAL row.amount ∉ acceptor.denominations.map Denomination.amount :=
        fun present => absent (existsDenomination_iff.2 present)
      rw [AcceptedCurrency.addDenomination, dif_pos absent]
      simp only [mem_append, mem_singleton]
      exact or_congr_right ⟨fun new => ⟨reported, absent, new⟩, fun new => new.2.2⟩

theorem addRows_currencyId (rows : List JCMDenomination) :
    (rows.foldl addRow acceptor).currencyId = acceptor.currencyId := by
  induction rows generalizing acceptor with
  | nil => rfl
  | cons row rows ih => exact ih.trans (addRow_currencyId row)

theorem mem_addRows (rows : List JCMDenomination) (d : Denomination) :
    d ∈ (rows.foldl addRow acceptor).denominations ↔ d ∈ acceptor.denominations ∨
      d.amount ∉ acceptor.denominations.map Denomination.amount ∧
        ∃ row ∈ rows, row.amount ≠ 0 ∧ d = ⟨ENCODE_DECIMAL row.amount, .accept, .standard⟩ := by
  induction rows generalizing acceptor with
  | nil => simp
  | cons row rows ih =>
    have amounts : d.amount ∈ (addRow acceptor row).denominations.map Denomination.amount ↔
        d.amount ∈ acceptor.denominations.map Denomination.amount ∨
          row.amount ≠ 0 ∧ d.amount = ENCODE_DECIMAL row.amount := by
      simp only [mem_map, mem_addRow]
      constructor
      · rintro ⟨e, old | new, same⟩
        · exact .inl ⟨e, old, same⟩
        · refine .inr ⟨new.1, ?_⟩
          rw [← same, new.2.2]
      · rintro (⟨e, old, same⟩ | ⟨reported, same⟩)
        · exact ⟨e, .inl old, same⟩
        · by_cases present : ∃ e ∈ acceptor.denominations, e.amount = ENCODE_DECIMAL row.amount
          · obtain ⟨e, old, amount⟩ := present
            exact ⟨e, .inl old, amount.trans same.symm⟩
          · exact ⟨_, .inr ⟨reported, present, rfl⟩, same.symm⟩
    rw [foldl_cons, ih, mem_addRow, amounts]
    constructor
    · rintro ((old | ⟨reported, absent, rfl⟩) | ⟨absent, later, inside, new⟩)
      · exact .inl old
      · exact .inr ⟨absent, row, mem_cons_self, reported, rfl⟩
      · exact .inr ⟨fun old => absent (.inl old), later, mem_cons_of_mem _ inside, new⟩
    · rintro (old | ⟨absent, later, inside, reported, rfl⟩)
      · exact .inl (.inl old)
      · rcases mem_cons.1 inside with rfl | inside
        · exact .inl (.inr ⟨reported, absent, rfl⟩)
        · by_cases same : row.amount ≠ 0 ∧ ENCODE_DECIMAL later.amount = ENCODE_DECIMAL row.amount
          · refine .inl (.inr ⟨same.1, ?_, by rw [same.2]⟩)
            rw [← same.2]
            exact absent
          · exact .inr ⟨fun present => present.elim absent same, later, inside, reported, rfl⟩

/-- The loop goes on with the same index after a removal, so that none is passed over. -/
theorem removeLoop_denominations (kept todo : List Denomination)
    (all : acceptor.denominations = kept ++ todo) :
    (removeLoop table todo.length kept.length acceptor).denominations =
      kept ++ todo.filter fun d => hasDenominationInList table d.amount := by
  induction todo generalizing kept acceptor with
  | nil => simpa [removeLoop] using all
  | cons d todo ih =>
    have here : acceptor.denominations[kept.length]? = some d := by
      rw [all, List.getElem?_append_right (Nat.le_refl _), Nat.sub_self]
      rfl
    rw [length_cons, removeLoop, here]
    dsimp only
    split
    · rename_i has
      have next := ih (kept ++ [d]) (by rw [all, append_assoc]; rfl)
      rw [length_append, length_singleton] at next
      rw [next, filter_cons, if_pos has, append_assoc]
      rfl
    · rename_i other
      rw [filter_cons, if_neg other]
      refine ih kept ?_
      change acceptor.denominations.eraseIdx kept.length = _
      rw [all, eraseIdx_append_of_length_le (Nat.le_refl _), Nat.sub_self]
      rfl

theorem removeLoop_currencyId (left index : Nat) :
    (removeLoop table left index acceptor).currencyId = acceptor.currencyId := by
  induction left generalizing index acceptor with
  | zero => rfl
  | succ left ih =>
    rw [removeLoop]
    split
    · rfl
    · split
      · exact ih (index + 1)
      · exact ih index

/-! ## What is configured -/

theorem configureDenominations_currencyId :
    (configureDenominations acceptor table).currencyId = acceptor.currencyId :=
  (removeLoop_currencyId _ _).trans (addRows_currencyId _)

theorem mem_configureDenominations (d : Denomination) :
    d ∈ (configureDenominations acceptor table).denominations ↔
      d ∈ ((table.rows.take 24).foldl addRow acceptor).denominations ∧
        hasDenominationInList table d.amount = true := by
  have all := @removeLoop_denominations table ((table.rows.take 24).foldl addRow acceptor) [] _ rfl
  rw [nil_append] at all
  rw [configureDenominations]
  exact (congrArg (d ∈ ·) all).to_iff.trans mem_filter

theorem amount_mem_configureDenominations (amount : Int) :
    amount ∈ (configureDenominations acceptor table).denominations.map Denomination.amount ↔
      hasDenominationInList table amount = true := by
  rw [mem_map]
  constructor
  · rintro ⟨d, inside, rfl⟩
    exact ((mem_configureDenominations d).1 inside).2
  · intro has
    by_cases old : amount ∈ acceptor.denominations.map Denomination.amount
    · obtain ⟨d, inside, rfl⟩ := mem_map.1 old
      exact ⟨d, (mem_configureDenominations d).2 ⟨(mem_addRows _ d).2 (.inl inside), has⟩, rfl⟩
    · obtain ⟨row, first, reported, same⟩ := hasDenominationInList_iff.1 has
      refine ⟨⟨amount, .accept, .standard⟩, (mem_configureDenominations _).2 ⟨?_, has⟩, rfl⟩
      exact (mem_addRows _ _).2 (.inr ⟨old, row, first, reported, by rw [same]⟩)

theorem ENCODE_DECIMAL_inj {a b : Int} : ENCODE_DECIMAL a = ENCODE_DECIMAL b ↔ a = b :=
  Int.mul_eq_mul_right_iff (by decide)

end

/-- The acceptor is in step with the table just in case the table is in its currency and in the
rows that are looked at. -/
theorem configureDenominations_synced (acceptor : AcceptedCurrency) (table : DeviceTable) :
    Synced table acceptor (configureDenominations acceptor table) ↔
      Covered table acceptor.currencyId := by
  constructor
  · intro synced row inside reported
    have accepted := (synced.accepted_iff row.currencyId (ENCODE_DECIMAL row.amount)).2
      ⟨row, inside, reported, rfl, rfl⟩
    have currency := accepted.1
    rw [configureDenominations_currencyId] at currency
    have has := (amount_mem_configureDenominations _).1 accepted.2
    obtain ⟨first, firstRow, _, same⟩ := hasDenominationInList_iff.1 has
    exact ⟨currency.symm, first, firstRow, ENCODE_DECIMAL_inj.1 same⟩
  · intro covered
    have has_iff (amount : Int) : hasDenominationInList table amount = true ↔
        Reported table acceptor.currencyId amount := by
      rw [hasDenominationInList_iff]
      constructor
      · rintro ⟨row, first, reported, same⟩
        have inside := mem_of_mem_take first
        exact ⟨row, inside, reported, (covered row inside reported).1, same⟩
      · rintro ⟨row, inside, reported, -, same⟩
        obtain ⟨-, first, firstRow, amount_eq⟩ := covered row inside reported
        refine ⟨first, firstRow, ?_, ?_⟩
        · rw [amount_eq]
          exact reported
        · rw [amount_eq, same]
    refine ⟨fun currencyId amount => ?_, fun d inside reported => ?_, fun d _ unreported => ?_⟩
    · rw [Accepted, configureDenominations_currencyId, amount_mem_configureDenominations, has_iff]
      constructor
      · rintro ⟨rfl, reported⟩
        exact reported
      · intro reported
        obtain ⟨row, inside, nonzero, currency, same⟩ := reported
        obtain rfl := (covered row inside nonzero).1.symm.trans currency
        exact ⟨rfl, row, inside, nonzero, currency, same⟩
    · exact (mem_configureDenominations d).2
        ⟨(mem_addRows _ d).2 (.inl inside), (has_iff d.amount).2 reported⟩
    · rw [amount_mem_configureDenominations, has_iff]
      exact unreported

/-- A table with one denomination, in its last row, of an acceptor that has none. -/
def lastRow (currencyId : Int) : DeviceTable where
  rows := List.replicate 25 .zero ++ [⟨100, currencyId, false⟩]
  length_rows := by simp

/-- The denomination in the 26th row is not added. -/
theorem configureDenominations_lastRow :
    ¬∀ (acceptor : AcceptedCurrency) (table : DeviceTable),
      Synced table acceptor (configureDenominations acceptor table) := by
  intro synced
  have accepted := ((synced ⟨32, [], nodup_nil⟩ (lastRow 32)).accepted_iff 32
    (ENCODE_DECIMAL 100)).2 ⟨⟨100, 32, false⟩, by simp [lastRow], by decide, rfl, rfl⟩
  exact absurd accepted.2 (by decide +kernel)

end CimArm.BillAcceptor
