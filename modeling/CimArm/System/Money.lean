import CimArm.Lib.Buffer
import CimArm.Telesup.FileDelivery

/-!
# Amounts as text

`formatMoney` takes the whole part of an amount and its decimals into a `long` each, and prints
the decimals into a buffer of zeros, so that they keep the zeros they begin with.
`stringToMoney` reads two numbers with `atol` and scales the second one by its length.

A `long` has 32 bits while an amount has 64, so that the whole part is cut.  The least `long`
has no absolute value: a second minus sign is printed, and what is read has the wrong sign.

* `stringToMoney_formatMoney`: an amount is read back exactly when its whole part is the
  absolute value of a `long`, and where two minus signs are printed for a positive amount.
-/

namespace CimArm.Money

open FileTransfer

/-! ## Printing and parsing -/

def MONEY_DECIMAL_DIGITS : Nat := 7

/-- `llpow`; a negative exponent divides, once less than it says. -/
def llpow (base exp : Int) : Int :=
  if base ≤ 0 then 0
  else if 0 ≤ exp then base ^ exp.toNat
  else base / base ^ (-exp - 1).toNat

/-- The least `long` is its own absolute value. -/
def labs (n : Int) : Int := toLong n.natAbs

/-- The decimals as `formatMoney` has them in `decstr`; `aux` and `decstr` are what its arrays
hold before. -/
def decimalText (aux : Vector UInt8 50) (decstr : Vector UInt8 20) (decimal : Int)
    (decimals : Nat) : CString :=
  let aux := Buffer.copy aux 0 (printLong decimal ++ [0])
  let len := (printLong decimal).length
  let decstr := Buffer.copy decstr 0 (List.replicate decimals 48)
  let min := if MONEY_DECIMAL_DIGITS - len < decimals then MONEY_DECIMAL_DIGITS else decimals
  let decstr := Buffer.copy decstr (MONEY_DECIMAL_DIGITS - len) (Buffer.read aux 0 min)
  let decstr := Buffer.copy decstr decimals [0]
  Buffer.cString decstr.toList

/-- `formatMoney`, with at most 19 decimals. -/
def formatMoney (aux : Vector UInt8 50) (decstr : Vector UInt8 20) (moneySimbol : CString)
    (amount : Int) (decimals maxChars : Nat) : CString :=
  let integer := toLong (amount.tdiv (llpow 10 MONEY_DECIMAL_DIGITS))
  let decimal := toLong (amount.tmod (llpow 10 MONEY_DECIMAL_DIGITS))
  let negative := decide (integer < 0) || decide (decimal < 0)
  let decimal := labs decimal
  let integer := labs integer
  let p := moneySimbol ++ [32] ++ (if negative then [45] else []) ++ printLong integer ++
    if decimals = 0 then [] else 46 :: decimalText aux decstr decimal decimals
  let p :=
    if moneySimbol.length = 0 then p.drop 1
    else if p.length > maxChars then p.drop (moneySimbol.length + 1)
    else p
  let diff := p.length - maxChars
  if diff > 0 then p.take (p.length - if diff = decimals then diff + 1 else diff) else p

def stringToMoney (str : CString) : Int :=
  let negative : Int := if str.head? = some 45 then -1 else 1
  let aux := if str.head? = some 45 then str.tail else str
  if 46 ∉ aux then toLong (negative * atol aux) * llpow 10 MONEY_DECIMAL_DIGITS
  else
    let index := (aux.dropWhile (· ≠ 46)).tail
    let result := atol (aux.takeWhile (· ≠ 46)) * llpow 10 MONEY_DECIMAL_DIGITS
    (result + atol index * llpow 10 (MONEY_DECIMAL_DIGITS - index.length)) * negative

/-! ## Digits -/

variable {text : CString} (v : Int)

theorem isDigit_zeros_append {z : Nat} (digits : ∀ c ∈ text, Decimal.isDigit c = true) :
    ∀ c ∈ List.replicate z 48 ++ text, Decimal.isDigit c = true := by
  intro c hc
  rcases List.mem_append.1 hc with zero | hc
  · rw [List.eq_of_mem_replicate zero]
    rfl
  · exact digits c hc

theorem value_zeros_append (z : Nat) (text : CString) :
    Decimal.value (List.replicate z 48 ++ text) = Decimal.value text := by
  induction z with
  | zero => rfl
  | succ z ih =>
    rw [← ih, Decimal.value, Decimal.value, List.replicate_succ, List.cons_append,
      List.takeWhile_cons_of_pos rfl, List.foldl_cons]
    rfl

theorem atol_digits (digits : ∀ c ∈ text, Decimal.isDigit c = true) :
    atol text = clampLong (Decimal.value text) := by
  cases text with
  | nil => rfl
  | cons c rest =>
    have digit := of_decide_eq_true (digits c List.mem_cons_self)
    have blank : isspace c = false := by
      rw [isspace, decide_eq_false_iff_not]
      rintro (rfl | ⟨-, low⟩)
      · exact absurd digit.1 (by decide)
      · exact absurd (UInt8.le_trans digit.1 low) (by decide)
    have start : (c :: rest).dropWhile isspace = c :: rest := by
      rw [List.dropWhile_cons_of_neg (by simp [blank])]
    have other (d : UInt8) (low : ¬ (48 : UInt8) ≤ d) : (c :: rest).head? ≠ some d := by
      intro same
      obtain rfl : c = d := Option.some.inj same
      exact low digit.1
    rw [atol, start, if_neg (other 45 (by decide)), if_neg (other 43 (by decide))]

theorem labs_range (n : Int) : -2 ^ 31 ≤ labs n ∧ labs n < 2 ^ 31 := toLong_range _

theorem labs_of_abs_lt {n : Int} (small : n.natAbs < 2 ^ 31) : labs n = n.natAbs :=
  toLong_of_range (by omega) (by omega)

theorem digits_printLong {n : Int} (nonneg : 0 ≤ n) :
    ∀ c ∈ printLong n, Decimal.isDigit c = true := by
  intro c hc
  rw [printLong, if_neg (Int.not_lt.2 nonneg)] at hc
  exact Decimal.isDigit_of_mem hc

theorem not_mem_of_digits (digits : ∀ c ∈ text, Decimal.isDigit c = true) {c : UInt8}
    (other : Decimal.isDigit c = false) : c ∉ text := fun hc =>
  Bool.false_ne_true (other.symm.trans (digits c hc))

/-! ## The decimals -/

theorem cString_toList {n : Nat} {b : Vector UInt8 n} (nonzero : 0 ∉ text) (room : text.length < n)
    (same : ∀ j (hj : j < text.length), b[j] = text[j]) (ended : b[text.length] = 0) :
    Buffer.cString b.toList = text := by
  have whole : b.toList = text ++ 0 :: b.toList.drop (text.length + 1) := by
    apply List.ext_getElem
    · simp
      omega
    · intro j hj hj'
      rcases Nat.lt_trichotomy j text.length with lt | rfl | gt
      · rw [List.getElem_append_left lt, Vector.getElem_toList, same j lt]
      · rw [List.getElem_append_right (Nat.le_refl _), Vector.getElem_toList, ended]
        simp
      · rw [List.getElem_append_right (Nat.le_of_lt gt)]
        obtain ⟨k, rfl⟩ := Nat.exists_eq_add_of_lt gt
        simp [Nat.add_assoc, Nat.add_comm 1]
  rw [whole, Buffer.cString_append nonzero, Buffer.cString_zero, List.append_nil]

theorem decimalText_eq (aux : Vector UInt8 50) (decstr : Vector UInt8 20) {decimal : Int}
    (nonneg : 0 ≤ decimal) (small : decimal < 10 ^ 7) :
    decimalText aux decstr decimal MONEY_DECIMAL_DIGITS =
      List.replicate (7 - (printLong decimal).length) 48 ++ printLong decimal := by
  have digits := digits_printLong nonneg
  have positive := List.length_pos_iff.2 (printLong_ne_nil decimal)
  have le : (printLong decimal).length ≤ 7 := by
    rw [printLong, if_neg (Int.not_lt.2 nonneg)]
    exact Decimal.length_ofNat_le (by decide) (by omega)
  rw [decimalText]
  generalize printLong decimal = text at digits positive le
  rw [ite_self]
  change Buffer.cString (Buffer.copy (Buffer.copy (Buffer.copy decstr 0 (List.replicate 7 48))
    (7 - text.length) (Buffer.read (Buffer.copy aux 0 (text ++ [0])) 0 7)) 7 [0]).toList = _
  have length : (List.replicate (7 - text.length) 48 ++ text).length = 7 := by
    rw [List.length_append, List.length_replicate]
    omega
  refine cString_toList ?_ ?_ ?_ ?_
  · exact not_mem_of_digits (isDigit_zeros_append digits) rfl
  · omega
  · intro j hj
    rw [length] at hj
    rw [Buffer.copy_outside _ (by omega) (by omega), Buffer.copy_getElem _ _ _ (by omega),
      Buffer.length_read]
    rcases Nat.lt_or_ge j (7 - text.length) with zero | digit
    · rw [if_neg (by omega), Buffer.copy_getElem _ _ _ (by omega), List.length_replicate,
        if_pos (by omega), List.getElem_append_left (by simpa using zero),
        List.getD_eq_getElem?_getD, List.getElem?_replicate, if_pos (by omega)]
      simp
    · have at_ : j - (7 - text.length) < text.length := by omega
      rw [if_pos (by omega), List.getD_eq_getElem?_getD,
        Buffer.read_getElem? _ (by omega) (by omega), Option.getD_some,
        Buffer.copy_getElem _ _ _ (by omega), List.length_append, if_pos (by simp; omega),
        List.getElem_append_right (by simpa using digit), List.getD_eq_getElem?_getD,
        List.getElem?_append_left (by omega), List.getElem?_eq_getElem (by omega), Option.getD_some]
      simp
  · rw [Buffer.copy_getElem _ _ _ (by omega), if_pos (by simp; omega), length]
    rfl

/-! ## There and back -/

theorem llpow_seven : llpow 10 MONEY_DECIMAL_DIGITS = 10 ^ 7 := by decide

/-- The sign, the whole part and the decimals of an amount. -/
def moneyText (v : Int) : CString :=
  (if toLong (v.tdiv (10 ^ 7)) < 0 ∨ v.tmod (10 ^ 7) < 0 then [45] else []) ++
    printLong (labs (toLong (v.tdiv (10 ^ 7)))) ++
    46 :: (List.replicate (7 - (printLong (v.tmod (10 ^ 7)).natAbs).length) 48 ++
      printLong (v.tmod (10 ^ 7)).natAbs)

theorem natAbs_tmod_lt : (v.tmod (10 ^ 7)).natAbs < 10 ^ 7 := by
  rw [Int.natAbs_tmod]
  exact Nat.mod_lt _ (by decide)

theorem length_printLong_decimals : (printLong (v.tmod (10 ^ 7)).natAbs : CString).length ≤ 7 := by
  have small := natAbs_tmod_lt v
  rw [printLong, if_neg (by omega)]
  exact Decimal.length_ofNat_le (by decide) (by omega)

theorem formatMoney_eq (aux : Vector UInt8 50) (decstr : Vector UInt8 20) (v : Int)
    {maxChars : Nat} (room : 20 ≤ maxChars) :
    formatMoney aux decstr [] v MONEY_DECIMAL_DIGITS maxChars = moneyText v := by
  have small := natAbs_tmod_lt v
  have decimal : toLong (v.tmod (10 ^ 7)) = v.tmod (10 ^ 7) :=
    toLong_of_range (by omega) (by omega)
  have abs : labs (v.tmod (10 ^ 7)) = (v.tmod (10 ^ 7)).natAbs := labs_of_abs_lt (by omega)
  have short : (moneyText v).length ≤ 20 := by
    have range := labs_range (toLong (v.tdiv (10 ^ 7)))
    have whole := length_printLong range.1 range.2
    have decimals := length_printLong_decimals v
    have minus : (if toLong (v.tdiv (10 ^ 7)) < 0 ∨ v.tmod (10 ^ 7) < 0 then [45] else [] :
        CString).length ≤ 1 := by
      split_ifs
      · exact Nat.le_refl 1
      · exact Nat.zero_le 1
    rw [moneyText]
    simp only [List.length_append, List.length_cons, List.length_replicate]
    omega
  have text : ([] ++ [32] ++ (if decide (toLong (v.tdiv (10 ^ 7)) < 0) ||
      decide (v.tmod (10 ^ 7) < 0) then [45] else []) ++
      printLong (labs (toLong (v.tdiv (10 ^ 7)))) ++
      46 :: decimalText aux decstr (v.tmod (10 ^ 7)).natAbs MONEY_DECIMAL_DIGITS : CString) =
        32 :: moneyText v := by
    rw [decimalText_eq aux decstr (by omega) (by omega), moneyText]
    simp only [Bool.or_eq_true, decide_eq_true_eq]
    rfl
  unfold formatMoney
  rw [llpow_seven, decimal]
  dsimp only
  rw [abs, if_neg (by decide : MONEY_DECIMAL_DIGITS ≠ 0), text]
  have fits : ¬ (moneyText v).length - maxChars > 0 := by omega
  exact if_neg fits

theorem stringToMoney_text {minus : Prop} [Decidable minus] {integer : Int} {decimals : CString}
    (low : -2 ^ 31 ≤ integer) (high : integer < 2 ^ 31) (sign : ¬ minus → 0 ≤ integer)
    (digits : ∀ c ∈ decimals, Decimal.isDigit c = true) (seven : decimals.length = 7) :
    stringToMoney ((if minus then [45] else []) ++ printLong integer ++ 46 :: decimals) =
      (integer * 10 ^ 7 + clampLong (Decimal.value decimals)) * if minus then -1 else 1 := by
  have head : ((if minus then [45] else []) ++ printLong integer ++ 46 :: decimals).head? =
      some 45 ↔ minus := by
    split_ifs with negative
    · simp [negative]
    · obtain ⟨c, rest, text⟩ := List.exists_cons_of_ne_nil (printLong_ne_nil integer)
      have digit : Decimal.isDigit c = true :=
        digits_printLong (sign negative) c (text ▸ List.mem_cons_self)
      have other : c ≠ 45 := by
        rintro rfl
        exact Bool.false_ne_true digit
      simp [text, negative, other]
  have tail : (if minus then ((if minus then [45] else []) ++ printLong integer ++
      46 :: decimals).tail else (if minus then [45] else []) ++ printLong integer ++
      46 :: decimals) = printLong integer ++ 46 :: decimals := by
    split_ifs <;> rfl
  have whole : ∀ c ∈ printLong integer, c ≠ 46 := by
    rintro c hc rfl
    rw [printLong] at hc
    split_ifs at hc
    · rcases List.mem_cons.1 hc with minus | hc
      · exact absurd minus (by decide)
      · exact Bool.false_ne_true (Decimal.isDigit_of_mem hc)
    · exact Bool.false_ne_true (Decimal.isDigit_of_mem hc)
  have before : (printLong integer ++ 46 :: decimals).takeWhile (· ≠ 46) = printLong integer := by
    rw [List.takeWhile_append_of_pos fun c hc => by simpa using whole c hc]
    simp
  have after : ((printLong integer ++ 46 :: decimals).dropWhile (· ≠ 46)).tail = decimals := by
    rw [List.dropWhile_append_of_pos fun c hc => by simpa using whole c hc]
    simp
  unfold stringToMoney
  simp only [head]
  rw [tail, if_neg (by simp), before, after, seven, atol_printLong low high, atol_digits digits,
    llpow_seven]
  show (integer * 10 ^ 7 + clampLong (Decimal.value decimals) * 1) * _ = _
  rw [mul_one]

theorem stringToMoney_moneyText : stringToMoney (moneyText v) =
    (labs (toLong (v.tdiv (10 ^ 7))) * 10 ^ 7 + (v.tmod (10 ^ 7)).natAbs) *
      if toLong (v.tdiv (10 ^ 7)) < 0 ∨ v.tmod (10 ^ 7) < 0 then -1 else 1 := by
  have small := natAbs_tmod_lt v
  have range := labs_range (toLong (v.tdiv (10 ^ 7)))
  have le := length_printLong_decimals v
  have digits := @digits_printLong (v.tmod (10 ^ 7)).natAbs (by omega)
  have positive : ¬ (toLong (v.tdiv (10 ^ 7)) < 0 ∨ v.tmod (10 ^ 7) < 0) →
      0 ≤ labs (toLong (v.tdiv (10 ^ 7))) := by
    intro nonneg
    have := toLong_range (v.tdiv (10 ^ 7))
    rw [labs_of_abs_lt (by omega)]
    omega
  rw [moneyText, stringToMoney_text range.1 range.2 positive (isDigit_zeros_append digits)
    (by rw [List.length_append, List.length_replicate]; omega), value_zeros_append]
  have value : (Decimal.value (printLong (v.tmod (10 ^ 7)).natAbs) : Int) =
      (v.tmod (10 ^ 7)).natAbs := by
    rw [printLong, if_neg (by omega), Int.natAbs_natCast, Decimal.value_ofNat]
  have clamp : clampLong (v.tmod (10 ^ 7)).natAbs = (v.tmod (10 ^ 7)).natAbs := by
    rw [clampLong]
    omega
  rw [value, clamp]

theorem labs_toLong (n : Int) : labs (toLong n) =
    if toLong n = -2 ^ 31 then -2 ^ 31 else ((toLong n).natAbs : Int) := by
  have range := toLong_range n
  split_ifs with least
  · rw [least]
    rfl
  · exact labs_of_abs_lt (by omega)

/-- An amount that is printed with all decimals is read back exactly when its whole part is
the absolute value of a `long`, or it is the one amount that is printed with two minus signs
and has no decimals. -/
theorem stringToMoney_formatMoney (aux : Vector UInt8 50) (decstr : Vector UInt8 20) (v : Int)
    {maxChars : Nat} (room : 20 ≤ maxChars) :
    stringToMoney (formatMoney aux decstr [] v MONEY_DECIMAL_DIGITS maxChars) = v ↔
      (v.tdiv (10 ^ 7)).natAbs < 2 ^ 31 ∨ v = 2 ^ 31 * 10 ^ 7 := by
  rw [formatMoney_eq aux decstr v room, stringToMoney_moneyText, labs_toLong]
  have parts : 10 ^ 7 * v.tdiv (10 ^ 7) + v.tmod (10 ^ 7) = v := Int.mul_tdiv_add_tmod v _
  have small := natAbs_tmod_lt v
  have signs : 0 ≤ v ∧ 0 ≤ v.tdiv (10 ^ 7) ∧ 0 ≤ v.tmod (10 ^ 7) ∨
      v ≤ 0 ∧ v.tdiv (10 ^ 7) ≤ 0 ∧ v.tmod (10 ^ 7) ≤ 0 := by
    rcases Int.le_total 0 v with nonneg | nonpos
    · exact .inl ⟨nonneg, Int.tdiv_nonneg nonneg (by decide), Int.tmod_nonneg _ nonneg⟩
    · have nonneg : 0 ≤ -v := by omega
      have whole := Int.tdiv_nonneg nonneg (show (0 : Int) ≤ 10 ^ 7 by decide)
      have decimals := Int.tmod_nonneg (10 ^ 7) nonneg
      rw [Int.neg_tdiv] at whole
      rw [Int.neg_tmod] at decimals
      exact .inr ⟨nonpos, by omega, by omega⟩
  have range := toLong_range (v.tdiv (10 ^ 7))
  obtain ⟨q, cut⟩ : ((2 ^ 32 : Nat) : Int) ∣ toLong (v.tdiv (10 ^ 7)) - v.tdiv (10 ^ 7) :=
    Int.dvd_bmod_sub_self
  have kept : toLong (v.tdiv (10 ^ 7)) = v.tdiv (10 ^ 7) + 2 ^ 32 * q := by omega
  clear cut
  generalize toLong (v.tdiv (10 ^ 7)) = long at *
  generalize v.tdiv (10 ^ 7) = whole at *
  generalize v.tmod (10 ^ 7) = decimals at *
  split_ifs <;> omega

/-- An amount of -1.2345678 is read back. -/
theorem stringToMoney_formatMoney_negative :
    stringToMoney (formatMoney (Vector.replicate 50 0) (Vector.replicate 20 0) [] (-12345678)
      MONEY_DECIMAL_DIGITS 40) = -12345678 :=
  (stringToMoney_formatMoney _ _ (-12345678) (by decide)).2 (.inl (by decide))

/-- An amount of three thousand millions is not. -/
theorem stringToMoney_formatMoney_wide :
    stringToMoney (formatMoney (Vector.replicate 50 0) (Vector.replicate 20 0) []
      (3000000000 * 10 ^ 7) MONEY_DECIMAL_DIGITS 40) ≠ 3000000000 * 10 ^ 7 := by
  intro back
  rw [formatMoney_eq _ _ _ (by decide), stringToMoney_moneyText] at back
  revert back
  decide

end CimArm.Money
