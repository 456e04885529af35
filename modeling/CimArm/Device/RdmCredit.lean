import CimArm.Device.RdmFrame
import Mathlib.Data.Finset.Card
import Mathlib.Data.Finset.Interval
import Mathlib.Order.Interval.Finset.Nat

/-!
# Crediting a deposit of the RDM

The device reports its currency table in one frame and the result of a deposit in
another: for each note its id and how many were counted.  `processCurrencyTable` fills
the driver's conversion table from the first, `notifyBillsAccepted` looks each note of
the second up in it and notifies an accepted bill with the note's amount, its currency
and the quantity.

Neither frame tells how many records it has.  Behind the last one stand two ETX (the
reader puts one over the DLE of the end mark), the checksum, and whatever the buffer
held before; the table parser takes two bytes `3` after a greater row number as the end,
and the result is read for as many notes as the table has rows.

* `credited_iff`: a deposit is credited as reported, whatever the buffer held before, if
  and only if the table has five rows or more, the result lists all of them or all but
  one, and the first byte of the id of each note counted leads to a row with its currency
  and amount.
-/

namespace CimArm.Rdm

/-! ## The driver -/

/-- `MultipApp`: amounts have seven decimals. -/
def MultipApp : Nat := 10000000

/-- A row of the conversion table. -/
structure JCMDenomination : Type where
  amount : Nat
  countryStr : List UInt8
  currencyId : Nat
  noteId : UInt16

/-- A row cleared with `memset`. -/
def JCMDenomination.cleared : JCMDenomination := ⟨0, [0, 0, 0, 0], 0, 0⟩

/-- The currency file: country strings with the ids of their currencies. -/
abbrev CurrencyFile := List (List UInt8 × Nat)

/-- The id of the first currency of the file with this country string, or `0`. -/
def getCurrencyIdFromISOStr (file : CurrencyFile) (countryStr : List UInt8) : Nat :=
  match file.find? fun c => c.1 = countryStr.take 3 with
  | some c => c.2
  | none => 0

/-- A little-endian value of two bytes. -/
def shortAt (lo hi : UInt8) : UInt16 := lo.toUInt16 ||| (hi.toUInt16 <<< 8)

/-- A power of ten in an `unsigned short`. -/
def multip (exponente : UInt8) : UInt16 := UInt16.ofNat (10 ^ exponente.toNat)

/-- The row that the record at a pointer gives. Of the note id and the denomination only
one byte is read. -/
def readRow (file : CurrencyFile) (record : List UInt8) : JCMDenomination :=
  let countryStr := (record.drop 3).take 3 ++ [0]
  ⟨(record.getD 6 0).toNat * (multip (record.getD 7 0)).toNat, countryStr,
    getCurrencyIdFromISOStr file countryStr, (record.getD 1 0).toUInt16⟩

/-- The loop of `processCurrencyTable`: `left` more records at most, the pointer to the
next, how many were read, and the number of the last row.  A row number past the
conversion table is a write outside it; here it changes nothing. -/
def tableLoop (file : CurrencyFile) :
    Nat → List UInt8 → Nat → UInt8 → List JCMDenomination → Nat × List JCMDenomination
  | 0, _, i, _, convertionTable => (i, convertionTable)
  | left + 1, record, i, idx, convertionTable =>
    if idx > record.getD 0 0 ∧ (record.getD 1 0).toUInt16 = 0x03 then (i, convertionTable)
    else
      let idx := record.getD 0 0
      tableLoop file left (record.drop 11) (i + 1) idx
        (convertionTable.set idx.toNat (readRow file record))

/-- The number of rows and the conversion table, from a table frame whose result is `0`;
with another result nothing is loaded. -/
def processCurrencyTable (file : CurrencyFile) (dataEvPtr : List UInt8) :
    Option (Nat × List JCMDenomination) :=
  if dataEvPtr.getD 9 0 = 0 then
    some (tableLoop file 24 (dataEvPtr.drop 11) 0 0 (List.replicate 26 .cleared))
  else none

/-- What the driver tells the application about a deposit. -/
inductive Notification
  | billAccepted (amount : Nat) (currencyId : Nat) (qty : UInt16)
  | billRejected (qty : UInt8)
  | commError (cause : UInt16)
  deriving DecidableEq

/-- The notification for a note: that of the first row with its id. -/
def notifyNote (convertionTable : List JCMDenomination) (noteId qty : UInt16) :
    Option Notification :=
  match (convertionTable.take 24).find? fun d => d.noteId = noteId with
  | some d => if qty > 0 then some (.billAccepted (d.amount * MultipApp) d.currencyId qty) else none
  | none => none

/-- The loop over the notes of a result. -/
def notifyLoop (convertionTable : List JCMDenomination) : Nat → List UInt8 → List Notification
  | 0, _ => []
  | left + 1, currencyAccepted =>
    let noteId := shortAt (currencyAccepted.getD 0 0) (currencyAccepted.getD 1 0)
    let qty := shortAt (currencyAccepted.getD 2 0) (currencyAccepted.getD 3 0)
    (notifyNote convertionTable noteId qty).toList ++
      notifyLoop convertionTable left (currencyAccepted.drop 4)

/-- The notifications of a deposit result; from `0xE000` on the command was not executed. -/
def notifyBillsAccepted (denominationQty : Nat) (convertionTable : List JCMDenomination)
    (dataEvPtr : List UInt8) : List Notification :=
  let result := shortAt (dataEvPtr.getD 9 0) (dataEvPtr.getD 10 0)
  let qtyRejected := dataEvPtr.getD 11 0
  if result < 0xE000 then
    (if qtyRejected > 0 then [.billRejected qtyRejected] else []) ++
      (if result ≠ 0 then [.commError result] else []) ++
      notifyLoop convertionTable denominationQty (dataEvPtr.drop 12)
  else []

/-- The bills credited by some notifications. -/
def credits (l : List Notification) : List Notification :=
  l.filter fun n => match n with
    | .billAccepted _ _ _ => true
    | _ => false

/-! ## What the device sends -/

/-- A row of the device's currency table. -/
structure Row : Type where
  noteId : UInt16
  country : Vector UInt8 3
  denomination : UInt8
  exponent : UInt8
  emission : UInt8
  enabled : UInt8
  mode : UInt8

/-- The record of a row; the device numbers its rows. -/
def Row.bytes (idx : Nat) (r : Row) : List UInt8 :=
  UInt8.ofNat idx :: r.noteId.toUInt8 :: (r.noteId >>> 8).toUInt8 :: r.country.toList ++
    [r.denomination, r.exponent, r.emission, r.enabled, r.mode]

/-- The amount of the row's note. -/
def Row.amount (r : Row) : Nat := r.denomination.toNat * 10 ^ r.exponent.toNat * MultipApp

/-- The currency of the row's note. -/
def Row.currency (file : CurrencyFile) (r : Row) : Nat :=
  getCurrencyIdFromISOStr file (r.country.toList ++ [0])

/-- A currency table of the device: at most 24 rows, one for each note. -/
structure CurrencyTable : Type where
  rows : List Row
  length_le : rows.length ≤ 24
  distinct : (rows.map Row.noteId).Nodup

/-- A note and how many of it were counted. -/
structure Counted : Type where
  noteId : UInt16
  qty : UInt16

def Counted.bytes (c : Counted) : List UInt8 :=
  [c.noteId.toUInt8, (c.noteId >>> 8).toUInt8, c.qty.toUInt8, (c.qty >>> 8).toUInt8]

/-- The result of a deposit that was carried out: notes of the table, not more than it
has rows. -/
structure DepositResult (table : CurrencyTable) : Type where
  result : UInt16
  executed : result < 0xE000
  qtyRejected : UInt8
  counted : List Counted
  listed : ∀ c ∈ counted, c.noteId ∈ table.rows.map Row.noteId
  length_le : counted.length ≤ table.rows.length

/-- What stands behind the data of a frame just read. -/
def behind (crc : UInt8 × UInt8) (stale : List UInt8) : List UInt8 :=
  ETX :: ETX :: crc.1 :: crc.2 :: stale

/-- The records of rows numbered from `idx` on. -/
def rowsBytes : Nat → List Row → List UInt8
  | _, [] => []
  | idx, r :: rows => r.bytes idx ++ rowsBytes (idx + 1) rows

/-- The buffer with a table frame: nine bytes of header, result `0`, and the rows. -/
def CurrencyTable.frame (table : CurrencyTable) (header : Vector UInt8 9) (crc : UInt8 × UInt8)
    (stale : List UInt8) : List UInt8 :=
  header.toList ++ [0, 0] ++ rowsBytes 0 table.rows ++ behind crc stale

/-- The buffer with the frame of a deposit result. -/
def DepositResult.frame {table : CurrencyTable} (res : DepositResult table)
    (header : Vector UInt8 9) (crc : UInt8 × UInt8) (stale : List UInt8) : List UInt8 :=
  header.toList ++ [res.result.toUInt8, (res.result >>> 8).toUInt8, res.qtyRejected] ++
    res.counted.flatMap Counted.bytes ++ behind crc stale

/-- The credit for a counted note: its quantity at the amount and in the currency of the
note's row. -/
def credit (file : CurrencyFile) (table : CurrencyTable) (c : Counted) : Option Notification :=
  if c.qty > 0 then
    (table.rows.find? fun r => r.noteId = c.noteId).map fun r =>
      .billAccepted r.amount (r.currency file) c.qty
  else none

/-- The deposit is credited as reported: one credit for each note counted and no other,
whatever stood in the buffer before either frame. -/
def Credited (file : CurrencyFile) (table : CurrencyTable) (res : DepositResult table)
    (headers : Vector UInt8 9 × Vector UInt8 9) (crcs : (UInt8 × UInt8) × (UInt8 × UInt8)) : Prop :=
  ∀ staleTable staleResult : List UInt8,
    ∃ loaded, processCurrencyTable file (table.frame headers.1 crcs.1 staleTable) = some loaded ∧
      credits (notifyBillsAccepted loaded.1 loaded.2 (res.frame headers.2 crcs.2 staleResult)) =
        res.counted.filterMap (credit file table)

/-- The row that one byte of a note id leads to. -/
def Row.noteByte (r : Row) : UInt16 := r.noteId.toUInt8.toUInt16

/-- The first row with the byte of the note id has the currency and, with the power of
ten in 16 bits, the amount of the note's own row. -/
def FoundByByte (file : CurrencyFile) (table : CurrencyTable) (c : Counted) : Prop :=
  ∃ found own, (table.rows.find? fun r => r.noteByte = c.noteId) = some found ∧
    (table.rows.find? fun r => r.noteId = c.noteId) = some own ∧
    found.currency file = own.currency file ∧
    found.denomination.toNat * (multip found.exponent).toNat =
      own.denomination.toNat * 10 ^ own.exponent.toNat

/-! ## Reading the table -/

/-- The conversion row of a row of the table. -/
def Row.entry (file : CurrencyFile) (r : Row) : JCMDenomination :=
  ⟨r.denomination.toNat * (multip r.exponent).toNat, r.country.toList ++ [0], r.currency file,
    r.noteByte⟩

theorem Row.bytes_eq (idx : Nat) (r : Row) : ∃ x y z, r.country.toList = [x, y, z] ∧
    r.bytes idx = [UInt8.ofNat idx, r.noteId.toUInt8, (r.noteId >>> 8).toUInt8, x, y, z,
      r.denomination, r.exponent, r.emission, r.enabled, r.mode] := by
  rcases List.length_eq_three.1 r.country.length_toList with ⟨x, y, z, country⟩
  exact ⟨x, y, z, country, by rw [Row.bytes, country]; rfl⟩

theorem readRow_bytes (file : CurrencyFile) (idx : Nat) (r : Row) (more : List UInt8) :
    readRow file (r.bytes idx ++ more) = r.entry file := by
  rcases r.bytes_eq idx with ⟨x, y, z, country, bytes⟩
  rw [bytes, Row.entry, Row.currency, country]
  rfl

theorem tableLoop_row (file : CurrencyFile) (left i : Nat) (last : UInt8) {idx : Nat}
    (hidx : idx < 256) (ordered : last ≤ UInt8.ofNat idx) (r : Row) (more : List UInt8)
    (tbl : List JCMDenomination) :
    tableLoop file (left + 1) (r.bytes idx ++ more) i last tbl =
      tableLoop file left more (i + 1) (UInt8.ofNat idx) (tbl.set idx (r.entry file)) := by
  rcases r.bytes_eq idx with ⟨x, y, z, country, bytes⟩
  have row : (r.bytes idx ++ more).getD 0 0 = UInt8.ofNat idx := by
    rw [bytes]
    rfl
  have rest : (r.bytes idx ++ more).drop 11 = more := by
    rw [bytes]
    rfl
  have number : (UInt8.ofNat idx).toNat = idx := by
    rw [UInt8.toNat_ofNat']
    exact Nat.mod_eq_of_lt hidx
  rw [tableLoop, row, if_neg fun h => UInt8.not_lt.2 ordered h.1]
  simp only [rest, number, readRow_bytes]

/-- The conversion table after some rows. -/
def loadedTable (file : CurrencyFile) (rows : List Row) : List JCMDenomination :=
  rows.map (Row.entry file) ++ List.replicate (26 - rows.length) .cleared

variable {rows : List Row} {noteId : UInt16}

theorem loadedTable_set (file : CurrencyFile) (hlen : rows.length < 24) (r : Row) :
    (loadedTable file rows).set rows.length (r.entry file) = loadedTable file (rows ++ [r]) := by
  obtain ⟨k, hk⟩ : ∃ k, 26 - rows.length = k + 1 := ⟨25 - rows.length, by omega⟩
  have rest : 26 - (rows ++ [r]).length = k := by
    rw [List.length_append, List.length_singleton]
    omega
  rw [loadedTable, loadedTable, hk, rest, List.replicate_succ, List.map_append]
  simp

theorem tableLoop_rows (file : CurrencyFile) (more : List UInt8) :
    ∀ (rows done : List Row) (last : UInt8), done.length + rows.length ≤ 24 →
      last ≤ UInt8.ofNat done.length →
      tableLoop file (24 - done.length) (rowsBytes done.length rows ++ more) done.length last
          (loadedTable file done) =
        tableLoop file (24 - (done ++ rows).length) more (done ++ rows).length
          (if rows = [] then last else UInt8.ofNat ((done ++ rows).length - 1))
          (loadedTable file (done ++ rows))
  | [], done, last, _, _ => by simp [rowsBytes]
  | r :: rows, done, last, fits, ordered => by
    have left : 24 - done.length = 24 - (done ++ [r]).length + 1 := by
      simp only [List.length_cons, List.length_append, List.length_nil] at fits ⊢
      omega
    have inside : done.length < 24 := by
      simp only [List.length_cons] at fits
      omega
    have next : UInt8.ofNat done.length ≤ UInt8.ofNat (done ++ [r]).length := by
      rw [UInt8.le_iff_toNat_le, UInt8.toNat_ofNat', UInt8.toNat_ofNat', List.length_append,
        List.length_singleton]
      omega
    have ih := tableLoop_rows file more rows (done ++ [r]) (UInt8.ofNat done.length)
      (by simp only [List.length_cons, List.length_append, List.length_nil] at fits ⊢; omega) next
    have bytes : rowsBytes done.length (r :: rows) ++ more =
        r.bytes done.length ++ (rowsBytes (done ++ [r]).length rows ++ more) := by
      rw [rowsBytes, List.append_assoc, List.length_append, List.length_singleton]
    rw [bytes, left, tableLoop_row file _ _ _ (by omega) ordered, loadedTable_set file inside]
    have count : done.length + 1 = (done ++ [r]).length := by simp
    rw [count, ih, List.append_assoc, List.singleton_append, if_neg (List.cons_ne_nil r rows)]
    rcases rows with _ | ⟨r', rows⟩
    · rw [if_pos rfl]
      simp
    · rw [if_neg (List.cons_ne_nil r' rows)]

theorem processCurrencyTable_rows (file : CurrencyFile) (table : CurrencyTable)
    (header : Vector UInt8 9) (crc : UInt8 × UInt8) (stale : List UInt8) :
    processCurrencyTable file (table.frame header crc stale) =
      some (tableLoop file (24 - table.rows.length) (behind crc stale) table.rows.length
        (if table.rows = [] then 0 else UInt8.ofNat (table.rows.length - 1))
        (loadedTable file table.rows)) := by
  have before : header.toList.length = 9 := header.length_toList
  have frame : table.frame header crc stale =
      (header.toList ++ [0, 0]) ++ (rowsBytes 0 table.rows ++ behind crc stale) := by
    rw [CurrencyTable.frame, List.append_assoc]
  have result : (table.frame header crc stale).getD 9 0 = 0 := by
    rw [frame, List.getD_eq_getElem?_getD, List.getElem?_append_left (by simp),
      List.getElem?_append_right (by omega), before]
    rfl
  have records : (table.frame header crc stale).drop 11 =
      rowsBytes 0 table.rows ++ behind crc stale := by
    rw [frame, List.drop_left' (by simp)]
  rw [processCurrencyTable, if_pos result, records]
  exact congrArg some (tableLoop_rows file (behind crc stale) table.rows [] 0
    (by simpa using table.length_le) (UInt8.le_refl 0))

/-- Five rows or more are loaded as they are: what follows the last is taken for the end. -/
theorem processCurrencyTable_frame (file : CurrencyFile) {table : CurrencyTable}
    (enough : 5 ≤ table.rows.length) (header : Vector UInt8 9) (crc : UInt8 × UInt8)
    (stale : List UInt8) :
    processCurrencyTable file (table.frame header crc stale) =
      some (table.rows.length, loadedTable file table.rows) := by
  have filled : table.rows ≠ [] := by
    intro empty
    simp [empty] at enough
  have le := table.length_le
  rw [processCurrencyTable_rows, if_neg filled]
  rcases Nat.eq_zero_or_pos (24 - table.rows.length) with full | room
  · rw [full]
    rfl
  · obtain ⟨left, hleft⟩ : ∃ k, 24 - table.rows.length = k + 1 :=
      ⟨24 - table.rows.length - 1, by omega⟩
    have last : UInt8.ofNat (table.rows.length - 1) > ETX := by
      change ETX < _
      rw [UInt8.lt_iff_toNat_lt, UInt8.toNat_ofNat']
      change 3 < _
      omega
    have mark : ((behind crc stale).getD 1 0).toUInt16 = 0x03 := rfl
    rw [hleft, tableLoop, if_pos ⟨last, mark⟩]

/-! ## Looking a note up -/

theorem shortAt_bytes (n : UInt16) : shortAt n.toUInt8 (n >>> 8).toUInt8 = n := by
  apply UInt16.toNat_inj.1
  have lt := n.toNat_lt
  have high : (n >>> 8).toNat = n.toNat / 2 ^ 8 := by
    rw [UInt16.toNat_shiftRight, Nat.shiftRight_eq_div_pow]
    rfl
  have shifted : ((n >>> 8).toUInt8.toUInt16 <<< 8).toNat = n.toNat / 2 ^ 8 * 2 ^ 8 := by
    rw [UInt16.toNat_shiftLeft, UInt8.toNat_toUInt16, UInt16.toNat_toUInt8, high, Nat.shiftLeft_eq]
    change n.toNat / 2 ^ 8 % 2 ^ 8 * 2 ^ 8 % 2 ^ 16 = _
    omega
  have low : n.toUInt8.toUInt16.toNat = n.toNat % 2 ^ 8 := by
    rw [UInt8.toNat_toUInt16, UInt16.toNat_toUInt8]
  rw [shortAt, UInt16.toNat_or, shifted, low, Nat.or_comm, ← Nat.shiftLeft_eq,
    ← Nat.shiftLeft_add_eq_or_of_lt (Nat.mod_lt _ (by decide)), Nat.shiftLeft_eq]
  omega

theorem noteByte_lt (r : Row) : r.noteByte < 256 := by
  rw [UInt16.lt_iff_toNat_lt, Row.noteByte, UInt8.toNat_toUInt16]
  exact r.noteId.toUInt8.toNat_lt

theorem find?_loadedTable (file : CurrencyFile) (fits : rows.length ≤ 24) (noteId : UInt16) :
    ((loadedTable file rows).take 24).find? (fun d => d.noteId = noteId) =
      ((rows.find? fun r => r.noteByte = noteId).map (Row.entry file)).or
        ((List.replicate (24 - rows.length) JCMDenomination.cleared).find? fun d =>
          d.noteId = noteId) := by
  have looked : (loadedTable file rows).take 24 =
      rows.map (Row.entry file) ++ List.replicate (24 - rows.length) .cleared := by
    have left : min (24 - rows.length) (26 - rows.length) = 24 - rows.length := by omega
    rw [loadedTable, List.take_append, List.take_of_length_le (by simpa using fits),
      List.length_map, List.take_replicate, left]
  rw [looked, List.find?_append, List.find?_map]
  rfl

theorem notifyNote_found (file : CurrencyFile) (fits : rows.length ≤ 24) {r : Row}
    (found : (rows.find? fun r => r.noteByte = noteId) = some r) (qty : UInt16) :
    notifyNote (loadedTable file rows) noteId qty =
      if qty > 0 then
        some (.billAccepted (r.denomination.toNat * (multip r.exponent).toNat * MultipApp)
          (r.currency file) qty)
      else none := by
  rw [notifyNote, find?_loadedTable file fits, found]
  rfl

theorem notifyNote_missing (file : CurrencyFile) (fits : rows.length ≤ 24)
    (missing : (rows.find? fun r => r.noteByte = noteId) = none) (nonzero : noteId ≠ 0)
    (qty : UInt16) : notifyNote (loadedTable file rows) noteId qty = none := by
  have cleared : ((List.replicate (24 - rows.length) JCMDenomination.cleared).find? fun d =>
      d.noteId = noteId) = none := by
    rw [List.find?_eq_none]
    intro d hd
    rw [List.eq_of_mem_replicate hd]
    change ¬ decide ((0 : UInt16) = noteId) = true
    simpa using nonzero.symm
  rw [notifyNote, find?_loadedTable file fits, missing, cleared]
  rfl

theorem notifyNote_behind (file : CurrencyFile) (fits : rows.length ≤ 24) (qty : UInt16) :
    notifyNote (loadedTable file rows) (shortAt ETX ETX) qty = none := by
  refine notifyNote_missing file fits ?_ (by decide) qty
  rw [List.find?_eq_none]
  intro r _
  have small := noteByte_lt r
  have mark : shortAt ETX ETX = 0x0303 := by decide
  rw [mark, decide_eq_true_eq]
  intro same
  rw [same] at small
  exact absurd small (by decide)

/-! ## The notifications of a result -/

theorem notifyLoop_counted (tbl : List JCMDenomination) (k : Nat) (more : List UInt8) :
    ∀ counted : List Counted,
      notifyLoop tbl (counted.length + k) (counted.flatMap Counted.bytes ++ more) =
        counted.filterMap (fun c => notifyNote tbl c.noteId c.qty) ++ notifyLoop tbl k more
  | [] => by simp
  | c :: counted => by
    have left : (c :: counted).length + k = counted.length + k + 1 := by
      rw [List.length_cons]
      omega
    have bytes : (c :: counted).flatMap Counted.bytes ++ more =
        c.noteId.toUInt8 :: (c.noteId >>> 8).toUInt8 :: c.qty.toUInt8 :: (c.qty >>> 8).toUInt8 ::
          (counted.flatMap Counted.bytes ++ more) := by
      simp [Counted.bytes]
    rw [left, bytes, notifyLoop]
    simp only [List.getD_cons_zero, List.getD_cons_succ, shortAt_bytes, List.drop_succ_cons,
      List.drop_zero, List.filterMap_cons]
    rw [notifyLoop_counted tbl k more counted]
    cases notifyNote tbl c.noteId c.qty <;> rfl

/-- Behind the notes stand the two ETX and the checksum, then what was there before. -/
theorem notifyLoop_behind (tbl : List JCMDenomination) (k : Nat) (crc : UInt8 × UInt8)
    (stale : List UInt8) :
    notifyLoop tbl (k + 1) (behind crc stale) =
      (notifyNote tbl (shortAt ETX ETX) (shortAt crc.1 crc.2)).toList ++ notifyLoop tbl k stale :=
  rfl

theorem notifyNote_credit {tbl : List JCMDenomination} {qty : UInt16} {n : Notification}
    (h : notifyNote tbl noteId qty = some n) :
    0 < qty ∧ ∃ amount currencyId, n = .billAccepted amount currencyId qty := by
  rw [notifyNote] at h
  split at h
  · split_ifs at h with positive
    exact ⟨positive, _, _, (Option.some.inj h).symm⟩
  · exact absurd h (by simp)

theorem credits_notifyLoop (tbl : List JCMDenomination) :
    ∀ (k : Nat) (notes : List UInt8), credits (notifyLoop tbl k notes) = notifyLoop tbl k notes
  | 0, _ => rfl
  | k + 1, notes => by
    have ih := credits_notifyLoop tbl k (notes.drop 4)
    rw [credits] at ih
    rw [notifyLoop, credits, List.filter_append, ih]
    congr 1
    cases h : notifyNote tbl (shortAt (notes.getD 0 0) (notes.getD 1 0))
        (shortAt (notes.getD 2 0) (notes.getD 3 0)) with
    | none => rfl
    | some n =>
      rcases notifyNote_credit h with ⟨-, amount, currencyId, rfl⟩
      rfl

/-- What a result credits: its notes as the driver's table has them, and then what the
loop reads behind them. -/
theorem credits_frame {table : CurrencyTable} (res : DepositResult table) (header : Vector UInt8 9)
    (crc : UInt8 × UInt8) (stale : List UInt8) (tbl : List JCMDenomination) {k : Nat} :
    credits (notifyBillsAccepted (res.counted.length + k) tbl (res.frame header crc stale)) =
      res.counted.filterMap (fun c => notifyNote tbl c.noteId c.qty) ++
        notifyLoop tbl k (behind crc stale) := by
  have before : header.toList.length = 9 := header.length_toList
  have frame : res.frame header crc stale =
      header.toList ++ (res.result.toUInt8 :: (res.result >>> 8).toUInt8 :: res.qtyRejected ::
        (res.counted.flatMap Counted.bytes ++ behind crc stale)) := by
    simp [DepositResult.frame]
  have field (j : Nat) : (res.frame header crc stale).getD (9 + j) 0 =
      (res.result.toUInt8 :: (res.result >>> 8).toUInt8 :: res.qtyRejected ::
        (res.counted.flatMap Counted.bytes ++ behind crc stale)).getD j 0 := by
    rw [frame, List.getD_eq_getElem?_getD, List.getElem?_append_right (by omega), before,
      Nat.add_sub_cancel_left, List.getD_eq_getElem?_getD]
  have result : shortAt ((res.frame header crc stale).getD 9 0)
      ((res.frame header crc stale).getD 10 0) = res.result := by
    rw [field 0, field 1]
    exact shortAt_bytes res.result
  have notes : (res.frame header crc stale).drop 12 =
      res.counted.flatMap Counted.bytes ++ behind crc stale := by
    rw [frame, List.drop_append, List.drop_eq_nil_of_le (by omega), before]
    rfl
  rw [notifyBillsAccepted, result, if_pos res.executed, notes, notifyLoop_counted, credits,
    List.filter_append]
  have others : ((if (res.frame header crc stale).getD 11 0 > 0 then
      [Notification.billRejected ((res.frame header crc stale).getD 11 0)] else []) ++
      (if res.result ≠ 0 then [Notification.commError res.result] else [])).filter
        (fun n => match n with | .billAccepted _ _ _ => true | _ => false) = [] := by
    split_ifs <;> rfl
  rw [others, List.nil_append, ← notifyLoop_counted]
  exact credits_notifyLoop tbl _ _

/-! ## When a deposit is credited as reported -/

theorem length_filterMap_le {A B : Type} {f g : A → Option B} {l : List A}
    (sub : ∀ a ∈ l, (f a).isSome → (g a).isSome) :
    (l.filterMap f).length ≤ (l.filterMap g).length := by
  induction l with
  | nil => exact Nat.le_refl 0
  | cons a l ih =>
    have rest := ih fun b hb => sub b (.tail _ hb)
    have head := sub a (.head _)
    rw [List.filterMap_cons, List.filterMap_cons]
    cases hf : f a with
    | none =>
      cases hg : g a with
      | none => exact rest
      | some b => exact Nat.le_succ_of_le rest
    | some b =>
      rcases Option.isSome_iff_exists.1 (head (by simp [hf])) with ⟨b', hg⟩
      rw [hg]
      exact Nat.succ_le_succ rest

/-- Two ways of picking that agree on a list agree on each element, when the one picks
only where the other does. -/
theorem filterMap_eq_iff {A B : Type} {f g : A → Option B} {l : List A}
    (sub : ∀ a ∈ l, (f a).isSome → (g a).isSome) :
    l.filterMap f = l.filterMap g ↔ ∀ a ∈ l, f a = g a := by
  refine ⟨fun same => ?_, List.filterMap_congr⟩
  induction l with
  | nil => simp
  | cons a l ih =>
    have rest : ∀ b ∈ l, (f b).isSome → (g b).isSome := fun b hb => sub b (.tail _ hb)
    rw [List.filterMap_cons, List.filterMap_cons] at same
    cases hf : f a with
    | none =>
      cases hg : g a with
      | none =>
        rw [hf, hg] at same
        exact List.forall_mem_cons.2 ⟨hf.trans hg.symm, ih rest same⟩
      | some b =>
        -- the one skips what the other picks, so its list is shorter
        rw [hf, hg] at same
        have shorter := length_filterMap_le rest
        have longer := congrArg List.length same
        simp only [List.length_cons] at longer
        omega
    | some b =>
      rcases Option.isSome_iff_exists.1 (sub a (.head _) (by simp [hf])) with ⟨b', hg⟩
      rw [hf, hg, List.cons.injEq] at same
      exact List.forall_mem_cons.2 ⟨by rw [hf, hg, same.1], ih rest same.2⟩

variable (file : CurrencyFile) {table : CurrencyTable} (res : DepositResult table)

theorem DepositResult.own {c : Counted} (hc : c ∈ res.counted) :
    ∃ own, (table.rows.find? fun r => r.noteId = c.noteId) = some own ∧ own.noteId = c.noteId := by
  rcases List.mem_map.1 (res.listed c hc) with ⟨r, hr, same⟩
  cases found : table.rows.find? fun r => r.noteId = c.noteId with
  | none =>
    rw [List.find?_eq_none] at found
    exact absurd same (by simpa using found r hr)
  | some own => exact ⟨own, rfl, by simpa using List.find?_some found⟩

theorem DepositResult.nonzero {c : Counted} (hc : c ∈ res.counted)
    (missing : (table.rows.find? fun r => r.noteByte = c.noteId) = none) : c.noteId ≠ 0 := by
  intro zero
  rcases List.mem_map.1 (res.listed c hc) with ⟨r, hr, same⟩
  rw [List.find?_eq_none] at missing
  refine missing r hr ?_
  rw [decide_eq_true_eq, Row.noteByte, same, zero]
  rfl

/-- A listed note is credited right if and only if none was counted or its first byte
leads to a row like its own. -/
theorem notifyNote_eq_credit_iff {c : Counted} (hc : c ∈ res.counted) :
    notifyNote (loadedTable file table.rows) c.noteId c.qty = credit file table c ↔
      (0 < c.qty → FoundByByte file table c) := by
  rcases res.own hc with ⟨own, hown, -⟩
  rw [credit, hown]
  cases found : table.rows.find? fun r => r.noteByte = c.noteId with
  | none =>
    rw [notifyNote_missing file table.length_le found (res.nonzero hc found)]
    by_cases positive : 0 < c.qty
    · rw [if_pos positive]
      refine iff_of_false (by simp) fun byByte => ?_
      rcases byByte positive with ⟨r, _, hr, -⟩
      rw [found] at hr
      exact absurd hr (by simp)
    · rw [if_neg positive]
      exact iff_of_true rfl fun h => absurd h positive
  | some r =>
    rw [notifyNote_found file table.length_le found]
    by_cases positive : 0 < c.qty
    · have amounts (a b : Nat) : a * MultipApp = b * MultipApp ↔ a = b :=
        Nat.mul_left_inj (by decide)
      rw [if_pos positive, if_pos positive, Option.map_some, Option.some_inj,
        Notification.billAccepted.injEq, Row.amount, amounts]
      constructor
      · rintro ⟨amount, currency, -⟩ -
        exact ⟨r, own, found, hown, currency, amount⟩
      · intro byByte
        rcases byByte positive with ⟨r', own', hr', hown', currency, amount⟩
        rw [found, Option.some_inj] at hr'
        rw [hown, Option.some_inj] at hown'
        subst hr' hown'
        exact ⟨amount, currency, rfl⟩
    · rw [if_neg positive, if_neg positive]
      exact iff_of_true rfl fun h => absurd h positive

theorem filterMap_eq_credit_iff :
    res.counted.filterMap (fun c => notifyNote (loadedTable file table.rows) c.noteId c.qty) =
        res.counted.filterMap (credit file table) ↔
      ∀ c ∈ res.counted, 0 < c.qty → FoundByByte file table c := by
  rw [filterMap_eq_iff]
  · exact forall₂_congr fun c hc => notifyNote_eq_credit_iff file res hc
  · intro c hc some_note
    rcases Option.isSome_iff_exists.1 some_note with ⟨n, hn⟩
    rcases res.own hc with ⟨own, hown, -⟩
    rw [credit, hown, if_pos (notifyNote_credit hn).1]
    rfl

theorem DepositResult.fresh : ∃ q : UInt16, 0 < q ∧ ∀ c ∈ res.counted, c.qty ≠ q := by
  let taken := (res.counted.map fun c => c.qty.toNat).toFinset
  have few : taken.card < (Finset.Icc 1 25).card := by
    have le : taken.card ≤ (res.counted.map fun c => c.qty.toNat).length :=
      List.toFinset_card_le _
    rw [List.length_map] at le
    have rows := res.length_le.trans table.length_le
    rw [Nat.card_Icc]
    omega
  rcases Finset.exists_mem_notMem_of_card_lt_card few with ⟨n, hn, unused⟩
  rw [Finset.mem_Icc] at hn
  have value : (UInt16.ofNat n).toNat = n := by
    rw [UInt16.toNat_ofNat']
    omega
  refine ⟨UInt16.ofNat n, ?_, fun c hc same => unused ?_⟩
  · rw [UInt16.lt_iff_toNat_lt, value]
    exact hn.1
  · rw [List.mem_toFinset, List.mem_map]
    exact ⟨c, hc, by rw [same, value]⟩

theorem DepositResult.not_mem_credit {q : UInt16} (unused : ∀ c ∈ res.counted, c.qty ≠ q)
    (amount currencyId : Nat) :
    .billAccepted amount currencyId q ∉ res.counted.filterMap (credit file table) := by
  rw [List.mem_filterMap]
  rintro ⟨c, hc, credited⟩
  rw [credit] at credited
  split_ifs at credited
  rcases Option.map_eq_some_iff.1 credited with ⟨r, -, same⟩
  injection same with _ _ qty
  exact unused c hc qty

/-- The buffer's bytes for a note, behind a result that is too short. -/
def staleNote (lo : UInt8) (q : UInt16) : List UInt8 := [lo, 0, q.toUInt8, (q >>> 8).toUInt8]

theorem mem_notifyLoop_stale {tbl : List JCMDenomination} {lo : UInt8} {q : UInt16}
    (positive : 0 < q) (found : ((tbl.take 24).find? fun d => d.noteId = lo.toUInt16).isSome)
    (crc : UInt8 × UInt8) (k : Nat) : ∃ amount currencyId,
      .billAccepted amount currencyId q ∈ notifyLoop tbl (k + 2) (behind crc (staleNote lo q)) := by
  rcases Option.isSome_iff_exists.1 found with ⟨d, hd⟩
  have id : shortAt lo 0 = lo.toUInt16 := by simp [shortAt]
  refine ⟨d.amount * MultipApp, d.currencyId, ?_⟩
  rw [notifyLoop_behind, notifyLoop]
  have note : notifyNote tbl (shortAt ((staleNote lo q).getD 0 0) ((staleNote lo q).getD 1 0))
      (shortAt ((staleNote lo q).getD 2 0) ((staleNote lo q).getD 3 0)) =
        some (.billAccepted (d.amount * MultipApp) d.currencyId q) := by
    change notifyNote tbl (shortAt lo 0) (shortAt q.toUInt8 (q >>> 8).toUInt8) = _
    rw [id, shortAt_bytes, notifyNote, hd]
    exact if_pos positive
  simp only [note]
  simp

/-- A run of the loop that goes on to the stale note credits something else than the
result. -/
theorem not_credited_stale {headers : Vector UInt8 9 × Vector UInt8 9}
    {crcs : (UInt8 × UInt8) × (UInt8 × UInt8)} {staleTable : List UInt8} {qty k : Nat}
    {tbl : List JCMDenomination} {lo : UInt8}
    (loaded : processCurrencyTable file (table.frame headers.1 crcs.1 staleTable) = some (qty, tbl))
    (past : qty = res.counted.length + (k + 2))
    (found : ((tbl.take 24).find? fun d => d.noteId = lo.toUInt16).isSome) :
    ¬ Credited file table res headers crcs := by
  intro credited
  rcases res.fresh with ⟨q, positive, unused⟩
  rcases credited staleTable (staleNote lo q) with ⟨loaded', hloaded, same⟩
  rw [loaded, Option.some_inj] at hloaded
  subst hloaded
  simp only [past, credits_frame] at same
  rcases mem_notifyLoop_stale positive found crcs.2 k with ⟨amount, currencyId, extra⟩
  refine res.not_mem_credit file unused amount currencyId ?_
  rw [← same]
  exact List.mem_append_right _ extra

theorem tableLoop_nil (left i : Nat) (idx : UInt8) (tbl : List JCMDenomination) :
    ∃ tbl', tableLoop file left [] i idx tbl = (i + left, tbl') ∧ tbl'[4]? = tbl[4]? := by
  induction left generalizing i idx tbl with
  | zero => exact ⟨tbl, rfl, rfl⟩
  | succ left ih =>
    rcases ih (i + 1) 0 (tbl.set 0 (readRow file [])) with ⟨tbl', loop, same⟩
    refine ⟨tbl', ?_, ?_⟩
    · rw [tableLoop, if_neg (by simp)]
      have count : i + (left + 1) = i + 1 + left := by omega
      rw [count]
      exact loop
    · rw [same, List.getElem?_set_ne (by decide)]

/-- A buffer in which a row with note id `9` follows the end of a table. -/
def staleRow : List UInt8 := List.replicate 7 0 ++ [4, 9, 0, 0, 0, 0, 1, 0, 0, 0, 0]

/-- Of a table of at most four rows the end is not found: the loop goes on to the rows
that were in the buffer before. -/
theorem processCurrencyTable_few (few : table.rows.length < 5) (header : Vector UInt8 9)
    (crc : UInt8 × UInt8) : ∃ tbl,
      processCurrencyTable file (table.frame header crc staleRow) = some (24, tbl) ∧
        ((tbl.take 24).find? fun d => d.noteId = (9 : UInt8).toUInt16).isSome := by
  let last : UInt8 := if table.rows = [] then 0 else UInt8.ofNat (table.rows.length - 1)
  have small : last ≤ 3 := by
    change (if table.rows = [] then 0 else UInt8.ofNat (table.rows.length - 1)) ≤ _
    split_ifs
    · decide
    · rw [UInt8.le_iff_toNat_le, UInt8.toNat_ofNat']
      change _ ≤ 3
      omega
  obtain ⟨left, hleft⟩ : ∃ k, 24 - table.rows.length = k + 2 :=
    ⟨22 - table.rows.length, by omega⟩
  let garbage := readRow file (behind crc staleRow)
  let stale := readRow file (staleRow.drop 7)
  let n := table.rows.length
  let tbl := ((loadedTable file table.rows).set 3 garbage).set 4 stale
  have first : tableLoop file (left + 2) (behind crc staleRow) n last
      (loadedTable file table.rows) = tableLoop file (left + 1) (staleRow.drop 7) (n + 1) 3
        ((loadedTable file table.rows).set 3 garbage) := by
    rw [tableLoop, if_neg fun h => UInt8.not_lt.2 small h.1]
    rfl
  have second : tableLoop file (left + 1) (staleRow.drop 7) (n + 1) 3
      ((loadedTable file table.rows).set 3 garbage) = tableLoop file left [] (n + 1 + 1) 4 tbl := by
    rw [tableLoop, if_neg (by decide)]
    rfl
  rcases tableLoop_nil file left (n + 1 + 1) 4 tbl with ⟨tbl', loop, kept⟩
  have count : n + 1 + 1 + left = 24 := by
    change table.rows.length + 1 + 1 + left = 24
    omega
  refine ⟨tbl', ?_, ?_⟩
  · rw [processCurrencyTable_rows, hleft]
    exact congrArg some (first.trans (second.trans (loop.trans (by rw [count]))))
  · have long : 4 < (loadedTable file table.rows).length := by
      rw [loadedTable, List.length_append, List.length_map, List.length_replicate]
      omega
    have row : tbl[4]? = some stale := by
      rw [List.getElem?_set_self]
      rwa [List.length_set]
    rw [List.find?_isSome]
    refine ⟨stale, List.mem_of_getElem? (i := 4) ?_, ?_⟩
    · rw [List.getElem?_take_of_lt (by decide), kept, row]
    · change decide ((9 : UInt8).toUInt16 = (9 : UInt8).toUInt16) = true
      decide

/-- With a table that is loaded as it is and a result that lists its rows, or all but
one, it comes down to each note. -/
theorem credited_iff_found (headers : Vector UInt8 9 × Vector UInt8 9)
    (crcs : (UInt8 × UInt8) × (UInt8 × UInt8)) (enough : 5 ≤ table.rows.length)
    (whole : table.rows.length ≤ res.counted.length + 1) :
    Credited file table res headers crcs ↔
      ∀ c ∈ res.counted, 0 < c.qty → FoundByByte file table c := by
  have le := res.length_le
  have loaded := processCurrencyTable_frame file enough headers.1 crcs.1
  rw [← filterMap_eq_credit_iff, Credited]
  have extra : table.rows.length = res.counted.length + 0 ∨
      table.rows.length = res.counted.length + 1 := by omega
  have all (staleResult : List UInt8) :
      credits (notifyBillsAccepted table.rows.length (loadedTable file table.rows)
        (res.frame headers.2 crcs.2 staleResult)) =
        res.counted.filterMap fun c => notifyNote (loadedTable file table.rows) c.noteId c.qty := by
    rcases extra with exact | one
    · rw [exact, credits_frame]
      exact List.append_nil _
    · rw [one, credits_frame, notifyLoop_behind, notifyNote_behind file table.length_le]
      exact List.append_nil _
  constructor
  · intro credited
    rcases credited [] [] with ⟨tbl, hloaded, same⟩
    rw [loaded, Option.some_inj] at hloaded
    subst hloaded
    exact (all []).symm.trans same
  · intro same staleTable staleResult
    exact ⟨_, loaded staleTable, (all staleResult).trans same⟩

/-- A deposit is credited as reported, whatever the buffer held, if and only if the table
has five rows or more, the result lists all of them or all but one, and the first byte
of the id of each note counted leads to a row with its currency and amount. -/
theorem credited_iff (headers : Vector UInt8 9 × Vector UInt8 9)
    (crcs : (UInt8 × UInt8) × (UInt8 × UInt8)) :
    Credited file table res headers crcs ↔
      5 ≤ table.rows.length ∧ table.rows.length ≤ res.counted.length + 1 ∧
        ∀ c ∈ res.counted, 0 < c.qty → FoundByByte file table c := by
  have le := res.length_le
  have limit := table.length_le
  rcases Nat.lt_or_ge table.rows.length 5 with few | enough
  · rcases processCurrencyTable_few file few headers.1 crcs.1 with ⟨tbl, loaded, found⟩
    have past : 24 = res.counted.length + (22 - res.counted.length + 2) := by omega
    exact iff_of_false (not_credited_stale file res loaded past found)
      fun h => absurd h.1 (by omega)
  rcases Nat.lt_or_ge (res.counted.length + 1) table.rows.length with short | whole
  · have loaded := processCurrencyTable_frame file enough headers.1 crcs.1 []
    obtain ⟨r, rest, rows⟩ := List.exists_cons_of_length_pos (by omega : 0 < table.rows.length)
    have found : (((loadedTable file table.rows).take 24).find? fun d =>
        d.noteId = r.noteId.toUInt8.toUInt16).isSome := by
      rw [List.find?_isSome]
      exact ⟨r.entry file, by simp [loadedTable, rows], by simp [Row.entry, Row.noteByte]⟩
    have past : table.rows.length =
        res.counted.length + (table.rows.length - res.counted.length - 2 + 2) := by omega
    exact iff_of_false (not_credited_stale file res loaded past found)
      fun h => absurd h.2.1 (by omega)
  · rw [credited_iff_found file res headers crcs enough whole]
    exact (and_iff_right enough).trans (and_iff_right whole) |>.symm

/-- A table of five rows, the last with note id `256`, and a result with one such note. -/
theorem not_credited_wide_id :
    ¬ ∀ (file : CurrencyFile) (table : CurrencyTable) (res : DepositResult table)
      (headers : Vector UInt8 9 × Vector UInt8 9) (crcs : (UInt8 × UInt8) × (UInt8 × UInt8)),
      Credited file table res headers crcs := by
  intro always
  let row (noteId : UInt16) : Row := ⟨noteId, Vector.replicate 3 0x41, 5, 1, 0, 1, 0⟩
  let table : CurrencyTable :=
    ⟨[row 1, row 2, row 3, row 4, row 256], by decide, by decide⟩
  let res : DepositResult table :=
    ⟨0, by decide, 0, [⟨1, 0⟩, ⟨2, 0⟩, ⟨3, 0⟩, ⟨4, 0⟩, ⟨256, 1⟩], by decide, by decide⟩
  have credited := always [] table res (Vector.replicate 9 0, Vector.replicate 9 0) ((0, 0), (0, 0))
  rw [credited_iff_found [] res _ _ (by decide) (by decide)] at credited
  rcases credited ⟨256, 1⟩ (by simp [res]) (by decide) with ⟨found, own, hfound, -⟩
  have none_found : (table.rows.find? fun r => r.noteByte = 256) = none := by decide
  rw [none_found] at hfound
  exact absurd hfound (by simp)

end CimArm.Rdm
