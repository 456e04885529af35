import Mathlib.Data.List.GetD
import Mathlib.Data.List.Infix
import Mathlib.Tactic.Ring

/-!
# The firmware of a CCNET validator

A firmware comes in Intel HEX: lines with a start mark, and in two digits for each byte the
size of the data, the address, the type of the record, the data and a checksum.
`convertHexFileToBin` looks for the mark, takes the size and the address, fills the image
with zeros up to the address and appends the data.  It ends at a record of size 0.

It does not notice the end of the file, it takes every record for data, it appends the data of
an address that is already behind it, and the value of a lower case digit is 32 too great.

* `hexFile_converted`: the files with which it comes to an end, and the layouts of files with
  which every image is right.
-/

namespace CimArm.HexFile

open List

/-! ## The conversion -/

def aton (ch : UInt8) : Int := if ch < 0x3A then ch.toNat - 0x30 else ch.toNat - 0x37

/-- The `i`-th character from here; at the end of the file it is the byte of -1. -/
def fgetc (file : List UInt8) (i : Nat) : UInt8 := file.getD i 0xFF

/-- A byte in two digits, which are read from left to right. -/
def digits (file : List UInt8) : Int := 16 * aton (fgetc file 0) + aton (fgetc file 1)

/-- The offset that is returned, the number of bytes written and the bytes. -/
structure Conversion : Type where
  offset : Int
  count : Int
  firmImage : List UInt8
deriving DecidableEq

/-- The loop to the start mark, and what is behind it; without a mark it does not end. -/
def findMark : List UInt8 → Option (List UInt8)
  | [] => none
  | c :: file => if c = 0x3A then some file else findMark file

def recSize (file : List UInt8) : Int := digits file

def address (file : List UInt8) : Int :=
  16 * 16 * 16 * aton (fgetc file 2) + 16 * 16 * aton (fgetc file 3) + 16 * aton (fgetc file 4) +
    aton (fgetc file 5)

/-- Note the first offset, and fill up to the address. -/
def fill (u : Int) (s : Conversion) : Conversion where
  offset := if s.offset = -1 then u else s.offset
  count := if u > s.count then u else s.count
  firmImage := s.firmImage ++ List.replicate (u - s.count).toNat 0

/-- So many bytes of data. -/
def write : Nat → List UInt8 → Conversion → Conversion
  | 0, _, s => s
  | left + 1, file, s =>
    write left (file.drop 2)
      { s with count := s.count + 1, firmImage := s.firmImage ++ [UInt8.ofInt (digits file)] }

/-- The loop over the records, with so many rounds.  The size is followed by the address and the
type. -/
def convertLoop : Nat → List UInt8 → Conversion → Option Conversion
  | 0, _, _ => none
  | rounds + 1, file, s =>
    match findMark file with
    | none => none
    | some file =>
      if recSize file = 0 then some s
      else
        convertLoop rounds (file.drop (8 + 2 * (recSize file).toNat))
          (write (recSize file).toNat (file.drop 8) (fill (address file) s))

def convertHexFileToBin (rounds : Nat) (file : List UInt8) : Option Conversion :=
  convertLoop rounds file ⟨-1, 0, []⟩

/-! ## The end -/

/-- The conversion comes to an end. -/
def Terminates (file : List UInt8) : Prop := ∃ rounds, (convertHexFileToBin rounds file).isSome

/-- A record of size 0 stands where a record is to be, before the end of the file. -/
inductive Ends : List UInt8 → Prop
  | skip {c : UInt8} {file : List UInt8} : c ≠ 0x3A → Ends file → Ends (c :: file)
  | last {file : List UInt8} : recSize file = 0 → Ends (0x3A :: file)
  | next {file : List UInt8} : recSize file ≠ 0 →
      Ends (file.drop (8 + 2 * (recSize file).toNat)) → Ends (0x3A :: file)

variable {c : UInt8} (rounds : Nat) {bin : List UInt8} (b : UInt8) (r : Record)
  (records : List Record)

theorem findMark_skip (other : c ≠ 0x3A) (file : List UInt8) :
    findMark (c :: file) = findMark file :=
  if_neg other

theorem convertLoop_skip (other : c ≠ 0x3A) (rounds : Nat) (file : List UInt8) (s : Conversion) :
    convertLoop rounds (c :: file) s = convertLoop rounds file s := by
  cases rounds with
  | zero => rfl
  | succ rounds => rw [convertLoop, convertLoop, findMark_skip other]

theorem convertLoop_append {skipped : List UInt8} (others : ∀ c ∈ skipped, c ≠ 0x3A)
    (rounds : Nat) (file : List UInt8) (s : Conversion) :
    convertLoop rounds (skipped ++ file) s = convertLoop rounds file s := by
  induction skipped with
  | nil => rfl
  | cons c skipped ih =>
    rw [cons_append, convertLoop_skip (others c mem_cons_self)]
    exact ih fun d inside => others d (mem_cons_of_mem c inside)

theorem convertLoop_nil (s : Conversion) : convertLoop rounds [] s = none := by
  cases rounds with
  | zero => rfl
  | succ rounds => rfl

theorem convertLoop_mark (file : List UInt8) (s : Conversion) :
    convertLoop (rounds + 1) (0x3A :: file) s =
      if recSize file = 0 then some s
      else convertLoop rounds (file.drop (8 + 2 * (recSize file).toNat))
        (write (recSize file).toNat (file.drop 8) (fill (address file) s)) :=
  rfl

theorem ends_of_isSome {rounds : Nat} {file : List UInt8} {s : Conversion}
    (some : (convertLoop rounds file s).isSome) : Ends file := by
  induction rounds generalizing file s with
  | zero => cases some
  | succ rounds ih =>
    induction file with
    | nil => cases some
    | cons c file skip =>
      by_cases mark : c = 0x3A
      · subst mark
        rw [convertLoop_mark] at some
        split at some
        · rename_i last
          exact .last last
        · rename_i size
          exact .next size (ih some)
      · rw [convertLoop_skip mark] at some
        exact .skip mark (skip some)

theorem Ends.isSome {file : List UInt8} (ends : Ends file) (s : Conversion) :
    ∃ rounds, (convertLoop rounds file s).isSome := by
  induction ends generalizing s with
  | skip other _ ih =>
    obtain ⟨rounds, some⟩ := ih s
    exact ⟨rounds, by rwa [convertLoop_skip other]⟩
  | last size =>
    refine ⟨1, ?_⟩
    rw [convertLoop_mark, if_pos size]
    rfl
  | @next file size _ ih =>
    obtain ⟨rounds, some⟩ :=
      ih (write (recSize file).toNat (file.drop 8) (fill (address file) s))
    exact ⟨rounds + 1, by rwa [convertLoop_mark, if_neg size]⟩

theorem terminates_iff (file : List UInt8) : Terminates file ↔ Ends file := by
  constructor
  · rintro ⟨rounds, result⟩
    exact ends_of_isSome result
  · intro ends
    exact ends.isSome _

theorem convertLoop_more {rounds : Nat} {file : List UInt8} {s r : Conversion}
    (result : convertLoop rounds file s = some r) (more : Nat) :
    convertLoop (rounds + more) file s = some r := by
  induction rounds generalizing file s with
  | zero => cases result
  | succ rounds ih =>
    rw [Nat.add_right_comm, convertLoop]
    rw [convertLoop] at result
    split at result
    · cases result
    · split at result
      · rename_i last
        rw [if_pos last]
        exact result
      · rename_i size
        rw [if_neg size]
        exact ih result

theorem convertLoop_unique {rounds others : Nat} {file : List UInt8} {s r q : Conversion}
    (first : convertLoop rounds file s = some r) (second : convertLoop others file s = some q) :
    r = q := by
  have left := convertLoop_more first others
  have right := convertLoop_more second rounds
  rw [Nat.add_comm] at right
  exact Option.some.inj (left.symm.trans right)

/-! ## The image grows -/

theorem write_grows (left : Nat) (file : List UInt8) (s : Conversion) :
    s.firmImage <+: (write left file s).firmImage := by
  induction left generalizing file s with
  | zero => exact prefix_rfl
  | succ left ih =>
    rw [write]
    refine List.IsPrefix.trans ?_ (ih _ _)
    exact prefix_append s.firmImage _

theorem fill_grows (u : Int) (s : Conversion) : s.firmImage <+: (fill u s).firmImage :=
  prefix_append _ _

theorem convertLoop_grows {rounds : Nat} {file : List UInt8} {s r : Conversion}
    (result : convertLoop rounds file s = some r) : s.firmImage <+: r.firmImage := by
  induction rounds generalizing file s with
  | zero => cases result
  | succ rounds ih =>
    rw [convertLoop] at result
    split at result
    · cases result
    · split at result
      · cases result
        exact prefix_rfl
      · exact ((fill_grows _ s).trans (write_grows _ _ _)).trans (ih result)

theorem getElem?_of_grows {image : List UInt8} (grows : bin <+: image) {i : Nat}
    (inside : i < bin.length) : image[i]? = bin[i]? := by
  obtain ⟨rest, rfl⟩ := grows
  exact List.getElem?_append_left inside

/-! ## Files -/

/-- A digit of either case. -/
def hexDigit (upper : Bool) (n : Nat) : UInt8 :=
  if n < 10 then UInt8.ofNat (0x30 + n)
  else if upper then UInt8.ofNat (0x37 + n) else UInt8.ofNat (0x57 + n)

def hexByte (upper : Bool) (b : UInt8) : List UInt8 :=
  [hexDigit upper (b.toNat / 16), hexDigit upper (b.toNat % 16)]

/-- A record with data, of any type. -/
structure Record : Type where
  type : UInt8
  address : UInt16
  data : List UInt8
  nonempty : data ≠ []
  short : data.length ≤ 255

/-- Size, address, type and data. -/
def Record.bytes (r : Record) : List UInt8 :=
  UInt8.ofNat r.data.length :: UInt8.ofNat (r.address.toNat / 256) ::
    UInt8.ofNat r.address.toNat :: r.type :: r.data

/-- With the checksum the bytes add up to zero. -/
def checksum (bytes : List UInt8) : UInt8 := -bytes.foldl (· + ·) 0

def line (upper : Bool) (bytes : List UInt8) : List UInt8 :=
  0x3A :: (bytes ++ [checksum bytes]).flatMap (hexByte upper) ++ [0x0D, 0x0A]

/-- The records, in order, with or without the record that ends them. -/
def hexFile (upper ended : Bool) (records : List Record) : List UInt8 :=
  (records.flatMap fun r => line upper r.bytes) ++ if ended then line upper [0, 0, 0, 1] else []

/-- What a record has apart from its contents. -/
def Record.slot (r : Record) : UInt8 × UInt16 × Nat := (r.type, r.address, r.data.length)

/-- At each address of a data record, of type 0, the image has its byte. -/
def Right (image : List UInt8) (records : List Record) : Prop :=
  ∀ r ∈ records, r.type = 0 → ∀ i < r.data.length, image[r.address.toNat + i]? = r.data[i]?

/-- The conversion ends with such an image. -/
def Converted (upper ended : Bool) (records : List Record) : Prop :=
  ∃ rounds result, convertHexFileToBin rounds (hexFile upper ended records) = some result ∧
    Right result.firmImage records

/-- No data record has an address before the end of the records before it, from a count of
bytes on. -/
def InOrder : Nat → List Record → Prop
  | _, [] => True
  | count, r :: records => (r.type = 0 → count ≤ r.address.toNat) ∧
      InOrder (max count r.address.toNat + r.data.length) records

/-! ## What is made of upper case files -/

/-- A record fills up to its address and appends its data. -/
def place (bin : List UInt8) (r : Record) : List UInt8 :=
  bin ++ List.replicate (r.address.toNat - bin.length) 0 ++ r.data

def image (bin : List UInt8) (records : List Record) : List UInt8 := records.foldl place bin

theorem aton_hexDigit {n : Nat} (digit : n < 16) : aton (hexDigit true n) = n := by
  revert n
  decide

theorem hexDigit_ne {upper : Bool} {n : Nat} (digit : n < 16) : hexDigit upper n ≠ 0x3A := by
  revert upper n
  decide

theorem hexByte_ne {upper : Bool} {b : UInt8} (digit : c ∈ hexByte upper b) : c ≠ 0x3A := by
  have byte := b.toNat_lt
  rw [hexByte, mem_pair] at digit
  rcases digit with rfl | rfl
  · exact hexDigit_ne (by omega)
  · exact hexDigit_ne (by omega)

theorem digits_hexByte (file : List UInt8) : digits (hexByte true b ++ file) = b.toNat := by
  have byte := b.toNat_lt
  change 16 * aton (hexDigit true (b.toNat / 16)) + aton (hexDigit true (b.toNat % 16)) = _
  rw [aton_hexDigit (by omega), aton_hexDigit (by omega)]
  omega

theorem ofInt_digits (file : List UInt8) : UInt8.ofInt (digits (hexByte true b ++ file)) = b := by
  have byte := b.toNat_lt
  have small : ((b.toNat : Int) % 2 ^ 8).toNat = b.toNat := by omega
  rw [digits_hexByte, UInt8.ofInt, small]
  exact UInt8.ofNat_toNat

theorem write_data (data file : List UInt8) (s : Conversion) :
    write data.length (data.flatMap (hexByte true) ++ file) s =
      { s with count := s.count + data.length, firmImage := s.firmImage ++ data } := by
  induction data generalizing s with
  | nil => simp [write]
  | cons b data ih =>
    rw [flatMap_cons, append_assoc, length_cons, write, ofInt_digits]
    refine (ih _).trans ?_
    simp only [Conversion.mk.injEq, true_and]
    refine ⟨?_, append_assoc _ _ _⟩
    push_cast
    ring

theorem recSize_bytes (file : List UInt8) :
    recSize ((r.bytes.flatMap (hexByte true)) ++ file) = r.data.length := by
  have short := r.short
  refine (digits_hexByte (UInt8.ofNat r.data.length) _).trans ?_
  rw [UInt8.toNat_ofNat', Nat.mod_eq_of_lt (by omega)]

theorem address_split (upper : Bool) (r : Record) (file : List UInt8) :
    address ((r.bytes.flatMap (hexByte upper)) ++ file) =
      256 * digits (hexByte upper (UInt8.ofNat (r.address.toNat / 256)) ++ file) +
        digits (hexByte upper (UInt8.ofNat r.address.toNat) ++ file) := by
  simp only [Record.bytes, hexByte, flatMap_cons, cons_append, nil_append,
    address, digits, fgetc, getD_cons_succ, getD_cons_zero]
  ring

theorem address_bytes (file : List UInt8) :
    address ((r.bytes.flatMap (hexByte true)) ++ file) = r.address.toNat := by
  have high := digits_hexByte (UInt8.ofNat (r.address.toNat / 256)) file
  have low := digits_hexByte (UInt8.ofNat r.address.toNat) file
  have bound := r.address.toNat_lt
  rw [UInt8.toNat_ofNat'] at high low
  rw [address_split, high, low]
  omega

theorem write_bytes (file : List UInt8) {s : Conversion} (counted : s.count = s.firmImage.length) :
    ∃ offset, write r.data.length (((r.bytes.flatMap (hexByte true)) ++ file).drop 8)
        (fill r.address.toNat s) =
      ⟨offset, (place s.firmImage r).length, place s.firmImage r⟩ := by
  have data : ((r.bytes.flatMap (hexByte true)) ++ file).drop 8 =
      r.data.flatMap (hexByte true) ++ file := rfl
  refine ⟨(fill r.address.toNat s).offset, ?_⟩
  rw [data, write_data, fill, place, counted]
  simp only [Conversion.mk.injEq, true_and]
  constructor
  · simp only [length_append, length_replicate]
    split
    · omega
    · omega
  · congr 3
    omega

/-- A line is converted in one round, and the checksum and the end of the line are skipped. -/
theorem convertLoop_line (file : List UInt8) {s : Conversion}
    (counted : s.count = s.firmImage.length) :
    ∃ offset, convertLoop (rounds + 1) (line true r.bytes ++ file) s =
      convertLoop rounds file ⟨offset, (place s.firmImage r).length, place s.firmImage r⟩ := by
  have nonempty := length_pos_of_ne_nil r.nonempty
  obtain ⟨offset, written⟩ := write_bytes r
    (hexByte true (checksum r.bytes) ++ [0x0D, 0x0A] ++ file) counted
  have whole : line true r.bytes ++ file = 0x3A :: (r.bytes.flatMap (hexByte true) ++
      (hexByte true (checksum r.bytes) ++ [0x0D, 0x0A] ++ file)) := by
    simp [line]
  have behind : (r.bytes.flatMap (hexByte true) ++ (hexByte true (checksum r.bytes) ++
      [0x0D, 0x0A] ++ file)).drop (8 + 2 * r.data.length) =
      (hexByte true (checksum r.bytes) ++ [0x0D, 0x0A]) ++ file := by
    have length : (r.bytes.flatMap (hexByte true)).length = 8 + 2 * r.data.length := by
      simp [length_flatMap, hexByte, Record.bytes]
      omega
    exact drop_left' length
  refine ⟨offset, ?_⟩
  rw [whole, convertLoop_mark, recSize_bytes, address_bytes, if_neg (by omega), Int.toNat_natCast,
    written, behind]
  refine convertLoop_append ?_ rounds file _
  intro c inside
  rcases mem_append.1 inside with digit | lineEnd
  · exact hexByte_ne digit
  · rcases mem_pair.1 lineEnd with rfl | rfl
    · decide
    · decide

theorem convertLoop_lines (file : List UInt8) {s : Conversion}
    (counted : s.count = s.firmImage.length) : ∃ offset, convertLoop (rounds + records.length)
        ((records.flatMap fun r => line true r.bytes) ++ file) s =
      convertLoop rounds file
        ⟨offset, (image s.firmImage records).length, image s.firmImage records⟩ := by
  induction records generalizing s with
  | nil =>
    refine ⟨s.offset, ?_⟩
    rw [image, foldl_nil, ← counted]
    rfl
  | cons r records ih =>
    rw [flatMap_cons, append_assoc, length_cons, ← Nat.add_assoc]
    obtain ⟨offset, first⟩ := convertLoop_line (rounds + records.length) r
      ((records.flatMap fun r => line true r.bytes) ++ file) counted
    rw [first]
    exact ih rfl

theorem converted_ended : Converted true true records ↔ Right (image [] records) records := by
  obtain ⟨offset, converts⟩ := convertLoop_lines 1 records (line true [0, 0, 0, 1])
    (s := ⟨-1, 0, []⟩) rfl
  have last (s : Conversion) : convertLoop 1 (line true [0, 0, 0, 1]) s = some s := rfl
  rw [last] at converts
  constructor
  · rintro ⟨rounds, result, converted, right⟩
    obtain rfl := convertLoop_unique converts converted
    exact right
  · intro right
    exact ⟨_, _, converts, right⟩

theorem not_terminates_unended : ¬Terminates (hexFile true false records) := by
  rintro ⟨rounds, converted⟩
  obtain ⟨result, converted⟩ := Option.isSome_iff_exists.1 converted
  obtain ⟨offset, converts⟩ := convertLoop_lines rounds records [] (s := ⟨-1, 0, []⟩) rfl
  rw [convertLoop_nil] at converts
  have more := convertLoop_more converted records.length
  rw [show convertLoop (rounds + records.length) (hexFile true false records) ⟨-1, 0, []⟩ =
    none from converts] at more
  cases more

/-! ## Which images are right -/

theorem place_grows (bin : List UInt8) (r : Record) : bin <+: place bin r := by
  rw [place, append_assoc]
  exact prefix_append _ _

theorem image_grows (bin : List UInt8) (records : List Record) : bin <+: image bin records := by
  induction records generalizing bin with
  | nil => exact prefix_rfl
  | cons r records ih => exact (place_grows bin r).trans (ih _)

theorem length_place (bin : List UInt8) (r : Record) :
    (place bin r).length = max bin.length r.address.toNat + r.data.length := by
  simp only [place, length_append, length_replicate]
  omega

theorem place_data {r : Record} (inOrder : bin.length ≤ r.address.toNat) (i : Nat) :
    (place bin r)[r.address.toNat + i]? = r.data[i]? := by
  have filled : (bin ++ List.replicate (r.address.toNat - bin.length) 0).length =
      r.address.toNat := by
    rw [length_append, length_replicate]
    omega
  rw [place, List.getElem?_append_right (by omega), filled, Nat.add_sub_cancel_left]

theorem right_of_inOrder {records : List Record} (inOrder : InOrder bin.length records) :
    Right (image bin records) records := by
  induction records generalizing bin with
  | nil =>
    intro r inside
    cases inside
  | cons r records ih =>
    obtain ⟨here, later⟩ := inOrder
    rw [← length_place] at later
    intro q inside data i less
    rcases mem_cons.1 inside with rfl | inside
    · have bound : q.address.toNat + i < (place bin q).length := by
        rw [length_place]
        omega
      exact (getElem?_of_grows (image_grows (place bin q) records) bound).trans
        (place_data (here data) i)
    · exact ih later q inside data i less

/-- The same record with one byte all over. -/
def Record.fill (b : UInt8) (r : Record) : Record where
  type := r.type
  address := r.address
  data := List.replicate r.data.length b
  nonempty := by
    have nonempty := r.nonempty
    simp [nonempty]
  short := by
    rw [length_replicate]
    exact r.short

theorem slot_fill : (r.fill b).slot = r.slot := by
  simp [Record.slot, Record.fill]

/-- Behind a count of bytes that are all zero, records that are not in order have contents with
which the image is wrong. -/
theorem not_right {bin : List UInt8} {records : List Record} (zeros : ∀ b ∈ bin, b = 0)
    (disorder : ¬InOrder bin.length records) :
    ∃ others, others.map Record.slot = records.map Record.slot ∧
      ¬Right (image bin others) others := by
  induction records generalizing bin with
  | nil => exact absurd trivial disorder
  | cons r records ih =>
    by_cases here : r.type = 0 → bin.length ≤ r.address.toNat
    · -- A record of zeros goes on the same way.
      have length := length_place bin (r.fill 0)
      have later : ¬InOrder (place bin (r.fill 0)).length records := by
        intro later
        rw [length] at later
        refine disorder ⟨here, ?_⟩
        have same : (r.fill 0).data.length = r.data.length := length_replicate
        rw [same] at later
        exact later
      have zeros : ∀ b ∈ place bin (r.fill 0), b = 0 := by
        intro b inside
        rcases mem_append.1 inside with before | data
        · rcases mem_append.1 before with old | gap
          · exact zeros b old
          · exact eq_of_mem_replicate gap
        · exact eq_of_mem_replicate data
      obtain ⟨others, slots, wrong⟩ := ih zeros later
      refine ⟨r.fill 0 :: others, ?_, ?_⟩
      · rw [map_cons, map_cons, slot_fill, slots]
      · intro right
        exact wrong fun q inside => right q (mem_cons_of_mem _ inside)
    · -- The place is taken by a zero.
      rw [Classical.not_imp] at here
      refine ⟨r.fill 1 :: records, by rw [map_cons, map_cons, slot_fill], ?_⟩
      intro right
      have nonempty := length_pos_of_ne_nil (r.fill 1).nonempty
      have first := right _ mem_cons_self here.1 0 nonempty
      have inside : (r.fill 1).address.toNat < bin.length := Nat.lt_of_not_le here.2
      rw [Nat.add_zero, getElem?_of_grows (image_grows _ _) inside,
        List.getElem?_eq_getElem inside, List.getElem?_eq_getElem nonempty,
        zeros _ (getElem_mem inside), show (r.fill 1).data[0] = 1 from getElem_replicate _] at first
      exact absurd first (by decide)

theorem inOrder_congr {others records : List Record}
    (slots : others.map Record.slot = records.map Record.slot) (count : Nat) :
    InOrder count others ↔ InOrder count records := by
  induction others generalizing records count with
  | nil =>
    cases records with
    | nil => exact Iff.rfl
    | cons r records => cases slots
  | cons q others ih =>
    cases records with
    | nil => cases slots
    | cons r records =>
      rw [map_cons, map_cons, List.cons.injEq] at slots
      obtain ⟨type, address, length⟩ : q.type = r.type ∧ q.address = r.address ∧
          q.data.length = r.data.length := by simpa [Record.slot] using slots.1
      rw [InOrder, InOrder, type, address, length, ih slots.2]

theorem converted_iff (ended : Bool) (records : List Record) :
    (∀ others, others.map Record.slot = records.map Record.slot → Converted true ended others) ↔
      ended = true ∧ InOrder 0 records := by
  cases ended with
  | false =>
    refine iff_of_false (fun converted => ?_) (by simp)
    obtain ⟨rounds, result, converts, _⟩ := converted records rfl
    exact not_terminates_unended records ⟨rounds, by rw [converts]; rfl⟩
  | true =>
    constructor
    · intro converted
      refine ⟨rfl, ?_⟩
      by_contra disorder
      obtain ⟨others, slots, wrong⟩ := @not_right [] _ (by simp) disorder
      exact wrong ((converted_ended others).1 (converted others slots))
    · rintro ⟨_, inOrder⟩ others slots
      rw [converted_ended]
      exact right_of_inOrder ((inOrder_congr slots 0).2 inOrder)

/-! ## Lower case files -/

theorem aton_lower_ge {n : Nat} (digit : n < 16) : (n : Int) ≤ aton (hexDigit false n) := by
  revert n
  decide

theorem digits_lower_ge (file : List UInt8) :
    (b.toNat : Int) ≤ digits (hexByte false b ++ file) := by
  have byte := b.toNat_lt
  change (b.toNat : Int) ≤ 16 * aton (hexDigit false (b.toNat / 16)) +
    aton (hexDigit false (b.toNat % 16))
  have high := aton_lower_ge (n := b.toNat / 16) (by omega)
  have low := aton_lower_ge (n := b.toNat % 16) (by omega)
  omega

theorem recSize_lower (file : List UInt8) :
    (r.data.length : Int) ≤ recSize ((r.bytes.flatMap (hexByte false)) ++ file) := by
  have short := r.short
  have size := digits_lower_ge (UInt8.ofNat r.data.length)
    (((r.bytes.drop 1).flatMap (hexByte false)) ++ file)
  rw [UInt8.toNat_ofNat', Nat.mod_eq_of_lt (by omega)] at size
  exact size

theorem address_lower (file : List UInt8) :
    (r.address.toNat : Int) ≤ address ((r.bytes.flatMap (hexByte false)) ++ file) := by
  have high := digits_lower_ge (UInt8.ofNat (r.address.toNat / 256)) file
  have low := digits_lower_ge (UInt8.ofNat r.address.toNat) file
  have bound := r.address.toNat_lt
  rw [UInt8.toNat_ofNat'] at high low
  rw [address_split]
  omega

/-- The first byte of data that are tens: the filling of an address that is read too great, or
the value of the lower case digit. -/
theorem first_lower (r : Record) (file : List UInt8) (n : Nat) :
    let record := ((r.fill 0x0A).bytes.flatMap (hexByte false)) ++ file
    ∃ b, b ≠ 0x0A ∧ (write (n + 1) (record.drop 8)
      (fill (address record) ⟨-1, 0, []⟩)).firmImage[r.address.toNat]? = some b := by
  intro record
  have behind : (r.address.toNat : Int) ≤ address record := address_lower (r.fill 0x0A) file
  have ten : digits (record.drop 8) = 42 := by
    obtain ⟨k, length⟩ := Nat.exists_eq_succ_of_ne_zero
      (length_pos_of_ne_nil r.nonempty).ne'
    have data : record.drop 8 =
        (List.replicate r.data.length 0x0A).flatMap (hexByte false) ++ file := rfl
    rw [data, length]
    rfl
  have first : (List.replicate (address record - 0).toNat 0 ++ [UInt8.ofInt 42] : List UInt8) <+:
      (write (n + 1) (record.drop 8) (fill (address record) ⟨-1, 0, []⟩)).firmImage := by
    rw [write, ten]
    refine List.IsPrefix.trans ?_ (write_grows n _ _)
    exact prefix_rfl
  generalize (write (n + 1) (record.drop 8) (fill (address record) ⟨-1, 0, []⟩)).firmImage =
    image at first
  rw [Int.sub_zero] at first
  rcases Nat.lt_or_ge r.address.toNat (address record).toNat with filled | here
  · refine ⟨0, by decide, ?_⟩
    have before : r.address.toNat < (List.replicate (address record).toNat (0 : UInt8)).length := by
      simpa using filled
    rw [getElem?_of_grows first (by simp; omega), List.getElem?_append_left before,
      List.getElem?_replicate, if_pos filled]
  · refine ⟨42, by decide, ?_⟩
    have same : r.address.toNat = (address record).toNat := by omega
    rw [getElem?_of_grows first (by simp; omega),
      List.getElem?_append_right (by simpa using here), length_replicate, same, Nat.sub_self]
    rfl

/-- Whatever the layout, a lower case file that begins with data can have contents with which
it is not converted. -/
theorem not_converted_lower (ended : Bool) {r : Record} (data : r.type = 0)
    (records : List Record) : ¬Converted false ended (r.fill 0x0A :: records) := by
  rintro ⟨rounds, result, converts, right⟩
  have nonempty := length_pos_of_ne_nil (r.fill 0x0A).nonempty
  have first := right _ mem_cons_self data 0 nonempty
  rw [Nat.add_zero, List.getElem?_eq_getElem nonempty,
    show (r.fill 0x0A).data[0] = 0x0A from getElem_replicate _] at first
  cases rounds with
  | zero => cases converts
  | succ rounds =>
    obtain ⟨file, file_eq⟩ : ∃ file, hexFile false ended (r.fill 0x0A :: records) =
        0x3A :: ((r.fill 0x0A).bytes.flatMap (hexByte false) ++ file) := by
      refine ⟨[checksum (r.fill 0x0A).bytes].flatMap (hexByte false) ++ ([0x0D, 0x0A] ++
        ((records.flatMap fun q => line false q.bytes) ++
          if ended then line false [0, 0, 0, 1] else [])), ?_⟩
      rw [hexFile, flatMap_cons, line, flatMap_append]
      simp only [cons_append, append_assoc]
    have size := recSize_lower (r.fill 0x0A) file
    have start := first_lower r file
    rw [convertHexFileToBin, file_eq, convertLoop_mark, if_neg (by omega)] at converts
    have grows := convertLoop_grows converts
    obtain ⟨n, length⟩ := Nat.exists_eq_succ_of_ne_zero
      (n := (recSize ((r.fill 0x0A).bytes.flatMap (hexByte false) ++ file)).toNat) (by omega)
    rw [length] at grows
    obtain ⟨b, other, at_⟩ := start n
    obtain ⟨inside, -⟩ := List.getElem?_eq_some_iff.1 at_
    rw [show (r.fill 0x0A).address = r.address from rfl, getElem?_of_grows grows inside, at_]
      at first
    exact other (Option.some.inj first)

/-! ## The conversion of a file -/

/-- The conversion ends just in case the file does, with a record of size 0.  In upper case, a
layout of records is converted, whatever they contain, just in case it has an end and its data
are in order; in lower case none that begins with data is. -/
theorem hexFile_converted (file : List UInt8) (ended : Bool) (records : List Record) :
    (Terminates file ↔ Ends file) ∧
    ((∀ others, others.map Record.slot = records.map Record.slot → Converted true ended others) ↔
      ended = true ∧ InOrder 0 records) ∧
    ∀ r : Record, r.type = 0 →
      ∃ others, others.map Record.slot = (r :: records).map Record.slot ∧
        ¬Converted false ended others := by
  refine ⟨terminates_iff file, converted_iff ended records, ?_⟩
  intro r data
  refine ⟨r.fill 0x0A :: records, ?_, not_converted_lower ended data records⟩
  rw [map_cons, map_cons, slot_fill]

/-- A byte at an address. -/
def Record.single (address : UInt16) (b : UInt8) : Record :=
  ⟨0, address, [b], by simp, by simp⟩

/-- With one byte of data: upper case with an end is converted, lower case may not be. -/
theorem hexFile_converted_single :
    Converted true true [Record.single 0 0xFF] ∧
      ∃ others, others.map Record.slot = [Record.single 0 0xFF].map Record.slot ∧
        ¬Converted false true others := by
  obtain ⟨-, upper, -⟩ := hexFile_converted [] true [Record.single 0 0xFF]
  obtain ⟨-, -, lower⟩ := hexFile_converted [] true []
  refine ⟨upper.2 ⟨rfl, ?_⟩ _ rfl, lower (Record.single 0 0xFF) rfl⟩
  exact ⟨fun _ => Nat.zero_le _, trivial⟩

/-- Without the record of its end a file is not converted. -/
theorem hexFile_truncated : ¬∀ file, Terminates file := by
  intro terminates
  exact not_terminates_unended [Record.single 0 0xFF] (terminates _)

end CimArm.HexFile
