import CimArm.Telesup.DFileTransferProtocol

/-!
# What file transfer delivers

The two sides over channels that keep their messages.  Whatever the order of their moves,
both end without an exception, with the file at the other side and no message left, if and
only if the file has a byte, an `int` counts its bytes, and the name fits in a token and is
the expected one (`delivers_iff`).  An empty file leaves the second confirmation unread.

A download that reports success has checked the checksum, and not the number of bytes: with
a read that gives none too early, or a block past the number announced, it is reported as
successful whenever the checksum happens to be right (`honest_iff`).
-/

namespace CimArm.FileTransfer

open Duplex Telesup List

/-! ## Numbers in a header -/

/-- A text that can stand in a line of a header. -/
def Plain (text : List UInt8) : Prop := ∀ c ∈ text, c ≠ 0 ∧ c ≠ newline

instance (text : List UInt8) : Decidable (Plain text) :=
  inferInstanceAs (Decidable (∀ c ∈ text, _))

theorem Plain.append {a b : List UInt8} (first : Plain a) (second : Plain b) : Plain (a ++ b) :=
  fun c hc => (mem_append.1 hc).elim (first c) (second c)

theorem Plain.take {a : List UInt8} (plain : Plain a) (n : Nat) : Plain (a.take n) :=
  fun c hc => plain c (mem_of_mem_take hc)

theorem isDigit_plain {c : UInt8} (digit : Decimal.isDigit c = true) : c ≠ 0 ∧ c ≠ newline := by
  constructor <;> rintro rfl <;> revert digit <;> decide

theorem plain_decimal (n : Nat) : Plain (Decimal.ofNat n) := fun _ hc =>
  isDigit_plain (Decimal.isDigit_of_mem hc)

theorem plain_printPadded {pad : UInt8} (width n : Nat) (blank : pad ≠ 0 ∧ pad ≠ newline) :
    Plain (printPadded pad width n) := by
  refine Plain.append (fun c hc => ?_) (plain_decimal n)
  rw [eq_of_mem_replicate hc]
  exact blank

theorem plain_printLong (n : Int) : Plain (printLong n) := by
  rw [printLong]
  split_ifs
  · exact fun c hc => (mem_cons.1 hc).elim (fun minus => minus ▸ by decide)
      (plain_decimal _ c)
  · exact plain_decimal _

theorem printLong_ne_nil (n : Int) : printLong n ≠ [] := by
  rw [printLong]
  split_ifs
  · exact cons_ne_nil _ _
  · exact Decimal.ofNat_ne_nil _

theorem length_printLong {n : Int} (low : -2 ^ 31 ≤ n) (high : n < 2 ^ 31) :
    (printLong n).length ≤ 11 := by
  have digits : (Decimal.ofNat n.natAbs).length ≤ 10 :=
    Decimal.length_ofNat_le (by decide) (by omega)
  rw [printLong]
  split_ifs
  · exact Nat.succ_le_succ digits
  · exact Nat.le_succ_of_le digits

theorem atol_printLong {n : Int} (low : -2 ^ 31 ≤ n) (high : n < 2 ^ 31) :
    atol (printLong n) = n := by
  have clamp : clampLong n = n := by
    rw [clampLong]
    omega
  rw [printLong]
  split_ifs with negative
  · have start : (45 :: Decimal.ofNat n.natAbs).dropWhile isspace =
        45 :: Decimal.ofNat n.natAbs := rfl
    rw [atol, start, if_pos List.head?_cons, tail_cons, Decimal.value_ofNat]
    have same : -(n.natAbs : Int) = n := by omega
    rw [same, clamp]
  · cases digits : Decimal.ofNat n.natAbs with
    | nil => exact absurd digits (Decimal.ofNat_ne_nil _)
    | cons c rest =>
      have digit : Decimal.isDigit c = true :=
        Decimal.isDigit_of_mem (digits ▸ mem_cons_self)
      have first : isspace c = false ∧ c ≠ 45 ∧ c ≠ 43 := by
        obtain ⟨low, high⟩ := of_decide_eq_true digit
        refine ⟨?_, ?_, ?_⟩
        · rw [isspace, decide_eq_false_iff_not]
          rintro (blank | ⟨-, blank⟩)
          · exact absurd (blank ▸ low) (by decide)
          · exact absurd (UInt8.le_trans low blank) (by decide)
        · rintro rfl
          exact absurd low (by decide)
        · rintro rfl
          exact absurd low (by decide)
      have start : (c :: rest).dropWhile isspace = c :: rest := by
        rw [dropWhile_cons, first.1]
        rfl
      have other (d : UInt8) (ne : c ≠ d) : (c :: rest).head? ≠ some d := fun same =>
        ne (Option.some.inj same)
      rw [atol, start, if_neg (other _ first.2.1), if_neg (other _ first.2.2), ← digits,
        Decimal.value_ofNat]
      have same : (n.natAbs : Int) = n := by omega
      rw [same, clamp]

theorem toLong_range (n : Int) : -2 ^ 31 ≤ toLong n ∧ toLong n < 2 ^ 31 := by
  rw [toLong, Int.bmod_def]
  split_ifs <;> omega

theorem ofLong_atol_printLong {n : Nat} (small : n < ulongSize) :
    ofLong (atol (printLong (toLong n))) = n := by
  have same : toLong n % 2 ^ 32 = n % 2 ^ 32 := Int.bmod_emod
  rw [atol_printLong (toLong_range n).1 (toLong_range n).2, ofLong, same]
  rw [ulongSize] at small
  omega

/-! ## The header -/

variable (val : Tm)

theorem plain_datetimeToISO8106 : Plain (datetimeToISO8106 val) := by
  have zero : (48 : UInt8) ≠ 0 ∧ (48 : UInt8) ≠ newline := by decide
  have two (n : Nat) : Plain (printPadded 48 2 n) := plain_printPadded 2 n zero
  refine Plain.take ?_ 19
  have mark (c : UInt8) (plain : c ≠ 0 ∧ c ≠ newline) : Plain [c] :=
    forall_mem_singleton.2 plain
  refine .append (.append (.append (.append (.append (.append (.append (.append (.append
    (.append ?_ (mark _ (by decide))) (two _)) (mark _ (by decide))) (two _))
      (mark _ (by decide))) (two _)) (mark _ (by decide))) (two _)) (mark _ (by decide))) (two _)
  exact plain_printPadded 4 _ (by decide)

theorem datetimeToISO8106_ne_nil : datetimeToISO8106 val ≠ [] := by
  intro empty
  rcases take_eq_nil_iff.1 empty with none | none
  · cases none
  · simp [bytes] at none

theorem length_datetimeToISO8106 : (datetimeToISO8106 val).length ≤ 19 :=
  length_take_le _ _

section header

variable (u : Upload)

theorem plain_compression : Plain u.compression := by
  rw [Upload.compression]
  split_ifs
  · exact Bytes.forall_mem_of_all rfl
  · exact Bytes.forall_mem_of_all rfl

theorem compression_ne_nil : u.compression ≠ [] := by
  rw [Upload.compression]
  split_ifs <;> decide

theorem length_compression : u.compression.length ≤ 12 := by
  rw [Upload.compression]
  split_ifs <;> decide

theorem length_lines_le {name size checksum date compression : List UInt8}
    (hname : name.length ≤ 255) (hsize : size.length ≤ 11) (hchecksum : checksum.length ≤ 11)
    (hdate : date.length ≤ 19) (hcompression : compression.length ≤ 12) :
    (name ++ newline :: (size ++ newline :: (checksum ++ newline :: (date ++ newline ::
      (compression ++ [newline]))))).length ≤ TRANSFER_FILE_PACKET_SIZE - 1 := by
  simp only [length_append, length_cons, length_nil, TRANSFER_FILE_PACKET_SIZE]
  omega

theorem fileHeader_eq : u.fileHeader = u.myTargetFileName.text ++ newline ::
    (printLong (toLong u.myFileSize) ++ newline :: (printLong (toLong u.myFileChecksum) ++
      newline :: (datetimeToISO8106 u.myFileDate ++ newline :: (u.compression ++ [newline])))) := by
  have range (n : Nat) : (printLong (toLong n)).length ≤ 11 :=
    length_printLong (toLong_range n).1 (toLong_range n).2
  exact take_of_length_le (length_lines_le u.myTargetFileName.length_le (range _) (range _)
    (length_datetimeToISO8106 _) (length_compression u))

variable {text : List UInt8}

theorem cutLines_line (plain : Plain text) (rest : List UInt8) :
    cutLines (text ++ newline :: rest) = text ++ 0 :: cutLines rest := by
  induction text with
  | nil => rfl
  | cons c text ih =>
    obtain ⟨nonzero, inside⟩ := plain c mem_cons_self
    have := ih fun a ha => plain a (mem_cons_of_mem c ha)
    rw [cutLines] at this ⊢
    rw [cons_append, takeWhile_cons_of_pos (by simpa using nonzero),
      dropWhile_cons_of_pos (by simpa using nonzero), map_cons, if_neg inside, cons_append, this]
    rfl

/-- A field of a header that fits in a token. -/
structure Field (text : List UInt8) : Prop where
  plain : Plain text
  nonempty : text ≠ []
  length_le : text.length ≤ 254

theorem Field.nextField (field : Field text) (rest : List UInt8) :
    nextField (text ++ 0 :: rest) = .ok (text, rest) := by
  have whole : token (text ++ 0 :: rest) = text := by
    rw [token, cString, takeWhile_append_of_pos fun c hc => by simpa using (field.plain c hc).1]
    simpa using field.length_le
  rw [FileTransfer.nextField, whole, if_neg field.nonempty, drop_append]
  simp

/-- A text of 255 characters is cut, and what follows begins with the end of its line. -/
theorem nextField_long (plain : Plain text) (length : text.length = 255) :
    ∃ name, ∀ rest, nextField (text ++ 0 :: rest) = .ok (name, 0 :: rest) := by
  have short : (text.take 254).length = 254 := by
    rw [length_take]
    omega
  have nonempty : text.take 254 ≠ [] := ne_nil_of_length_pos (by omega)
  refine ⟨text.take 254, fun rest => ?_⟩
  have cut : token (text ++ 0 :: rest) = text.take 254 := by
    rw [token, cString, takeWhile_append_of_pos fun c hc => by simpa using (plain c hc).1]
    simp
  rw [nextField, cut, if_neg nonempty, short, drop_append_of_le_length (Nat.le_of_eq length.symm),
    drop_of_length_le (Nat.le_of_eq length)]
  rfl

theorem field_printLong (n : Int) : Field (printLong (toLong n)) where
  plain := plain_printLong _
  nonempty := printLong_ne_nil _
  length_le := Nat.le_trans (length_printLong (toLong_range n).1 (toLong_range n).2) (by decide)

theorem field_datetimeToISO8106 (val : Tm) : Field (datetimeToISO8106 val) where
  plain := plain_datetimeToISO8106 val
  nonempty := datetimeToISO8106_ne_nil val
  length_le := Nat.le_trans (length_datetimeToISO8106 val) (by decide)

theorem field_compression : Field u.compression where
  plain := plain_compression u
  nonempty := compression_ne_nil u
  length_le := Nat.le_trans (length_compression u) (by decide)

theorem myFileSize_lt : u.myFileSize < ulongSize := Nat.mod_lt _ (by decide)

theorem addChecksum_lt {cs : Nat} (block : List UInt8) (small : cs < ulongSize) :
    addChecksum cs block < ulongSize := by
  induction block generalizing cs with
  | nil => exact small
  | cons c block ih => exact ih (Nat.mod_lt _ (by decide))

theorem addChecksum_append (cs : Nat) (a b : List UInt8) :
    addChecksum cs (a ++ b) = addChecksum (addChecksum cs a) b := foldl_append

theorem ok_bind {A B : Type} (a : A) (f : A → Except TransferException B) :
    (Except.ok a >>= f) = f a := rfl

theorem cutLines_lines {name size checksum date compression : List UInt8} (hname : Plain name)
    (hsize : Plain size) (hchecksum : Plain checksum) (hdate : Plain date)
    (hcompression : Plain compression) (old : List UInt8) :
    cutLines ((name ++ newline :: (size ++ newline :: (checksum ++ newline :: (date ++ newline ::
      (compression ++ [newline]))))) ++ old) = name ++ 0 :: (size ++ 0 :: (checksum ++ 0 ::
        (date ++ 0 :: (compression ++ 0 :: cutLines old)))) := by
  simp only [append_assoc, cons_append, nil_append]
  rw [cutLines_line hname, cutLines_line hsize, cutLines_line hchecksum, cutLines_line hdate,
    cutLines_line hcompression]

variable (d : Download)

theorem cutLines_fileHeader : ∃ rest, cutLines (fill d.myBuffer (u.fileHeader ++ [0])) =
    u.myTargetFileName.text ++ 0 :: (printLong (toLong u.myFileSize) ++ 0 ::
      (printLong (toLong u.myFileChecksum) ++ 0 :: (datetimeToISO8106 u.myFileDate ++ 0 ::
        (u.compression ++ 0 :: rest)))) := by
  obtain ⟨old, filled⟩ : ∃ old, fill d.myBuffer (u.fileHeader ++ [0]) = u.fileHeader ++ old :=
    ⟨0 :: d.myBuffer.drop (u.fileHeader ++ [0]).length, by simp [fill]⟩
  refine ⟨cutLines old, ?_⟩
  rw [filled, fileHeader_eq]
  exact cutLines_lines u.myTargetFileName.line (plain_printLong _) (plain_printLong _)
    (plain_datetimeToISO8106 _) (plain_compression u) old

/-- The name is the expected one, where the download insists on it. -/
def Expected (u : Upload) (d : Download) : Prop :=
  d.myStrictSourceFileName = true → sameText d.mySourceFileName u.myTargetFileName.text = true

instance : Decidable (Expected u d) := inferInstanceAs (Decidable (_ → _))

variable {u d}

theorem rcvFileHeader_lines {message name size checksum date compression rest : List UInt8}
    (lines : cutLines (fill d.myBuffer (message ++ [0])) = name ++ 0 :: (size ++ 0 ::
      (checksum ++ 0 :: (date ++ 0 :: (compression ++ 0 :: rest)))))
    (hname : Field name) (hsize : Field size) (hchecksum : Field checksum) (hdate : Field date)
    (hcompression : Field compression)
    (accepted : d.myStrictSourceFileName = true → sameText d.mySourceFileName name = true)
    (zip : Bool) (kind : compression = if zip then bytes ['z', 'i', 'p']
      else bytes ['u', 'n', 'c', 'o', 'm', 'p', 'r', 'e', 's', 's', 'e', 'd']) :
    rcvFileHeader d message = .ok ⟨name, ofLong (atol size), ofLong (atol checksum), zip⟩ := by
  have passes : ¬ (d.myStrictSourceFileName = true ∧ ¬ sameText d.mySourceFileName name = true) :=
    fun both => both.2 (accepted both.1)
  rw [rcvFileHeader, lines]
  simp only [hname.nextField, ok_bind, if_neg passes, hsize.nextField, hchecksum.nextField,
    hdate.nextField, hcompression.nextField]
  rw [kind]
  cases zip <;> rfl

theorem rcvFileHeader_fileHeader (length : u.myTargetFileName.text.length < 255)
    (expected : Expected u d) : rcvFileHeader d u.fileHeader =
      .ok ⟨u.myTargetFileName.text, u.myFileSize, u.myFileChecksum, u.myFileIsCompressed⟩ := by
  obtain ⟨rest, lines⟩ := cutLines_fileHeader u d
  have name : Field u.myTargetFileName.text :=
    ⟨u.myTargetFileName.line, u.myTargetFileName.nonempty, Nat.le_of_lt_succ length⟩
  rw [rcvFileHeader_lines lines name (field_printLong _) (field_printLong _)
    (field_datetimeToISO8106 _) (field_compression u) expected u.myFileIsCompressed rfl,
    ofLong_atol_printLong (myFileSize_lt u), Upload.myFileChecksum,
    ofLong_atol_printLong (addChecksum_lt u.file (by decide))]

/-- A name that is too long leaves no size behind it, and an unexpected one is refused. -/
theorem rcvFileHeader_refused
    (refused : ¬ (u.myTargetFileName.text.length < 255 ∧ Expected u d)) :
    ∃ raised, rcvFileHeader d u.fileHeader = .error raised := by
  obtain ⟨rest, lines⟩ := cutLines_fileHeader u d
  rw [rcvFileHeader, lines]
  by_cases length : u.myTargetFileName.text.length < 255
  · have name : Field u.myTargetFileName.text :=
      ⟨u.myTargetFileName.line, u.myTargetFileName.nonempty, Nat.le_of_lt_succ length⟩
    have fails : d.myStrictSourceFileName = true ∧
        ¬ sameText d.mySourceFileName u.myTargetFileName.text = true := by
      by_contra passes
      exact refused ⟨length, fun strict => by_contra fun other => passes ⟨strict, other⟩⟩
    refine ⟨.invalidFile, ?_⟩
    simp only [name.nextField, ok_bind, if_pos fails]
    rfl
  · obtain ⟨more, first⟩ := nextField_long u.myTargetFileName.line
      (Nat.le_antisymm u.myTargetFileName.length_le (Nat.le_of_not_lt length))
    by_cases fails : d.myStrictSourceFileName = true ∧
      ¬ sameText d.mySourceFileName more = true
    · refine ⟨.invalidFile, ?_⟩
      simp only [first, ok_bind, if_pos fails]
      rfl
    · refine ⟨.invalidHeader, ?_⟩
      simp only [first, ok_bind, if_neg fails]
      rfl

end header

/-! ## A run of both sides -/

open Net

/-- The two sides and the messages between them. -/
abbrev Link : Type := Net UInt8 (Option TransferException) Downloaded

section run

variable {header : FileHeader}

theorem steps_blocks (fuel fuel' : Nat) (qty : Int) (rest myBuffer file : List UInt8)
    (checksum : Nat) (le : qty ≤ rest.length) (enough : rest.length < fuel)
    (enough' : qty.toNat ≤ fuel') :
    ∃ n sent myBuffer', sent <+: rest ∧ qty.toNat ≤ sent.length ∧
      sent.length < qty.toNat + TRANSFER_FILE_PACKET_SIZE ∧ (qty ≤ 0 → sent = []) ∧
      Steps n (⟨writeBlocks fuel qty rest myBuffer, readBlocks header fuel' qty file checksum,
          [], []⟩ : Link)
        ⟨waitTransferFileConfirmation myBuffer',
          confirmTransfer header (file ++ sent) (addChecksum checksum sent), [], []⟩ := by
  induction fuel generalizing fuel' qty rest myBuffer file checksum with
  | zero => exact absurd enough (Nat.not_lt_zero _)
  | succ fuel ih =>
    by_cases more : 0 < qty
    · obtain ⟨fuel', rfl⟩ : ∃ f, fuel' = f + 1 := ⟨fuel' - 1, by omega⟩
      obtain ⟨block, block_eq⟩ : ∃ block, block = rest.take TRANSFER_FILE_PACKET_SIZE := ⟨_, rfl⟩
      have length : block.length = min TRANSFER_FILE_PACKET_SIZE rest.length := by
        rw [block_eq, length_take]
      have size : TRANSFER_FILE_PACKET_SIZE = 512 := rfl
      have dropped : (rest.drop TRANSFER_FILE_PACKET_SIZE).length = rest.length - block.length := by
        rw [length_drop, length]
        omega
      obtain ⟨n, sent, last, starts, low, high, ended, steps⟩ := ih fuel' (qty - block.length)
        (rest.drop TRANSFER_FILE_PACKET_SIZE) (fill myBuffer block) (file ++ block)
        (addChecksum checksum block) (by omega) (by omega) (by omega)
      rw [append_assoc, ← addChecksum_append] at steps
      have cut : rest = block ++ rest.drop TRANSFER_FILE_PACKET_SIZE := by
        rw [block_eq, take_append_drop]
      have wrote : Steps 1 (⟨writeBlocks (fuel + 1) qty rest myBuffer,
          readBlocks header (fuel' + 1) qty file checksum, [], []⟩ : Link)
          ⟨writeBlocks fuel (qty - block.length) (rest.drop TRANSFER_FILE_PACKET_SIZE)
            (fill myBuffer block), readBlocks header (fuel' + 1) qty file checksum, [block], []⟩ := by
        have some_left : ¬ block = [] := ne_nil_of_length_pos (by omega)
        rw [writeBlocks, if_pos more, ← block_eq]
        dsimp only
        rw [if_neg some_left]
        exact Steps.write_left
      have read : Steps 1 (⟨writeBlocks fuel (qty - block.length)
            (rest.drop TRANSFER_FILE_PACKET_SIZE) (fill myBuffer block),
          readBlocks header (fuel' + 1) qty file checksum, [block], []⟩ : Link)
          ⟨writeBlocks fuel (qty - block.length) (rest.drop TRANSFER_FILE_PACKET_SIZE)
            (fill myBuffer block), readBlocks header fuel' (qty - block.length) (file ++ block)
            (addChecksum checksum block), [], []⟩ := by
        have whole : block.length ≤ TRANSFER_FILE_PACKET_SIZE := by omega
        rw [readBlocks, if_pos more]
        cases block with
        | nil => exact absurd length (by simp; omega)
        | cons c block => exact Steps.read_right whole
      refine ⟨_, block ++ sent, last, ?_, ?_, ?_, fun none => absurd more (Int.not_lt.2 none),
        wrote.trans (read.trans steps)⟩
      · rw [cut]
        exact (prefix_append_right_inj block).2 starts
      · rw [length_append]
        omega
      · rw [length_append]
        by_cases exhausted : qty - block.length ≤ 0
        · rw [ended exhausted, length_nil]
          omega
        · omega
    · have done : readBlocks header fuel' qty file checksum =
          confirmTransfer header file checksum := by
        cases fuel' with
        | zero => rfl
        | succ fuel' => rw [readBlocks, if_neg more]
      rw [writeBlocks, if_neg more, done]
      refine ⟨0, [], myBuffer, nil_prefix, ?_, Nat.lt_add_left _ (by decide), fun _ => rfl, ?_⟩
      · rw [length_nil]
        omega
      · rw [append_nil]
        exact .refl _

theorem steps_confirm (myBuffer file : List UInt8) (toRight : List (List UInt8)) :
    Steps 2 (⟨waitTransferFileConfirmation myBuffer,
        confirmTransfer header file header.myFileChecksum, toRight, []⟩ : Link)
      ⟨.done none, .done ⟨none, some file⟩, toRight, []⟩ := by
  rw [confirmTransfer, if_pos rfl]
  refine Steps.trans Steps.write_right ?_
  exact Steps.read_left (by decide)

theorem steps_refuse {checksum : Nat} (differs : checksum ≠ header.myFileChecksum)
    (myBuffer file : List UInt8) (toRight : List (List UInt8)) :
    ∃ left, Steps 2 (⟨waitTransferFileConfirmation myBuffer,
        confirmTransfer header file checksum, toRight, []⟩ : Link)
      ⟨.done (some .fileTransferError), .done ⟨some .fileTransferError, none⟩, toRight, left⟩ := by
  rw [confirmTransfer, if_neg differs]
  refine ⟨[bytes ['o', 'r', '\n']], Steps.trans Steps.write_right ?_⟩
  have moves := Step.left (s := (⟨waitTransferFileConfirmation myBuffer,
    .done ⟨some .fileTransferError, none⟩, toRight, [DFT_HEADER_ERROR]⟩ : Link)) rfl
  rw [append_nil] at moves
  exact .step moves (.refl _)

variable {u : Upload} {d : Download}

theorem length_fileHeader (u : Upload) : u.fileHeader.length ≤ TRANSFER_FILE_PACKET_SIZE :=
  Nat.le_trans (length_take_le _ _) (by decide)

def start (u : Upload) (d : Download) : Link := ⟨uploadFile u, downloadFile d, [], []⟩

theorem steps_confirmed (next : List UInt8 → Proc UInt8 (Option TransferException))
    (right : Proc UInt8 Downloaded) (toRight : List (List UInt8)) :
    Steps 1 (⟨waitFileHeaderConfirmation next, right, toRight, [DFT_HEADER_CONFIRMATION]⟩ : Link)
      ⟨next DFT_HEADER_CONFIRMATION, right, toRight, []⟩ := Steps.read_left (by decide)

theorem steps_confirm_header (left : Proc UInt8 (Option TransferException))
    (next other : Proc UInt8 Downloaded) :
    Steps 1 (⟨left, .write DFT_HEADER_CONFIRMATION fun written => if written then next else other,
        [], []⟩ : Link)
      ⟨left, next, [], [DFT_HEADER_CONFIRMATION]⟩ := Steps.write_right

theorem steps_received (left : Proc UInt8 (Option TransferException)) :
    Steps 1 (⟨left, downloadFile d, [u.fileHeader], []⟩ : Link)
      ⟨left, match rcvFileHeader d u.fileHeader with
        | .error raised => .done ⟨some raised, some []⟩
        | .ok header => .write DFT_HEADER_CONFIRMATION fun written =>
          if written then
            readBlocks header (toLong header.myFileSize).toNat (toLong header.myFileSize) [] 0
          else .done ⟨some .generalIo, some []⟩, [], []⟩ := Steps.read_right (length_fileHeader u)

theorem steps_header_refused {raised : TransferException}
    (refused : rcvFileHeader d u.fileHeader = .error raised) :
    ∃ t : Link, Steps 2 (start u d) t ∧ t.Halted ∧ t.right = .done ⟨some raised, some []⟩ := by
  have read := steps_received (u := u) (d := d)
  rw [refused] at read
  exact ⟨_, Steps.trans Steps.write_left (read _), halted_of_wait, rfl⟩

theorem steps_header (accepted : rcvFileHeader d u.fileHeader = .ok header) :
    Steps 4 (start u d)
      ⟨uploadBlocks u DFT_HEADER_CONFIRMATION,
        readBlocks header (toLong header.myFileSize).toNat (toLong header.myFileSize) [] 0,
        [], []⟩ := by
  have wrote : Steps 1 (start u d)
      ⟨waitFileHeaderConfirmation (uploadBlocks u), downloadFile d, [u.fileHeader], []⟩ :=
    Steps.write_left
  have read := steps_received (u := u) (d := d) (waitFileHeaderConfirmation (uploadBlocks u))
  rw [accepted] at read
  dsimp only at read
  exact wrote.trans (read.trans ((steps_confirm_header _ _ _).trans (steps_confirmed _ _ _)))

end run

/-! ## What is delivered -/

/-- Both sides have ended without an exception, the target file is the file, and no message
is left. -/
structure Delivered (u : Upload) (s : Link) : Prop where
  uploaded : s.left = .done none
  downloaded : s.right = .done ⟨none, some u.file⟩
  consumed : s.toRight = [] ∧ s.toLeft = []

/-- Whatever the order of their moves, the two sides come to an end, and then the file is
delivered. -/
def Delivers (u : Upload) (d : Download) : Prop := Net.Ends (Delivered u) (start u d)

/-- The file has a byte and an `int` counts its bytes; the name fits in a token and is the
expected one. -/
structure Meets (u : Upload) (d : Download) : Prop where
  nonempty : u.file ≠ []
  size_lt : u.file.length < 2 ^ 31
  name_lt : u.myTargetFileName.text.length < 255
  expected : Expected u d

section delivers

variable {u : Upload} {d : Download}

theorem toLong_toULong_le (n : Nat) : toLong (toULong n) ≤ n := by
  rw [toLong, toULong, ulongSize, Int.bmod_def]
  split_ifs <;> omega

theorem toLong_toULong_of_lt {n : Nat} (small : n < 2 ^ 31) : toLong (toULong n) = n := by
  rw [toULong_of_lt (by rw [ulongSize]; omega)]
  exact toLong_of_range (by omega) (by omega)

theorem toLong_toULong_of_ge {n : Nat} (large : 2 ^ 31 ≤ n) :
    toLong (toULong n) ≤ 0 ∨ (toLong (toULong n)).toNat + 512 ≤ n := by
  rw [toLong, toULong, ulongSize, Int.bmod_def]
  split_ifs <;> omega

theorem sent_eq_iff {file sent : List UInt8} (starts : sent <+: file)
    (low : (toLong (toULong file.length)).toNat ≤ sent.length)
    (high : sent.length < (toLong (toULong file.length)).toNat + TRANSFER_FILE_PACKET_SIZE)
    (ended : toLong (toULong file.length) ≤ 0 → sent = []) (nonempty : file ≠ []) :
    sent = file ↔ file.length < 2 ^ 31 := by
  have positive := length_pos_iff.2 nonempty
  have packet : TRANSFER_FILE_PACKET_SIZE = 512 := rfl
  constructor
  · rintro rfl
    by_contra large
    rcases toLong_toULong_of_ge (Nat.le_of_not_lt large) with none | short
    · exact nonempty (ended none)
    · omega
  · intro small
    rw [toLong_toULong_of_lt small, Int.toNat_natCast] at low
    exact starts.eq_of_length_le low

theorem not_delivers_of_zero {header : FileHeader}
    (accepted : rcvFileHeader d u.fileHeader = .ok header) (size : header.myFileSize = u.myFileSize)
    (zero : toLong u.myFileSize = 0) : ¬ Delivers u d := by
  have run := steps_header accepted
  rw [uploadBlocks, if_pos zero, size, zero] at run
  have ended : readBlocks header (Int.toNat 0) 0 [] 0 = confirmTransfer header [] 0 := rfl
  rw [ended, confirmTransfer] at run
  split_ifs at run
  · have final := run.trans Steps.write_right
    rw [Delivers, ends_iff final halted_of_done]
    intro delivered
    cases delivered.consumed.2
  · have final := run.trans Steps.write_right
    rw [Delivers, ends_iff final halted_of_done]
    intro delivered
    cases delivered.consumed.2

theorem delivers_iff (u : Upload) (d : Download) : Delivers u d ↔ Meets u d := by
  by_cases accepted : u.myTargetFileName.text.length < 255 ∧ Expected u d
  · obtain ⟨header, header_eq⟩ : ∃ header : FileHeader, header = ⟨u.myTargetFileName.text,
      u.myFileSize, u.myFileChecksum, u.myFileIsCompressed⟩ := ⟨_, rfl⟩
    have read : rcvFileHeader d u.fileHeader = .ok header :=
      header_eq ▸ rcvFileHeader_fileHeader accepted.1 accepted.2
    have size : header.myFileSize = u.myFileSize := header_eq ▸ rfl
    have announced : header.myFileChecksum = u.myFileChecksum := header_eq ▸ rfl
    by_cases zero : toLong u.myFileSize = 0
    · refine iff_of_false (not_delivers_of_zero read size zero) fun meets => ?_
      have counted := toLong_toULong_of_lt meets.size_lt
      have positive := length_pos_iff.2 meets.nonempty
      rw [Upload.myFileSize, counted] at zero
      omega
    · have nonempty : u.file ≠ [] := by
        intro empty
        rw [Upload.myFileSize, empty] at zero
        exact zero (by decide)
      have run := steps_header read
      rw [uploadBlocks, if_neg zero, size] at run
      obtain ⟨n, sent, myBuffer, starts, low, high, ended, blocks⟩ :=
        steps_blocks (u.file.length + 1) (toLong u.myFileSize).toNat
          (toLong u.myFileSize) u.file _ [] 0 (toLong_toULong_le _) (Nat.lt_succ_self _)
          (Nat.le_refl _)
      have whole := sent_eq_iff starts low high ended nonempty
      have run := run.trans blocks
      rw [nil_append] at run
      by_cases same : addChecksum 0 sent = header.myFileChecksum
      · rw [same] at run
        rw [Delivers, ends_iff (run.trans (steps_confirm _ _ _)) halted_of_done]
        constructor
        · intro delivered
          have file : sent = u.file := by
            have target := delivered.downloaded
            rw [Proc.done.injEq, Downloaded.mk.injEq] at target
            exact Option.some.inj target.2
          exact ⟨nonempty, whole.1 file, accepted.1, accepted.2⟩
        · intro meets
          rw [whole.2 meets.size_lt]
          exact ⟨rfl, rfl, rfl, rfl⟩
      · obtain ⟨left, refuse⟩ := steps_refuse same myBuffer sent []
        rw [Delivers, ends_iff (run.trans refuse) halted_of_done]
        constructor
        · intro delivered
          cases delivered.uploaded
        · intro meets
          rw [whole.2 meets.size_lt, announced] at same
          exact absurd rfl same
  · obtain ⟨raised, refused⟩ := rcvFileHeader_refused accepted
    obtain ⟨t, run, halted, right⟩ := steps_header_refused refused
    rw [Delivers, ends_iff run halted]
    constructor
    · intro delivered
      cases right.symm.trans delivered.downloaded
    · intro meets
      exact absurd ⟨meets.name_lt, meets.expected⟩ accepted

end delivers

/-! ## What a download reports -/

/-- The bytes of the blocks that were read. -/
def received (blocks : List (Option (List UInt8))) : List UInt8 :=
  (blocks.map fun block => block.getD []).flatten

/-- A download that raises no exception has received as many bytes as were announced, with
the checksum that was announced. -/
def Honest (d : Download) (message : List UInt8) (blocks : List (Option (List UInt8)))
    (result : Downloaded) : Prop :=
  result.raised = none → ∃ header, rcvFileHeader d message = .ok header ∧
    (received blocks).length = header.myFileSize ∧
    addChecksum 0 (received blocks) = header.myFileChecksum

/-- A number of bytes that an `int` holds was announced, no read gives nothing and no block
goes past that number. -/
structure Regular (header : FileHeader) (blocks : List (Option (List UInt8))) : Prop where
  size_lt : header.myFileSize < 2 ^ 31
  some_each : some [] ∉ blocks
  le : (received blocks).length ≤ header.myFileSize

section honest

variable {header : FileHeader} {writes : List Bool} {result : Downloaded}

theorem feed_done {A : Type} {a b : A} {writes : List Bool} {reads : List (Option (List UInt8))}
    (run : (Proc.done a : Proc UInt8 A).feed writes reads = some b) :
    writes = [] ∧ reads = [] ∧ a = b := by
  cases writes with
  | nil =>
    cases reads with
    | nil => exact ⟨rfl, rfl, Option.some.inj run⟩
    | cons => cases run
  | cons => cases run

variable {file : List UInt8} {checksum : Nat} {blocks : List (Option (List UInt8))}

theorem confirmTransfer_feed
    (run : (confirmTransfer header file checksum).feed writes blocks = some result) :
    blocks = [] ∧ ∃ written, writes = [written] ∧
      (result.raised = none ↔ checksum = header.myFileChecksum ∧ written = true) := by
  rw [confirmTransfer] at run
  cases writes with
  | nil => split_ifs at run <;> cases run
  | cons written writes =>
    split_ifs at run with right <;> rw [Proc.feed] at run <;> cases written <;>
      obtain ⟨rfl, rfl, rfl⟩ := feed_done run <;> simp [right]

theorem received_cons (block : List UInt8) (blocks : List (Option (List UInt8))) :
    received (some block :: blocks) = block ++ received blocks := rfl

/-- A loop that ended without a failed read: its blocks end with an empty one, or with the
one that completes the number. -/
structure Completed (header : FileHeader) (qty : Int) (file : List UInt8) (checksum : Nat)
    (writes : List Bool) (blocks : List (Option (List UInt8))) (result : Downloaded) : Prop where
  none_failed : none ∉ blocks
  counted : qty ≤ 0 → blocks = []
  short : some [] ∈ blocks → (received blocks).length < qty
  enough : some [] ∉ blocks → qty ≤ (received blocks).length
  confirms : (confirmTransfer header (file ++ received blocks)
    (addChecksum checksum (received blocks))).feed writes [] = some result

theorem Completed.nil {qty : Int} (exhausted : qty ≤ 0)
    (run : (confirmTransfer header file checksum).feed writes [] = some result) :
    Completed header qty file checksum writes [] result := by
  refine ⟨not_mem_nil, fun _ => rfl, fun empty => absurd empty not_mem_nil,
    fun _ => exhausted, ?_⟩
  rw [show received [] = [] from rfl, append_nil]
  exact run

theorem readBlocks_feed (fuel : Nat) (qty : Int) (file : List UInt8) (checksum : Nat)
    (fits : qty.toNat ≤ fuel)
    (run : (readBlocks header fuel qty file checksum).feed writes blocks = some result) :
    (none ∈ blocks ∧ result.raised ≠ none) ∨
      Completed header qty file checksum writes blocks result := by
  induction fuel generalizing qty file checksum blocks with
  | zero =>
    obtain ⟨rfl, -⟩ := confirmTransfer_feed run
    exact .inr (.nil (by omega) run)
  | succ fuel ih =>
    by_cases more : 0 < qty
    · rw [readBlocks, if_pos more] at run
      cases blocks with
      | nil => cases writes <;> cases run
      | cons answer blocks =>
        rw [Proc.feed] at run
        cases answer with
        | none =>
          obtain ⟨-, -, rfl⟩ := feed_done run
          exact .inl ⟨mem_cons_self, nofun⟩
        | some block =>
          cases block with
          | nil =>
            obtain ⟨rfl, -⟩ := confirmTransfer_feed run
            refine .inr ⟨by simp, fun none => absurd more (Int.not_lt.2 none), fun _ => more,
              fun absent => absurd mem_cons_self absent, ?_⟩
            rw [received_cons, nil_append, show received [] = [] from rfl, append_nil]
            exact run
          | cons c block =>
            have positive : (0 : Int) < (c :: block).length := by simp
            rcases ih (qty - (c :: block).length) (file ++ c :: block)
              (addChecksum checksum (c :: block)) (by omega) run with failed | done
            · exact .inl ⟨mem_cons_of_mem _ failed.1, failed.2⟩
            · refine .inr ⟨?_, fun none => absurd more (Int.not_lt.2 none), ?_, ?_, ?_⟩
              · simpa using done.none_failed
              · intro empty
                have less := done.short (by simpa using empty)
                rw [received_cons, length_append]
                omega
              · intro absent
                have reached := done.enough (by simpa using absent)
                rw [received_cons, length_append]
                omega
              · rw [received_cons, ← append_assoc, addChecksum_append]
                exact done.confirms
    · rw [readBlocks, if_neg more] at run
      obtain ⟨rfl, -⟩ := confirmTransfer_feed run
      exact .inr (.nil (by omega) run)

theorem ofLong_lt (n : Int) : ofLong n < ulongSize := by
  rw [ofLong, ulongSize]
  omega

theorem bind_eq_ok {A B : Type} {x : Except TransferException A}
    {f : A → Except TransferException B} {b : B} (ok : x >>= f = .ok b) :
    ∃ a, x = .ok a ∧ f a = .ok b := by
  cases x with
  | error => cases ok
  | ok a => exact ⟨a, rfl, ok⟩

theorem rcvFileHeader_size_lt {d : Download} {message : List UInt8}
    (accepted : rcvFileHeader d message = .ok header) : header.myFileSize < ulongSize := by
  rw [rcvFileHeader] at accepted
  obtain ⟨⟨name, p⟩, -, accepted⟩ := bind_eq_ok accepted
  dsimp only at accepted
  split_ifs at accepted
  · cases accepted
  · obtain ⟨⟨size, p⟩, -, accepted⟩ := bind_eq_ok accepted
    obtain ⟨⟨checksum, p⟩, -, accepted⟩ := bind_eq_ok accepted
    obtain ⟨⟨date, p⟩, -, accepted⟩ := bind_eq_ok accepted
    obtain ⟨⟨compression, p⟩, -, accepted⟩ := bind_eq_ok accepted
    dsimp only at accepted
    split_ifs at accepted
    · exact Except.ok.inj accepted ▸ ofLong_lt _
    · exact Except.ok.inj accepted ▸ ofLong_lt _

theorem toLong_of_ge {n : Nat} (large : 2 ^ 31 ≤ n) (small : n < ulongSize) : toLong n ≤ 0 := by
  rw [ulongSize] at small
  rw [toLong, Int.bmod_def]
  split_ifs <;> omega

/-- A completed loop has read as many bytes as were announced when its blocks are regular. -/
theorem Completed.length_eq_iff (size : header.myFileSize < ulongSize)
    (done : Completed header (toLong header.myFileSize) file checksum writes blocks result) :
    (received blocks).length = header.myFileSize ↔ Regular header blocks := by
  constructor
  · intro same
    have small : header.myFileSize < 2 ^ 31 := by
      by_contra large
      have none := done.counted (toLong_of_ge (Nat.le_of_not_lt large) size)
      rw [none, show received [] = [] from rfl, length_nil] at same
      omega
    refine ⟨small, fun empty => ?_, Nat.le_of_eq same⟩
    have less := done.short empty
    rw [toLong_of_range (by omega) (by omega)] at less
    omega
  · intro regular
    have reached := done.enough regular.some_each
    have small := regular.size_lt
    have le := regular.le
    rw [toLong_of_range (by omega) (by omega)] at reached
    omega

/-- A download reports what it should exactly when its blocks are regular, or some write or
read fails, or the checksum differs. -/
theorem honest_iff {d : Download} {message : List UInt8}
    (run : (downloadFile d).feed writes (some message :: blocks) = some result) :
    Honest d message blocks result ↔ ∀ header, rcvFileHeader d message = .ok header →
      false ∉ writes → none ∉ blocks →
      addChecksum 0 (received blocks) = header.myFileChecksum → Regular header blocks := by
  rw [downloadFile, Proc.feed] at run
  dsimp only at run
  cases read : rcvFileHeader d message with
  | error raised =>
    rw [read] at run
    obtain ⟨-, -, rfl⟩ := feed_done run
    exact iff_of_true nofun nofun
  | ok header =>
    rw [read] at run
    dsimp only at run
    have size := rcvFileHeader_size_lt read
    cases writes with
    | nil => cases run
    | cons written writes =>
      rw [Proc.feed] at run
      cases written with
      | false =>
        obtain ⟨-, -, rfl⟩ := feed_done run
        exact iff_of_true nofun fun _ _ fine => absurd mem_cons_self fine
      | true =>
        rw [if_pos rfl] at run
        rcases readBlocks_feed _ _ _ _ (Nat.le_refl _) run with failed | done
        · exact iff_of_true (fun fine => absurd fine failed.2)
            fun _ _ _ fine => absurd failed.1 fine
        · obtain ⟨-, last, rfl, raised⟩ := confirmTransfer_feed done.confirms
          have length := done.length_eq_iff size
          constructor
          · intro honest header' same fine none right
            obtain rfl := Except.ok.inj same
            have wrote : last = true := by
              cases last with
              | true => rfl
              | false => simp at fine
            obtain ⟨other, read', count, -⟩ := honest (raised.2 ⟨right, wrote⟩)
            obtain rfl := Except.ok.inj (read.symm.trans read')
            exact length.1 count
          · intro regular fine
            obtain ⟨right, wrote⟩ := raised.1 fine
            refine ⟨header, read, length.2 ?_, right⟩
            exact regular header rfl (by simp [wrote]) done.none_failed right

end honest

/-! ## File transfer -/

/-- When a file is delivered, and when a download reports what it should. -/
theorem transfer_iff (u : Upload) (d : Download) :
    (Delivers u d ↔ Meets u d) ∧
    ∀ writes message blocks result,
      (downloadFile d).feed writes (some message :: blocks) = some result →
      (Honest d message blocks result ↔ ∀ header, rcvFileHeader d message = .ok header →
        false ∉ writes → none ∉ blocks →
        addChecksum 0 (received blocks) = header.myFileChecksum → Regular header blocks) :=
  ⟨delivers_iff u d, fun _ _ _ _ => honest_iff⟩

/-- The upload of a file as `a`. -/
def uploadOf (file : List UInt8) : Upload where
  file := file
  myFileDate := ⟨112, 4, 7, 10, 30, 0⟩
  myTargetFileName := ⟨bytes ['a'], by decide, Bytes.forall_mem_of_all rfl, by decide⟩
  myFileIsCompressed := false
  myBuffer := []

def anyName : Download := ⟨[], false, []⟩

/-- A file of two bytes is delivered. -/
theorem transfer_two : Delivers (uploadOf [1, 2]) anyName :=
  (transfer_iff _ _).1.2 ⟨by decide, by decide, by decide, nofun⟩

/-- An empty file is not: the second confirmation is left. -/
theorem transfer_empty : ¬ Delivers (uploadOf []) anyName := fun delivers =>
  ((delivers_iff _ _).1 delivers).nonempty rfl

end CimArm.FileTransfer
