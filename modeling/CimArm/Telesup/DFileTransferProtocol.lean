import CimArm.Dao.Fields
import CimArm.Lib.Decimal
import CimArm.Lib.Duplex
import CimArm.Telesup.G2RemoteProxy

/-!
# File transfer

One side uploads a file and the other downloads it.  The upload sends a header with the name,
the size and the checksum of the file, waits for its confirmation, sends the file in blocks
and waits for a second confirmation.  The download confirms the header, reads until it has as
many bytes as were announced, or until a read gives none, and compares the checksum.

The local files are read and written without errors, and a file does not change while it is
sent.  Sizes are those of an `unsigned long`, and the loops count with an `int`.
-/

namespace CimArm.FileTransfer

open Duplex Telesup

/-! ## Strings -/

def bytes (text : List Char) : List UInt8 := text.map Char.toUInt8

def tolower (c : UInt8) : UInt8 := if 65 ≤ c ∧ c ≤ 90 then c + 32 else c

/-- `strcasecmp(a, b) == 0` -/
def sameText (a b : List UInt8) : Bool := (cString a).map tolower = (cString b).map tolower

/-- What a buffer holds after so many of its first bytes were written. -/
def fill (buffer written : List UInt8) : List UInt8 := written ++ buffer.drop written.length

/-- `strrep(str, '\n', '\0')` -/
def cutLines (str : List UInt8) : List UInt8 :=
  (str.takeWhile fun c => c ≠ 0).map (fun c => if c = newline then 0 else c) ++
    str.dropWhile fun c => c ≠ 0

/-- `%ld` -/
def printLong (n : Int) : List UInt8 :=
  if n < 0 then 45 :: Decimal.ofNat n.natAbs else Decimal.ofNat n.natAbs

/-- `%4d` and `%02d` -/
def printPadded (pad : UInt8) (width n : Nat) : List UInt8 :=
  List.replicate (width - (Decimal.ofNat n).length) pad ++ Decimal.ofNat n

def isspace (c : UInt8) : Bool := c = 32 ∨ 9 ≤ c ∧ c ≤ 13

/-- A value outside the range of a `long` becomes the bound. -/
def clampLong (n : Int) : Int := max (-2 ^ 31) (min n (2 ^ 31 - 1))

def atol (s : List UInt8) : Int :=
  let s := s.dropWhile isspace
  if s.head? = some 45 then clampLong (-(Decimal.value s.tail))
  else if s.head? = some 43 then clampLong (Decimal.value s.tail)
  else clampLong (Decimal.value s)

/-- A value of type `long` as an `unsigned long`. -/
def ofLong (n : Int) : Nat := (n % 2 ^ 32).toNat

/-! ## The two sides -/

def TRANSFER_FILE_PACKET_SIZE : Nat := 512

def DFT_HEADER_CONFIRMATION : List UInt8 := bytes ['o', 'k', '\n']

def DFT_HEADER_CONFIRMATION_LEN : Nat := 3

def DFT_HEADER_ERROR : List UInt8 := bytes ['E', 'r', 'r', 'o', 'r', '\n']

inductive TransferException : Type
  | generalIo
  | invalidHeader
  | invalidFile
  | fileTransferError
  deriving DecidableEq

/-- A file name as a request has it: some line, cut to the length of its field. -/
structure FileName : Type where
  text : List UInt8
  nonempty : text ≠ []
  line : ∀ c ∈ text, c ≠ 0 ∧ c ≠ newline
  length_le : text.length ≤ 255

/-- The date of a file, broken down. -/
structure Tm : Type where
  tm_year : Nat
  tm_mon : Nat
  tm_mday : Nat
  tm_hour : Nat
  tm_min : Nat
  tm_sec : Nat

/-- `snprintf` has room for 19 characters and the NUL. -/
def datetimeToISO8106 (val : Tm) : List UInt8 :=
  (printPadded 32 4 (val.tm_year + 1900) ++ bytes ['-'] ++ printPadded 48 2 (val.tm_mon + 1) ++
    bytes ['-'] ++ printPadded 48 2 val.tm_mday ++ bytes ['T'] ++ printPadded 48 2 val.tm_hour ++
    bytes [':'] ++ printPadded 48 2 val.tm_min ++ bytes [':'] ++
    printPadded 48 2 val.tm_sec).take 19

/-- The inner loop of the checksum. -/
def addChecksum (cs : Nat) (block : List UInt8) : Nat :=
  block.foldl (fun cs c => toULong (cs + c.toNat)) cs

/-- The side that uploads: the file and its date, the name for the other side, and what is
in its buffer. -/
structure Upload : Type where
  file : List UInt8
  myFileDate : Tm
  myTargetFileName : FileName
  myFileIsCompressed : Bool
  myBuffer : List UInt8

/-- The side that downloads: the name it expects, whether it insists on it, and what is in
its buffer. -/
structure Download : Type where
  mySourceFileName : List UInt8
  myStrictSourceFileName : Bool
  myBuffer : List UInt8

/-! ## Uploading -/

namespace Upload

variable (self : Upload)

/-- The part of `getFileInfo` about the size, `ftell` of the end. -/
def myFileSize : Nat := toULong self.file.length

/-- The part of `getFileInfo` about the checksum. -/
def myFileChecksum : Nat := addChecksum 0 self.file

def compression : List UInt8 :=
  if self.myFileIsCompressed then bytes ['z', 'i', 'p']
  else bytes ['u', 'n', 'c', 'o', 'm', 'p', 'r', 'e', 's', 's', 'e', 'd']

/-- What `sendFileHeader` writes: the string that fits in the buffer. -/
def fileHeader : List UInt8 :=
  (self.myTargetFileName.text ++ newline :: (printLong (toLong self.myFileSize) ++ newline ::
    (printLong (toLong self.myFileChecksum) ++ newline :: (datetimeToISO8106 self.myFileDate ++
      newline :: (self.compression ++ [newline]))))).take (TRANSFER_FILE_PACKET_SIZE - 1)

end Upload

/-- The buffer keeps behind a short answer what it had. -/
def waitTransferFileConfirmation (myBuffer : List UInt8) :
    Proc UInt8 (Option TransferException) :=
  .read DFT_HEADER_CONFIRMATION_LEN fun answer =>
    match answer with
    | none => .done (some .generalIo)
    | some [] => .done (some .generalIo)
    | some (c :: reply) =>
      if sameText ((fill myBuffer (c :: reply)).take DFT_HEADER_CONFIRMATION_LEN)
          DFT_HEADER_CONFIRMATION then .done none
      else .done (some .fileTransferError)

/-- The loop of `uploadFile`, from what is left of the file on; it ends at the end of the
file, so its length is enough fuel. -/
def writeBlocks : Nat → Int → List UInt8 → List UInt8 → Proc UInt8 (Option TransferException)
  | 0, _, _, myBuffer => waitTransferFileConfirmation myBuffer
  | fuel + 1, bytesToWrite, rest, myBuffer =>
    if 0 < bytesToWrite then
      let block := rest.take TRANSFER_FILE_PACKET_SIZE
      if block = [] then waitTransferFileConfirmation myBuffer
      else .write block fun written =>
        if written then
          writeBlocks fuel (bytesToWrite - block.length) (rest.drop TRANSFER_FILE_PACKET_SIZE)
            (fill myBuffer block)
        else .done (some .generalIo)
    else waitTransferFileConfirmation myBuffer

/-- What follows goes on with the answer that was read. -/
def waitFileHeaderConfirmation (next : List UInt8 → Proc UInt8 (Option TransferException)) :
    Proc UInt8 (Option TransferException) :=
  .read TRANSFER_FILE_PACKET_SIZE fun answer =>
    match answer with
    | none => .done (some .generalIo)
    | some [] => .done (some .generalIo)
    | some (c :: reply) =>
      if sameText (c :: reply) DFT_HEADER_CONFIRMATION then next (c :: reply)
      else .done (some .fileTransferError)

/-- An empty file is done with the first confirmation. -/
def uploadBlocks (self : Upload) (reply : List UInt8) : Proc UInt8 (Option TransferException) :=
  if toLong self.myFileSize = 0 then .done none
  else writeBlocks (self.file.length + 1) (toLong self.myFileSize) self.file
    (fill (fill self.myBuffer (self.fileHeader ++ [0])) (reply ++ [0]))

/-- The exception that is raised, if any. -/
def uploadFile (self : Upload) : Proc UInt8 (Option TransferException) :=
  .write self.fileHeader fun written =>
    if written then waitFileHeaderConfirmation (uploadBlocks self)
    else .done (some .generalIo)

/-! ## Downloading -/

/-- What a header announces. -/
structure FileHeader : Type where
  mySourceFileName : List UInt8
  myFileSize : Nat
  myFileChecksum : Nat
  myFileIsCompressed : Bool
  deriving DecidableEq

/-- A field is copied to a token with room for 254 characters. -/
def token (p : List UInt8) : List UInt8 := (cString p).take 254

/-- A field of the header that has to be there, and the text behind it. -/
def nextField (p : List UInt8) : Except TransferException (List UInt8 × List UInt8) :=
  if token p = [] then .error .invalidHeader
  else .ok (token p, p.drop ((token p).length + 1))

/-- What is made of a message that was read as a header. The buffer keeps behind it what it
had. -/
def rcvFileHeader (self : Download) (message : List UInt8) :
    Except TransferException FileHeader := do
  let p := cutLines (fill self.myBuffer (message ++ [0]))
  let (name, p) ← nextField p
  if self.myStrictSourceFileName ∧ ¬ sameText self.mySourceFileName name then
    throw .invalidFile
  let (size, p) ← nextField p
  let (checksum, p) ← nextField p
  let (_, p) ← nextField p
  let (compression, _) ← nextField p
  if sameText compression (bytes ['z', 'i', 'p']) then
    return ⟨name, ofLong (atol size), ofLong (atol checksum), true⟩
  else if sameText compression
      (bytes ['u', 'n', 'c', 'o', 'm', 'p', 'r', 'e', 's', 's', 'e', 'd']) then
    return ⟨name, ofLong (atol size), ofLong (atol checksum), false⟩
  else throw .invalidHeader

/-- How a download ends: the exception that is raised, if any, and the target file unless it
was removed. -/
structure Downloaded : Type where
  raised : Option TransferException
  targetFile : Option (List UInt8)
  deriving DecidableEq

/-- Only the checksum is compared. -/
def confirmTransfer (header : FileHeader) (file : List UInt8) (checksum : Nat) :
    Proc UInt8 Downloaded :=
  if checksum = header.myFileChecksum then
    .write DFT_HEADER_CONFIRMATION fun written =>
      if written then .done ⟨none, some file⟩ else .done ⟨some .generalIo, some file⟩
  else
    .write DFT_HEADER_ERROR fun written =>
      if written then .done ⟨some .fileTransferError, none⟩
      else .done ⟨some .generalIo, some file⟩

/-- The loop of `downloadFile`, with what is written to the target file and its checksum;
each block has a byte at least, so the bytes to read are enough fuel. -/
def readBlocks (header : FileHeader) :
    Nat → Int → List UInt8 → Nat → Proc UInt8 Downloaded
  | 0, _, file, checksum => confirmTransfer header file checksum
  | fuel + 1, bytesToRead, file, checksum =>
    if 0 < bytesToRead then
      .read TRANSFER_FILE_PACKET_SIZE fun answer =>
        match answer with
        | none => .done ⟨some .generalIo, some file⟩
        | some [] => confirmTransfer header file checksum
        | some (c :: block) =>
          readBlocks header fuel (bytesToRead - (c :: block).length) (file ++ c :: block)
            (addChecksum checksum (c :: block))
    else confirmTransfer header file checksum

def downloadFile (self : Download) : Proc UInt8 Downloaded :=
  .read TRANSFER_FILE_PACKET_SIZE fun answer =>
    match answer with
    | none => .done ⟨some .generalIo, some []⟩
    | some message =>
      match rcvFileHeader self message with
      | .error raised => .done ⟨some raised, some []⟩
      | .ok header =>
        .write DFT_HEADER_CONFIRMATION fun written =>
          if written then
            readBlocks header (toLong header.myFileSize).toNat (toLong header.myFileSize) [] 0
          else .done ⟨some .generalIo, some []⟩

end CimArm.FileTransfer
