import CimArm.Lib.Bytes
import CimArm.Lib.Ring
import CimArm.Telesup.ProtoEngine

/-!
# dmodem: reading

The side of the transport that receives.  A frame is taken byte by byte: the start, two
control bytes, the sequence number and its complement, the length and its complement, the
data, and a checksum of four bytes.  The data of a frame with the number expected and a
checksum that matches goes into a circular buffer, and is acknowledged then.  A frame with the
number before is a repeated one: its bytes are discarded, and when no more come it is
acknowledged again.  Every other frame is discarded and answered with a negative
acknowledgement.

The repeated frame is recognised before the complement of its number and the checksum are
looked at, and not at all while the number expected is `0`; a full buffer drops what does not
fit.
-/

namespace CimArm.Dmodem

open Bytes List

/-! ## Frames -/

def DM_SOH : UInt8 := 0x01

def DM_CTRL_BYTE_0 : UInt8 := 0x00

def DM_CTRL_BYTE_1 : UInt8 := 0x00

def DM_MAX_DATA_LEN : Nat := 525 - 9 - 4

def DM_MAX_DATA_READ : Nat := 1024

def DM_ACK : UInt8 := 0x06

def DM_ACK_COMP : UInt8 := ~~~0x06

def DM_NACK : UInt8 := 0x15

def DM_NACK_COMP : UInt8 := ~~~0x15

def DM_EOT : UInt8 := 0x04

def DM_EOTCOMP : UInt8 := ~~~0x04

def DM_SYN : UInt8 := 0x16

def DM_SYNCOMP : UInt8 := ~~~0x16

def DMODEM_MAX_RETIRES_DEF : Int := 15

/-- How an operation ends. -/
inductive DmodemError : Type
  | noError
  | fatal
  | txUplayerTo
  | rxUplayerTo
  | maxRetries
  | eot
  deriving DecidableEq

structure DModemConfig : Type where
  maxDataSize : Nat
  /-- `O_DMODEM_SPRD_NONBLOCK`. -/
  nonblock : Bool
  maxRetries : Int
  positive : 0 < maxDataSize
  bounded : maxDataSize ≤ DM_MAX_DATA_LEN

def ackBytes : List UInt8 := [DM_ACK, DM_ACK_COMP]

def nackBytes : List UInt8 := [DM_NACK, DM_NACK_COMP]

def crc32Tab : List UInt32 := [
    0x00000000, 0x77073096, 0xEE0E612C, 0x990951BA, 0x076DC419, 0x706AF48F, 0xE963A535, 0x9E6495A3,
    0x0EDB8832, 0x79DCB8A4, 0xE0D5E91E, 0x97D2D988, 0x09B64C2B, 0x7EB17CBD, 0xE7B82D07, 0x90BF1D91,
    0x1DB71064, 0x6AB020F2, 0xF3B97148, 0x84BE41DE, 0x1ADAD47D, 0x6DDDE4EB, 0xF4D4B551, 0x83D385C7,
    0x136C9856, 0x646BA8C0, 0xFD62F97A, 0x8A65C9EC, 0x14015C4F, 0x63066CD9, 0xFA0F3D63, 0x8D080DF5,
    0x3B6E20C8, 0x4C69105E, 0xD56041E4, 0xA2677172, 0x3C03E4D1, 0x4B04D447, 0xD20D85FD, 0xA50AB56B,
    0x35B5A8FA, 0x42B2986C, 0xDBBBC9D6, 0xACBCF940, 0x32D86CE3, 0x45DF5C75, 0xDCD60DCF, 0xABD13D59,
    0x26D930AC, 0x51DE003A, 0xC8D75180, 0xBFD06116, 0x21B4F4B5, 0x56B3C423, 0xCFBA9599, 0xB8BDA50F,
    0x2802B89E, 0x5F058808, 0xC60CD9B2, 0xB10BE924, 0x2F6F7C87, 0x58684C11, 0xC1611DAB, 0xB6662D3D,
    0x76DC4190, 0x01DB7106, 0x98D220BC, 0xEFD5102A, 0x71B18589, 0x06B6B51F, 0x9FBFE4A5, 0xE8B8D433,
    0x7807C9A2, 0x0F00F934, 0x9609A88E, 0xE10E9818, 0x7F6A0DBB, 0x086D3D2D, 0x91646C97, 0xE6635C01,
    0x6B6B51F4, 0x1C6C6162, 0x856530D8, 0xF262004E, 0x6C0695ED, 0x1B01A57B, 0x8208F4C1, 0xF50FC457,
    0x65B0D9C6, 0x12B7E950, 0x8BBEB8EA, 0xFCB9887C, 0x62DD1DDF, 0x15DA2D49, 0x8CD37CF3, 0xFBD44C65,
    0x4DB26158, 0x3AB551CE, 0xA3BC0074, 0xD4BB30E2, 0x4ADFA541, 0x3DD895D7, 0xA4D1C46D, 0xD3D6F4FB,
    0x4369E96A, 0x346ED9FC, 0xAD678846, 0xDA60B8D0, 0x44042D73, 0x33031DE5, 0xAA0A4C5F, 0xDD0D7CC9,
    0x5005713C, 0x270241AA, 0xBE0B1010, 0xC90C2086, 0x5768B525, 0x206F85B3, 0xB966D409, 0xCE61E49F,
    0x5EDEF90E, 0x29D9C998, 0xB0D09822, 0xC7D7A8B4, 0x59B33D17, 0x2EB40D81, 0xB7BD5C3B, 0xC0BA6CAD,
    0xEDB88320, 0x9ABFB3B6, 0x03B6E20C, 0x74B1D29A, 0xEAD54739, 0x9DD277AF, 0x04DB2615, 0x73DC1683,
    0xE3630B12, 0x94643B84, 0x0D6D6A3E, 0x7A6A5AA8, 0xE40ECF0B, 0x9309FF9D, 0x0A00AE27, 0x7D079EB1,
    0xF00F9344, 0x8708A3D2, 0x1E01F268, 0x6906C2FE, 0xF762575D, 0x806567CB, 0x196C3671, 0x6E6B06E7,
    0xFED41B76, 0x89D32BE0, 0x10DA7A5A, 0x67DD4ACC, 0xF9B9DF6F, 0x8EBEEFF9, 0x17B7BE43, 0x60B08ED5,
    0xD6D6A3E8, 0xA1D1937E, 0x38D8C2C4, 0x4FDFF252, 0xD1BB67F1, 0xA6BC5767, 0x3FB506DD, 0x48B2364B,
    0xD80D2BDA, 0xAF0A1B4C, 0x36034AF6, 0x41047A60, 0xDF60EFC3, 0xA867DF55, 0x316E8EEF, 0x4669BE79,
    0xCB61B38C, 0xBC66831A, 0x256FD2A0, 0x5268E236, 0xCC0C7795, 0xBB0B4703, 0x220216B9, 0x5505262F,
    0xC5BA3BBE, 0xB2BD0B28, 0x2BB45A92, 0x5CB36A04, 0xC2D7FFA7, 0xB5D0CF31, 0x2CD99E8B, 0x5BDEAE1D,
    0x9B64C2B0, 0xEC63F226, 0x756AA39C, 0x026D930A, 0x9C0906A9, 0xEB0E363F, 0x72076785, 0x05005713,
    0x95BF4A82, 0xE2B87A14, 0x7BB12BAE, 0x0CB61B38, 0x92D28E9B, 0xE5D5BE0D, 0x7CDCEFB7, 0x0BDBDF21,
    0x86D3D2D4, 0xF1D4E242, 0x68DDB3F8, 0x1FDA836E, 0x81BE16CD, 0xF6B9265B, 0x6FB077E1, 0x18B74777,
    0x88085AE6, 0xFF0F6A70, 0x66063BCA, 0x11010B5C, 0x8F659EFF, 0xF862AE69, 0x616BFFD3, 0x166CCF45,
    0xA00AE278, 0xD70DD2EE, 0x4E048354, 0x3903B3C2, 0xA7672661, 0xD06016F7, 0x4969474D, 0x3E6E77DB,
    0xAED16A4A, 0xD9D65ADC, 0x40DF0B66, 0x37D83BF0, 0xA9BCAE53, 0xDEBB9EC5, 0x47B2CF7F, 0x30B5FFE9,
    0xBDBDF21C, 0xCABAC28A, 0x53B39330, 0x24B4A3A6, 0xBAD03605, 0xCDD70693, 0x54DE5729, 0x23D967BF,
    0xB3667A2E, 0xC4614AB8, 0x5D681B02, 0x2A6F2B94, 0xB40BBE37, 0xC30C8EA1, 0x5A05DF1B, 0x2D02EF8D]

def getDmchecksum (payload : List UInt8) : UInt32 :=
  payload.foldl
    (fun crc (b : UInt8) =>
      crc32Tab.getD ((crc &&& 0xFF) ^^^ b.toUInt32).toNat 0 ^^^ (crc >>> 8))
    0xFFFFFFFF ^^^ 0xFFFFFFFF

def makeDmframe (ctrl1 ctrl2 seqno : UInt8) (payload : List UInt8) : List UInt8 :=
  [DM_SOH, ctrl1, ctrl2, seqno, ~~~seqno] ++ littleEndian 2 payload.length ++
    littleEndian 2 (65535 - payload.length) ++ payload ++
    littleEndian 4 (getDmchecksum payload).toNat

/-! ## The state of the reader -/

inductive RdState : Type
  | exit
  | waitSoh
  | waitCtrl0
  | waitCtrl1
  | waitSeq
  | waitSeqComp
  | waitLen0
  | waitLen1
  | waitLen0Comp
  | waitLen1Comp
  | waitPayload
  | waitChecksum
  | ctrlRetrans
  | discardBytes
  | discardRetrans
  | synRcv
  | synCompRcv
  | eotRcv
  | eotCompRcv
  deriving DecidableEq

inductive RdEvent : Type
  | notSoh
  | rcvByte
  | payloadRcv
  | noMoreFrames
  | moreFrames
  | moreRetrans
  | noMoreRetrans
  | badFrame
  | retrans
  | rxByteTo
  | rxUplayerTo
  | syn
  | eot
  deriving DecidableEq

/-- What outlasts a frame: the number expected, the buffer, and how much the read in
progress has and wants. -/
structure ReadStore : Type where
  nextSeqno : UInt8
  sizeToRead : Nat
  sizeReaded : Nat
  databuf : Nat → UInt8
  lastDataIndex : Nat
  firstDataIndex : Nat
  dataCount : Nat

/-- The state of the reader; `sent` is what it has given to `send_buf`. -/
structure DMReadCurrState : Type where
  store : ReadStore
  /-- The data of the frame as far as they have come. -/
  payload : List UInt8
  currSeqno : UInt8
  byteRcv : UInt8
  currPayloadLen : Nat
  currPayloadLenComp : Nat
  checksum : List UInt8
  retransNo : Nat
  globalError : DmodemError
  sent : List UInt8

/-- After `dmodem_open`, whatever the buffer holds. -/
def DMReadCurrState.opened (databuf : Nat → UInt8) : DMReadCurrState where
  store :=
    { nextSeqno := 1, sizeToRead := 0, sizeReaded := 0, databuf := databuf
      lastDataIndex := 0, firstDataIndex := 0, dataCount := 0 }
  payload := []
  currSeqno := 1
  byteRcv := 0
  currPayloadLen := 0
  currPayloadLenComp := 0
  checksum := []
  retransNo := 0
  globalError := .noError
  sent := []

/-! ## The buffer -/

def ReadStore.push (store : ReadStore) (b : UInt8) : ReadStore :=
  { store with
    databuf := Function.update store.databuf store.lastDataIndex b
    dataCount := store.dataCount + 1
    lastDataIndex := (store.lastDataIndex + 1) % DM_MAX_DATA_READ }

/-- Put bytes into the buffer, as long as there is room. -/
def rdWriteData : List UInt8 → ReadStore → ReadStore
  | [], store => store
  | b :: rest, store =>
    if store.dataCount = DM_MAX_DATA_READ then store else rdWriteData rest (store.push b)

def ReadStore.pop (store : ReadStore) : ReadStore :=
  { store with
    dataCount := store.dataCount - 1
    firstDataIndex := (store.firstDataIndex + 1) % DM_MAX_DATA_READ }

/-- Take at most so many bytes out of the buffer. -/
def rdReadData : Nat → ReadStore → List UInt8 × ReadStore
  | 0, store => ([], store)
  | size + 1, store =>
    if store.dataCount = 0 then ([], store)
    else
      (store.databuf store.firstDataIndex :: (rdReadData size store.pop).1,
        (rdReadData size store.pop).2)

/-! ## The beginning of a read -/

/-- `dmodem_read` begins to receive. -/
def rdInit (size : Nat) (r : DMReadCurrState) : DMReadCurrState :=
  { r with
    payload := [], retransNo := 0, globalError := .noError
    store := { r.store with sizeReaded := 0, sizeToRead := size } }

/-- The read copies what the buffer has, and the engine is not started. -/
def HasData (conf : DModemConfig) (size : Nat) (r : DMReadCurrState) : Prop :=
  size ≤ r.store.dataCount ∨ r.store.dataCount ≠ 0 ∧ conf.nonblock

instance (conf : DModemConfig) (size : Nat) (r : DMReadCurrState) :
    Decidable (HasData conf size r) :=
  inferInstanceAs (Decidable (_ ∨ _))

/-! ## The functions of the table -/

abbrev RdHandler : Type := DMReadCurrState → Option RdEvent × DMReadCurrState

def sendAck (r : DMReadCurrState) : DMReadCurrState := { r with sent := r.sent ++ ackBytes }

def sendNack (r : DMReadCurrState) : DMReadCurrState := { r with sent := r.sent ++ nackBytes }

/-- `rd_none`, and the functions that only discard what has come. -/
def rdNone : RdHandler := fun r => (none, r)

def rdSynCompRcv : RdHandler := fun r => (some .rcvByte, r)

def rdSoh : RdHandler := fun r =>
  (if r.byteRcv = DM_SYN then some .syn
    else if r.byteRcv = DM_EOT then some .eot
    else if r.byteRcv ≠ DM_SOH then some .notSoh
    else none,
    { r with payload := [], checksum := [], retransNo := 0 })

/-- A repeated frame, and one that is not expected. -/
def rdSeqno : RdHandler := fun r =>
  (if r.store.nextSeqno ≠ 0 ∧ r.byteRcv = r.store.nextSeqno - 1 then some .retrans
    else if r.byteRcv ≠ r.store.nextSeqno then some .badFrame
    else none,
    { r with currSeqno := r.byteRcv })

def rdSeqnocomp : RdHandler := fun r =>
  (if r.currSeqno.toNat + r.byteRcv.toNat ≠ 0xFF then some .badFrame else none, r)

def rdLen0 : RdHandler := fun r => (none, { r with currPayloadLen := r.byteRcv.toNat })

def rdLen1 : RdHandler := fun r =>
  let len := r.currPayloadLen + 256 * r.byteRcv.toNat
  (if len > DM_MAX_DATA_LEN then some .badFrame else none, { r with currPayloadLen := len })

def rdLen0comp : RdHandler := fun r => (none, { r with currPayloadLenComp := r.byteRcv.toNat })

def rdLen1comp : RdHandler := fun r =>
  let comp := r.currPayloadLenComp + 256 * r.byteRcv.toNat
  (if r.currPayloadLen ≠ 65535 - comp then some .badFrame else none,
    { r with currPayloadLenComp := comp })

def rdRcvByte : RdHandler := fun r =>
  let payload := r.payload ++ [r.byteRcv]
  (if payload.length = r.currPayloadLen then some .payloadRcv else none,
    { r with payload := payload })

/-- The data of a frame that is whole go into the buffer. -/
def rdStore (r : DMReadCurrState) : DMReadCurrState :=
  { r with store := { rdWriteData r.payload r.store with
      sizeReaded := r.store.sizeReaded + r.payload.length } }

/-- The frame is the last one of the read: it is a short one, the read has enough, or it
does not wait. -/
def lastFrame (conf : DModemConfig) (r : DMReadCurrState) : Prop :=
  r.payload.length < conf.maxDataSize ∨
    r.store.sizeToRead ≤ r.store.sizeReaded + r.payload.length ∨ conf.nonblock

instance (conf : DModemConfig) (r : DMReadCurrState) : Decidable (lastFrame conf r) :=
  inferInstanceAs (Decidable (_ ∨ _))

def rdRcvChecksumByte (conf : DModemConfig) : RdHandler := fun r =>
  let r := { r with checksum := r.checksum ++ [r.byteRcv] }
  if r.checksum.length = 4 then
    if (getDmchecksum r.payload).toNat ≠ ofLittleEndian r.checksum then (some .badFrame, r)
    else (if lastFrame conf r then some .noMoreFrames else some .moreFrames, rdStore r)
  else (none, r)

/-- The frame is acknowledged, and the next number expected. -/
def rdAcknowledge (r : DMReadCurrState) : DMReadCurrState :=
  { sendAck r with store := { r.store with nextSeqno := r.store.nextSeqno + 1 } }

def rdMoreFrames : RdHandler := fun r => (none, rdAcknowledge r)

def rdExitOk : RdHandler := fun r => (none, rdAcknowledge r)

def rdExitRxuplayerto : RdHandler := fun r => (none, { r with globalError := .rxUplayerTo })

def rdExitRetrans : RdHandler := fun r => (none, { r with globalError := .maxRetries })

def rdPrepareRetrans (conf : DModemConfig) : RdHandler := fun r =>
  (if (r.retransNo + 1 : Int) < conf.maxRetries then some .moreRetrans else some .noMoreRetrans,
    { r with retransNo := r.retransNo + 1 })

def rdSendAck : RdHandler := fun r => (none, sendAck r)

def rdSendNack : RdHandler := fun r => (none, sendNack r)

def rdSendEofAck : RdHandler := fun r => (none, { sendAck r with globalError := .eot })

def rdEotCompRcv : RdHandler := fun r =>
  (if r.byteRcv = DM_EOTCOMP then some .rcvByte else some .rxByteTo, r)

/-! ## The table -/

def rdTransitions (conf : DModemConfig) :
    List (ProtoTransition RdState RdEvent DMReadCurrState) := [
  ⟨.waitSoh, .rcvByte, .waitCtrl0, rdSoh⟩,
  ⟨.waitSoh, .badFrame, .ctrlRetrans, rdPrepareRetrans conf⟩,
  ⟨.waitSoh, .rxByteTo, .waitSoh, rdNone⟩,
  ⟨.waitSoh, .rxUplayerTo, .exit, rdExitRxuplayerto⟩,
  ⟨.waitCtrl0, .rcvByte, .waitCtrl1, rdNone⟩,
  ⟨.waitCtrl0, .notSoh, .waitSoh, rdNone⟩,
  ⟨.waitCtrl0, .syn, .synRcv, rdNone⟩,
  ⟨.waitCtrl0, .eot, .eotRcv, rdNone⟩,
  ⟨.waitCtrl0, .badFrame, .ctrlRetrans, rdPrepareRetrans conf⟩,
  ⟨.waitCtrl0, .rxByteTo, .ctrlRetrans, rdPrepareRetrans conf⟩,
  ⟨.waitCtrl0, .rxUplayerTo, .exit, rdExitRxuplayerto⟩,
  ⟨.waitCtrl1, .rcvByte, .waitSeq, rdNone⟩,
  ⟨.waitCtrl1, .badFrame, .ctrlRetrans, rdPrepareRetrans conf⟩,
  ⟨.waitCtrl1, .rxByteTo, .ctrlRetrans, rdPrepareRetrans conf⟩,
  ⟨.waitCtrl1, .rxUplayerTo, .exit, rdExitRxuplayerto⟩,
  ⟨.waitSeq, .rcvByte, .waitSeqComp, rdSeqno⟩,
  ⟨.waitSeq, .badFrame, .ctrlRetrans, rdPrepareRetrans conf⟩,
  ⟨.waitSeq, .rxByteTo, .ctrlRetrans, rdPrepareRetrans conf⟩,
  ⟨.waitSeq, .rxUplayerTo, .exit, rdExitRxuplayerto⟩,
  ⟨.waitSeqComp, .rcvByte, .waitLen0, rdSeqnocomp⟩,
  ⟨.waitSeqComp, .badFrame, .ctrlRetrans, rdPrepareRetrans conf⟩,
  ⟨.waitSeqComp, .retrans, .discardRetrans, rdNone⟩,
  ⟨.waitSeqComp, .rxByteTo, .ctrlRetrans, rdPrepareRetrans conf⟩,
  ⟨.waitSeqComp, .rxUplayerTo, .exit, rdExitRxuplayerto⟩,
  ⟨.waitLen0, .rcvByte, .waitLen1, rdLen0⟩,
  ⟨.waitLen0, .badFrame, .ctrlRetrans, rdPrepareRetrans conf⟩,
  ⟨.waitLen0, .rxByteTo, .ctrlRetrans, rdPrepareRetrans conf⟩,
  ⟨.waitLen0, .rxUplayerTo, .exit, rdExitRxuplayerto⟩,
  ⟨.waitLen1, .rcvByte, .waitLen0Comp, rdLen1⟩,
  ⟨.waitLen1, .badFrame, .ctrlRetrans, rdPrepareRetrans conf⟩,
  ⟨.waitLen1, .rxByteTo, .ctrlRetrans, rdPrepareRetrans conf⟩,
  ⟨.waitLen1, .rxUplayerTo, .exit, rdExitRxuplayerto⟩,
  ⟨.waitLen0Comp, .rcvByte, .waitLen1Comp, rdLen0comp⟩,
  ⟨.waitLen0Comp, .badFrame, .ctrlRetrans, rdPrepareRetrans conf⟩,
  ⟨.waitLen0Comp, .rxByteTo, .ctrlRetrans, rdPrepareRetrans conf⟩,
  ⟨.waitLen0Comp, .rxUplayerTo, .exit, rdExitRxuplayerto⟩,
  ⟨.waitLen1Comp, .rcvByte, .waitPayload, rdLen1comp⟩,
  ⟨.waitLen1Comp, .badFrame, .ctrlRetrans, rdPrepareRetrans conf⟩,
  ⟨.waitLen1Comp, .rxByteTo, .ctrlRetrans, rdPrepareRetrans conf⟩,
  ⟨.waitLen1Comp, .rxUplayerTo, .exit, rdExitRxuplayerto⟩,
  ⟨.waitPayload, .rcvByte, .waitPayload, rdRcvByte⟩,
  ⟨.waitPayload, .payloadRcv, .waitChecksum, rdNone⟩,
  ⟨.waitPayload, .badFrame, .ctrlRetrans, rdPrepareRetrans conf⟩,
  ⟨.waitPayload, .rxByteTo, .ctrlRetrans, rdPrepareRetrans conf⟩,
  ⟨.waitPayload, .rxUplayerTo, .exit, rdExitRxuplayerto⟩,
  ⟨.waitChecksum, .rcvByte, .waitChecksum, rdRcvChecksumByte conf⟩,
  ⟨.waitChecksum, .moreFrames, .waitSoh, rdMoreFrames⟩,
  ⟨.waitChecksum, .noMoreFrames, .exit, rdExitOk⟩,
  ⟨.waitChecksum, .badFrame, .ctrlRetrans, rdPrepareRetrans conf⟩,
  ⟨.waitChecksum, .rxByteTo, .ctrlRetrans, rdPrepareRetrans conf⟩,
  ⟨.waitChecksum, .rxUplayerTo, .exit, rdExitRxuplayerto⟩,
  ⟨.ctrlRetrans, .noMoreRetrans, .exit, rdExitRetrans⟩,
  ⟨.ctrlRetrans, .moreRetrans, .discardBytes, rdNone⟩,
  ⟨.ctrlRetrans, .rxUplayerTo, .exit, rdExitRxuplayerto⟩,
  ⟨.discardRetrans, .rxByteTo, .waitSoh, rdSendAck⟩,
  ⟨.discardRetrans, .rcvByte, .discardRetrans, rdNone⟩,
  ⟨.discardRetrans, .rxUplayerTo, .exit, rdExitRxuplayerto⟩,
  ⟨.discardBytes, .rcvByte, .discardBytes, rdNone⟩,
  ⟨.discardBytes, .rxByteTo, .waitSoh, rdSendNack⟩,
  ⟨.discardBytes, .rxUplayerTo, .exit, rdExitRxuplayerto⟩,
  ⟨.synRcv, .rcvByte, .synCompRcv, rdSynCompRcv⟩,
  ⟨.synRcv, .rxByteTo, .waitSoh, rdNone⟩,
  ⟨.synRcv, .rxUplayerTo, .exit, rdExitRxuplayerto⟩,
  ⟨.synCompRcv, .rcvByte, .waitSoh, rdNone⟩,
  ⟨.synCompRcv, .rxByteTo, .waitSoh, rdNone⟩,
  ⟨.synCompRcv, .rxUplayerTo, .exit, rdExitRxuplayerto⟩,
  ⟨.eotRcv, .rcvByte, .eotCompRcv, rdEotCompRcv⟩,
  ⟨.eotRcv, .rxByteTo, .waitSoh, rdNone⟩,
  ⟨.eotRcv, .rxUplayerTo, .exit, rdExitRxuplayerto⟩,
  ⟨.eotCompRcv, .rcvByte, .exit, rdSendEofAck⟩,
  ⟨.eotCompRcv, .rxByteTo, .waitSoh, rdNone⟩,
  ⟨.eotCompRcv, .rxUplayerTo, .exit, rdExitRxuplayerto⟩]

/-- The engine over the table; three events follow one another at the most. -/
def rdEngine (conf : DModemConfig) (event : RdEvent) (s : RdState × DMReadCurrState) :
    RdState × DMReadCurrState :=
  protoEngine (rdTransitions conf) .exit 4 event s

/-- A byte comes in. -/
def rdByte (conf : DModemConfig) (b : UInt8) (s : RdState × DMReadCurrState) :
    RdState × DMReadCurrState :=
  rdEngine conf .rcvByte (s.1, { s.2 with byteRcv := b })

/-! ## The buffer as a list -/

namespace ReadStore

/-- The bytes in the buffer, in order. -/
def data (store : ReadStore) : List UInt8 :=
  Ring.window store.databuf DM_MAX_DATA_READ store.firstDataIndex store.dataCount

/-- The indices are those of the bytes in the buffer. -/
structure WellFormed (store : ReadStore) : Prop where
  first : store.firstDataIndex < DM_MAX_DATA_READ
  last : store.lastDataIndex = (store.firstDataIndex + store.dataCount) % DM_MAX_DATA_READ

variable {store : ReadStore}

theorem data_length (store : ReadStore) : store.data.length = store.dataCount :=
  Ring.window_length _ _ _ _

theorem push_data (wf : store.WellFormed) (room : store.dataCount < DM_MAX_DATA_READ)
    (b : UInt8) : (store.push b).data = store.data ++ [b] := by
  rw [data, push]
  dsimp only
  rw [wf.last]
  exact Ring.window_push store.databuf b room

theorem push_wellFormed (wf : store.WellFormed) (b : UInt8) : (store.push b).WellFormed where
  first := wf.first
  last := by
    rw [push]
    dsimp only
    rw [wf.last, Nat.mod_add_mod, Nat.add_assoc]

theorem pop_data (store : ReadStore) (some_ : store.dataCount ≠ 0) (wf : store.WellFormed) :
    store.data = store.databuf store.firstDataIndex :: store.pop.data := by
  rcases Nat.exists_eq_succ_of_ne_zero some_ with ⟨n, count⟩
  rw [data, data, pop, count, Ring.window, Nat.mod_eq_of_lt wf.first]
  dsimp only
  rw [Ring.window_mod]
  rfl

theorem pop_wellFormed (some_ : store.dataCount ≠ 0) (wf : store.WellFormed) :
    store.pop.WellFormed where
  first := Nat.mod_lt _ (by decide)
  last := by
    rw [pop]
    dsimp only
    rw [wf.last, Nat.mod_add_mod]
    congr 1
    omega

end ReadStore

theorem rdWriteData_data (bytes : List UInt8) {store : ReadStore} (wf : store.WellFormed)
    (room : store.dataCount + bytes.length ≤ DM_MAX_DATA_READ) :
    (rdWriteData bytes store).data = store.data ++ bytes ∧
      (rdWriteData bytes store).WellFormed := by
  induction bytes generalizing store with
  | nil => exact ⟨(append_nil _).symm, wf⟩
  | cons b rest ih =>
    rw [length_cons] at room
    have free : store.dataCount < DM_MAX_DATA_READ := by omega
    have step : rdWriteData (b :: rest) store = rdWriteData rest (store.push b) :=
      if_neg (Nat.ne_of_lt free)
    have more : (store.push b).dataCount + rest.length ≤ DM_MAX_DATA_READ := by
      rw [ReadStore.push]
      dsimp only
      omega
    rcases ih (ReadStore.push_wellFormed wf b) more with ⟨data, wellFormed⟩
    rw [step]
    refine ⟨?_, wellFormed⟩
    rw [data, ReadStore.push_data wf free, append_assoc]
    rfl

theorem rdWriteData_nextSeqno (bytes : List UInt8) (store : ReadStore) :
    (rdWriteData bytes store).nextSeqno = store.nextSeqno := by
  induction bytes generalizing store with
  | nil => rfl
  | cons b rest ih =>
    unfold rdWriteData
    split
    · rfl
    · exact ih (store.push b)

theorem rdReadData_data (size : Nat) {store : ReadStore} (wf : store.WellFormed)
    (all : store.dataCount = size) :
    (rdReadData size store).1 = store.data ∧ (rdReadData size store).2.dataCount = 0 ∧
      (rdReadData size store).2.WellFormed ∧
      (rdReadData size store).2.nextSeqno = store.nextSeqno := by
  induction size generalizing store with
  | zero => exact ⟨by rw [ReadStore.data, all]; rfl, all, wf, rfl⟩
  | succ size ih =>
    have some_ : store.dataCount ≠ 0 := by omega
    have less : store.pop.dataCount = size := by
      rw [ReadStore.pop]
      dsimp only
      omega
    rcases ih (ReadStore.pop_wellFormed some_ wf) less with ⟨data, rest⟩
    unfold rdReadData
    rw [if_neg some_, ReadStore.pop_data store some_ wf, data]
    exact ⟨rfl, rest⟩

/-! ## What a byte does -/

theorem ne_pred (x : UInt8) : x ≠ x - 1 := by
  have bits : ∀ v : BitVec 8, v ≠ v - 1#8 := by decide
  intro same
  exact bits x.toBitVec (congrArg UInt8.toBitVec same)

theorem add_complement (x : UInt8) : x.toNat + (~~~x).toNat = 0xFF := by
  have bits : ∀ v : BitVec 8, v.toNat + (~~~v).toNat = 0xFF := by decide
  exact bits x.toBitVec

section

variable (conf : DModemConfig) (b : UInt8) (r : DMReadCurrState)

theorem rdByte_quiet {state next : RdState} {h : RdHandler}
    (found : dmGetTransition (rdTransitions conf) state .rcvByte =
      some ⟨state, .rcvByte, next, h⟩) (running : next ≠ .exit)
    (quiet : (h { r with byteRcv := b }).1 = none) :
    rdByte conf b (state, r) = (next, (h { r with byteRcv := b }).2) :=
  protoEngine_quiet 3 found running quiet

theorem rdByte_event {state : RdState} (next : RdState) (h : RdHandler) {event : RdEvent}
    (found : dmGetTransition (rdTransitions conf) state .rcvByte =
      some ⟨state, .rcvByte, next, h⟩) (running : next ≠ .exit)
    (follows : (h { r with byteRcv := b }).1 = some event) :
    rdByte conf b (state, r) =
      protoEngine (rdTransitions conf) .exit 3 event (next, (h { r with byteRcv := b }).2) :=
  protoEngine_event 3 found running follows

theorem rdByte_waitSoh :
    rdByte conf DM_SOH (.waitSoh, r) =
      (.waitCtrl0, { r with byteRcv := DM_SOH, payload := [], checksum := [], retransNo := 0 }) :=
  rfl

theorem rdByte_waitCtrl0 :
    rdByte conf b (.waitCtrl0, r) = (.waitCtrl1, { r with byteRcv := b }) :=
  rfl

theorem rdByte_waitCtrl1 : rdByte conf b (.waitCtrl1, r) = (.waitSeq, { r with byteRcv := b }) :=
  rfl

theorem rdByte_waitSeq_expected (expected : b = r.store.nextSeqno) :
    rdByte conf b (.waitSeq, r) = (.waitSeqComp, { r with byteRcv := b, currSeqno := b }) := by
  have fresh : (rdSeqno { r with byteRcv := b }).1 = none := by
    dsimp only [rdSeqno]
    rw [if_neg (fun both => ne_pred _ (expected ▸ both.2)), if_neg (fun other => other expected)]
  exact rdByte_quiet conf b r rfl RdState.noConfusion fresh

theorem rdByte_waitSeq_repeated (unwrapped : r.store.nextSeqno ≠ 0)
    (before : b = r.store.nextSeqno - 1) :
    rdByte conf b (.waitSeq, r) = (.discardRetrans, { r with byteRcv := b, currSeqno := b }) := by
  have repeated : (rdSeqno { r with byteRcv := b }).1 = some .retrans :=
    if_pos ⟨unwrapped, before⟩
  exact rdByte_event conf b r .waitSeqComp rdSeqno rfl nofun repeated

theorem rdByte_waitSeqComp (complement : b = ~~~r.currSeqno) :
    rdByte conf b (.waitSeqComp, r) = (.waitLen0, { r with byteRcv := b }) := by
  have fits : (rdSeqnocomp { r with byteRcv := b }).1 = none :=
    if_neg (fun differs => differs (complement ▸ add_complement r.currSeqno))
  exact rdByte_quiet conf b r rfl RdState.noConfusion fits

theorem rdByte_waitLen0 :
    rdByte conf b (.waitLen0, r) =
      (.waitLen1, { r with byteRcv := b, currPayloadLen := b.toNat }) :=
  rfl

theorem rdByte_waitLen1 (bounded : r.currPayloadLen + 256 * b.toNat ≤ DM_MAX_DATA_LEN) :
    rdByte conf b (.waitLen1, r) =
      (.waitLen0Comp,
        { r with byteRcv := b, currPayloadLen := r.currPayloadLen + 256 * b.toNat }) := by
  have fits : (rdLen1 { r with byteRcv := b }).1 = none := if_neg (Nat.not_lt.2 bounded)
  exact rdByte_quiet conf b r rfl RdState.noConfusion fits

theorem rdByte_waitLen0Comp :
    rdByte conf b (.waitLen0Comp, r) =
      (.waitLen1Comp, { r with byteRcv := b, currPayloadLenComp := b.toNat }) :=
  rfl

theorem rdByte_waitLen1Comp
    (complement : r.currPayloadLen = 65535 - (r.currPayloadLenComp + 256 * b.toNat)) :
    rdByte conf b (.waitLen1Comp, r) =
      (.waitPayload,
        { r with
          byteRcv := b, currPayloadLenComp := r.currPayloadLenComp + 256 * b.toNat }) := by
  have fits : (rdLen1comp { r with byteRcv := b }).1 = none :=
    if_neg (fun differs => differs complement)
  exact rdByte_quiet conf b r rfl RdState.noConfusion fits

theorem rdByte_waitPayload_more (more : r.payload.length + 1 ≠ r.currPayloadLen) :
    rdByte conf b (.waitPayload, r) =
      (.waitPayload, { r with byteRcv := b, payload := r.payload ++ [b] }) := by
  have waits : (rdRcvByte { r with byteRcv := b }).1 = none := by
    refine if_neg ?_
    rw [length_append]
    exact more
  exact rdByte_quiet conf b r rfl RdState.noConfusion waits

theorem rdByte_waitPayload_last (last : r.payload.length + 1 = r.currPayloadLen) :
    rdByte conf b (.waitPayload, r) =
      (.waitChecksum, { r with byteRcv := b, payload := r.payload ++ [b] }) := by
  have full : (rdRcvByte { r with byteRcv := b }).1 = some .payloadRcv := by
    refine if_pos ?_
    rw [length_append]
    exact last
  exact rdByte_event conf b r .waitPayload rdRcvByte rfl nofun full

theorem rdByte_waitChecksum_more (more : r.checksum.length + 1 ≠ 4) :
    rdByte conf b (.waitChecksum, r) =
      (.waitChecksum, { r with byteRcv := b, checksum := r.checksum ++ [b] }) := by
  have waits : rdRcvChecksumByte conf { r with byteRcv := b } =
      (none, { r with byteRcv := b, checksum := r.checksum ++ [b] }) := by
    refine if_neg ?_
    rw [length_append]
    exact more
  rw [rdByte_quiet conf b r (show dmGetTransition _ .waitChecksum .rcvByte =
    some ⟨_, _, .waitChecksum, rdRcvChecksumByte conf⟩ from rfl) nofun
    (congrArg Prod.fst waits), waits]

/-- The reader that has taken the whole frame. -/
def accepted (payload : List UInt8) (store : ReadStore) : ReadStore :=
  { rdWriteData payload store with
    sizeReaded := store.sizeReaded + payload.length
    nextSeqno := store.nextSeqno + 1 }

theorem rdByte_waitChecksum_last (last : r.checksum.length + 1 = 4)
    (matches_ : (getDmchecksum r.payload).toNat = ofLittleEndian (r.checksum ++ [b])) :
    rdByte conf b (.waitChecksum, r) =
      (if lastFrame conf r then .exit else .waitSoh,
        { r with
          byteRcv := b, checksum := r.checksum ++ [b], sent := r.sent ++ ackBytes
          store := accepted r.payload r.store }) := by
  have whole : rdRcvChecksumByte conf { r with byteRcv := b } =
      (if lastFrame conf r then some .noMoreFrames else some .moreFrames,
        rdStore { r with byteRcv := b, checksum := r.checksum ++ [b] }) := by
    dsimp only [rdRcvChecksumByte]
    rw [if_pos (by rw [length_append]; exact last), if_neg (fun differs => differs matches_)]
    rfl
  have store : { rdWriteData r.payload r.store with
      sizeReaded := r.store.sizeReaded + r.payload.length
      nextSeqno := (rdWriteData r.payload r.store).nextSeqno + 1 } =
        accepted r.payload r.store := by
    rw [rdWriteData_nextSeqno]
    rfl
  by_cases frames : lastFrame conf r
  · rw [if_pos frames] at whole ⊢
    rw [rdByte_event conf b r .waitChecksum _ rfl nofun (congrArg Prod.fst whole), whole, ← store]
    rfl
  · rw [if_neg frames] at whole ⊢
    rw [rdByte_event conf b r .waitChecksum _ rfl nofun (congrArg Prod.fst whole), whole, ← store]
    rfl

end

/-! ## What a frame does -/

section

variable {conf : DModemConfig} {r : DMReadCurrState}

/-- The bytes that are there, all of them or up to the one that ends the read. -/
def rdFeed (conf : DModemConfig) (bytes : List UInt8) (s : RdState × DMReadCurrState) :
    (RdState × DMReadCurrState) × List UInt8 :=
  feed (rdByte conf) .exit bytes s

theorem rdFeed_cons {b : UInt8} {s : RdState × DMReadCurrState} {state : RdState}
    {after : DMReadCurrState} (received : rdByte conf b s = (state, after))
    (running : state ≠ .exit) (rest : List UInt8) :
    rdFeed conf (b :: rest) s = rdFeed conf rest (state, after) :=
  feed_cons received running rest

theorem makeDmframe_eq (ctrl1 ctrl2 seqno : UInt8) (payload : List UInt8) :
    makeDmframe ctrl1 ctrl2 seqno payload =
      DM_SOH :: ctrl1 :: ctrl2 :: seqno :: ~~~seqno ::
        UInt8.ofNat payload.length :: UInt8.ofNat (payload.length / 256) ::
          UInt8.ofNat (65535 - payload.length) :: UInt8.ofNat ((65535 - payload.length) / 256) ::
            (payload ++ littleEndian 4 (getDmchecksum payload).toNat) := by
  simp [makeDmframe, littleEndian]

variable {ctrl1 ctrl2 seqno : UInt8}

theorem rdFeed_header {len : Nat} (rest : List UInt8) (expected : seqno = r.store.nextSeqno)
    (bounded : len ≤ DM_MAX_DATA_LEN) : ∃ after : DMReadCurrState,
      rdFeed conf (DM_SOH :: ctrl1 :: ctrl2 :: seqno :: ~~~seqno ::
        UInt8.ofNat len :: UInt8.ofNat (len / 256) ::
          UInt8.ofNat (65535 - len) :: UInt8.ofNat ((65535 - len) / 256) :: rest)
        (.waitSoh, r) = rdFeed conf rest (.waitPayload, after) ∧
      after.payload = [] ∧ after.checksum = [] ∧ after.currPayloadLen = len ∧
      after.store = r.store ∧ after.sent = r.sent := by
  have small : DM_MAX_DATA_LEN = 512 := rfl
  have low : (UInt8.ofNat len).toNat + 256 * (UInt8.ofNat (len / 256)).toNat = len := by
    rw [UInt8.toNat_ofNat', UInt8.toNat_ofNat']
    omega
  have inside : (UInt8.ofNat len).toNat + 256 * (UInt8.ofNat (len / 256)).toNat ≤
      DM_MAX_DATA_LEN := by
    rw [low]
    exact bounded
  have complement : (UInt8.ofNat (65535 - len)).toNat +
      256 * (UInt8.ofNat ((65535 - len) / 256)).toNat = 65535 - len := by
    rw [UInt8.toNat_ofNat', UInt8.toNat_ofNat']
    omega
  have fits : (UInt8.ofNat len).toNat + 256 * (UInt8.ofNat (len / 256)).toNat =
      65535 - ((UInt8.ofNat (65535 - len)).toNat +
        256 * (UInt8.ofNat ((65535 - len) / 256)).toNat) := by
    rw [low, complement]
    omega
  rw [rdFeed_cons (rdByte_waitSoh conf r) nofun, rdFeed_cons (rdByte_waitCtrl0 conf ctrl1 _) nofun,
    rdFeed_cons (rdByte_waitCtrl1 conf ctrl2 _) nofun]
  dsimp only
  rw [rdFeed_cons (rdByte_waitSeq_expected conf seqno _ (by exact expected)) nofun]
  dsimp only
  rw [rdFeed_cons (rdByte_waitSeqComp conf _ _ (by rfl)) nofun,
    rdFeed_cons (rdByte_waitLen0 conf _ _) nofun]
  dsimp only
  rw [rdFeed_cons (rdByte_waitLen1 conf _ _ inside)
    nofun]
  dsimp only
  rw [rdFeed_cons (rdByte_waitLen0Comp conf _ _) nofun]
  dsimp only
  rw [rdFeed_cons (rdByte_waitLen1Comp conf _ _ fits) nofun]
  exact ⟨_, rfl, rfl, rfl, low, rfl, rfl⟩

theorem rdFeed_payload {bytes : List UInt8} (some_ : bytes ≠ []) (rest : List UInt8)
    (len : r.payload.length + bytes.length = r.currPayloadLen) :
    ∃ b : UInt8, rdFeed conf (bytes ++ rest) (.waitPayload, r) =
      rdFeed conf rest
        (.waitChecksum, { r with byteRcv := b, payload := r.payload ++ bytes }) := by
  induction bytes generalizing r with
  | nil => exact absurd rfl some_
  | cons b bytes ih =>
    rw [length_cons] at len
    by_cases last : bytes = []
    · subst last
      refine ⟨b, ?_⟩
      exact rdFeed_cons (rdByte_waitPayload_last conf b r len) RdState.noConfusion rest
    · have positive : 0 < bytes.length := length_pos_iff.2 last
      have more : r.payload.length + 1 ≠ r.currPayloadLen := by omega
      have remaining : (r.payload ++ [b]).length + bytes.length = r.currPayloadLen := by
        rw [length_append, length_singleton]
        omega
      rcases ih (r := { r with byteRcv := b, payload := r.payload ++ [b] }) last remaining
        with ⟨final, fed⟩
      refine ⟨final, ?_⟩
      rw [cons_append, rdFeed_cons (rdByte_waitPayload_more conf b r more) nofun, fed, append_assoc]
      rfl

theorem rdFeed_checksum (start : r.checksum = []) :
    ∃ (state : RdState) (after : DMReadCurrState),
      rdFeed conf (littleEndian 4 (getDmchecksum r.payload).toNat) (.waitChecksum, r) =
        ((state, after), []) ∧ (state = .exit ∨ state = .waitSoh) ∧
      after.store = accepted r.payload r.store ∧ after.sent = r.sent ++ ackBytes := by
  have value := @ofLittleEndian_littleEndian 4 (getDmchecksum r.payload).toNat
    (UInt32.toNat_lt _)
  simp only [littleEndian] at value ⊢
  rw [rdFeed_cons (rdByte_waitChecksum_more conf _ r (by simp [start])) (by decide),
    rdFeed_cons (rdByte_waitChecksum_more conf _ _ (by simp [start])) (by decide),
    rdFeed_cons (rdByte_waitChecksum_more conf _ _ (by simp [start])) (by decide),
    rdFeed, feed, rdByte_waitChecksum_last conf _ _ (by simp [start])
      (by simpa [start] using value.symm)]
  dsimp only
  split
  · exact ⟨_, _, rfl, .inl rfl, rfl, rfl⟩
  · exact ⟨_, _, rfl, .inr rfl, rfl, rfl⟩

theorem rdFeed_expected {payload : List UInt8} (expected : seqno = r.store.nextSeqno)
    (some_ : payload ≠ []) (bounded : payload.length ≤ DM_MAX_DATA_LEN) :
    ∃ (state : RdState) (after : DMReadCurrState),
      rdFeed conf (makeDmframe ctrl1 ctrl2 seqno payload) (.waitSoh, r) =
        ((state, after), []) ∧ (state = .exit ∨ state = .waitSoh) ∧
      after.store = accepted payload r.store ∧ after.sent = r.sent ++ ackBytes := by
  rw [makeDmframe_eq]
  rcases @rdFeed_header conf r ctrl1 ctrl2 _ _
    (payload ++ littleEndian 4 (getDmchecksum payload).toNat) expected bounded with
    ⟨header, fed, empty, start, len, store, sent⟩
  have size : header.payload.length + payload.length = header.currPayloadLen := by
    rw [empty, len, length_nil, Nat.zero_add]
  rcases @rdFeed_payload conf header _ some_ (littleEndian 4 (getDmchecksum payload).toNat) size
    with ⟨b, collected⟩
  rw [fed, collected, empty, nil_append]
  rcases @rdFeed_checksum conf { header with byteRcv := b, payload := payload } start with
    ⟨state, after, checked, ends, kept, answered⟩
  refine ⟨state, after, checked, ends, ?_, ?_⟩
  · rw [kept]
    exact congrArg (accepted payload) store
  · rw [answered]
    exact congrArg (· ++ ackBytes) sent

theorem rdFeed_endless (bytes : List UInt8) (r : DMReadCurrState) (len : r.currPayloadLen = 0) :
    ∃ after : DMReadCurrState,
      rdFeed conf bytes (.waitPayload, r) = ((.waitPayload, after), []) ∧
        after.payload = r.payload ++ bytes ∧ after.store = r.store ∧ after.sent = r.sent := by
  induction bytes generalizing r with
  | nil => exact ⟨r, rfl, (append_nil _).symm, rfl, rfl⟩
  | cons b bytes ih =>
    have more : r.payload.length + 1 ≠ r.currPayloadLen := by
      rw [len]
      exact Nat.succ_ne_zero _
    rw [rdFeed_cons (rdByte_waitPayload_more conf b r more) nofun]
    rcases ih { r with byteRcv := b, payload := r.payload ++ [b] } len with
      ⟨after, fed, payload, kept⟩
    exact ⟨after, fed, payload.trans (append_assoc r.payload [b] bytes), kept⟩

theorem rdFeed_empty (expected : seqno = r.store.nextSeqno) : ∃ after : DMReadCurrState,
      rdFeed conf (makeDmframe ctrl1 ctrl2 seqno []) (.waitSoh, r) =
        ((.waitPayload, after), []) ∧ after.store = r.store ∧ after.sent = r.sent := by
  rw [makeDmframe_eq]
  rcases @rdFeed_header conf r ctrl1 ctrl2 _ 0
    (littleEndian 4 (getDmchecksum []).toNat) expected (Nat.zero_le _) with
    ⟨header, fed, _, _, len, store, sent⟩
  rcases @rdFeed_endless conf (littleEndian 4 (getDmchecksum []).toNat) header len with
    ⟨after, taken, _, kept, quiet⟩
  rw [nil_append, length_nil, fed, taken]
  exact ⟨after, rfl, kept.trans store, quiet.trans sent⟩

theorem rdFeed_discard (bytes : List UInt8) (r : DMReadCurrState) :
    ∃ b : UInt8, rdFeed conf bytes (.discardRetrans, r) =
      ((.discardRetrans, { r with byteRcv := b }), []) := by
  induction bytes generalizing r with
  | nil => exact ⟨r.byteRcv, rfl⟩
  | cons b bytes ih => exact ih { r with byteRcv := b }

/-- The frame before is discarded; its acknowledgement follows when no more bytes come. -/
theorem rdFeed_repeated {payload : List UInt8} (unwrapped : r.store.nextSeqno ≠ 0)
    (before : seqno = r.store.nextSeqno - 1) : ∃ after : DMReadCurrState,
      rdFeed conf (makeDmframe ctrl1 ctrl2 seqno payload) (.waitSoh, r) =
        ((.discardRetrans, after), []) ∧ after.store = r.store ∧ after.sent = r.sent := by
  rw [makeDmframe_eq, rdFeed_cons (rdByte_waitSoh conf r) nofun,
    rdFeed_cons (rdByte_waitCtrl0 conf ctrl1 _) nofun,
    rdFeed_cons (rdByte_waitCtrl1 conf ctrl2 _) nofun]
  dsimp only
  rw [rdFeed_cons (rdByte_waitSeq_repeated conf seqno _ (by exact unwrapped) (by exact before))
    nofun]
  rcases @rdFeed_discard conf _ _ with ⟨b, discarded⟩
  exact ⟨_, discarded, rfl, rfl⟩

end

/-! ## Bytes that are not answered -/

/-- Nothing has been stored, and nothing sent. -/
structure Neutral (before after : DMReadCurrState) : Prop where
  store : after.store = before.store
  sent : after.sent = before.sent

section

variable (conf : DModemConfig) (r : DMReadCurrState)

variable {state : RdState}

theorem ctrlRetrans_neutral (fuel : Nat) {event : RdEvent}
    (found : dmGetTransition (rdTransitions conf) state event =
      some ⟨state, event, .ctrlRetrans, rdPrepareRetrans conf⟩) :
    ∃ (next : RdState) (after : DMReadCurrState),
      protoEngine (rdTransitions conf) .exit (fuel + 2) event (state, r) = (next, after) ∧
        (next = .discardBytes ∨ next = .exit) ∧ Neutral r after := by
  by_cases more : (r.retransNo + 1 : Int) < conf.maxRetries
  · have again : (rdPrepareRetrans conf r).1 = some .moreRetrans := if_pos more
    rw [protoEngine_event (fuel + 1) found RdState.noConfusion again]
    exact ⟨_, _, rfl, .inl rfl, rfl, rfl⟩
  · have ends : (rdPrepareRetrans conf r).1 = some .noMoreRetrans := if_neg more
    rw [protoEngine_event (fuel + 1) found RdState.noConfusion ends]
    exact ⟨_, _, rfl, .inr rfl, rfl, rfl⟩

/-- When no more bytes come, a repeated frame is acknowledged, a bad one refused, and
everything else given up. -/
theorem rdEngine_rxByteTo (state : RdState) :
    (state = .discardRetrans ∧ rdEngine conf .rxByteTo (state, r) = (.waitSoh, sendAck r)) ∨
      (state = .discardBytes ∧ rdEngine conf .rxByteTo (state, r) = (.waitSoh, sendNack r)) ∨
      ∃ (next : RdState) (after : DMReadCurrState),
        rdEngine conf .rxByteTo (state, r) = (next, after) ∧ next ≠ .discardRetrans ∧
          Neutral r after := by
  have given : ∀ state, dmGetTransition (rdTransitions conf) state .rxByteTo =
      some ⟨state, .rxByteTo, .ctrlRetrans, rdPrepareRetrans conf⟩ →
      ∃ (next : RdState) (after : DMReadCurrState),
        rdEngine conf .rxByteTo (state, r) = (next, after) ∧ next ≠ .discardRetrans ∧
          Neutral r after := by
    intro state found
    rcases ctrlRetrans_neutral conf r 2 found with ⟨next, after, run, ends, neutral⟩
    refine ⟨next, after, run, ?_, neutral⟩
    rcases ends with rfl | rfl
    · exact nofun
    · exact nofun
  cases state with
  | discardRetrans => exact .inl ⟨rfl, rfl⟩
  | discardBytes => exact .inr (.inl ⟨rfl, rfl⟩)
  | waitCtrl0 | waitCtrl1 | waitSeq | waitSeqComp | waitLen0 | waitLen1 | waitLen0Comp
  | waitLen1Comp | waitPayload | waitChecksum => exact .inr (.inr (given _ rfl))
  | exit | waitSoh | ctrlRetrans | synRcv | synCompRcv | eotRcv | eotCompRcv =>
    exact .inr (.inr ⟨_, _, rfl, nofun, rfl, rfl⟩)

theorem rdByte_badFrame {next : RdState} {h : RdHandler} (b : UInt8)
    (found : dmGetTransition (rdTransitions conf) state .rcvByte = some ⟨state, .rcvByte, next, h⟩)
    (running : next ≠ .exit)
    (given : dmGetTransition (rdTransitions conf) next .badFrame =
      some ⟨next, .badFrame, .ctrlRetrans, rdPrepareRetrans conf⟩)
    (bad : (h { r with byteRcv := b }).1 = some .badFrame)
    (neutral : Neutral r (h { r with byteRcv := b }).2) :
    Neutral r (rdByte conf b (state, r)).2 := by
  rw [rdByte_event conf b r next h found running bad]
  rcases ctrlRetrans_neutral conf (h { r with byteRcv := b }).2 1 given with
    ⟨next, after, run, _, kept⟩
  rw [run]
  exact ⟨kept.store.trans neutral.store, kept.sent.trans neutral.sent⟩

/-- What a byte makes the reader store it acknowledges: without an answer nothing is
stored. -/
theorem rdByte_neutral (b : UInt8) (state : RdState) :
    Neutral r (rdByte conf b (state, r)).2 ∨
      ∃ answer : List UInt8, answer ≠ [] ∧
        (rdByte conf b (state, r)).2.sent = r.sent ++ answer := by
  cases state with
  | exit | waitCtrl0 | waitCtrl1 | waitLen0 | waitLen0Comp | ctrlRetrans | discardBytes
  | discardRetrans | synRcv | synCompRcv => exact .inl ⟨rfl, rfl⟩
  | eotCompRcv => exact .inr ⟨ackBytes, cons_ne_nil _ _, rfl⟩
  | waitSoh =>
    by_cases syn : b = DM_SYN
    · exact .inl ⟨by rw [syn]; rfl, by rw [syn]; rfl⟩
    · by_cases eot : b = DM_EOT
      · exact .inl ⟨by rw [eot]; rfl, by rw [eot]; rfl⟩
      · by_cases soh : b = DM_SOH
        · exact .inl ⟨by rw [soh]; rfl, by rw [soh]; rfl⟩
        · have skipped : (rdSoh { r with byteRcv := b }).1 = some .notSoh := by
            simp [rdSoh, syn, eot, soh]
          rw [rdByte_event conf b r .waitCtrl0 rdSoh rfl nofun skipped]
          exact .inl ⟨rfl, rfl⟩
  | waitSeq =>
    by_cases repeated : r.store.nextSeqno ≠ 0 ∧ b = r.store.nextSeqno - 1
    · rw [rdByte_waitSeq_repeated conf b r repeated.1 repeated.2]
      exact .inl ⟨rfl, rfl⟩
    · by_cases expected : b = r.store.nextSeqno
      · rw [rdByte_waitSeq_expected conf b r expected]
        exact .inl ⟨rfl, rfl⟩
      · have bad : (rdSeqno { r with byteRcv := b }).1 = some .badFrame :=
          (if_neg repeated).trans (if_pos expected)
        exact .inl (rdByte_badFrame conf r b rfl nofun rfl bad ⟨rfl, rfl⟩)
  | waitSeqComp =>
    by_cases bad : r.currSeqno.toNat + b.toNat ≠ 0xFF
    · exact .inl (rdByte_badFrame conf r b (h := rdSeqnocomp) rfl nofun rfl
        (if_pos bad) ⟨rfl, rfl⟩)
    · rw [rdByte_quiet conf b r (h := rdSeqnocomp) rfl RdState.noConfusion (if_neg bad)]
      exact .inl ⟨rfl, rfl⟩
  | waitLen1 =>
    by_cases bad : r.currPayloadLen + 256 * b.toNat > DM_MAX_DATA_LEN
    · exact .inl (rdByte_badFrame conf r b (h := rdLen1) rfl nofun rfl
        (if_pos bad) ⟨rfl, rfl⟩)
    · rw [rdByte_waitLen1 conf b r (Nat.not_lt.1 bad)]
      exact .inl ⟨rfl, rfl⟩
  | waitLen1Comp =>
    by_cases good : r.currPayloadLen = 65535 - (r.currPayloadLenComp + 256 * b.toNat)
    · rw [rdByte_waitLen1Comp conf b r good]
      exact .inl ⟨rfl, rfl⟩
    · exact .inl (rdByte_badFrame conf r b (h := rdLen1comp) rfl nofun rfl
        (if_pos good) ⟨rfl, rfl⟩)
  | waitPayload =>
    by_cases last : r.payload.length + 1 = r.currPayloadLen
    · rw [rdByte_waitPayload_last conf b r last]
      exact .inl ⟨rfl, rfl⟩
    · rw [rdByte_waitPayload_more conf b r last]
      exact .inl ⟨rfl, rfl⟩
  | waitChecksum =>
    by_cases last : r.checksum.length + 1 = 4
    · by_cases good : (getDmchecksum r.payload).toNat = ofLittleEndian (r.checksum ++ [b])
      · rw [rdByte_waitChecksum_last conf b r last good]
        exact .inr ⟨ackBytes, cons_ne_nil _ _, rfl⟩
      · have bad : rdRcvChecksumByte conf { r with byteRcv := b } =
            (some .badFrame, { r with byteRcv := b, checksum := r.checksum ++ [b] }) := by
          refine (if_pos ?_).trans (if_pos good)
          rw [length_append]
          exact last
        refine .inl (rdByte_badFrame conf r b (h := rdRcvChecksumByte conf) rfl
          RdState.noConfusion rfl (congrArg Prod.fst bad) ?_)
        rw [bad]
        exact ⟨rfl, rfl⟩
    · rw [rdByte_waitChecksum_more conf b r last]
      exact .inl ⟨rfl, rfl⟩
  | eotRcv =>
    by_cases comp : b = DM_EOTCOMP
    · exact .inr ⟨ackBytes, cons_ne_nil _ _, by rw [comp]; rfl⟩
    · have skipped : (rdEotCompRcv { r with byteRcv := b }).1 = some .rxByteTo := if_neg comp
      rw [rdByte_event conf b r .eotCompRcv rdEotCompRcv rfl nofun skipped]
      exact .inl ⟨rfl, rfl⟩

theorem rdFeed_neutral (bytes : List UInt8) (state : RdState) :
    ∃ answer : List UInt8, (rdFeed conf bytes (state, r)).1.2.sent = r.sent ++ answer ∧
      (answer = [] → (rdFeed conf bytes (state, r)).1.2.store = r.store) := by
  induction bytes generalizing state r with
  | nil => exact ⟨[], (append_nil _).symm, fun _ => rfl⟩
  | cons b rest ih =>
    have split : rdFeed conf (b :: rest) (state, r) =
        if (rdByte conf b (state, r)).1 = .exit then (rdByte conf b (state, r), rest)
        else rdFeed conf rest (rdByte conf b (state, r)) := rfl
    rcases ih (rdByte conf b (state, r)).2 (rdByte conf b (state, r)).1 with ⟨later, sent, quiet⟩
    rw [split]
    rcases rdByte_neutral conf r b state with neutral | ⟨answer, some_, sentNow⟩
    · by_cases ends : (rdByte conf b (state, r)).1 = .exit
      · rw [if_pos ends]
        exact ⟨[], neutral.sent.trans (append_nil _).symm, fun _ => neutral.store⟩
      · rw [if_neg ends]
        exact ⟨later, sent.trans (congrArg (· ++ later) neutral.sent),
          fun none => (quiet none).trans neutral.store⟩
    · by_cases ends : (rdByte conf b (state, r)).1 = .exit
      · rw [if_pos ends]
        exact ⟨answer, sentNow, fun none => absurd none some_⟩
      · rw [if_neg ends]
        refine ⟨answer ++ later, ?_, fun none => absurd (append_eq_nil_iff.1 none).1 some_⟩
        rw [← append_assoc, ← sentNow]
        exact sent

theorem rdEngine_rxUplayerTo (running : state ≠ .exit) :
    rdEngine conf .rxUplayerTo (state, r) = (.exit, { r with globalError := .rxUplayerTo }) := by
  cases state with
  | exit => exact absurd rfl running
  | _ => rfl

end

end CimArm.Dmodem
