import CimArm.Lib.Trace
import CimArm.Telesup.DmodemRead

/-!
# dmodem: where a read stores

The data of a frame are stored from the start of the frame buffer on, its checksum in four
bytes, and what a read has received is copied to its caller.

A frame of length 0 takes every byte that follows for data, until none comes for a while.  A
read that waits copies as much as it has received, which is whole frames, whatever it was asked
for.

* `rdByte_effect`: what a byte stores.
* `inBounds_iff_fits`: a run stores inside the buffers just in case the bytes behind a frame of
  length 0 fit into the frame buffer, and no frame that completes a read has more data than the
  read still wants.
* `emptyFrame_overruns`: a frame of length 0 with enough bytes behind it leaves the frame buffer.
-/

namespace CimArm.Dmodem

open Bytes List

def DM_MAX_FRAME_LEN : Nat := 525

/-! ## The reader alone -/

/-- A `dmodem_read` that has returned: how much it was asked for, and what it has copied. -/
structure ReadCall : Type where
  size : Nat
  copied : List UInt8
  deriving DecidableEq

structure Reader : Type where
  rdState : RdState
  rd : DMReadCurrState
  calls : List ReadCall

inductive ReadOp : Type
  | read (size : Nat)
  | byte (b : UInt8)
  | rxByteTimeout
  | rxUplayerTimeout

namespace Reader

/-- `rd_read_data` at the end of a call. -/
def copy (size length : Nat) (s : Reader) : Reader :=
  { s with
    rd := { s.rd with store := (rdReadData length s.rd.store).2 }
    calls := s.calls ++ [⟨size, (rdReadData length s.rd.store).1⟩] }

/-- `dmodem_read`: copy what is there if it is enough, or begin to receive. -/
def dmodemRead (conf : DModemConfig) (size : Nat) (s : Reader) : Reader :=
  if HasData conf size s.rd then
    copy size size { s with rd := { s.rd with globalError := .noError } }
  else { s with rdState := .waitSoh, rd := rdInit size s.rd }

/-- The engine has handled an event; when it has ended, the call copies what it has received. -/
def handled (s : Reader) (after : RdState × DMReadCurrState) : Reader :=
  let s := { s with rdState := after.1, rd := after.2 }
  if s.rdState = .exit then s.copy s.rd.store.sizeToRead s.rd.store.sizeReaded else s

def step (conf : DModemConfig) (op : ReadOp) (s : Reader) : Reader :=
  match op with
  | .read size => if s.rdState = .exit then s.dmodemRead conf size else s
  | .byte b => if s.rdState = .exit then s else s.handled (rdByte conf b (s.rdState, s.rd))
  | .rxByteTimeout =>
    if s.rdState = .exit then s else s.handled (rdEngine conf .rxByteTo (s.rdState, s.rd))
  | .rxUplayerTimeout =>
    if s.rdState = .exit then s else s.handled (rdEngine conf .rxUplayerTo (s.rdState, s.rd))

/-- After `dmodem_open`, whatever the buffer holds. -/
def opened (databuf : Nat → UInt8) : Reader where
  rdState := .exit
  rd := .opened databuf
  calls := []

/-- Every byte has been stored inside its buffer. -/
structure InBounds (s : Reader) : Prop where
  payload : s.rd.payload.length ≤ DM_MAX_FRAME_LEN
  checksum : s.rd.checksum.length ≤ 4
  copied : ∀ call ∈ s.calls, call.copied.length ≤ call.size

end Reader

/-! ## What a byte stores -/

/-- The byte is the last one of a frame that is accepted. -/
def Completes (state : RdState) (r : DMReadCurrState) (b : UInt8) : Prop :=
  state = .waitChecksum ∧ r.checksum.length + 1 = 4 ∧
    (getDmchecksum r.payload).toNat = ofLittleEndian (r.checksum ++ [b])

instance (state : RdState) (r : DMReadCurrState) (b : UInt8) : Decidable (Completes state r b) :=
  inferInstanceAs (Decidable (_ ∧ _))

/-- What a state says of the bytes stored so far; the retries are counted from the start of the
frame on. -/
def Held : RdState → DMReadCurrState → Prop
  | .waitCtrl0, r | .waitCtrl1, r | .waitSeq, r | .waitSeqComp, r | .waitLen0, r | .waitLen1, r =>
    r.retransNo = 0 ∧ r.payload = [] ∧ r.checksum = []
  | .waitLen0Comp, r | .waitLen1Comp, r =>
    r.retransNo = 0 ∧ r.payload = [] ∧ r.checksum = [] ∧ r.currPayloadLen ≤ DM_MAX_DATA_LEN
  | .waitPayload, r =>
    r.retransNo = 0 ∧ r.checksum = [] ∧ r.currPayloadLen ≤ DM_MAX_DATA_LEN ∧
      (r.currPayloadLen = 0 ∨ r.payload.length < r.currPayloadLen)
  | .waitChecksum, r =>
    r.retransNo = 0 ∧ r.payload.length ≤ DM_MAX_DATA_LEN ∧ r.checksum.length < 4
  | .exit, _ | .waitSoh, _ | .ctrlRetrans, _ | .discardBytes, _ | .discardRetrans, _ | .synRcv, _
  | .synCompRcv, _ | .eotRcv, _ | .eotCompRcv, _ => True

/-- The byte shows that the frame is bad: its number or a complement is wrong, it is too long, or
its checksum does not match. -/
def BadByte : RdState → DMReadCurrState → UInt8 → Prop
  | .waitSeq, r, b =>
    ¬(r.store.nextSeqno ≠ 0 ∧ b = r.store.nextSeqno - 1) ∧ b ≠ r.store.nextSeqno
  | .waitSeqComp, r, b => r.currSeqno.toNat + b.toNat ≠ 0xFF
  | .waitLen1, r, b => r.currPayloadLen + 256 * b.toNat > DM_MAX_DATA_LEN
  | .waitLen1Comp, r, b => r.currPayloadLen ≠ 65535 - (r.currPayloadLenComp + 256 * b.toNat)
  | .waitChecksum, r, b =>
    r.checksum.length + 1 = 4 ∧
      (getDmchecksum r.payload).toNat ≠ ofLittleEndian (r.checksum ++ [b])
  | .exit, _, _ | .waitSoh, _, _ | .waitCtrl0, _, _ | .waitCtrl1, _, _ | .waitLen0, _, _
  | .waitLen0Comp, _, _ | .waitPayload, _, _ | .ctrlRetrans, _, _ | .discardBytes, _, _
  | .discardRetrans, _, _ | .synRcv, _, _ | .synCompRcv, _, _ | .eotRcv, _, _
  | .eotCompRcv, _, _ => False

instance decidableBadByte :
    (state : RdState) → (r : DMReadCurrState) → (b : UInt8) → Decidable (BadByte state r b)
  | .waitSeq, _, _ => inferInstanceAs (Decidable (¬(_ ∧ _) ∧ _))
  | .waitSeqComp, _, _ => inferInstanceAs (Decidable (_ ≠ _))
  | .waitLen1, _, _ => inferInstanceAs (Decidable (_ > _))
  | .waitLen1Comp, _, _ => inferInstanceAs (Decidable (_ ≠ _))
  | .waitChecksum, _, _ => inferInstanceAs (Decidable (_ ∧ _))
  | .exit, _, _ | .waitSoh, _, _ | .waitCtrl0, _, _ | .waitCtrl1, _, _ | .waitLen0, _, _
  | .waitLen0Comp, _, _ | .waitPayload, _, _ | .ctrlRetrans, _, _ | .discardBytes, _, _
  | .discardRetrans, _, _ | .synRcv, _, _ | .synCompRcv, _, _ | .eotRcv, _, _
  | .eotCompRcv, _, _ => .isFalse id

/-- The reader is within a frame; without a byte the frame has broken off. -/
def MidFrame : RdState → Prop
  | .waitCtrl0 | .waitCtrl1 | .waitSeq | .waitSeqComp | .waitLen0 | .waitLen1 | .waitLen0Comp
  | .waitLen1Comp | .waitPayload | .waitChecksum => True
  | .exit | .waitSoh | .ctrlRetrans | .discardBytes | .discardRetrans | .synRcv | .synCompRcv
  | .eotRcv | .eotCompRcv => False

instance decidableMidFrame : (state : RdState) → Decidable (MidFrame state)
  | .waitCtrl0 | .waitCtrl1 | .waitSeq | .waitSeqComp | .waitLen0 | .waitLen1 | .waitLen0Comp
  | .waitLen1Comp | .waitPayload | .waitChecksum => .isTrue trivial
  | .exit | .waitSoh | .ctrlRetrans | .discardBytes | .discardRetrans | .synRcv | .synCompRcv
  | .eotRcv | .eotCompRcv => .isFalse id

theorem Held.fresh {state : RdState} {r : DMReadCurrState} (held : Held state r)
    (mid : MidFrame state) : r.retransNo = 0 := by
  cases state with
  | waitCtrl0 | waitCtrl1 | waitSeq | waitSeqComp | waitLen0 | waitLen1 | waitLen0Comp
  | waitLen1Comp | waitPayload | waitChecksum => exact held.1
  | exit | waitSoh | ctrlRetrans | discardBytes | discardRetrans | synRcv | synCompRcv | eotRcv
  | eotCompRcv => exact mid.elim

/-- A bad frame: its bytes are discarded, or the retries are used up. -/
def badFrame (conf : DModemConfig) (r : DMReadCurrState) : RdState × DMReadCurrState :=
  if (r.retransNo + 1 : Int) < conf.maxRetries then
    (.discardBytes, { r with retransNo := r.retransNo + 1 })
  else (.exit, { r with retransNo := r.retransNo + 1, globalError := .maxRetries })

/-- What a byte stores, and where the reader is then. -/
structure Effect (conf : DModemConfig) (b : UInt8) (state : RdState) (r : DMReadCurrState)
    (after : RdState × DMReadCurrState) : Prop where
  payload : after.2.payload =
    if state = .waitPayload then r.payload ++ [b] else if state = .waitSoh then [] else r.payload
  checksum : after.2.checksum =
    if state = .waitChecksum then r.checksum ++ [b] else if state = .waitSoh then []
    else r.checksum
  store : after.2.store = if Completes state r b then accepted r.payload r.store else r.store
  ends : Completes state r b → after.1 = if lastFrame conf r then .exit else .waitSoh
  held : Held after.1 after.2
  bad : BadByte state r b → ∃ r', after = badFrame conf r' ∧ r'.retransNo = r.retransNo

section

variable {conf : DModemConfig} {b : UInt8} {r : DMReadCurrState}

theorem protoEngine_badFrame (fuel : Nat) {state : RdState} {event : RdEvent}
    (found : dmGetTransition (rdTransitions conf) state event =
      some ⟨state, event, .ctrlRetrans, rdPrepareRetrans conf⟩) :
    protoEngine (rdTransitions conf) .exit (fuel + 2) event (state, r) = badFrame conf r := by
  unfold badFrame
  split
  · rename_i more
    have again : (rdPrepareRetrans conf r).1 = some .moreRetrans := if_pos more
    rw [protoEngine_event (fuel + 1) found RdState.noConfusion again]
    rfl
  · rename_i more
    have ends : (rdPrepareRetrans conf r).1 = some .noMoreRetrans := if_neg more
    rw [protoEngine_event (fuel + 1) found RdState.noConfusion ends]
    rfl

theorem rdByte_bad {state next : RdState} (h : RdHandler)
    (found : dmGetTransition (rdTransitions conf) state .rcvByte =
      some ⟨state, .rcvByte, next, h⟩) (running : next ≠ .exit)
    (given : dmGetTransition (rdTransitions conf) next .badFrame =
      some ⟨next, .badFrame, .ctrlRetrans, rdPrepareRetrans conf⟩)
    (bad : (h { r with byteRcv := b }).1 = some .badFrame) :
    rdByte conf b (state, r) = badFrame conf (h { r with byteRcv := b }).2 := by
  rw [rdByte_event conf b r next h found running bad]
  exact protoEngine_badFrame 1 given

/-- When no byte comes nothing is stored. -/
structure Paused (r : DMReadCurrState) (after : RdState × DMReadCurrState) : Prop where
  payload : after.2.payload = r.payload
  checksum : after.2.checksum = r.checksum
  store : after.2.store = r.store
  held : Held after.1 after.2

theorem badFrame_paused (conf : DModemConfig) (r : DMReadCurrState) :
    Paused r (badFrame conf r) := by
  unfold badFrame
  split
  · exact ⟨rfl, rfl, rfl, trivial⟩
  · exact ⟨rfl, rfl, rfl, trivial⟩

namespace Effect

variable {state : RdState} {after : RdState × DMReadCurrState}

theorem header (plain : state ≠ .waitSoh ∧ state ≠ .waitPayload ∧ state ≠ .waitChecksum)
    (bad : BadByte state r b → ∃ r', after = badFrame conf r' ∧ r'.retransNo = r.retransNo)
    (paused : Paused r after) : Effect conf b state r after where
  payload := by rw [if_neg plain.2.1, if_neg plain.1, paused.payload]
  checksum := by rw [if_neg plain.2.2, if_neg plain.1, paused.checksum]
  store := by
    rw [if_neg (fun completes : Completes state r b => plain.2.2 completes.1), paused.store]
  ends completes := absurd completes.1 plain.2.2
  held := paused.held
  bad := bad

theorem badHeader {next : RdState} (h : RdHandler)
    (plain : state ≠ .waitSoh ∧ state ≠ .waitPayload ∧ state ≠ .waitChecksum)
    (found : dmGetTransition (rdTransitions conf) state .rcvByte =
      some ⟨state, .rcvByte, next, h⟩) (running : next ≠ .exit)
    (given : dmGetTransition (rdTransitions conf) next .badFrame =
      some ⟨next, .badFrame, .ctrlRetrans, rdPrepareRetrans conf⟩)
    (bad : (h { r with byteRcv := b }).1 = some .badFrame)
    (payload : (h { r with byteRcv := b }).2.payload = r.payload)
    (checksum : (h { r with byteRcv := b }).2.checksum = r.checksum)
    (store : (h { r with byteRcv := b }).2.store = r.store)
    (retransNo : (h { r with byteRcv := b }).2.retransNo = r.retransNo) :
    Effect conf b state r (rdByte conf b (state, r)) := by
  rw [rdByte_bad h found running given bad]
  have paused := badFrame_paused conf (h { r with byteRcv := b }).2
  exact .header plain (fun _ => ⟨_, rfl, retransNo⟩) ⟨paused.payload.trans payload,
    paused.checksum.trans checksum, paused.store.trans store, paused.held⟩

theorem soh (payload : after.2.payload = []) (checksum : after.2.checksum = [])
    (store : after.2.store = r.store) (held : Held after.1 after.2) :
    Effect conf b .waitSoh r after where
  payload := payload
  checksum := checksum
  store := by
    rw [if_neg (fun completes : Completes .waitSoh r b => RdState.noConfusion completes.1), store]
  ends completes := RdState.noConfusion completes.1
  held := held
  bad now := now.elim

theorem data (payload : after.2.payload = r.payload ++ [b])
    (checksum : after.2.checksum = r.checksum) (store : after.2.store = r.store)
    (held : Held after.1 after.2) : Effect conf b .waitPayload r after where
  payload := payload
  checksum := checksum
  store := by
    rw [if_neg (fun completes : Completes .waitPayload r b => RdState.noConfusion completes.1),
      store]
  ends completes := RdState.noConfusion completes.1
  held := held
  bad now := now.elim

theorem check (incomplete : ¬Completes .waitChecksum r b) (payload : after.2.payload = r.payload)
    (checksum : after.2.checksum = r.checksum ++ [b]) (store : after.2.store = r.store)
    (held : Held after.1 after.2)
    (bad : BadByte .waitChecksum r b →
      ∃ r', after = badFrame conf r' ∧ r'.retransNo = r.retransNo) :
    Effect conf b .waitChecksum r after where
  payload := payload
  checksum := checksum
  store := by rw [if_neg incomplete, store]
  ends completes := absurd completes incomplete
  held := held
  bad := bad

end Effect

theorem rdByte_effect (conf : DModemConfig) (b : UInt8) {state : RdState} {r : DMReadCurrState}
    (held : Held state r) : Effect conf b state r (rdByte conf b (state, r)) := by
  cases state with
  | exit | ctrlRetrans | discardBytes | discardRetrans | synRcv | synCompRcv | eotCompRcv =>
    exact .header (by decide) False.elim ⟨rfl, rfl, rfl, trivial⟩
  | waitCtrl0 | waitCtrl1 =>
    exact .header (by decide) False.elim ⟨rfl, rfl, rfl, held⟩
  | waitLen0 =>
    exact .header (by decide) False.elim ⟨rfl, rfl, rfl, held⟩
  | waitLen0Comp =>
    exact .header (by decide) False.elim ⟨rfl, rfl, rfl, held⟩
  | waitSoh =>
    by_cases syn : b = DM_SYN
    · subst syn
      exact .soh rfl rfl rfl trivial
    · by_cases eot : b = DM_EOT
      · subst eot
        exact .soh rfl rfl rfl trivial
      · by_cases soh : b = DM_SOH
        · subst soh
          exact .soh rfl rfl rfl ⟨rfl, rfl, rfl⟩
        · have skipped : (rdSoh { r with byteRcv := b }).1 = some .notSoh := by
            simp [rdSoh, syn, eot, soh]
          rw [rdByte_event conf b r .waitCtrl0 rdSoh rfl (by decide) skipped]
          exact .soh rfl rfl rfl trivial
  | waitSeq =>
    by_cases repeated : r.store.nextSeqno ≠ 0 ∧ b = r.store.nextSeqno - 1
    · rw [rdByte_waitSeq_repeated conf b r repeated.1 repeated.2]
      exact .header (by decide)
        (fun bad => absurd repeated bad.1) ⟨rfl, rfl, rfl, trivial⟩
    · by_cases expected : b = r.store.nextSeqno
      · rw [rdByte_waitSeq_expected conf b r expected]
        exact .header (by decide)
          (fun bad => absurd expected bad.2) ⟨rfl, rfl, rfl, held⟩
      · have bad : (rdSeqno { r with byteRcv := b }).1 = some .badFrame :=
          (if_neg repeated).trans (if_pos expected)
        exact .badHeader rdSeqno (by decide) rfl RdState.noConfusion rfl bad rfl rfl rfl rfl
  | waitSeqComp =>
    by_cases bad : r.currSeqno.toNat + b.toNat ≠ 0xFF
    · exact .badHeader rdSeqnocomp (by decide) rfl RdState.noConfusion rfl (if_pos bad) rfl rfl rfl rfl
    · rw [rdByte_quiet conf b r (h := rdSeqnocomp) rfl RdState.noConfusion (if_neg bad)]
      exact .header (by decide) (absurd · bad) ⟨rfl, rfl, rfl, held⟩
  | waitLen1 =>
    by_cases bad : r.currPayloadLen + 256 * b.toNat > DM_MAX_DATA_LEN
    · exact .badHeader rdLen1 (by decide) rfl RdState.noConfusion rfl (if_pos bad) rfl rfl rfl rfl
    · rw [rdByte_waitLen1 conf b r (Nat.not_lt.1 bad)]
      exact .header (by decide) (absurd · bad)
        ⟨rfl, rfl, rfl, held.1, held.2.1, held.2.2, Nat.not_lt.1 bad⟩
  | waitLen1Comp =>
    by_cases good : r.currPayloadLen = 65535 - (r.currPayloadLenComp + 256 * b.toNat)
    · rcases held with ⟨fresh, empty, start, bounded⟩
      rw [rdByte_waitLen1Comp conf b r good]
      refine .header (by decide)
        (absurd good ·) ⟨rfl, rfl, rfl, fresh, start, bounded, ?_⟩
      dsimp only
      rw [empty]
      exact Nat.eq_zero_or_pos _
    · exact .badHeader rdLen1comp (by decide) rfl RdState.noConfusion rfl (if_pos good) rfl rfl rfl rfl
  | waitPayload =>
    rcases held with ⟨fresh, start, bounded, short⟩
    by_cases last : r.payload.length + 1 = r.currPayloadLen
    · rw [rdByte_waitPayload_last conf b r last]
      refine .data rfl rfl rfl ⟨fresh, ?_, ?_⟩
      · dsimp only
        rw [length_append, length_singleton, last]
        exact bounded
      · dsimp only
        rw [start]
        decide
    · rw [rdByte_waitPayload_more conf b r last]
      refine .data rfl rfl rfl ⟨fresh, start, bounded, ?_⟩
      dsimp only
      rw [length_append, length_singleton]
      omega
  | waitChecksum =>
    rcases held with ⟨fresh, bounded, short⟩
    by_cases last : r.checksum.length + 1 = 4
    · by_cases good : (getDmchecksum r.payload).toNat = ofLittleEndian (r.checksum ++ [b])
      · rw [rdByte_waitChecksum_last conf b r last good]
        have completes : Completes .waitChecksum r b := ⟨rfl, last, good⟩
        refine ⟨rfl, rfl, (if_pos completes).symm, fun _ => rfl, ?_, fun bad => ?_⟩
        · dsimp only
          split
          · trivial
          · trivial
        · exact absurd good bad.2
      · have bad : rdRcvChecksumByte conf { r with byteRcv := b } =
            (some .badFrame, { r with byteRcv := b, checksum := r.checksum ++ [b] }) := by
          refine (if_pos ?_).trans (if_pos good)
          rw [length_append]
          exact last
        rw [rdByte_bad (rdRcvChecksumByte conf) rfl RdState.noConfusion rfl
          (congrArg Prod.fst bad), bad]
        have paused := badFrame_paused conf { r with byteRcv := b, checksum := r.checksum ++ [b] }
        exact .check (fun completes => good completes.2.2) paused.payload paused.checksum
          paused.store paused.held fun _ => ⟨_, rfl, rfl⟩
    · rw [rdByte_waitChecksum_more conf b r last]
      refine .check (fun completes => last completes.2.1) rfl rfl rfl ⟨fresh, bounded, ?_⟩
        fun bad => absurd bad.1 last
      dsimp only
      rw [length_append, length_singleton]
      omega
  | eotRcv =>
    by_cases comp : b = DM_EOTCOMP
    · subst comp
      exact .header (by decide) False.elim ⟨rfl, rfl, rfl, trivial⟩
    · have skipped : (rdEotCompRcv { r with byteRcv := b }).1 = some .rxByteTo := if_neg comp
      rw [rdByte_event conf b r .eotCompRcv rdEotCompRcv rfl (by decide) skipped]
      exact .header (by decide) False.elim ⟨rfl, rfl, rfl, trivial⟩

theorem rxByteTo_midFrame (conf : DModemConfig) {state : RdState} (r : DMReadCurrState)
    (mid : MidFrame state) : rdEngine conf .rxByteTo (state, r) = badFrame conf r := by
  cases state with
  | waitCtrl0 | waitCtrl1 | waitSeq | waitSeqComp | waitLen0 | waitLen1 | waitLen0Comp
  | waitLen1Comp | waitPayload | waitChecksum => exact protoEngine_badFrame 2 rfl
  | exit | waitSoh | ctrlRetrans | discardBytes | discardRetrans | synRcv | synCompRcv | eotRcv
  | eotCompRcv => exact mid.elim

theorem rxByteTo_paused (conf : DModemConfig) (state : RdState) (r : DMReadCurrState) :
    Paused r (rdEngine conf .rxByteTo (state, r)) := by
  have given : MidFrame state → Paused r (rdEngine conf .rxByteTo (state, r)) := by
    intro mid
    rw [rxByteTo_midFrame conf r mid]
    exact badFrame_paused conf r
  cases state with
  | waitCtrl0 | waitCtrl1 | waitSeq | waitSeqComp | waitLen0 | waitLen1 | waitLen0Comp
  | waitLen1Comp | waitPayload | waitChecksum => exact given trivial
  | exit | waitSoh | ctrlRetrans | discardBytes | discardRetrans | synRcv | synCompRcv | eotRcv
  | eotCompRcv => exact ⟨rfl, rfl, rfl, trivial⟩

end

/-! ## The buffer -/

theorem rdWriteData_dataCount (bytes : List UInt8) {store : ReadStore}
    (count : store.dataCount ≤ DM_MAX_DATA_READ) :
    (rdWriteData bytes store).dataCount =
      min DM_MAX_DATA_READ (store.dataCount + bytes.length) := by
  induction bytes generalizing store with
  | nil => exact (Nat.min_eq_right count).symm
  | cons b rest ih =>
    rw [length_cons]
    unfold rdWriteData
    split
    · rename_i full
      rw [full]
      omega
    · have more : (store.push b).dataCount = store.dataCount + 1 := rfl
      rw [ih (by omega), more]
      omega

theorem accepted_sizeToRead (payload : List UInt8) (store : ReadStore) :
    (accepted payload store).sizeToRead = store.sizeToRead := by
  have kept : (rdWriteData payload store).sizeToRead = store.sizeToRead := by
    induction payload generalizing store with
    | nil => rfl
    | cons b rest ih =>
      unfold rdWriteData
      split
      · rfl
      · exact ih (store.push b)
  exact kept

theorem rdReadData_length (size : Nat) (store : ReadStore) :
    (rdReadData size store).1.length = min size store.dataCount := by
  induction size generalizing store with
  | zero => exact (Nat.zero_min _).symm
  | succ size ih =>
    unfold rdReadData
    split
    · rename_i none
      rw [none, Nat.min_zero]
      rfl
    · have less : store.pop.dataCount = store.dataCount - 1 := rfl
      rw [length_cons, ih, less]
      omega

theorem rdReadData_dataCount (size : Nat) (store : ReadStore) :
    (rdReadData size store).2.dataCount ≤ store.dataCount := by
  induction size generalizing store with
  | zero => exact Nat.le_refl _
  | succ size ih =>
    unfold rdReadData
    split
    · exact Nat.le_refl _
    · exact (ih store.pop).trans (Nat.sub_le _ 1)

/-! ## Runs -/

namespace Reader

/-- The byte has its place: the data of a frame of length 0 fit into the frame buffer, and the
frame that it completes has no more data than the read still wants, or than the buffer has for
it. -/
def Fits (s : Reader) : ReadOp → Prop
  | .byte b =>
    (s.rdState = .waitPayload → s.rd.currPayloadLen = 0 →
      s.rd.payload.length < DM_MAX_FRAME_LEN) ∧
    (Completes s.rdState s.rd b →
      s.rd.store.sizeReaded + s.rd.payload.length ≤ s.rd.store.sizeToRead ∨
        min DM_MAX_DATA_READ (s.rd.store.dataCount + s.rd.payload.length) ≤
          s.rd.store.sizeToRead)
  | .read _ | .rxByteTimeout | .rxUplayerTimeout => True

structure Sound (s : Reader) : Prop where
  inBounds : s.InBounds
  held : Held s.rdState s.rd
  count : s.rd.store.dataCount ≤ DM_MAX_DATA_READ
  wants : s.rdState ≠ .exit → s.rd.store.sizeReaded < s.rd.store.sizeToRead

variable {conf : DModemConfig} {s : Reader}

theorem opened_sound (databuf : Nat → UInt8) : (opened databuf).Sound where
  inBounds := ⟨Nat.zero_le _, Nat.zero_le _, fun _ none => absurd none not_mem_nil⟩
  held := trivial
  count := Nat.zero_le _
  wants running := absurd rfl running

theorem copy_inBounds_iff (inBounds : s.InBounds) (size length : Nat) :
    (s.copy size length).InBounds ↔ min length s.rd.store.dataCount ≤ size := by
  constructor
  · intro after
    have copied := after.copied ⟨size, (rdReadData length s.rd.store).1⟩
      (mem_append_right _ (mem_singleton.2 rfl))
    rwa [rdReadData_length] at copied
  · intro fits
    refine ⟨inBounds.payload, inBounds.checksum, fun call made => ?_⟩
    rcases mem_append.1 made with before | now
    · exact inBounds.copied call before
    · rw [mem_singleton.1 now, rdReadData_length]
      exact fits

theorem copy_sound (sound : s.Sound) (ended : s.rdState = .exit) {size length : Nat}
    (fits : min length s.rd.store.dataCount ≤ size) : (s.copy size length).Sound where
  inBounds := (copy_inBounds_iff sound.inBounds size length).2 fits
  held := by
    rw [show (s.copy size length).rdState = .exit from ended]
    trivial
  count := (rdReadData_dataCount length s.rd.store).trans sound.count
  wants running := absurd ended running

theorem dmodemRead_sound (sound : s.Sound) (ended : s.rdState = .exit) (size : Nat) :
    (s.dmodemRead conf size).Sound := by
  have cleared : ({ s with rd := { s.rd with globalError := .noError } } : Reader).Sound :=
    ⟨⟨sound.inBounds.payload, sound.inBounds.checksum, sound.inBounds.copied⟩,
      by rw [ended]; trivial, sound.count, fun running => absurd ended running⟩
  unfold dmodemRead
  dsimp only
  split
  · exact copy_sound cleared ended (Nat.min_le_left _ _)
  · rename_i more
    have wanted : 0 < size :=
      Nat.pos_of_ne_zero fun none => more (.inl (none ▸ Nat.zero_le s.rd.store.dataCount))
    exact ⟨⟨Nat.zero_le _, sound.inBounds.checksum, sound.inBounds.copied⟩, trivial, sound.count,
      fun _ => wanted⟩

section

variable {after : RdState × DMReadCurrState}

theorem handled_inBounds_iff (inBounds : s.InBounds) (checksum : after.2.checksum.length ≤ 4) :
    (s.handled after).InBounds ↔
      after.2.payload.length ≤ DM_MAX_FRAME_LEN ∧
        (after.1 = .exit →
          min after.2.store.sizeReaded after.2.store.dataCount ≤ after.2.store.sizeToRead) := by
  unfold handled
  dsimp only
  by_cases ended : after.1 = .exit
  · rw [if_pos ended]
    constructor
    · intro copied
      have payload : after.2.payload.length ≤ DM_MAX_FRAME_LEN := copied.payload
      refine ⟨payload, fun _ => ?_⟩
      exact (copy_inBounds_iff (s := { s with rdState := after.1, rd := after.2 })
        ⟨payload, checksum, inBounds.copied⟩ _ _).1 copied
    · rintro ⟨payload, fits⟩
      exact (copy_inBounds_iff (s := { s with rdState := after.1, rd := after.2 })
        ⟨payload, checksum, inBounds.copied⟩ _ _).2 (fits ended)
  · rw [if_neg ended]
    exact ⟨fun now => ⟨now.payload, fun exit => absurd exit ended⟩,
      fun both => ⟨both.1, checksum, inBounds.copied⟩⟩

theorem handled_sound (inBounds : (s.handled after).InBounds) (held : Held after.1 after.2)
    (count : after.2.store.dataCount ≤ DM_MAX_DATA_READ)
    (wants : after.1 ≠ .exit → after.2.store.sizeReaded < after.2.store.sizeToRead) :
    (s.handled after).Sound := by
  refine ⟨inBounds, ?_, ?_, ?_⟩
  · unfold handled
    dsimp only
    split
    · rename_i ended
      rw [show (copy after.2.store.sizeToRead after.2.store.sizeReaded
        { s with rdState := after.1, rd := after.2 }).rdState = .exit from ended]
      trivial
    · exact held
  · unfold handled
    dsimp only
    split
    · exact (rdReadData_dataCount _ after.2.store).trans count
    · exact count
  · unfold handled
    dsimp only
    split
    · rename_i ended
      exact fun running => absurd ended running
    · exact wants

theorem paused_sound (sound : s.Sound) (running : s.rdState ≠ .exit) (paused : Paused s.rd after) :
    (s.handled after).Sound := by
  have wants := sound.wants running
  rw [← paused.store] at wants
  have checksum : after.2.checksum.length ≤ 4 := by
    rw [paused.checksum]
    exact sound.inBounds.checksum
  have payload : after.2.payload.length ≤ DM_MAX_FRAME_LEN := by
    rw [paused.payload]
    exact sound.inBounds.payload
  refine handled_sound ?_ paused.held ?_ fun _ => wants
  · refine (handled_inBounds_iff sound.inBounds checksum).2 ⟨payload, fun _ => ?_⟩
    exact (Nat.min_le_left _ _).trans (Nat.le_of_lt wants)
  · rw [paused.store]
    exact sound.count

end

section

variable (conf : DModemConfig) (b : UInt8) (sound : s.Sound)

include sound

theorem rdByte_payload_iff :
    (rdByte conf b (s.rdState, s.rd)).2.payload.length ≤ DM_MAX_FRAME_LEN ↔
      (s.rdState = .waitPayload → s.rd.currPayloadLen = 0 →
        s.rd.payload.length < DM_MAX_FRAME_LEN) := by
  rw [(rdByte_effect conf b sound.held).payload]
  by_cases data : s.rdState = .waitPayload
  · have held := sound.held
    rw [data] at held
    rcases held with ⟨_, _, bounded, short⟩
    rw [if_pos data, length_append, length_singleton]
    have data_ : DM_MAX_DATA_LEN = 512 := rfl
    have frame : DM_MAX_FRAME_LEN = 525 := rfl
    constructor
    · intro stored _ _
      omega
    · intro fits
      by_cases zero : s.rd.currPayloadLen = 0
      · exact fits data zero
      · have bound := short.resolve_left zero
        omega
  · rw [if_neg data]
    refine ⟨fun _ waits => absurd waits data, fun _ => ?_⟩
    split
    · exact Nat.zero_le _
    · exact sound.inBounds.payload

theorem rdByte_checksum_le : (rdByte conf b (s.rdState, s.rd)).2.checksum.length ≤ 4 := by
  rw [(rdByte_effect conf b sound.held).checksum]
  split
  · rename_i check
    have held := sound.held
    rw [check] at held
    rw [length_append]
    exact held.2.2
  · split
    · exact Nat.zero_le _
    · exact sound.inBounds.checksum

theorem rdByte_dataCount_le :
    (rdByte conf b (s.rdState, s.rd)).2.store.dataCount ≤ DM_MAX_DATA_READ := by
  rw [(rdByte_effect conf b sound.held).store]
  split
  · refine (Nat.le_of_eq (rdWriteData_dataCount s.rd.payload sound.count)).trans ?_
    exact Nat.min_le_left _ _
  · exact sound.count

theorem rdByte_wants (running : s.rdState ≠ .exit)
    (more : (rdByte conf b (s.rdState, s.rd)).1 ≠ .exit) :
    (rdByte conf b (s.rdState, s.rd)).2.store.sizeReaded <
      (rdByte conf b (s.rdState, s.rd)).2.store.sizeToRead := by
  have effect := rdByte_effect conf b sound.held
  rw [effect.store]
  split
  · rename_i completes
    have another : ¬lastFrame conf s.rd := by
      intro last
      rw [effect.ends completes, if_pos last] at more
      exact more rfl
    rw [accepted_sizeToRead]
    exact Nat.not_le.1 fun enough => another (.inr (.inl enough))
  · exact sound.wants running

theorem rdByte_copied_iff (running : s.rdState ≠ .exit) :
    ((rdByte conf b (s.rdState, s.rd)).1 = .exit →
      min (rdByte conf b (s.rdState, s.rd)).2.store.sizeReaded
          (rdByte conf b (s.rdState, s.rd)).2.store.dataCount ≤
        (rdByte conf b (s.rdState, s.rd)).2.store.sizeToRead) ↔
      (Completes s.rdState s.rd b →
        s.rd.store.sizeReaded + s.rd.payload.length ≤ s.rd.store.sizeToRead ∨
          min DM_MAX_DATA_READ (s.rd.store.dataCount + s.rd.payload.length) ≤
            s.rd.store.sizeToRead) := by
  have effect := rdByte_effect conf b sound.held
  rw [effect.store]
  by_cases completes : Completes s.rdState s.rd b
  · have count : (accepted s.rd.payload s.rd.store).dataCount =
        min DM_MAX_DATA_READ (s.rd.store.dataCount + s.rd.payload.length) :=
      rdWriteData_dataCount s.rd.payload sound.count
    have readed : (accepted s.rd.payload s.rd.store).sizeReaded =
        s.rd.store.sizeReaded + s.rd.payload.length := rfl
    rw [if_pos completes, effect.ends completes, count, readed, accepted_sizeToRead, min_le_iff]
    by_cases last : lastFrame conf s.rd
    · rw [if_pos last]
      exact ⟨fun copied _ => copied rfl, fun fits _ => fits completes⟩
    · rw [if_neg last]
      refine ⟨fun _ _ => .inl ?_, fun _ exit => RdState.noConfusion exit⟩
      exact Nat.le_of_not_le fun enough => last (.inr (.inl enough))
  · rw [if_neg completes]
    refine ⟨fun _ now => absurd now completes, fun _ _ => ?_⟩
    exact (Nat.min_le_left _ _).trans (Nat.le_of_lt (sound.wants running))

theorem byte_inBounds_iff (running : s.rdState ≠ .exit) :
    (s.handled (rdByte conf b (s.rdState, s.rd))).InBounds ↔ s.Fits (.byte b) :=
  (handled_inBounds_iff sound.inBounds (rdByte_checksum_le conf b sound)).trans
    (and_congr (rdByte_payload_iff conf b sound) (rdByte_copied_iff conf b sound running))

theorem byte_sound (running : s.rdState ≠ .exit) (fits : s.Fits (.byte b)) :
    (s.handled (rdByte conf b (s.rdState, s.rd))).Sound :=
  handled_sound ((byte_inBounds_iff conf b sound running).2 fits)
    (rdByte_effect conf b sound.held).held (rdByte_dataCount_le conf b sound)
    (rdByte_wants conf b sound running)

end

theorem step_sound (sound : s.Sound) {op : ReadOp} (fits : s.Fits op) :
    (step conf op s).Sound := by
  by_cases ended : s.rdState = .exit
  · cases op with
    | read size =>
      rw [step, if_pos ended]
      exact dmodemRead_sound sound ended size
    | byte | rxByteTimeout | rxUplayerTimeout =>
      rw [step, if_pos ended]
      exact sound
  · cases op with
    | read size =>
      rw [step, if_neg ended]
      exact sound
    | byte b =>
      rw [step, if_neg ended]
      exact byte_sound conf b sound ended fits
    | rxByteTimeout =>
      rw [step, if_neg ended]
      exact paused_sound sound ended (rxByteTo_paused conf s.rdState s.rd)
    | rxUplayerTimeout =>
      rw [step, if_neg ended, rdEngine_rxUplayerTo conf s.rd ended]
      exact paused_sound sound ended ⟨rfl, rfl, rfl, trivial⟩

theorem step_inBounds_iff (sound : s.Sound) (op : ReadOp) :
    (step conf op s).InBounds ↔ s.Fits op := by
  refine ⟨fun inBounds => ?_, fun fits => (step_sound sound fits).inBounds⟩
  cases op with
  | read | rxByteTimeout | rxUplayerTimeout => trivial
  | byte b =>
    by_cases ended : s.rdState = .exit
    · refine ⟨fun waits => ?_, fun completes => ?_⟩
      · exact nomatch (ended.symm.trans waits)
      · exact nomatch (ended.symm.trans completes.1)
    · rw [step, if_neg ended] at inBounds
      exact (byte_inBounds_iff conf b sound ended).1 inBounds

/-- From `dmodem_open` on, over any bytes, pauses, timeouts and reads: everything is stored inside
its buffer just in case every byte has its place. -/
theorem inBounds_iff_fits (conf : DModemConfig) (databuf : Nat → UInt8) (ops : List ReadOp) :
    Trace.Always (step conf) (fun s op => (step conf op s).InBounds) ops (opened databuf) ↔
      Trace.Always (step conf) Fits ops (opened databuf) :=
  Trace.Always.congr_of_invariant Sound (fun sound _ => step_inBounds_iff sound _)
    (fun sound _ fits => step_sound sound fits) (opened_sound databuf)
    (Trace.Always.unconditional ops _)

theorem after_bytes {bytes : List UInt8} {s : Reader} {state : RdState} {r : DMReadCurrState}
    (fed : rdFeed conf bytes (s.rdState, s.rd) = ((state, r), [])) (running : s.rdState ≠ .exit)
    (waits : state ≠ .exit) :
    Trace.after (step conf) (bytes.map .byte) s = { s with rdState := state, rd := r } := by
  induction bytes generalizing s with
  | nil =>
    cases fed
    rfl
  | cons b rest ih =>
    rw [rdFeed, feed] at fed
    by_cases ended : (rdByte conf b (s.rdState, s.rd)).1 = .exit
    · rw [if_pos ended] at fed
      exact absurd ((congrArg (fun s => s.1.1) fed).symm.trans ended) waits
    · rw [if_neg ended] at fed
      have taken : step conf (.byte b) s =
          { s with
            rdState := (rdByte conf b (s.rdState, s.rd)).1
            rd := (rdByte conf b (s.rdState, s.rd)).2 } := by
        rw [step, if_neg running]
        exact if_neg ended
      rw [map_cons, Trace.after, taken]
      exact ih fed ended

/-- The checksum of a frame of length 0, and all that follows it, are stored as data. -/
theorem emptyFrame_overruns {s : Reader} (waits : s.rdState = .waitSoh) {bytes : List UInt8}
    (long : DM_MAX_FRAME_LEN < 4 + bytes.length) :
    ¬(Trace.after (step conf) ((makeDmframe 0 0 s.rd.store.nextSeqno [] ++ bytes).map .byte)
      s).InBounds := by
  intro inBounds
  rcases @rdFeed_header conf s.rd 0 0 _ 0 (littleEndian 4 (getDmchecksum []).toNat ++ bytes) rfl
    (Nat.zero_le _) with ⟨header, fed, empty, _, zero, _, _⟩
  rcases @rdFeed_endless conf (littleEndian 4 (getDmchecksum []).toNat ++ bytes) header zero with
    ⟨after, taken, payload, _, _⟩
  rw [← waits] at fed
  rw [makeDmframe_eq, nil_append, length_nil] at inBounds
  simp only [cons_append] at inBounds
  rw [after_bytes (fed.trans taken) (by rw [waits]; exact nofun)
    nofun] at inBounds
  have stored : after.payload.length ≤ DM_MAX_FRAME_LEN := inBounds.payload
  rw [payload, empty, nil_append, length_append, length_littleEndian] at stored
  exact absurd stored (Nat.not_le.2 long)

/-- A read of one byte that waits, answered with a frame of two. -/
theorem inBounds_twoBytes :
    ¬∀ (conf : DModemConfig) (databuf : Nat → UInt8) (ops : List ReadOp),
      Trace.Always (step conf) (fun s op => (step conf op s).InBounds) ops (opened databuf) := by
  intro every
  have whole := every ⟨512, false, 15, by decide, by decide⟩ (fun _ => 0)
    (.read 1 :: (makeDmframe 0 0 1 [0x41, 0x42]).map .byte)
  have called : (Trace.after (step ⟨512, false, 15, by decide, by decide⟩)
      (.read 1 :: (makeDmframe 0 0 1 [0x41, 0x42]).map .byte) (opened fun _ => 0)).calls =
        [⟨1, [0x41, 0x42]⟩] := by decide
  have inBounds := Trace.Always.after_of_invariant InBounds (fun _ fits => fits)
    (opened_sound _).inBounds whole
  have copied := inBounds.copied ⟨1, [0x41, 0x42]⟩ (called ▸ mem_singleton.2 rfl)
  exact absurd copied (by decide)

end Reader

end CimArm.Dmodem
