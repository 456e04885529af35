import CimArm.Dao.SafeBoxLoad
import Mathlib.Data.List.GetD

/-!
# Files of the board, in pieces

A buffer goes to a file on the board, and comes back, in frames of at most `MAX_DATA_SIZE`
units, each answered before the next one is sent.  The frames have a byte for the number of
units and a byte for the number of data bytes, and the loops count in units where the buffer
counts in bytes, so the pieces only fit together when a unit is a byte.

What the board does with a frame is not here; `Board.Serves` is what is relied on: an answer
other than a failure means that the units are written to where the file stands, or read
from there, and that the file stands behind them then.

* `fsWrite_fsRead`: with units of a byte, the frames carry each byte of the buffer once, and
  what is read from the same place is what was written.
-/

namespace CimArm.FlashFile

open List

/-! ## Frames -/

inductive Command : Type
  | READFILE_CMD | WRITEFILE_CMD
  deriving DecidableEq

/-- A queued command; the memory allocated for the data has `nData` bytes. -/
structure QueueElement : Type where
  cmd : Command
  nData : UInt8
  data : List UInt8

/-- The data bytes that are sent. -/
def QueueElement.bytes (e : QueueElement) : List UInt8 := e.data.take e.nData.toNat

def safeBoxMgrFSRead (filed numUnits : UInt8) : QueueElement :=
  { cmd := .READFILE_CMD, nData := 2, data := [filed, numUnits] }

/-- `numUnits * unitSize` is an `int` where it counts what is copied. -/
def safeBoxMgrFSWrite (filed numUnits unitSize : UInt8) (buf : Nat → UInt8) : QueueElement :=
  { cmd := .WRITEFILE_CMD
    nData := UInt8.ofNat (2 + numUnits.toNat * unitSize.toNat)
    data := filed :: numUnits :: (List.range (numUnits.toNat * unitSize.toNat)).map buf }

/-! ## The board -/

/-- What the wait for an answer comes to.  The first additional byte of a success is a count. -/
inductive Answer : Type
  | success (aditData : Nat → UInt8)
  | failure (errorCode : UInt8)
  | undefined
  | timeout

/-- What is at the other end: it answers a frame and changes its state. -/
structure Board (σ : Type) : Type where
  serve : Command → List UInt8 → σ → Answer × σ

/-- The state of the board and the frames sent so far. -/
structure Session (σ : Type) : Type where
  board : σ
  sent : List QueueElement

/-- What an answer returns; `none` raises. -/
def waitForResponse : Answer → Option Nat
  | .success aditData => some (aditData 0).toNat
  | _ => none

/-- What a read answers: the count, and the memory with the data at a place. -/
def waitForData (aBuffer : Nat → UInt8) (place aMaxSize : Nat) :
    Answer → Option (Nat × (Nat → UInt8))
  | .success aditData => some ((aditData 0).toNat, fun p =>
      if place ≤ p ∧ p < place + aMaxSize then aditData (1 + (p - place)) else aBuffer p)
  | _ => none

section

variable {σ : Type} (board : Board σ)

/-- A frame is sent and answered. -/
def exchange (e : QueueElement) (s : Session σ) : Answer × Session σ :=
  let served := board.serve e.cmd e.bytes s.board
  (served.1, ⟨served.2, s.sent ++ [e]⟩)

/-! ## The loops -/

/-- How many units the next frame has. -/
def nextPiece (left : Nat) : Nat := if left > MAX_DATA_SIZE then MAX_DATA_SIZE else left

theorem nextPiece_pos {left : Nat} (some_left : 0 < left) : 0 < nextPiece left := by
  unfold nextPiece MAX_DATA_SIZE
  split <;> omega

theorem nextPiece_le (left : Nat) : nextPiece left ≤ left := by
  unfold nextPiece
  split <;> omega

theorem nextPiece_limit (left : Nat) : nextPiece left ≤ MAX_DATA_SIZE := by
  unfold nextPiece
  split <;> omega

/-- The loop of `fsWrite`. -/
def writeLoop (aFileId : UInt8) (aUnitSize : Nat) (aBuffer : Nat → UInt8)
    (left nWrite n : Nat) (s : Session σ) : Option Nat × Session σ :=
  if left > 0 then
    let nToWrite := nextPiece left
    let answered := exchange board (safeBoxMgrFSWrite aFileId (UInt8.ofNat nToWrite)
      (UInt8.ofNat aUnitSize) fun i => aBuffer (nWrite + i)) s
    match waitForResponse answered.1 with
    | none => (none, answered.2)
    | some rta =>
      writeLoop aFileId aUnitSize aBuffer (left - nToWrite) (nWrite + nToWrite) (n + rta) answered.2
  else (some n, s)
termination_by left
decreasing_by
  have := nextPiece_pos ‹left > 0›
  omega

def fsWrite (aFileId : UInt8) (aNumRows aUnitSize : Nat) (aBuffer : Nat → UInt8)
    (s : Session σ) : Option Nat × Session σ :=
  writeLoop board aFileId aUnitSize aBuffer aNumRows 0 0 s

/-- The loop of `fsRead`, which fills the buffer. -/
def readLoop (aFileId : UInt8) (aUnitSize left nRead n : Nat) (aBuffer : Nat → UInt8)
    (s : Session σ) : Option Nat × (Nat → UInt8) × Session σ :=
  if left > 0 then
    let nToRead := nextPiece left
    let answered := exchange board (safeBoxMgrFSRead aFileId (UInt8.ofNat nToRead)) s
    match waitForData aBuffer nRead (nToRead * aUnitSize) answered.1 with
    | none => (none, aBuffer, answered.2)
    | some (count, aBuffer) =>
      readLoop aFileId aUnitSize (left - nToRead) (nRead + nToRead) (n + count) aBuffer answered.2
  else (some n, aBuffer, s)
termination_by left
decreasing_by
  have := nextPiece_pos ‹left > 0›
  omega

def fsRead (aFileId : UInt8) (aNumRows aUnitSize : Nat) (aBuffer : Nat → UInt8)
    (s : Session σ) : Option Nat × (Nat → UInt8) × Session σ :=
  readLoop board aFileId aUnitSize aNumRows 0 0 aBuffer s

end

/-! ## What is relied on -/

/-- A file of so many bytes, with units of a byte, as the board keeps it.  A success means that
the frame was carried out, and inside the file there is nothing to fail. -/
structure Board.Serves {σ : Type} (board : Board σ) (filed : UInt8) (position : σ → Nat)
    (contents : σ → Nat → UInt8) (size : Nat) : Prop where
  written : ∀ (s : σ) (numUnits : UInt8) (data : List UInt8) (aditData : Nat → UInt8) (s' : σ),
    data.length = numUnits.toNat →
    board.serve .WRITEFILE_CMD (filed :: numUnits :: data) s = (.success aditData, s') →
      position s' = position s + numUnits.toNat ∧
      ∀ p, contents s' p = if position s ≤ p ∧ p < position s + numUnits.toNat
        then data.getD (p - position s) 0 else contents s p
  read : ∀ (s : σ) (numUnits : UInt8) (aditData : Nat → UInt8) (s' : σ),
    board.serve .READFILE_CMD [filed, numUnits] s = (.success aditData, s') →
      position s' = position s + numUnits.toNat ∧ contents s' = contents s ∧
      aditData 0 = numUnits ∧
      ∀ i < numUnits.toNat, aditData (1 + i) = contents s (position s + i)
  writes : ∀ (s : σ) (numUnits : UInt8) (data : List UInt8), data.length = numUnits.toNat →
    position s + numUnits.toNat ≤ size →
      ∃ aditData s', board.serve .WRITEFILE_CMD (filed :: numUnits :: data) s =
        (.success aditData, s')
  reads : ∀ (s : σ) (numUnits : UInt8), position s + numUnits.toNat ≤ size →
    ∃ aditData s', board.serve .READFILE_CMD [filed, numUnits] s = (.success aditData, s')

/-! ## The frames that are sent -/

namespace QueueElement

/-- The byte of a frame that says how many units it is about. -/
def units (e : QueueElement) : Nat := (e.bytes.getD 1 0).toNat

/-- The bytes of a frame behind its head. -/
def payload (e : QueueElement) : List UInt8 := e.bytes.drop 2

end QueueElement

/-- All the units of some frames. -/
def unitsOf : List QueueElement → Nat
  | [] => 0
  | e :: frames => e.units + unitsOf frames

/-- Frames that carry so many units in all, each of them no more than the limit, with all of
its data sent. -/
structure Pieces (cmd : Command) (aFileId : UInt8) (frames : List QueueElement)
    (total : Nat) : Prop where
  each : ∀ e ∈ frames, e.cmd = cmd ∧ e.bytes = e.data ∧ e.bytes.head? = some aFileId ∧
    0 < e.units ∧ e.units ≤ MAX_DATA_SIZE
  all : unitsOf frames = total

theorem Pieces.nil (cmd : Command) (aFileId : UInt8) : Pieces cmd aFileId [] 0 :=
  ⟨fun _ among => absurd among not_mem_nil, rfl⟩

theorem Pieces.cons {cmd : Command} {aFileId : UInt8} {frames : List QueueElement}
    {total : Nat} (pieces : Pieces cmd aFileId frames total) {e : QueueElement}
    (first : e.cmd = cmd ∧ e.bytes = e.data ∧ e.bytes.head? = some aFileId ∧
      0 < e.units ∧ e.units ≤ MAX_DATA_SIZE) :
    Pieces cmd aFileId (e :: frames) (e.units + total) := by
  refine ⟨fun f among => ?_, by rw [unitsOf, pieces.all]⟩
  rcases mem_cons.mp among with here | later
  · rw [here]
    exact first
  · exact pieces.each f later

section

variable (aFileId : UInt8) (aBuffer : Nat → UInt8) (left nWrite : Nat)

/-- The next frame of a write, with units of a byte. -/
def writePiece : QueueElement :=
  safeBoxMgrFSWrite aFileId (UInt8.ofNat (nextPiece left)) (UInt8.ofNat 1)
    fun i => aBuffer (nWrite + i)

/-- The bytes of the buffer that come next. -/
def nextBytes : List UInt8 := (List.range (nextPiece left)).map fun i => aBuffer (nWrite + i)

theorem toNat_nextPiece : (UInt8.ofNat (nextPiece left)).toNat = nextPiece left := by
  have limit := nextPiece_limit left
  unfold MAX_DATA_SIZE at limit
  rw [UInt8.toNat_ofNat']
  omega

theorem data_writePiece : (writePiece aFileId aBuffer left nWrite).data =
    aFileId :: UInt8.ofNat (nextPiece left) :: nextBytes aBuffer left nWrite := by
  have one : (UInt8.ofNat 1).toNat = 1 := rfl
  unfold writePiece safeBoxMgrFSWrite nextBytes
  rw [toNat_nextPiece, one, Nat.mul_one]

theorem bytes_writePiece : (writePiece aFileId aBuffer left nWrite).bytes =
    aFileId :: UInt8.ofNat (nextPiece left) :: nextBytes aBuffer left nWrite := by
  have limit := nextPiece_limit left
  unfold MAX_DATA_SIZE at limit
  rw [QueueElement.bytes, data_writePiece]
  apply take_of_length_le
  have one : (UInt8.ofNat 1).toNat = 1 := rfl
  unfold writePiece safeBoxMgrFSWrite nextBytes
  rw [toNat_nextPiece, one, Nat.mul_one, UInt8.toNat_ofNat', length_cons, length_cons,
    length_map, length_range]
  omega

theorem units_writePiece : (writePiece aFileId aBuffer left nWrite).units = nextPiece left := by
  rw [QueueElement.units, bytes_writePiece]
  exact toNat_nextPiece left

/-- The next frame of a read. -/
def readPiece : QueueElement := safeBoxMgrFSRead aFileId (UInt8.ofNat (nextPiece left))

theorem units_readPiece : (readPiece aFileId left).units = nextPiece left := toNat_nextPiece left

end

theorem Pieces.write {aFileId : UInt8} {aBuffer : Nat → UInt8} {frames : List QueueElement}
    {left nWrite : Nat} (some_left : 0 < left)
    (pieces : Pieces .WRITEFILE_CMD aFileId frames (left - nextPiece left)) :
    Pieces .WRITEFILE_CMD aFileId (writePiece aFileId aBuffer left nWrite :: frames) left := by
  have units := units_writePiece aFileId aBuffer left nWrite
  have first := pieces.cons (e := writePiece aFileId aBuffer left nWrite)
    ⟨rfl, by rw [bytes_writePiece, data_writePiece], by rw [bytes_writePiece]; rfl,
      by rw [units]; exact nextPiece_pos some_left, by rw [units]; exact nextPiece_limit left⟩
  rwa [units, Nat.add_sub_cancel' (nextPiece_le left)] at first

theorem Pieces.read {aFileId : UInt8} {frames : List QueueElement} {left : Nat}
    (some_left : 0 < left)
    (pieces : Pieces .READFILE_CMD aFileId frames (left - nextPiece left)) :
    Pieces .READFILE_CMD aFileId (readPiece aFileId left :: frames) left := by
  have units := units_readPiece aFileId left
  have first := pieces.cons (e := readPiece aFileId left) ⟨rfl, rfl, rfl,
    by rw [units]; exact nextPiece_pos some_left, by rw [units]; exact nextPiece_limit left⟩
  rwa [units, Nat.add_sub_cancel' (nextPiece_le left)] at first

/-! ## Writing -/

section

variable {σ : Type} {board : Board σ} {aFileId : UInt8} {aBuffer : Nat → UInt8}

variable {answer : Answer} {position : σ → Nat} {contents : σ → Nat → UInt8} {size : Nat}

theorem exchange_served {e : QueueElement} {s : Session σ} {between : σ}
    (served : board.serve e.cmd e.bytes s.board = (answer, between)) :
    exchange board e s = (answer, ⟨between, s.sent ++ [e]⟩) := by
  unfold exchange
  rw [served]

theorem waitForResponse_some {rta : Nat} (returned : waitForResponse answer = some rta) :
    ∃ aditData, answer = .success aditData ∧ rta = (aditData 0).toNat := by
  cases answer with
  | success aditData => exact ⟨aditData, rfl, (Option.some.inj returned).symm⟩
  | failure | undefined | timeout => exact absurd returned (by simp [waitForResponse])

theorem writeLoop_step {left nWrite n m : Nat} {s s' : Session σ} (some_left : 0 < left)
    (ran : writeLoop board aFileId 1 aBuffer left nWrite n s = (some m, s')) :
    ∃ (aditData : Nat → UInt8) (between : σ),
      board.serve .WRITEFILE_CMD (writePiece aFileId aBuffer left nWrite).bytes s.board =
        (.success aditData, between) ∧
      writeLoop board aFileId 1 aBuffer (left - nextPiece left) (nWrite + nextPiece left)
        (n + (aditData 0).toNat) ⟨between, s.sent ++ [writePiece aFileId aBuffer left nWrite]⟩ =
          (some m, s') := by
  rw [writeLoop, if_pos some_left] at ran
  dsimp only at ran
  split at ran
  · simp at ran
  · next rta returned =>
    obtain ⟨aditData, success, count⟩ := waitForResponse_some returned
    refine ⟨aditData, _, Prod.ext success rfl, ?_⟩
    rw [← count]
    exact ran

theorem writeLoop_returns (serves : board.Serves aFileId position contents size) {left : Nat} :
    ∀ {nWrite n m : Nat} {s s' : Session σ},
      writeLoop board aFileId 1 aBuffer left nWrite n s = (some m, s') →
        (∃ frames, s'.sent = s.sent ++ frames ∧ Pieces .WRITEFILE_CMD aFileId frames left ∧
          frames.flatMap QueueElement.payload =
            (List.range left).map fun i => aBuffer (nWrite + i)) ∧
        position s'.board = position s.board + left ∧
        ∀ p, contents s'.board p =
          if position s.board ≤ p ∧ p < position s.board + left
          then aBuffer (nWrite + (p - position s.board)) else contents s.board p := by
  induction left using Nat.strongRecOn with
  | _ left ih =>
    intro nWrite n m s s' ran
    rcases Nat.eq_zero_or_pos left with zero | some_left
    · rw [zero] at ran ⊢
      rw [writeLoop, if_neg (Nat.lt_irrefl 0)] at ran
      cases ran
      refine ⟨⟨[], (append_nil _).symm, Pieces.nil .., rfl⟩, rfl, fun p => ?_⟩
      rw [if_neg (by omega)]
    · have positive := nextPiece_pos some_left
      have less := nextPiece_le left
      obtain ⟨aditData, between, served, rest⟩ := writeLoop_step some_left ran
      rw [bytes_writePiece] at served
      obtain ⟨moved, stored⟩ := serves.written _ _ _ _ _
        (by rw [nextBytes, length_map, length_range, toNat_nextPiece]) served
      rw [toNat_nextPiece] at moved stored
      obtain ⟨⟨frames, sent, pieces, carried⟩, stands, kept⟩ :=
        ih (left - nextPiece left) (by omega) rest
      refine ⟨⟨writePiece aFileId aBuffer left nWrite :: frames, ?_,
        pieces.write some_left, ?_⟩, ?_, fun p => ?_⟩
      · rw [sent, append_assoc, singleton_append]
      · have payload : (writePiece aFileId aBuffer left nWrite).payload =
            nextBytes aBuffer left nWrite := by
          rw [QueueElement.payload, bytes_writePiece]
          rfl
        have split : left = nextPiece left + (left - nextPiece left) := by omega
        rw [flatMap_cons, carried, payload, nextBytes]
        conv_rhs => rw [split, range_add, map_append, map_map]
        refine congrArg _ (map_congr_left fun i _ => ?_)
        rw [Function.comp_apply, Nat.add_assoc]
      · rw [stands, moved]
        omega
      · rw [kept p, moved, stored p]
        by_cases old : position s.board ≤ p ∧ p < position s.board + nextPiece left
        · rw [if_neg (by omega), if_pos old, if_pos (by omega), nextBytes,
            getD_eq_getElem _ _ (by rw [length_map, length_range]; omega),
            getElem_map, getElem_range]
        · rw [if_neg old]
          by_cases new : position s.board + nextPiece left ≤ p ∧ p < position s.board + left
          · rw [if_pos (by omega), if_pos (by omega)]
            exact congrArg aBuffer (by omega)
          · rw [if_neg (by omega), if_neg (by omega)]

theorem writeLoop_inside (serves : board.Serves aFileId position contents size) {left : Nat} :
    ∀ (nWrite n : Nat) (s : Session σ), position s.board + left ≤ size →
      ∃ m s', writeLoop board aFileId 1 aBuffer left nWrite n s = (some m, s') := by
  induction left using Nat.strongRecOn with
  | _ left ih =>
    intro nWrite n s inside
    rcases Nat.eq_zero_or_pos left with zero | some_left
    · rw [zero]
      exact ⟨n, s, by rw [writeLoop, if_neg (Nat.lt_irrefl 0)]⟩
    · have positive := nextPiece_pos some_left
      have less := nextPiece_le left
      have length : (nextBytes aBuffer left nWrite).length =
          (UInt8.ofNat (nextPiece left)).toNat := by
        rw [nextBytes, length_map, length_range, toNat_nextPiece]
      obtain ⟨aditData, between, served⟩ := serves.writes s.board
        (UInt8.ofNat (nextPiece left)) _ length (by rw [toNat_nextPiece]; omega)
      obtain ⟨moved, -⟩ := serves.written _ _ _ _ _ length served
      rw [toNat_nextPiece] at moved
      obtain ⟨m, s', rest⟩ := ih (left - nextPiece left) (by omega) (nWrite + nextPiece left)
        (n + (aditData 0).toNat) ⟨between, s.sent ++ [writePiece aFileId aBuffer left nWrite]⟩
        (by rw [moved]; omega)
      refine ⟨m, s', ?_⟩
      have whole : board.serve .WRITEFILE_CMD (writePiece aFileId aBuffer left nWrite).bytes
          s.board = (.success aditData, between) := by
        rw [bytes_writePiece]
        exact served
      have answered := exchange_served (e := writePiece aFileId aBuffer left nWrite) whole
      rw [writeLoop, if_pos some_left]
      dsimp only
      rw [← writePiece, answered]
      exact rest

/-! ## Reading -/

theorem waitForData_some {memory : Nat → UInt8} {place aMaxSize : Nat} {read : Nat × (Nat → UInt8)}
    (returned : waitForData memory place aMaxSize answer = some read) :
    ∃ aditData, answer = .success aditData ∧ read = ((aditData 0).toNat, fun p =>
      if place ≤ p ∧ p < place + aMaxSize then aditData (1 + (p - place)) else memory p) := by
  cases answer with
  | success aditData => exact ⟨aditData, rfl, (Option.some.inj returned).symm⟩
  | failure | undefined | timeout => exact absurd returned (by simp [waitForData])

theorem readLoop_step {left nRead n m : Nat} {memory memory' : Nat → UInt8} {s s' : Session σ}
    (some_left : 0 < left)
    (ran : readLoop board aFileId 1 left nRead n memory s = (some m, memory', s')) :
    ∃ (aditData : Nat → UInt8) (between : σ),
      board.serve .READFILE_CMD (readPiece aFileId left).bytes s.board =
        (.success aditData, between) ∧
      readLoop board aFileId 1 (left - nextPiece left) (nRead + nextPiece left)
        (n + (aditData 0).toNat)
        (fun p => if nRead ≤ p ∧ p < nRead + nextPiece left then aditData (1 + (p - nRead))
          else memory p)
        ⟨between, s.sent ++ [readPiece aFileId left]⟩ = (some m, memory', s') := by
  rw [readLoop, if_pos some_left] at ran
  dsimp only at ran
  split at ran
  · simp at ran
  · next count filled returned =>
    obtain ⟨aditData, success, read⟩ := waitForData_some returned
    rw [Nat.mul_one] at read
    obtain ⟨rfl, rfl⟩ := Prod.mk.inj read
    exact ⟨aditData, _, Prod.ext success rfl, ran⟩

theorem readLoop_returns (serves : board.Serves aFileId position contents size) {left : Nat} :
    ∀ {nRead n m : Nat} {memory memory' : Nat → UInt8} {s s' : Session σ},
      readLoop board aFileId 1 left nRead n memory s = (some m, memory', s') →
        (∃ frames, s'.sent = s.sent ++ frames ∧ Pieces .READFILE_CMD aFileId frames left) ∧
        m = n + left ∧
        ∀ p, memory' p = if nRead ≤ p ∧ p < nRead + left
          then contents s.board (position s.board + (p - nRead)) else memory p := by
  induction left using Nat.strongRecOn with
  | _ left ih =>
    intro nRead n m memory memory' s s' ran
    rcases Nat.eq_zero_or_pos left with zero | some_left
    · rw [zero] at ran ⊢
      rw [readLoop, if_neg (Nat.lt_irrefl 0)] at ran
      cases ran
      refine ⟨⟨[], (append_nil _).symm, Pieces.nil ..⟩, rfl, fun p => ?_⟩
      rw [if_neg (by omega)]
    · have positive := nextPiece_pos some_left
      have less := nextPiece_le left
      obtain ⟨aditData, between, served, rest⟩ := readLoop_step some_left ran
      obtain ⟨moved, same, count, data⟩ := serves.read _ _ _ _ served
      rw [toNat_nextPiece] at moved data
      obtain ⟨⟨frames, sent, pieces⟩, total, filled⟩ := ih (left - nextPiece left) (by omega) rest
      refine ⟨⟨readPiece aFileId left :: frames, ?_, pieces.read some_left⟩, ?_, fun p => ?_⟩
      · rw [sent, append_assoc, singleton_append]
      · rw [total, count, toNat_nextPiece]
        omega
      · rw [filled p, moved, same]
        by_cases later : nRead + nextPiece left ≤ p ∧ p < nRead + left
        · rw [if_pos (by omega), if_pos (by omega)]
          exact congrArg (contents s.board) (by omega)
        · rw [if_neg (by omega)]
          by_cases here : nRead ≤ p ∧ p < nRead + nextPiece left
          · rw [if_pos here, if_pos (by omega), data _ (by omega)]
          · rw [if_neg here, if_neg (by omega)]

theorem readLoop_inside (serves : board.Serves aFileId position contents size) {left : Nat} :
    ∀ (nRead n : Nat) (memory : Nat → UInt8) (s : Session σ), position s.board + left ≤ size →
      ∃ m memory' s', readLoop board aFileId 1 left nRead n memory s = (some m, memory', s') := by
  induction left using Nat.strongRecOn with
  | _ left ih =>
    intro nRead n memory s inside
    rcases Nat.eq_zero_or_pos left with zero | some_left
    · rw [zero]
      exact ⟨n, memory, s, by rw [readLoop, if_neg (Nat.lt_irrefl 0)]⟩
    · have positive := nextPiece_pos some_left
      have less := nextPiece_le left
      obtain ⟨aditData, between, served⟩ := serves.reads s.board
        (UInt8.ofNat (nextPiece left)) (by rw [toNat_nextPiece]; omega)
      obtain ⟨moved, -⟩ := serves.read _ _ _ _ served
      rw [toNat_nextPiece] at moved
      have answered := exchange_served (e := readPiece aFileId left) served
      obtain ⟨m, memory', s', rest⟩ := ih (left - nextPiece left) (by omega)
        (nRead + nextPiece left) (n + (aditData 0).toNat)
        (fun p => if nRead ≤ p ∧ p < nRead + nextPiece left * 1
          then aditData (1 + (p - nRead)) else memory p)
        ⟨between, s.sent ++ [readPiece aFileId left]⟩ (by rw [moved]; omega)
      refine ⟨m, memory', s', ?_⟩
      rw [readLoop, if_pos some_left]
      dsimp only
      rw [← readPiece, answered]
      exact rest

end

/-! ## What is written is read -/

/-- With units of a byte, a buffer of any length is sent in frames that each fit and carry each
of its bytes once, in order; a write and a read inside the file return; and where both
return, the read from the same place gives the buffer. -/
theorem fsWrite_fsRead {σ : Type} {board : Board σ} {aFileId : UInt8} {position : σ → Nat}
    {contents : σ → Nat → UInt8} {size : Nat}
    (serves : board.Serves aFileId position contents size)
    (aBuffer : Nat → UInt8) (aNumRows : Nat) (s : Session σ) :
    (position s.board + aNumRows ≤ size →
      ∃ n s', fsWrite board aFileId aNumRows 1 aBuffer s = (some n, s')) ∧
    ∀ n s', fsWrite board aFileId aNumRows 1 aBuffer s = (some n, s') →
      (∃ frames, s'.sent = s.sent ++ frames ∧ Pieces .WRITEFILE_CMD aFileId frames aNumRows ∧
        frames.flatMap QueueElement.payload = (List.range aNumRows).map aBuffer) ∧
      ∀ (t : Session σ) (memory : Nat → UInt8), position t.board = position s.board →
        contents t.board = contents s'.board →
          (position s.board + aNumRows ≤ size →
            ∃ m memory' t', fsRead board aFileId aNumRows 1 memory t = (some m, memory', t')) ∧
          ∀ m memory' t', fsRead board aFileId aNumRows 1 memory t = (some m, memory', t') →
            m = aNumRows ∧ (∀ i < aNumRows, memory' i = aBuffer i) ∧
            (∀ i, aNumRows ≤ i → memory' i = memory i) ∧
            ∃ frames, t'.sent = t.sent ++ frames ∧
              Pieces .READFILE_CMD aFileId frames aNumRows := by
  refine ⟨fun inside => writeLoop_inside serves 0 0 s inside, fun n s' wrote => ?_⟩
  obtain ⟨⟨frames, sent, pieces, carried⟩, -, stored⟩ := writeLoop_returns serves wrote
  refine ⟨⟨frames, sent, pieces, ?_⟩, fun t memory stands kept =>
    ⟨fun inside => readLoop_inside serves 0 0 memory t (by rwa [stands]),
      fun m memory' t' read => ?_⟩⟩
  · rw [carried]
    exact map_congr_left fun i _ => congrArg aBuffer (Nat.zero_add i)
  · obtain ⟨asked, total, filled⟩ := readLoop_returns serves read
    refine ⟨by rw [total, Nat.zero_add], fun i inside => ?_, fun i outside => ?_, asked⟩
    · rw [filled i, if_pos (by omega), kept, stands, stored, if_pos (by omega)]
      exact congrArg aBuffer (by omega)
    · rw [filled i, if_neg (by omega)]

/-- A board with one file of so many bytes, where it stands and what it holds. -/
def oneFile (filed : UInt8) (size : Nat) : Board (Nat × (Nat → UInt8)) where
  serve cmd bytes s :=
    let numUnits := bytes.getD 1 0
    let data := bytes.drop 2
    if bytes.head? = some filed ∧ s.1 + numUnits.toNat ≤ size then
      match cmd with
      | .READFILE_CMD =>
        (.success fun i => if i = 0 then numUnits else s.2 (s.1 + (i - 1)),
          s.1 + numUnits.toNat, s.2)
      | .WRITEFILE_CMD =>
        (.success fun _ => 0, s.1 + numUnits.toNat, fun p =>
          if s.1 ≤ p ∧ p < s.1 + numUnits.toNat then data.getD (p - s.1) 0 else s.2 p)
    else (.failure 15, s)

theorem oneFile_serves (filed : UInt8) (size : Nat) :
    (oneFile filed size).Serves filed Prod.fst Prod.snd size where
  written s numUnits data aditData s' _ served := by
    unfold oneFile at served
    dsimp only at served
    split at served
    · cases served
      exact ⟨rfl, fun p => rfl⟩
    · simp at served
  read s numUnits aditData s' served := by
    unfold oneFile at served
    dsimp only at served
    split at served
    · cases served
      refine ⟨rfl, rfl, rfl, fun i _ => ?_⟩
      dsimp only
      rw [if_neg (by omega), Nat.add_sub_cancel_left]
    · simp at served
  writes s numUnits data _ inside := by
    unfold oneFile
    dsimp only
    rw [if_pos ⟨rfl, inside⟩]
    exact ⟨_, _, rfl⟩
  reads s numUnits inside := by
    unfold oneFile
    dsimp only
    rw [if_pos ⟨rfl, inside⟩]
    exact ⟨_, _, rfl⟩

/-- 500 bytes, in two full pieces and a short one, from the seventh byte of a file on. -/
theorem fsWrite_fsRead_oneFile : ∃ n s', fsWrite (oneFile 3 1000) 3 500 1 UInt8.ofNat
      ⟨(7, fun _ => 0), []⟩ = (some n, s') ∧
    ∀ m memory' t', fsRead (oneFile 3 1000) 3 500 1 (fun _ => 0) ⟨(7, s'.board.2), []⟩ =
      (some m, memory', t') → m = 500 ∧ ∀ i < 500, memory' i = UInt8.ofNat i := by
  have both := fsWrite_fsRead (oneFile_serves 3 1000) UInt8.ofNat 500 ⟨(7, fun _ => 0), []⟩
  obtain ⟨n, s', wrote⟩ := both.1 (by decide)
  refine ⟨n, s', wrote, fun m memory' t' read => ?_⟩
  obtain ⟨total, same, -⟩ := ((both.2 n s' wrote).2 ⟨(7, s'.board.2), []⟩ _ rfl rfl).2 m memory' t'
    read
  exact ⟨total, same⟩

end CimArm.FlashFile
