import CimArm.Lib.Cuts
import CimArm.Telesup.DFileTransferProtocol
import Mathlib.Logic.Function.Basic

/-!
# Files split into parts

`splitFile` writes the parts of a file under temporary names, each of the split size at least and
then up to the end of a line, gives them names with their number and the number of parts, and
deletes the file.  For a file that would have more than 999 parts of the split size it takes a
larger size.

* `splits_iff`: the parts are named and cut as they should just in case the size is not 0, its
  bytes can be counted, and no more than 999 parts come of it; for the size 0 the names are
  printed from buffers that were never set.
-/

namespace CimArm.FileManager

open List Function

open FileTransfer (printPadded)

/-! ## Files -/

abbrev Files : Type := List UInt8 → Option (List UInt8)

namespace Files

def write (files : Files) (name content : List UInt8) : Files :=
  Function.update files name (some content)

def remove (files : Files) (name : List UInt8) : Files := Function.update files name none

/-- A file that there is not leaves everything as it is. -/
def rename (files : Files) (source target : List UInt8) : Files :=
  match files source with
  | none => files
  | some content => (files.remove source).write target content

end Files

/-- The size of the buffers for names. -/
def nameBufferSize : Nat := 250

def underscore : UInt8 := 95

def dot : UInt8 := 46

/-- A file name with an extension of three characters; the longest name that is made from it fits
its buffer. -/
structure FileName : Type where
  fn : List UInt8
  ext : List UInt8
  ext_length : ext.length = 3
  room : fn.length + 15 ≤ nameBufferSize

namespace FileName

def full (name : FileName) : List UInt8 := name.fn ++ dot :: name.ext

/-- `%03d` -/
def print3 (n : Nat) : List UInt8 := printPadded 48 3 n

/-- `"%s_%03d_%03d.%s"` -/
def part (name : FileName) (i qty : Nat) : List UInt8 :=
  name.fn ++ underscore :: (print3 i ++ underscore :: (print3 qty ++ dot :: name.ext))

/-- `"%s_%03d_TEMP.%s"` -/
def temp (name : FileName) (i : Nat) : List UInt8 :=
  name.fn ++ underscore :: (print3 i ++ underscore ::
    (FileTransfer.bytes ['T', 'E', 'M', 'P'] ++ dot :: name.ext))

end FileName

/-! ## The loops -/

/-- `MAX_FILE_PART_QTY` -/
def maxFilePartQty : Nat := 999

/-- The largest `long`. -/
def longMax : Nat := 2147483647

def lineFeed : UInt8 := 10

/-- The size of a part, in bytes. -/
def partSize (fSize sSize : Nat) : Nat :=
  if fSize / sSize > maxFilePartQty then fSize / (maxFilePartQty - 1) else sSize

/-- Up to `sSize` bytes of the file, and what is left of it. -/
def copyBytes : Nat → List UInt8 → List UInt8 × List UInt8
  | 0, rest => ([], rest)
  | _ + 1, [] => ([], [])
  | sSize + 1, b :: rest => (b :: (copyBytes sSize rest).1, (copyBytes sSize rest).2)

/-- As long as the byte that was read last does not end a line. -/
def copyLine (buf : UInt8) : List UInt8 → List UInt8 × List UInt8
  | [] => ([], [])
  | b :: rest =>
    if buf = lineFeed then ([], b :: rest) else (b :: (copyLine b rest).1, (copyLine b rest).2)

def copyPart (sSize : Nat) (rest : List UInt8) : List UInt8 × List UInt8 :=
  let first := copyBytes sSize rest
  match first.1.getLast? with
  | none => first
  | some buf => (first.1 ++ (copyLine buf first.2).1, (copyLine buf first.2).2)

/-- The parts of a file; each takes a byte at least, so its length is enough fuel. -/
def copyParts (sSize : Nat) : Nat → List UInt8 → List (List UInt8)
  | 0, _ => []
  | fuel + 1, rest =>
    if rest = [] then []
    else (copyPart sSize rest).1 :: copyParts sSize fuel (copyPart sSize rest).2

/-- The parts from the one with number `fQty` on are written. -/
def writeParts (files : Files) (name : FileName) : Nat → List (List UInt8) → Files
  | _, [] => files
  | fQty, part :: parts => writeParts (files.write (name.temp fQty) part) name (fQty + 1) parts

/-- The names of the first `done` of `qty` parts. -/
def renameFiles (files : Files) (name : FileName) (qty : Nat) : Nat → Files
  | 0 => files
  | done + 1 =>
    (renameFiles files name qty done).rename (name.temp (done + 1)) (name.part (done + 1) qty)

/-- `none`: the names of a file that is not split are printed from buffers that were not set, and
a size that leaves the range of a `long` is undefined. -/
def splitFile (files : Files) (name : FileName) (sSize : Nat) : Option Files :=
  if sSize = 0 ∨ sSize * 1024 > longMax then none
  else
    match files name.full with
    | none => some files
    | some content =>
      let parts := copyParts (partSize content.length (sSize * 1024)) content.length content
      let files := writeParts files name 1 parts
      let files :=
        if content.length = 0 then files.rename name.full (name.part 1 1) else files
      some ((renameFiles files name parts.length parts.length).remove name.full)

/-! ## The parts -/

def Feed (c : UInt8) : Prop := c = lineFeed

theorem copyBytes_eq (sSize : Nat) (rest : List UInt8) :
    copyBytes sSize rest = (rest.take sSize, rest.drop sSize) := by
  induction sSize generalizing rest with
  | zero => rfl
  | succ sSize ih =>
    cases rest with
    | nil => rfl
    | cons b rest => rw [copyBytes, ih]; rfl

theorem copyLine_spec (buf : UInt8) (rest : List UInt8) :
    (copyLine buf rest).1 ++ (copyLine buf rest).2 = rest ∧
      ((copyLine buf rest).2 ≠ [] → ((buf :: (copyLine buf rest).1).getLast?) = some lineFeed) ∧
      ∀ other behind, rest = other ++ behind → (buf :: other).getLast? = some lineFeed →
        (copyLine buf rest).1.length ≤ other.length := by
  induction rest generalizing buf with
  | nil => exact ⟨rfl, fun some => absurd rfl some, fun _ _ _ _ => Nat.zero_le _⟩
  | cons b rest ih =>
    rw [copyLine]
    split_ifs with feed
    · exact ⟨rfl, fun _ => by rw [feed]; rfl, fun _ _ _ _ => Nat.zero_le _⟩
    · rcases ih b with ⟨whole, ends, earliest⟩
      refine ⟨congrArg (b :: ·) whole, ends, ?_⟩
      intro other behind split last
      cases other with
      | nil => exact absurd (Option.some.inj last) feed
      | cons c other =>
        obtain ⟨rfl, tail⟩ := List.cons.inj split
        exact Nat.succ_le_succ (earliest other behind tail last)

theorem copyPart_append (sSize : Nat) (rest : List UInt8) :
    (copyPart sSize rest).1 ++ (copyPart sSize rest).2 = rest := by
  rw [copyPart, copyBytes_eq]
  dsimp only
  split
  · exact take_append_drop sSize rest
  · rename_i buf last
    rw [append_assoc, (copyLine_spec buf _).1, take_append_drop]

theorem copyPart_first {sSize : Nat} (positive : 0 < sSize) {rest : List UInt8} (some : rest ≠ []) :
    Cuts.First Feed sSize (copyPart sSize rest).1 (copyPart sSize rest).2 := by
  have taken : rest.take sSize ≠ [] := by
    rw [Ne, take_eq_nil_iff]
    exact fun either => either.elim (Nat.ne_of_gt positive) some
  obtain ⟨body, buf, front⟩ : ∃ body buf, rest.take sSize = body ++ [buf] :=
    ⟨_, _, (dropLast_append_getLast taken).symm⟩
  have last : (rest.take sSize).getLast? = Option.some buf := by rw [front, List.getLast?_concat]
  have whole := copyPart_append sSize rest
  have part : copyPart sSize rest =
      (body ++ (buf :: (copyLine buf (rest.drop sSize)).1), (copyLine buf (rest.drop sSize)).2) := by
    rw [copyPart, copyBytes_eq]
    simp only [last]
    rw [front, append_assoc]
    rfl
  rcases copyLine_spec buf (rest.drop sSize) with ⟨line, ends, earliest⟩
  rw [part] at whole ⊢
  refine ⟨by simp, ?_, ?_⟩
  · intro more
    have behind : rest.drop sSize ≠ [] := by
      intro none
      rw [none] at more
      exact more rfl
    have length : (rest.take sSize).length = sSize := by
      rw [length_take, Nat.min_eq_left]
      by_contra short
      exact behind (drop_eq_nil_of_le (by omega))
    have stop := ends more
    rw [List.getLast?_eq_some_iff] at stop
    obtain ⟨front_line, split⟩ := stop
    refine ⟨?_, body ++ front_line, lineFeed, by rw [split, append_assoc], rfl⟩
    rw [front, length_append, length_singleton] at length
    dsimp only
    rw [length_append, length_cons]
    omega
  · intro other behind split long
    rw [whole] at split
    obtain ⟨_, stop, whole_other, feed⟩ := long.stops
    have size := long.long
    obtain ⟨tail, rfl⟩ : rest.take sSize <+: other := by
      refine prefix_of_prefix_length_le (List.take_prefix _ _) ⟨behind, split.symm⟩ ?_
      exact Nat.le_trans (length_take_le _ _) size
    have later : rest.drop sSize = tail ++ behind :=
      append_cancel_left ((take_append_drop sSize rest).trans
        (split.trans (append_assoc _ _ _)))
    have stops : (buf :: tail).getLast? = Option.some lineFeed := by
      have ended := congrArg List.getLast? whole_other
      rw [front, append_assoc, List.getLast?_concat, List.getLast?_append_of_ne_nil _ (by simp)]
        at ended
      exact ended.trans (congrArg Option.some feed)
    have sooner := earliest tail behind later stops
    rw [front]
    simp only [length_append, length_cons, length_nil]
    omega

theorem copyParts_greedy {sSize : Nat} (positive : 0 < sSize) {fuel : Nat} {rest : List UInt8}
    (enough : rest.length ≤ fuel) : Cuts.Greedy Feed sSize (copyParts sSize fuel rest) rest := by
  induction fuel generalizing rest with
  | zero =>
    rw [length_eq_zero_iff.1 (Nat.le_zero.1 enough)]
    exact .nil
  | succ fuel ih =>
    rw [copyParts]
    split_ifs with none
    · rw [none]
      exact .nil
    · have first := copyPart_first positive none
      have whole := copyPart_append sSize rest
      have length := congrArg List.length whole
      have part := length_pos_iff.2 first.nonempty
      rw [length_append] at length
      have others := Cuts.Greedy.cons first (ih (by omega))
      rwa [whole] at others

/-! ## The names -/

theorem cons_inj_of_notMem {a : UInt8} {xs ys zs ws : List UInt8} (left : a ∉ xs) (right : a ∉ zs)
    (same : xs ++ a :: ys = zs ++ a :: ws) : xs = zs ∧ ys = ws := by
  induction xs generalizing zs with
  | nil =>
    cases zs with
    | nil => exact ⟨rfl, (List.cons.inj same).2⟩
    | cons z zs => exact absurd ((List.cons.inj same).1 ▸ mem_cons_self) right
  | cons x xs ih =>
    cases zs with
    | nil => exact absurd ((List.cons.inj same).1 ▸ mem_cons_self) left
    | cons z zs =>
      obtain ⟨rfl, rest⟩ := List.cons.inj same
      have tails := ih (fun inside => left (mem_cons_of_mem _ inside))
        (fun inside => right (mem_cons_of_mem _ inside)) rest
      exact ⟨congrArg (x :: ·) tails.1, tails.2⟩

namespace FileName

theorem print3_digits {n : Nat} {c : UInt8} (inside : c ∈ print3 n) :
    Decimal.isDigit c = true := by
  rcases mem_append.1 inside with zero | digit
  · rw [eq_of_mem_replicate zero]
    decide
  · exact Decimal.isDigit_of_mem digit

theorem print3_underscore (n : Nat) : underscore ∉ print3 n :=
  fun inside => absurd (print3_digits inside) (by decide)

theorem print3_injective {m n : Nat} (same : print3 m = print3 n) : m = n := by
  have values := congrArg Decimal.value same
  rwa [print3, print3, printPadded, printPadded,
    show (48 : UInt8) = Decimal.digit 0 from rfl, Decimal.value_zeros, Decimal.value_zeros] at values

variable (name : FileName)

theorem part_inj {i j qty other : Nat} (same : name.part i qty = name.part j other) :
    i = j ∧ qty = other := by
  have rest := (List.cons.inj (append_cancel_left same)).2
  obtain ⟨first, rest⟩ := cons_inj_of_notMem (print3_underscore i) (print3_underscore j) rest
  exact ⟨print3_injective first, print3_injective (append_cancel_right rest)⟩

theorem temp_inj {i j : Nat} (same : name.temp i = name.temp j) : i = j := by
  have rest := (List.cons.inj (append_cancel_left same)).2
  exact print3_injective (cons_inj_of_notMem (print3_underscore i) (print3_underscore j) rest).1

theorem part_ne_temp (i qty j : Nat) : name.part i qty ≠ name.temp j := by
  intro same
  have rest := (List.cons.inj (append_cancel_left same)).2
  obtain ⟨-, rest⟩ := cons_inj_of_notMem (print3_underscore i) (print3_underscore j) rest
  have word : (84 : UInt8) ∈ print3 qty := by
    rw [append_cancel_right rest]
    decide
  exact absurd (print3_digits word) (by decide)

theorem full_ne_part (i qty : Nat) : name.full ≠ name.part i qty := by
  intro same
  have length := congrArg List.length same
  simp only [full, part, length_append, length_cons] at length
  omega

end FileName

/-! ## The files -/

theorem Files.rename_eq {files : Files} {source target content : List UInt8}
    (there : files source = some content) (other : List UInt8) :
    files.rename source target other =
      if other = target then some content else if other = source then none else files other := by
  rw [Files.rename, there]
  simp [Files.write, Files.remove, update_apply]

variable (files : Files) {content : List UInt8} {sSize : Nat}

theorem writeParts_before (name : FileName) {fQty i : Nat} (before : i < fQty)
    (parts : List (List UInt8)) :
    writeParts files name fQty parts (name.temp i) = files (name.temp i) := by
  induction parts generalizing files fQty with
  | nil => rfl
  | cons part parts ih =>
    have other : name.temp i ≠ name.temp fQty := fun same => Nat.ne_of_lt before (name.temp_inj same)
    rw [writeParts, ih _ (Nat.lt_succ_of_lt before), Files.write, update_of_ne other]

theorem writeParts_temp (name : FileName) (fQty : Nat) {parts : List (List UInt8)} {i : Nat}
    (inside : i < parts.length) :
    writeParts files name fQty parts (name.temp (fQty + i)) = some parts[i] := by
  induction parts generalizing files fQty i with
  | nil => cases inside
  | cons part parts ih =>
    cases i with
    | zero =>
      change writeParts (files.write (name.temp fQty) part) name (fQty + 1) parts (name.temp fQty) = _
      rw [writeParts_before _ name (Nat.lt_add_one fQty), Files.write, update_self]
      rfl
    | succ i =>
      have place : fQty + (i + 1) = fQty + 1 + i := by omega
      rw [writeParts, place, ih _ _ (Nat.lt_of_succ_lt_succ inside)]
      rfl

theorem writeParts_other (name : FileName) (fQty : Nat) (parts : List (List UInt8))
    {other : List UInt8} (apart : ∀ i, other ≠ name.temp i) :
    writeParts files name fQty parts other = files other := by
  induction parts generalizing files fQty with
  | nil => rfl
  | cons part parts ih =>
    rw [writeParts, ih, Files.write, update_of_ne (apart fQty)]

/-- What the names stand for when so many parts have theirs. -/
structure Renamed (files after : Files) (name : FileName) (parts : List (List UInt8))
    (done : Nat) : Prop where
  named : ∀ i (inside : i < parts.length), i < done →
    after (name.part (i + 1) parts.length) = some parts[i]
  waiting : ∀ i (inside : i < parts.length), done ≤ i → after (name.temp (i + 1)) = some parts[i]
  others : ∀ other, (∀ i, other ≠ name.temp i) → (∀ i, other ≠ name.part i parts.length) →
    after other = files other

theorem renameFiles_renamed (name : FileName) (parts : List (List UInt8)) {done : Nat}
    (fits : done ≤ parts.length) :
    Renamed files (renameFiles (writeParts files name 1 parts) name parts.length done) name parts
      done := by
  induction done with
  | zero =>
    refine ⟨fun i _ none => absurd none (Nat.not_lt_zero i), ?_, ?_⟩
    · intro i inside _
      rw [renameFiles, Nat.add_comm]
      exact writeParts_temp files name 1 inside
    · exact fun other apart _ => writeParts_other files name 1 parts apart
  | succ done ih =>
    have renamed := ih (Nat.le_of_succ_le fits)
    have there := renamed.waiting done fits (Nat.le_refl done)
    refine ⟨?_, ?_, ?_⟩
    · intro i inside sooner
      rw [renameFiles, Files.rename_eq there]
      by_cases last : i = done
      · rw [if_pos (by rw [last])]
        simp [last]
      · have other : name.part (i + 1) parts.length ≠ name.part (done + 1) parts.length :=
          fun same => last (Nat.succ.inj (name.part_inj same).1)
        rw [if_neg other, if_neg (name.part_ne_temp _ _ _)]
        exact renamed.named i inside (by omega)
    · intro i inside later
      have other : name.temp (i + 1) ≠ name.temp (done + 1) := fun same =>
        Nat.ne_of_gt later (Nat.succ.inj (name.temp_inj same))
      rw [renameFiles, Files.rename_eq there, if_neg (name.part_ne_temp _ _ _).symm, if_neg other]
      exact renamed.waiting i inside (Nat.le_of_succ_le later)
    · intro other temps parts
      rw [renameFiles, Files.rename_eq there, if_neg (parts _), if_neg (temps _)]
      exact renamed.others other temps parts

/-! ## What a split leaves -/

/-- The size that parts have at least: all of a file that is not split. -/
def effectiveSize (fSize sSize : Nat) : Nat :=
  if sSize = 0 then fSize else partSize fSize (sSize * 1024)

/-- The parts of a file: few enough for three digits, and cut behind the ends of lines. -/
structure PartsOf (content : List UInt8) (size : Nat) (parts : List (List UInt8)) : Prop where
  flatten : parts.flatten = content
  some : parts ≠ []
  few : parts.length ≤ maxFilePartQty
  lines : ∀ part ∈ parts.dropLast, size ≤ part.length ∧ part.getLast? = Option.some lineFeed

/-- The parts under their names instead of the file, and other files as they were. -/
structure Leaves (name : FileName) (parts : List (List UInt8)) (before after : Files) : Prop where
  named : ∀ i (inside : i < parts.length),
    after (name.part (i + 1) parts.length) = some parts[i]
  gone : after name.full = none
  others : ∀ other, other ≠ name.full → (∀ i, other ≠ name.temp i) →
    (∀ i, other ≠ name.part i parts.length) → after other = before other

/-- The file is split as it should, whatever other files there are. -/
def Splits (name : FileName) (content : List UInt8) (sSize : Nat) : Prop :=
  ∃ parts, PartsOf content (effectiveSize content.length sSize) parts ∧
    ∀ files : Files, files name.full = some content →
      ∃ after, splitFile files name sSize = some after ∧ Leaves name parts files after

/-- A file below a thousand part sizes that can be cut into more parts than have names. -/
def ManyParts (content : List UInt8) (size : Nat) : Prop :=
  content.length < (maxFilePartQty + 1) * size ∧
    ∃ pieces, Cuts.Cut Feed size pieces content ∧ maxFilePartQty < pieces.length

/-- The parts that a split leaves: one for an empty file. -/
def splitParts (content : List UInt8) (sSize : Nat) : List (List UInt8) :=
  if content = [] then [[]]
  else copyParts (partSize content.length (sSize * 1024)) content.length content

theorem splitFile_leaves {files : Files} {name : FileName} (there : files name.full = some content)
    (positive : sSize ≠ 0) (counted : sSize * 1024 ≤ longMax) :
    ∃ after, splitFile files name sSize = some after ∧
      Leaves name (splitParts content sSize) files after := by
  have defined : ¬ (sSize = 0 ∨ sSize * 1024 > longMax) := by omega
  rw [splitFile, if_neg defined, there]
  refine ⟨_, rfl, ?_⟩
  by_cases none : content = []
  · subst none
    have renamed := @Files.rename_eq _ _ (name.part 1 1) _ there
    change Leaves name [[]] files ((files.rename name.full (name.part 1 1)).remove name.full)
    refine ⟨?_, update_self _ _ _, ?_⟩
    · intro i inside
      obtain rfl : i = 0 := Nat.lt_one_iff.1 inside
      rw [Files.remove, update_of_ne (name.full_ne_part _ _).symm, renamed]
      exact if_pos rfl
    · intro other full _ named
      have apart : other ≠ name.part 1 1 := named 1
      rw [Files.remove, update_of_ne full, renamed, if_neg apart, if_neg full]
  · have length : ¬ content.length = 0 := fun zero => none (length_eq_zero_iff.1 zero)
    have renamed := renameFiles_renamed files name
      (copyParts (partSize content.length (sSize * 1024)) content.length content) (Nat.le_refl _)
    rw [splitParts, if_neg none, if_neg length]
    generalize copyParts (partSize content.length (sSize * 1024)) content.length content = parts
      at renamed ⊢
    refine ⟨?_, update_self _ _ _, ?_⟩
    · intro i inside
      rw [Files.remove, update_of_ne (name.full_ne_part _ _).symm]
      exact renamed.named i inside inside
    · intro other full temps named
      rw [Files.remove, update_of_ne full]
      exact renamed.others other temps named

theorem splitFile_undefined (name : FileName) (wrong : sSize = 0 ∨ sSize * 1024 > longMax) :
    splitFile files name sSize = none := by
  rw [splitFile, if_pos wrong]

theorem partSize_pos {fSize size : Nat} (positive : 0 < size) : 0 < partSize fSize size := by
  rw [partSize]
  split_ifs with many
  · have large : maxFilePartQty + 1 ≤ fSize := Nat.le_trans many (Nat.div_le_self _ _)
    exact Nat.div_pos (by unfold maxFilePartQty at *; omega) (by decide)
  · exact positive

theorem splitParts_greedy (some : content ≠ []) (positive : sSize ≠ 0) :
    Cuts.Greedy Feed (partSize content.length (sSize * 1024)) (splitParts content sSize) content := by
  rw [splitParts, if_neg some]
  exact copyParts_greedy (partSize_pos (by omega)) (Nat.le_refl _)

theorem few_of_larger {pieces : List (List UInt8)} {size : Nat} (kilobyte : 1024 ≤ size)
    (many : maxFilePartQty < content.length / size)
    (cut : Cuts.Cut Feed (partSize content.length size) pieces content) :
    pieces.length ≤ maxFilePartQty := by
  by_cases none : pieces = []
  · rw [none]
    exact Nat.zero_le _
  · have few := cut.length_mul_lt none
    rw [partSize, if_pos many] at few
    have large : (maxFilePartQty + 1) * size ≤ content.length :=
      (Nat.le_div_iff_mul_le (by omega)).1 many
    by_contra more
    have at_least : maxFilePartQty * (content.length / (maxFilePartQty - 1)) ≤
        (pieces.length - 1) * (content.length / (maxFilePartQty - 1)) :=
      Nat.mul_le_mul_right _ (by omega)
    unfold maxFilePartQty at *
    omega

/-- **Splitting a file**: the parts are right if and only if the size is not 0, its bytes can be
counted, and the file cannot be cut into more parts of that size than there are numbers for. -/
theorem splits_iff (name : FileName) (content : List UInt8) (sSize : Nat) :
    Splits name content sSize ↔
      sSize ≠ 0 ∧ sSize * 1024 ≤ longMax ∧ ¬ ManyParts content (sSize * 1024) := by
  constructor
  · rintro ⟨parts, partsOf, splits⟩
    let alone : Files := Function.update (fun _ => none) name.full (some content)
    have there : alone name.full = some content := update_self _ _ _
    obtain ⟨after, split, leaves⟩ := splits alone there
    have defined : ¬ (sSize = 0 ∨ sSize * 1024 > longMax) := by
      intro wrong
      rw [splitFile_undefined _ _ wrong] at split
      cases split
    rw [not_or] at defined
    refine ⟨defined.1, Nat.not_lt.1 defined.2, ?_⟩
    rintro ⟨small, pieces, cut, many⟩
    have size : partSize content.length (sSize * 1024) = sSize * 1024 := by
      rw [partSize, if_neg]
      rw [Nat.not_lt]
      exact Nat.le_of_lt_succ ((Nat.div_lt_iff_lt_mul (by omega)).2 small)
    have nonempty : content ≠ [] := by
      rintro rfl
      cases pieces with
      | nil => exact absurd many (Nat.not_lt_zero _)
      | cons piece pieces =>
        have head := cut.nonempty piece mem_cons_self
        exact head (append_eq_nil_iff.1 cut.flatten).1
    have greedy := splitParts_greedy nonempty defined.1
    rw [size] at greedy
    have more := Nat.lt_of_lt_of_le many (greedy.length_ge cut)
    -- the names of the parts have another number of parts than the file has
    obtain ⟨_, same, found⟩ := splitFile_leaves there defined.1 (Nat.not_lt.1 defined.2)
    obtain rfl := Option.some.inj (split.symm.trans same)
    have first := length_pos_iff.2 partsOf.some
    have named := leaves.named 0 first
    have unnamed := found.others (name.part (0 + 1) parts.length) (name.full_ne_part _ _).symm
      (name.part_ne_temp _ _) fun i same => by
        have counts := (name.part_inj same).2
        have few := partsOf.few
        omega
    have blank : alone (name.part (0 + 1) parts.length) = none :=
      update_of_ne (name.full_ne_part _ _).symm _ _
    rw [named, blank] at unnamed
    cases unnamed
  · rintro ⟨positive, counted, few⟩
    refine ⟨splitParts content sSize, ?_, fun files there => splitFile_leaves there positive counted⟩
    by_cases none : content = []
    · rw [splitParts, if_pos none]
      exact ⟨by simp [none], by simp, by decide, by simp⟩
    · have greedy := splitParts_greedy none positive
      have cut := greedy.cut
      refine ⟨cut.flatten, greedy.ne_nil none, ?_, ?_⟩
      · by_cases many : maxFilePartQty < content.length / (sSize * 1024)
        · exact few_of_larger (by omega) many cut
        · have size : partSize content.length (sSize * 1024) = sSize * 1024 := if_neg many
          rw [size] at cut
          by_contra more
          refine few ⟨?_, _, cut, Nat.lt_of_not_le more⟩
          exact (Nat.div_lt_iff_lt_mul (by omega)).1 (Nat.lt_succ_of_le (Nat.not_lt.1 many))
      · intro part member
        have whole := cut.whole part member
        rw [effectiveSize, if_neg positive]
        obtain ⟨body, last, rfl, feed⟩ := whole.stops
        exact ⟨whole.long, by rw [List.getLast?_concat, show last = lineFeed from feed]⟩

/-- The name `a.auc`. -/
def auditName : FileName where
  fn := FileTransfer.bytes ['a']
  ext := FileTransfer.bytes ['a', 'u', 'c']
  ext_length := rfl
  room := Nat.le_of_ble_eq_true rfl

/-- Without splitting, the name of the only part is not the one of the file. -/
theorem splits_whole :
    ¬ ∀ (name : FileName) (content : List UInt8) (sSize : Nat), Splits name content sSize := by
  intro claim
  rcases claim auditName [65] 0 with ⟨parts, -, splits⟩
  obtain ⟨after, split, -⟩ := splits (fun _ => some [65]) rfl
  rw [splitFile_undefined _ _ (.inl rfl)] at split
  cases split

end CimArm.FileManager
