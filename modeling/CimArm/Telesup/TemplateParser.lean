import CimArm.Lib.Stretches
import CimArm.Telesup.G2RemoteProxy
import Mathlib.Data.List.Infix

/-!
# The template of a supervision

A template is a text file.  Behind a header line with the version of the protocol it has
messages, each from a line `Message` to a line `End`; a message whose second line carries the
mark `PLANTILLAS` is skipped.  `parseTemplate` reads the file in fragments, as many bytes as its
line buffer holds, gathers them in a buffer of `msgSize` bytes, and at `End` executes what it has
gathered.

It gathers from the header or the last `End` on and not from `Message` on, looks at fragments as
if they were lines, and does not ask whether there is room left:

* `meets_iff`: it executes the messages of the file if and only if no fragment of a long line
  reads `Message` or `End`, what is gathered always fits, and each stretch up to an `End` is
  skipped exactly when the line behind its first `Message` carries the mark and begins with its
  `Message` when it is not.
-/

namespace CimArm.Telesup

open Stretches List

/-! ## The parser -/

def ascii (s : String) : List UInt8 := s.toList.map fun c => UInt8.ofNat c.toNat

/-- `char token[500]` and `char buffer[500]` -/
def bufferSize : Nat := 500

/-- `char msg[2000]` -/
def msgSize : Nat := 2000

/-- What `getSystemVersionByTelcoType: CMP_TSUP_ID` answers. -/
def PTSDVersion : List UInt8 := ascii "PTSD-1.19"

/-- A write past `msg`, or in front of `token`. -/
inductive Fault : Type
  | msg
  | token

structure TemplateParser : Type where
  msg : List UInt8
  analiceMark : Bool
  ignoreMessage : Bool
  isFirstLine : Bool
  wrongPTSDVersion : Bool
  myIsEmptyTemplate : Bool
  myIsInitBoxTemplate : Bool
  /-- The messages that were handed to `proccessPTSD`. -/
  executed : List (List UInt8)

namespace TemplateParser

/-- Reads up to a line feed, or so many bytes, and leaves the rest of the file. -/
def fgets : Nat → List UInt8 → List UInt8 × List UInt8
  | 0, f => ([], f)
  | _ + 1, [] => ([], [])
  | size + 1, c :: f =>
    if c = newline then ([c], f)
    else
      let (buffer, f) := fgets size f
      (c :: buffer, f)

/-- What `fgets` puts into the buffer one time after the other.  It takes a byte each time, so
the length of the file is enough fuel. -/
def fragmentsWith : Nat → List UInt8 → List (List UInt8)
  | 0, _ => []
  | fuel + 1, f =>
    if f = [] then []
    else
      let (buffer, f) := fgets (bufferSize - 1) f
      buffer :: fragmentsWith fuel f

def fragments (f : List UInt8) : List (List UInt8) := fragmentsWith f.length f

/-- `strstr` finds something. -/
def strstr (s find : List UInt8) : Bool := decide (find <:+: s)

/-- `strstr` finds something, and it is as long as the text. -/
def reads (s find : List UInt8) : Bool := strstr s find && s.length = find.length

/-- `trim(token)` -/
def content (buffer : List UInt8) : List UInt8 := trim (getNextToken buffer).1

section

variable (self : TemplateParser) (text : List UInt8)

/-- What is done with a first line; the loop is left if it is not the header of a template to
apply. -/
def readFirstLine : TemplateParser × Bool :=
  let self := { self with msg := [], isFirstLine := false }
  if strstr text (ascii "INIT TEMPLATE") then
    ({ self with myIsInitBoxTemplate := true, isFirstLine := true }, true)
  else if strstr text (ascii "EMPTY TEMPLATE") then
    ({ self with myIsEmptyTemplate := true }, false)
  else if strstr text PTSDVersion then (self, true)
  else ({ self with wrongPTSDVersion := true }, false)

def readMark : TemplateParser :=
  if self.analiceMark then
    { self with
      ignoreMessage := self.ignoreMessage || strstr text (ascii "PLANTILLAS")
      analiceMark := false }
  else self

def readMessage : TemplateParser :=
  if reads text (ascii "Message") then { self with analiceMark := true } else self

def readEnd : TemplateParser :=
  if reads text (ascii "End") then
    let self :=
      if !self.ignoreMessage then { self with executed := self.executed ++ [self.msg] }
      else { self with ignoreMessage := false }
    { self with msg := [] }
  else self

def readLine : TemplateParser := ((self.readMark text).readMessage text).readEnd text

end

/-- One round of the loop.  `trim` is called more than once, and of an empty text it goes on in
front of the token as long as there are blanks; `before` is the byte there. -/
def readFragment (before : UInt8) (self : TemplateParser) (buffer : List UInt8) :
    Except Fault (TemplateParser × Bool) :=
  let buffer := cString buffer
  if msgSize ≤ self.msg.length + buffer.length then .error .msg
  else
    let self := { self with msg := self.msg ++ buffer }
    if buffer = [] then .ok (self, true)
    else
      let text := content buffer
      if text = [] ∧ isblankchar before = true then .error .token
      else if self.isFirstLine then
        let (self, goesOn) := self.readFirstLine text
        if goesOn then .ok (self.readLine text, true) else .ok (self, false)
      else .ok (self.readLine text, true)

def parse (before : UInt8) : TemplateParser → List (List UInt8) → Except Fault TemplateParser
  | self, [] => .ok self
  | self, buffer :: buffers =>
    match readFragment before self buffer with
    | .error fault => .error fault
    | .ok (self, true) => parse before self buffers
    | .ok (self, false) => .ok self

/-- In front of the loop. -/
def start : TemplateParser where
  msg := []
  analiceMark := false
  ignoreMessage := false
  isFirstLine := true
  wrongPTSDVersion := false
  myIsEmptyTemplate := false
  myIsInitBoxTemplate := false
  executed := []

def parseTemplate (before : UInt8) (file : List UInt8) : Except Fault TemplateParser :=
  parse before start (fragments file)

/-! ## The messages of a file -/

/-- The lines of a file, with their line feeds. -/
def lines (file : List UInt8) : List (List UInt8) := stretches (fun c => decide (c = newline)) file

/-- A line that fits in the buffer and reads `Message`. -/
def isMessage (line : List UInt8) : Bool :=
  decide (line.length < bufferSize) && reads (content line) (ascii "Message")

/-- A line that fits in the buffer and reads `End`. -/
def isEnd (line : List UInt8) : Bool :=
  decide (line.length < bufferSize) && reads (content line) (ascii "End")

def isMarked (line : List UInt8) : Bool := strstr (content line) (ascii "PLANTILLAS")

/-- Whether lines end with a line `End`. -/
def ends (stretch : List (List UInt8)) : Bool := stretch.getLast?.any isEnd

/-- The message in the lines up to an `End`: it begins with their first `Message`. -/
def block (stretch : List (List UInt8)) : Option (List UInt8) :=
  match stretch.dropWhile fun line => !isMessage line with
  | message :: next :: others =>
    if ends stretch && !isMarked next then some (message :: next :: others).flatten else none
  | _ => none

/-- The messages to execute. -/
def blocks (ls : List (List UInt8)) : List (List UInt8) := (stretches isEnd ls).filterMap block

/-- No fragment of a line that does not fit in the buffer reads `Message` or `End`. -/
def Unbroken (ls : List (List UInt8)) : Prop :=
  ∀ line ∈ ls, bufferSize ≤ line.length → ∀ buffer ∈ fragments line,
    reads (content buffer) (ascii "Message") = false ∧ reads (content buffer) (ascii "End") = false

/-- What a template is parsed for: the messages of the file are executed, all buffers hold what is
written to them, and if the lines are read no fragment of one is taken for a `Message` or an
`End`. -/
def Meets (before : UInt8) (file : List UInt8) : Prop :=
  (∀ buffer ∈ fragments file, buffer.length < bufferSize) ∧
    ∃ done, parseTemplate before file = .ok done ∧ done.executed = blocks (lines file) ∧
      (done.wrongPTSDVersion = false → done.myIsEmptyTemplate = false → Unbroken (lines file))

/-! ## When it does -/

/-- What the first lines are found to be. -/
inductive Header : Type
  | missing
  | refused (buffer : List UInt8)
  | found (behind : List (List UInt8))

def header : List (List UInt8) → Header
  | [] => .missing
  | buffer :: behind =>
    if strstr (content buffer) (ascii "INIT TEMPLATE") then header behind
    else if strstr (content buffer) (ascii "EMPTY TEMPLATE") then .refused buffer
    else if strstr (content buffer) PTSDVersion then .found behind
    else .refused buffer

/-- What is gathered before a line has room with it, from `size` bytes on. -/
def Room : Nat → List (List UInt8) → Prop
  | _, [] => True
  | size, line :: ls =>
    size + line.length < msgSize ∧ Room (if isEnd line then 0 else size + line.length) ls

/-- With a blank in front of `token` no fragment is blank. -/
def Printed (before : UInt8) (buffers : List (List UInt8)) : Prop :=
  isblankchar before = true → ∀ buffer ∈ buffers, content buffer ≠ []

/-- Whether a mark is found behind a `Message`; only the first fragment of a line is looked at. -/
def marked : Bool → List (List UInt8) → Bool
  | _, [] => false
  | analiceMark, line :: ls =>
    (analiceMark && isMarked (line.take (bufferSize - 1))) || marked (isMessage line) ls

/-- Lines up to an `End` that are skipped exactly when the line behind their first `Message`
carries the mark, and begin with it when they are not. -/
def Sound (stretch : List (List UInt8)) : Prop :=
  ∃ behind message next others, stretch = behind ++ message :: next :: others ∧
    (∀ line ∈ behind, isMessage line = false) ∧ isMessage message = true ∧
    marked false stretch = isMarked next ∧ (isMarked next = false → behind = [])

/-- The condition. -/
def Fits (before : UInt8) (file : List UInt8) : Prop :=
  match header (fragments file) with
  | .missing => True
  | .refused buffer => Printed before [buffer] ∧ blocks (lines file) = []
  | .found behind =>
    Unbroken (lines file) ∧ Room 0 (lines behind.flatten) ∧ Printed before behind ∧
      ∀ stretch ∈ stretches isEnd (lines behind.flatten), ends stretch = true → Sound stretch

end TemplateParser

/-! ## The fragments of a file -/

namespace TemplateParser

/-- What a line is made of but its end. -/
def Plain (body : List UInt8) : Prop := Open (fun c => decide (c = newline)) body

theorem Plain.cons {c : UInt8} {body : List UInt8} :
    Plain (c :: body) ↔ c ≠ newline ∧ Plain body := by
  rw [Plain, Open.cons, decide_eq_false_iff_not]
  rfl

variable {body : List UInt8} (f : List UInt8) {size : Nat}

theorem Plain.append {other : List UInt8} : Plain (body ++ other) ↔ Plain body ∧ Plain other :=
  forall_mem_append

theorem fgets_full (plain : Plain body) (f : List UInt8) :
    fgets body.length (body ++ f) = (body, f) := by
  induction body with
  | nil => rw [nil_append, length_nil, fgets]
  | cons c body ih =>
    obtain ⟨other, plain⟩ := Plain.cons.1 plain
    rw [length_cons, cons_append, fgets, if_neg other, ih plain]

theorem fgets_line (plain : Plain body) (fits : body.length < size) (f : List UInt8) :
    fgets size (body ++ newline :: f) = (body ++ [newline], f) := by
  induction body generalizing size with
  | nil =>
    obtain ⟨size, rfl⟩ : ∃ k, size = k + 1 := ⟨size - 1, by simp at fits; omega⟩
    rw [nil_append, fgets, if_pos rfl, nil_append]
  | cons c body ih =>
    obtain ⟨other, plain⟩ := Plain.cons.1 plain
    rw [length_cons] at fits
    obtain ⟨size, rfl⟩ : ∃ k, size = k + 1 := ⟨size - 1, by omega⟩
    rw [cons_append, fgets, if_neg other, ih plain (Nat.lt_of_succ_lt_succ fits)]
    rfl

theorem fgets_last (plain : Plain body) (fits : body.length ≤ size) :
    fgets size body = (body, []) := by
  induction body generalizing size with
  | nil =>
    cases size with
    | zero => rw [fgets]
    | succ size => rw [fgets]
  | cons c body ih =>
    obtain ⟨other, plain⟩ := Plain.cons.1 plain
    rw [length_cons] at fits
    obtain ⟨size, rfl⟩ : ∃ k, size = k + 1 := ⟨size - 1, by omega⟩
    rw [fgets, if_neg other, ih plain (Nat.le_of_succ_le_succ fits)]

theorem fgets_append (size : Nat) (f : List UInt8) : (fgets size f).1 ++ (fgets size f).2 = f := by
  induction size, f using fgets.induct with
  | case1 f => rw [fgets, nil_append]
  | case2 size => rw [fgets, nil_append]
  | case3 size f => rw [fgets, if_pos rfl, singleton_append]
  | case4 size c f other buffer rest same ih =>
    rw [fgets, if_neg other]
    exact congrArg (c :: ·) ih

theorem fgets_length (size : Nat) (f : List UInt8) : (fgets size f).1.length ≤ size := by
  induction size, f using fgets.induct with
  | case1 f => rw [fgets, length_nil]
  | case2 size => exact Nat.zero_le _
  | case3 size f =>
    rw [fgets, if_pos rfl]
    exact Nat.succ_le_succ (Nat.zero_le size)
  | case4 size c f other buffer rest same ih =>
    rw [fgets, if_neg other]
    exact Nat.succ_le_succ ih

theorem fgets_ne_nil {f : List UInt8} (room : 0 < size) (more : f ≠ []) :
    (fgets size f).1 ≠ [] := by
  cases size with
  | zero => exact absurd room (Nat.lt_irrefl 0)
  | succ size =>
    cases f with
    | nil => exact absurd rfl more
    | cons c f =>
      rw [fgets]
      by_cases ended : c = newline
      · rw [if_pos ended]
        exact cons_ne_nil _ _
      · rw [if_neg ended]
        exact cons_ne_nil _ _

theorem fgets_lt {f : List UInt8} (more : f ≠ []) :
    (fgets (bufferSize - 1) f).2.length < f.length := by
  have whole := congrArg List.length (fgets_append (bufferSize - 1) f)
  have some := length_pos_iff.2 (fgets_ne_nil (by decide : 0 < bufferSize - 1) more)
  rw [length_append] at whole
  omega

theorem fragmentsWith_succ (fuel : Nat) {f : List UInt8} (more : f ≠ []) :
    fragmentsWith (fuel + 1) f = (fgets (bufferSize - 1) f).1 ::
      fragmentsWith fuel (fgets (bufferSize - 1) f).2 := by
  rw [fragmentsWith, if_neg more]

theorem fragmentsWith_eq {fuel : Nat} {f : List UInt8} (enough : f.length ≤ fuel) :
    fragmentsWith fuel f = fragments f := by
  rw [fragments]
  generalize least : f.length = k at enough ⊢
  induction k using Nat.strong_induction_on generalizing fuel f with
  | _ k ih =>
    cases fuel with
    | zero =>
      obtain rfl : k = 0 := Nat.le_zero.1 enough
      rfl
    | succ fuel =>
      cases k with
      | zero => rw [length_eq_zero_iff.1 least]; rfl
      | succ k =>
        have more : f ≠ [] := by
          rintro rfl
          cases least
        have shorter := fgets_lt more
        rw [least] at shorter
        rw [fragmentsWith_succ fuel more, fragmentsWith_succ k more]
        rw [ih _ shorter rfl (show _ ≤ fuel by omega), ih _ shorter rfl (show _ ≤ k by omega)]

theorem fragments_eq {f : List UInt8} (more : f ≠ []) :
    fragments f = (fgets (bufferSize - 1) f).1 :: fragments (fgets (bufferSize - 1) f).2 := by
  obtain ⟨fuel, same⟩ : ∃ k, f.length = k + 1 :=
    ⟨f.length - 1, by have := length_pos_iff.2 more; omega⟩
  have shorter := fgets_lt more
  rw [fragments, same, fragmentsWith_succ fuel more, fragmentsWith_eq (by omega)]

@[simp] theorem fragments_nil : fragments [] = [] := rfl

theorem fragments_induction {motive : List UInt8 → Prop} (nil : motive [])
    (cons : ∀ f, f ≠ [] → motive (fgets (bufferSize - 1) f).2 → motive f) (f : List UInt8) :
    motive f := by
  induction least : f.length using Nat.strong_induction_on generalizing f with
  | _ k ih =>
    by_cases more : f = []
    · rw [more]
      exact nil
    · exact cons f more (ih _ (least ▸ fgets_lt more) _ rfl)

theorem flatten_fragments : (fragments f).flatten = f := by
  induction f using fragments_induction with
  | nil => rfl
  | cons f more ih => rw [fragments_eq more, flatten_cons, ih, fgets_append]

theorem of_mem_fragments : ∀ buffer ∈ fragments f, buffer ≠ [] ∧ buffer.length < bufferSize := by
  induction f using fragments_induction with
  | nil => simp
  | cons f more ih =>
    rw [fragments_eq more]
    refine forall_mem_cons.2 ⟨⟨fgets_ne_nil (by decide) more, ?_⟩, ih⟩
    exact Nat.lt_of_le_of_lt (fgets_length _ f) (by decide)

theorem fragments_full (plain : Plain body) (full : body.length = bufferSize - 1) (f : List UInt8) :
    fragments (body ++ f) = body :: fragments f := by
  have more : body ++ f ≠ [] := by
    intro none
    rw [(append_eq_nil_iff.1 none).1] at full
    cases full
  rw [fragments_eq more, ← full, fgets_full plain]

theorem fragments_line (plain : Plain body) (fits : body.length < bufferSize - 1) (f : List UInt8) :
    fragments (body ++ newline :: f) = (body ++ [newline]) :: fragments f := by
  rw [fragments_eq (by simp), fgets_line plain fits]

theorem fragments_append (plain : Plain body) (f : List UInt8) :
    fragments (body ++ newline :: f) = fragments (body ++ [newline]) ++ fragments f := by
  induction least : body.length using Nat.strong_induction_on generalizing body with
  | _ k ih =>
    by_cases fits : body.length < bufferSize - 1
    · rw [fragments_line plain fits, fragments_line plain fits, fragments_nil, singleton_append]
    · have parts := take_append_drop (bufferSize - 1) body
      rw [← parts] at plain ⊢
      obtain ⟨early, late⟩ := Plain.append.1 plain
      have full : (body.take (bufferSize - 1)).length = bufferSize - 1 := by
        rw [length_take]
        omega
      have shorter : (body.drop (bufferSize - 1)).length < k := by
        rw [length_drop, least]
        have some : 0 < bufferSize - 1 := by decide
        omega
      rw [append_assoc, append_assoc, fragments_full early full,
        fragments_full early full, ih _ shorter late rfl, cons_append]

theorem newline_of_stops {c : UInt8} (stops : decide (c = newline) = true) : c = newline :=
  of_decide_eq_true stops

theorem fragments_eq_flatMap : fragments f = (lines f).flatMap fragments := by
  rw [lines]
  induction f using stretches_induction fun c => decide (c = newline) with
  | nil => rfl
  | last l some free => rw [stretches_open some free, flatMap_singleton]
  | cons body c l free stops ih =>
    rw [stretches_closed free stops, newline_of_stops stops, fragments_append free, ih,
      flatMap_cons]

/-! ## The fragments of a line -/

/-- What is cut off as a line. -/
structure IsLine (line : List UInt8) : Prop where
  some : line ≠ []
  plain : Plain line.dropLast

theorem isLine_of_mem {f : List UInt8} : ∀ line ∈ lines f, IsLine line := by
  intro line member
  obtain ⟨some, plain⟩ := (cut_stretches _ f).of_mem line member
  exact ⟨some, plain⟩

namespace IsLine

variable {line : List UInt8} (isLine : IsLine line)

include isLine

theorem fragments_short (fits : line.length < bufferSize) : fragments line = [line] := by
  have parts := dropLast_append_getLast isLine.some
  by_cases ended : line.getLast isLine.some = newline
  · rw [ended] at parts
    have shorter : line.dropLast.length < bufferSize - 1 := by
      have some := length_pos_iff.2 isLine.some
      rw [length_dropLast]
      omega
    rw [← parts, fragments_line isLine.plain shorter, fragments_nil]
  · have plain : Plain line := by
      rw [← parts]
      exact Plain.append.2 ⟨isLine.plain, Plain.cons.2 ⟨ended, .nil⟩⟩
    have size : line.length ≤ bufferSize - 1 := Nat.le_pred_of_lt fits
    rw [fragments_eq isLine.some, fgets_last plain size, fragments_nil]

theorem plain_take (long : bufferSize ≤ line.length) : Plain (line.take (bufferSize - 1)) := by
  intro c member
  apply isLine.plain c
  rw [dropLast_eq_take]
  have early : bufferSize - 1 ≤ line.length - 1 := by omega
  exact (take_subset_take_left line early) member

theorem fragments_long (long : bufferSize ≤ line.length) :
    fragments line = line.take (bufferSize - 1) :: fragments (line.drop (bufferSize - 1)) := by
  have full : (line.take (bufferSize - 1)).length = bufferSize - 1 := by
    rw [length_take]
    omega
  rw [← fragments_full (isLine.plain_take long) full, take_append_drop]

end IsLine

end TemplateParser

/-! ## The lines behind the header -/

namespace TemplateParser

/-- What reading a line does to the parser. -/
def pass (self : TemplateParser) (line : List UInt8) : TemplateParser :=
  let skipped := self.ignoreMessage || (self.analiceMark && isMarked (line.take (bufferSize - 1)))
  if isEnd line then
    { self with
      msg := []
      analiceMark := isMessage line
      ignoreMessage := false
      executed := if skipped then self.executed else self.executed ++ [self.msg ++ line] }
  else
    { self with
      msg := self.msg ++ line
      analiceMark := isMessage line
      ignoreMessage := skipped }

theorem isMessage_of_lt {line : List UInt8} (fits : line.length < bufferSize) :
    isMessage line = reads (content line) (ascii "Message") := by
  rw [isMessage, decide_eq_true fits, Bool.true_and]

theorem isEnd_of_lt {line : List UInt8} (fits : line.length < bufferSize) :
    isEnd line = reads (content line) (ascii "End") := by
  rw [isEnd, decide_eq_true fits, Bool.true_and]

theorem isMessage_of_le {line : List UInt8} (long : bufferSize ≤ line.length) :
    isMessage line = false := by
  rw [isMessage, decide_eq_false (Nat.not_lt.2 long), Bool.false_and]

theorem isEnd_of_le {line : List UInt8} (long : bufferSize ≤ line.length) :
    isEnd line = false := by
  rw [isEnd, decide_eq_false (Nat.not_lt.2 long), Bool.false_and]

theorem readMark_eq (self : TemplateParser) (text : List UInt8) :
    self.readMark text =
      { self with
        ignoreMessage :=
          self.ignoreMessage || (self.analiceMark && strstr text (ascii "PLANTILLAS"))
        analiceMark := false } := by
  cases self with
  | mk msg analiceMark =>
    cases analiceMark with
    | false => rw [readMark, if_neg Bool.false_ne_true, Bool.false_and, Bool.or_false]
    | true => rw [readMark, if_pos rfl, Bool.true_and]

theorem readMessage_eq {self : TemplateParser} (looked : self.analiceMark = false)
    (text : List UInt8) :
    self.readMessage text = { self with analiceMark := reads text (ascii "Message") } := by
  rw [readMessage]
  cases reads text (ascii "Message") with
  | false => rw [if_neg Bool.false_ne_true, ← looked]
  | true => rw [if_pos rfl]

theorem readEnd_eq (self : TemplateParser) (text : List UInt8) :
    self.readEnd text =
      if reads text (ascii "End") then
        { self with
          msg := []
          ignoreMessage := false
          executed :=
            if self.ignoreMessage then self.executed else self.executed ++ [self.msg] }
      else self := by
  cases self with
  | mk msg analiceMark ignoreMessage =>
    rw [readEnd]
    cases ignoreMessage with
    | false => rfl
    | true => rfl

theorem readLine_eq_pass (self : TemplateParser) {buffer : List UInt8}
    (fits : buffer.length < bufferSize) :
    readLine { self with msg := self.msg ++ buffer } (content buffer) = self.pass buffer := by
  have first : buffer.take (bufferSize - 1) = buffer :=
    take_of_length_le (Nat.le_pred_of_lt fits)
  rw [readLine, readMark_eq, readMessage_eq rfl, readEnd_eq, pass, first, isEnd_of_lt fits,
    isMessage_of_lt fits]
  rfl

theorem cString_of_text {buffer : List UInt8} (text : ∀ c ∈ buffer, c ≠ 0) :
    cString buffer = buffer := by
  rw [cString, takeWhile_eq_self_iff]
  intro c member
  exact decide_eq_true (text c member)

theorem readFragment_eq {before : UInt8} {self : TemplateParser} {buffer : List UInt8}
    (some : buffer ≠ []) (fits : buffer.length < bufferSize) (text : ∀ c ∈ buffer, c ≠ 0)
    (behind : self.isFirstLine = false) :
    readFragment before self buffer =
      if msgSize ≤ self.msg.length + buffer.length then .error .msg
      else if content buffer = [] ∧ isblankchar before = true then .error .token
      else .ok (self.pass buffer, true) := by
  rw [readFragment, cString_of_text text, ← readLine_eq_pass self fits]
  simp only [if_neg some, behind, Bool.false_eq_true, if_false]

theorem pass_isFirstLine (self : TemplateParser) (line : List UInt8) :
    (self.pass line).isFirstLine = self.isFirstLine := by
  rw [pass]
  split <;> rfl

theorem pass_msg_length (self : TemplateParser) (line : List UInt8) :
    (self.pass line).msg.length =
      if isEnd line then 0 else self.msg.length + line.length := by
  rw [pass]
  split
  · rfl
  · exact length_append

theorem Printed.cons {before : UInt8} {buffer : List UInt8} {buffers : List (List UInt8)} :
    Printed before (buffer :: buffers) ↔ Printed before [buffer] ∧ Printed before buffers := by
  constructor
  · intro printed
    refine ⟨fun blank other member => ?_, fun blank other member => ?_⟩
    · rw [mem_singleton.1 member]
      exact printed blank buffer mem_cons_self
    · exact printed blank other (mem_cons_of_mem _ member)
  · intro both blank
    exact forall_mem_cons.2 ⟨both.1 blank buffer mem_cons_self, both.2 blank⟩

/-- The loop behind the header goes through if and only if the fragments have room and none is
blank where it must not be. -/
theorem parse_iff {before : UInt8} {self done : TemplateParser} {buffers : List (List UInt8)}
    (fit : ∀ buffer ∈ buffers, buffer ≠ [] ∧ buffer.length < bufferSize)
    (text : ∀ buffer ∈ buffers, ∀ c ∈ buffer, c ≠ 0) (behind : self.isFirstLine = false) :
    parse before self buffers = .ok done ↔
      Room self.msg.length buffers ∧ Printed before buffers ∧ buffers.foldl pass self = done := by
  induction buffers generalizing self with
  | nil => simp [parse, Room, Printed]
  | cons buffer buffers ih =>
    obtain ⟨⟨some, fits⟩, fit⟩ := forall_mem_cons.1 fit
    obtain ⟨plain, text⟩ := forall_mem_cons.1 text
    have still : (self.pass buffer).isFirstLine = false := by
      rw [pass_isFirstLine, behind]
    have next := ih fit text still
    rw [pass_msg_length] at next
    rw [parse, readFragment_eq some fits plain behind, Room, Printed.cons, foldl_cons]
    by_cases overflows : msgSize ≤ self.msg.length + buffer.length
    · rw [if_pos overflows]
      constructor
      · intro fault
        cases fault
      · rintro ⟨⟨room, -⟩, -⟩
        exact absurd room (Nat.not_lt.2 overflows)
    · rw [if_neg overflows]
      by_cases blank : content buffer = [] ∧ isblankchar before = true
      · rw [if_pos blank]
        constructor
        · intro fault
          cases fault
        · rintro ⟨-, ⟨printed, -⟩, -⟩
          exact absurd blank.1 (printed blank.2 buffer mem_cons_self)
      · rw [if_neg blank]
        have printed : Printed before [buffer] := by
          intro isBlank other member
          rw [mem_singleton.1 member]
          exact fun none => blank ⟨none, isBlank⟩
        have room : self.msg.length + buffer.length < msgSize := Nat.not_le.1 overflows
        simp only [next, room, printed, true_and]

/-! ## From fragments to lines -/

/-- Fragments none of which reads `Message` or `End`. -/
def Within (buffers : List (List UInt8)) : Prop :=
  ∀ buffer ∈ buffers, isMessage buffer = false ∧ isEnd buffer = false

variable {ls : List (List UInt8)}

theorem within_fragments (unbroken : Unbroken ls) {line : List UInt8} (member : line ∈ ls)
    (long : bufferSize ≤ line.length) : Within (fragments line) := by
  intro buffer part
  have fits := (of_mem_fragments line buffer part).2
  rw [isMessage_of_lt fits, isEnd_of_lt fits]
  exact unbroken line member long buffer part

theorem foldl_pass_within {self : TemplateParser} (quiet : self.analiceMark = false)
    {buffers : List (List UInt8)} (within : Within buffers) :
    buffers.foldl pass self = { self with msg := self.msg ++ buffers.flatten } := by
  induction buffers generalizing self with
  | nil => rw [foldl_nil, flatten_nil, append_nil]
  | cons buffer buffers ih =>
    obtain ⟨⟨noMessage, noEnd⟩, within⟩ := forall_mem_cons.1 within
    have once : self.pass buffer = { self with msg := self.msg ++ buffer } := by
      rw [pass, noEnd, noMessage, quiet, Bool.false_and, Bool.or_false]
      cases self
      cases quiet
      rfl
    have rest := @ih { self with msg := self.msg ++ buffer } quiet within
    rw [foldl_cons, once, rest, flatten_cons, append_assoc]

theorem foldl_pass_long (self : TemplateParser) {line : List UInt8} (isLine : IsLine line)
    (long : bufferSize ≤ line.length) (within : Within (fragments line)) :
    (fragments line).foldl pass self = self.pass line := by
  rw [isLine.fragments_long long] at within ⊢
  obtain ⟨⟨noMessage, noEnd⟩, within⟩ := forall_mem_cons.1 within
  have first : (line.take (bufferSize - 1)).take (bufferSize - 1) = line.take (bufferSize - 1) :=
    take_of_length_le (length_take_le _ _)
  rw [foldl_cons, pass, noEnd, noMessage, first, foldl_pass_within rfl within, pass,
    isEnd_of_le long, isMessage_of_le long, flatten_fragments]
  simp only [append_assoc, take_append_drop, Bool.false_eq_true, if_false]

theorem foldl_pass_fragments (areLines : ∀ line ∈ ls, IsLine line) (unbroken : Unbroken ls)
    (self : TemplateParser) : (ls.flatMap fragments).foldl pass self = ls.foldl pass self := by
  rw [foldl_flatMap]
  apply foldl_ext
  intro self line member
  by_cases fits : line.length < bufferSize
  · rw [(areLines line member).fragments_short fits]
    rfl
  · have long := Nat.not_lt.1 fits
    exact foldl_pass_long self (areLines line member) long (within_fragments unbroken member long)

theorem room_within {size : Nat} {buffer : List UInt8} {buffers more : List (List UInt8)}
    (within : Within (buffer :: buffers)) :
    Room size (buffer :: buffers ++ more) ↔
      size + (buffer :: buffers).flatten.length < msgSize ∧
        Room (size + (buffer :: buffers).flatten.length) more := by
  induction buffers generalizing size buffer with
  | nil =>
    obtain ⟨⟨-, noEnd⟩, -⟩ := forall_mem_cons.1 within
    rw [flatten_singleton, singleton_append, Room, noEnd]
    rfl
  | cons next buffers ih =>
    obtain ⟨⟨-, noEnd⟩, within⟩ := forall_mem_cons.1 within
    have whole : size + (buffer :: next :: buffers).flatten.length =
        size + buffer.length + (next :: buffers).flatten.length := by
      rw [flatten_cons, length_append, Nat.add_assoc]
    rw [cons_append, Room, noEnd, if_neg Bool.false_ne_true, ih within, whole]
    apply and_iff_right_of_imp
    intro room
    exact Nat.lt_of_le_of_lt (Nat.le_add_right _ _) room.1

theorem room_fragments (areLines : ∀ line ∈ ls, IsLine line) (unbroken : Unbroken ls) (size : Nat) :
    Room size (ls.flatMap fragments) ↔ Room size ls := by
  induction ls generalizing size with
  | nil => rfl
  | cons line ls ih =>
    obtain ⟨isLine, areLines⟩ := forall_mem_cons.1 areLines
    have others := ih areLines (fun other member => unbroken other (mem_cons_of_mem _ member))
    rw [flatMap_cons]
    by_cases fits : line.length < bufferSize
    · rw [isLine.fragments_short fits, singleton_append, Room, Room, others]
    · have long := Nat.not_lt.1 fits
      have within := within_fragments unbroken mem_cons_self long
      have whole := flatten_fragments line
      rw [isLine.fragments_long long] at within whole ⊢
      rw [room_within within, whole, others, Room, isEnd_of_le long]
      rfl

end TemplateParser

/-! ## The stretches up to an `End` -/

namespace TemplateParser

theorem eq_of_reads {text find : List UInt8} (same : reads text find = true) : text = find := by
  rw [reads, Bool.and_eq_true, strstr, decide_eq_true_iff, decide_eq_true_iff] at same
  exact (same.1.eq_of_length same.2.symm).symm

theorem isMessage_of_isEnd {line : List UInt8} (ended : isEnd line = true) :
    isMessage line = false := by
  rw [isEnd, Bool.and_eq_true] at ended
  rw [isMessage, eq_of_reads ended.2]
  exact Bool.and_false _

variable {body stretch : List (List UInt8)}

theorem foldl_pass_closed {last : List UInt8} (free : Open isEnd body) (ended : isEnd last = true)
    (self : TemplateParser) : (body ++ [last]).foldl pass self =
      { self with
        msg := []
        analiceMark := false
        ignoreMessage := false
        executed :=
          if self.ignoreMessage || marked self.analiceMark (body ++ [last]) then self.executed
          else self.executed ++ [self.msg ++ (body ++ [last]).flatten] } := by
  induction body generalizing self with
  | nil =>
    rw [nil_append, foldl_cons, foldl_nil, pass, ended, isMessage_of_isEnd ended,
      flatten_singleton, marked, marked, Bool.or_false]
    rfl
  | cons line body ih =>
    obtain ⟨noEnd, free⟩ := Open.cons.1 free
    rw [cons_append, foldl_cons, ih free, pass, noEnd, marked, flatten_cons]
    simp only [Bool.false_eq_true, if_false, Bool.or_assoc, append_assoc]

theorem foldl_pass_open (free : Open isEnd body) (self : TemplateParser) :
    (body.foldl pass self).executed = self.executed := by
  induction body generalizing self with
  | nil => rfl
  | cons line body ih =>
    obtain ⟨noEnd, free⟩ := Open.cons.1 free
    rw [foldl_cons, ih free, pass, noEnd]
    rfl

theorem ends_append (body : List (List UInt8)) (last : List UInt8) :
    ends (body ++ [last]) = isEnd last := by
  rw [ends, List.getLast?_concat]
  rfl

theorem ends_open (free : Open isEnd body) : ends body = false := by
  rcases eq_nil_or_concat body with rfl | ⟨early, last, rfl⟩
  · rfl
  · rw [concat_eq_append] at free ⊢
    rw [ends_append]
    exact free last (mem_append_right _ mem_cons_self)

/-- What the parser executes of the lines up to an `End`. -/
def handed (stretch : List (List UInt8)) : Option (List UInt8) :=
  if ends stretch && !marked false stretch then some stretch.flatten else none

theorem executed_foldl_pass (ls : List (List UInt8)) {self : TemplateParser}
    (empty : self.msg = []) (quiet : self.analiceMark = false)
    (skips : self.ignoreMessage = false) :
    (ls.foldl pass self).executed =
      self.executed ++ (stretches isEnd ls).filterMap handed := by
  induction ls using stretches_induction isEnd generalizing self with
  | nil => rw [stretches, filterMap_nil, append_nil, foldl_nil]
  | last ls some free =>
    rw [foldl_pass_open free, stretches_open some free, filterMap_cons, handed,
      ends_open free, Bool.false_and]
    exact (append_nil _).symm
  | cons body last ls free ended ih =>
    rw [append_cons, foldl_append, foldl_pass_closed free ended, ← append_cons,
      stretches_closed free ended, ih rfl rfl rfl, filterMap_cons, handed, ends_append, ended,
      empty, quiet, skips, Bool.false_or, Bool.true_and, nil_append]
    cases marked false (body ++ [last]) with
    | true => rfl
    | false => exact append_assoc _ _ _

/-! ## The messages in them -/

theorem dropWhile_message {behind others : List (List UInt8)} {message : List UInt8}
    (none : ∀ line ∈ behind, isMessage line = false) (opens : isMessage message = true) :
    (behind ++ message :: others).dropWhile (fun line => !isMessage line) = message :: others := by
  rw [dropWhile_append_of_pos, dropWhile_cons_of_neg]
  · rw [opens]
    exact Bool.false_ne_true
  · intro line member
    rw [none line member]
    rfl

theorem block_eq {behind others : List (List UInt8)} {message next : List UInt8}
    (none : ∀ line ∈ behind, isMessage line = false) (opens : isMessage message = true) :
    block (behind ++ message :: next :: others) =
      if ends (behind ++ message :: next :: others) && !isMarked next then
        some (message :: next :: others).flatten
      else Option.none := by
  rw [block, dropWhile_message none opens]

theorem exists_of_block {text : List UInt8} (found : block stretch = some text) :
    ∃ behind message next others, stretch = behind ++ message :: next :: others ∧
      (∀ line ∈ behind, isMessage line = false) ∧ isMessage message = true ∧
      isMarked next = false ∧ ends stretch = true ∧
      text = (message :: next :: others).flatten := by
  rw [block] at found
  split at found
  next message next others here =>
    have parts := takeWhile_append_dropWhile (p := fun line => !isMessage line) (l := stretch)
    rw [here] at parts
    have opens := List.head?_dropWhile_not (fun line => !isMessage line) stretch
    rw [here] at opens
    split_ifs at found with both
    rw [Bool.and_eq_true, Bool.not_eq_true'] at both
    refine ⟨_, message, next, others, parts.symm, ?_, by simpa using opens, both.2, both.1,
      (Option.some.inj found).symm⟩
    intro line member
    simpa using mem_takeWhile_imp member
  next => cases found

theorem exists_of_marked (mark : marked false stretch = true) :
    ∃ behind message next others, stretch = behind ++ message :: next :: others ∧
      (∀ line ∈ behind, isMessage line = false) ∧ isMessage message = true := by
  induction stretch with
  | nil => cases mark
  | cons line ls ih =>
    rw [marked, Bool.false_and, Bool.false_or] at mark
    cases opens : isMessage line with
    | true =>
      rw [opens] at mark
      cases ls with
      | nil => cases mark
      | cons next others => exact ⟨[], line, next, others, rfl, by simp, opens⟩
    | false =>
      rw [opens] at mark
      obtain ⟨behind, message, next, others, rfl, none, first⟩ := ih mark
      exact ⟨line :: behind, message, next, others, rfl,
        forall_mem_cons.2 ⟨opens, none⟩, first⟩

/-- The parser executes the message in the lines, or skips it with them, exactly when they are
sound. -/
theorem handed_eq_block_iff (full : ∀ line ∈ stretch, line ≠ []) (ended : ends stretch = true) :
    handed stretch = block stretch ↔ Sound stretch := by
  constructor
  · intro same
    rw [handed, ended, Bool.true_and] at same
    cases mark : marked false stretch with
    | true =>
      obtain ⟨behind, message, next, others, rfl, none, opens⟩ := exists_of_marked mark
      rw [mark, block_eq none opens, ended, Bool.true_and] at same
      refine ⟨behind, message, next, others, rfl, none, opens, ?_, ?_⟩
      · cases marks : isMarked next with
        | true => exact mark
        | false =>
          rw [marks] at same
          cases same
      · intro free
        rw [free] at same
        cases same
    | false =>
      rw [mark] at same
      obtain ⟨behind, message, next, others, rfl, none, opens, free, -, text⟩ :=
        exists_of_block same.symm
      refine ⟨behind, message, next, others, rfl, none, opens, by rw [mark, free], fun _ => ?_⟩
      rw [flatten_append, append_left_eq_self] at text
      cases behind with
      | nil => rfl
      | cons line behind =>
        have early := (append_eq_nil_iff.1 text).1
        exact absurd early (full line mem_cons_self)
  · rintro ⟨behind, message, next, others, rfl, none, opens, mark, first⟩
    rw [handed, block_eq none opens, ended, mark]
    cases marks : isMarked next with
    | true => rfl
    | false =>
      rw [first marks]
      rfl

theorem block_of_not_ends (goesOn : ends stretch = false) : block stretch = none := by
  cases found : block stretch with
  | none => rfl
  | some text =>
    obtain ⟨behind, message, next, others, -, -, -, -, ended, -⟩ := exists_of_block found
    rw [goesOn] at ended
    cases ended

theorem cut_of_mem {f : List UInt8} (member : stretch ∈ stretches isEnd (lines f)) :
    Cut (fun c => decide (c = newline)) stretch :=
  (cut_stretches _ f).of_stretch (infix_of_mem_stretches member)

theorem block_of_handed {f : List UInt8}
    (same : (stretches isEnd (lines f)).filterMap handed = blocks (lines f)) :
    ∀ stretch ∈ stretches isEnd (lines f), ∀ text, handed stretch = some text →
      block stretch = some text := by
  intro stretch member text executes
  have executed : text ∈ blocks (lines f) := by
    rw [← same]
    exact mem_filterMap.2 ⟨stretch, member, executes⟩
  obtain ⟨other, otherMember, found⟩ := mem_filterMap.1 executed
  obtain ⟨behind, message, next, others, rfl, -, opens, free, -, rfl⟩ := exists_of_block found
  rw [handed] at executes
  split_ifs at executes with both
  have part := Cut.suffix (cut_of_mem otherMember)
  obtain rfl := (cut_of_mem member).eq_of_flatten_eq part (Option.some.inj executes)
  rw [Bool.and_eq_true] at both
  rw [← nil_append (message :: next :: others), block_eq (by simp) opens, nil_append, both.1, free]
  rfl

theorem handed_eq_blocks_iff (f : List UInt8) :
    (stretches isEnd (lines f)).filterMap handed = blocks (lines f) ↔
      ∀ stretch ∈ stretches isEnd (lines f), ends stretch = true → Sound stretch := by
  have full : ∀ stretch ∈ stretches isEnd (lines f), ∀ line ∈ stretch, line ≠ [] := by
    intro stretch member line part
    exact ((cut_of_mem member).of_mem line part).1
  constructor
  · intro same stretch member ended
    have each := eq_of_filterMap_eq (block_of_handed same) same stretch member
    exact (handed_eq_block_iff (full stretch member) ended).1 each
  · intro sound
    apply filterMap_congr
    intro stretch member
    cases ended : ends stretch with
    | true => exact (handed_eq_block_iff (full stretch member) ended).2 (sound stretch member ended)
    | false =>
      rw [block_of_not_ends ended, handed, ended, Bool.false_and, if_neg Bool.false_ne_true]

end TemplateParser

/-! ## Behind the header -/

namespace TemplateParser

theorem block_cons {line : List UInt8} {stretch : List (List UInt8)} (some : stretch ≠ [])
    (noMessage : isMessage line = false) : block (line :: stretch) = block stretch := by
  have sameEnd : ends (line :: stretch) = ends stretch := by
    rw [ends, ends, List.getLast?_cons, List.getLast?_eq_some_getLast some]
    rfl
  rw [block, block, sameEnd, dropWhile_cons_of_pos (by rw [noMessage]; rfl)]

/-- A line that reads neither `Message` nor `End` belongs to no message if it is the first. -/
theorem blocks_cons {line : List UInt8} (ls : List (List UInt8))
    (noMessage : isMessage line = false) (noEnd : isEnd line = false) :
    blocks (line :: ls) = blocks ls := by
  rw [blocks, blocks, stretches, if_neg (by rw [noEnd]; exact Bool.false_ne_true)]
  have full := (cut_stretches isEnd ls).of_mem
  cases here : stretches isEnd ls with
  | nil =>
    have none : block [line] = Option.none := by
      apply block_of_not_ends
      exact noEnd
    exact filterMap_cons_none none
  | cons stretch others =>
    rw [here] at full
    have some := (full stretch mem_cons_self).1
    rw [filterMap_cons, filterMap_cons, block_cons some noMessage]

theorem fragments_of_cons {f buffer : List UInt8} {buffers : List (List UInt8)}
    (read : fragments f = buffer :: buffers) : fragments buffers.flatten = buffers := by
  have some : f ≠ [] := by
    rintro rfl
    cases read
  rw [fragments_eq some] at read
  rw [← tail_eq_of_cons_eq read, flatten_fragments]

theorem flatten_flatMap_fragments (ls : List (List UInt8)) :
    (ls.flatMap fragments).flatten = ls.flatten := by
  induction ls with
  | nil => rfl
  | cons line ls ih =>
    rw [flatMap_cons, flatten_append, ih, flatten_fragments, flatten_cons]

theorem unbroken_behind {f buffer : List UInt8} {buffers : List (List UInt8)}
    (read : fragments f = buffer :: buffers) (noMessage : isMessage buffer = false)
    (noEnd : isEnd buffer = false) (unbroken : Unbroken (lines f)) :
    Unbroken (lines buffers.flatten) ∧ blocks (lines buffers.flatten) = blocks (lines f) := by
  have cut : Cut (fun c => decide (c = newline)) (lines f) := cut_stretches _ f
  have areLines := isLine_of_mem (f := f)
  rw [fragments_eq_flatMap] at read
  cases here : lines f with
  | nil =>
    rw [here] at read
    cases read
  | cons line more =>
    rw [here] at read cut unbroken areLines
    have isLine := areLines line mem_cons_self
    rw [flatMap_cons] at read
    by_cases fits : line.length < bufferSize
    · rw [isLine.fragments_short fits, singleton_append] at read
      obtain ⟨rfl, rfl⟩ := List.cons.inj read
      have rest : Cut (fun c => decide (c = newline)) more := by
        rw [← singleton_append] at cut
        exact cut.suffix
      have same : lines (more.flatMap fragments).flatten = more := by
        rw [flatten_flatMap_fragments]
        exact rest.stretches_flatten
      rw [same]
      refine ⟨?_, (blocks_cons more noMessage noEnd).symm⟩
      intro other member
      exact unbroken other (mem_cons_of_mem _ member)
    · have long := Nat.not_lt.1 fits
      have within := within_fragments unbroken mem_cons_self long
      have parts := take_append_drop (bufferSize - 1) line
      rw [isLine.fragments_long long] at read within
      rw [cons_append] at read
      obtain ⟨-, rfl⟩ := List.cons.inj read
      have within := (forall_mem_cons.1 within).2
      have some : line.drop (bufferSize - 1) ≠ [] := by
        apply ne_nil_of_length_pos
        rw [length_drop]
        exact Nat.sub_pos_of_lt long
      rw [← parts] at cut
      have rest := cut.drop_first some
      have same : lines (fragments (line.drop (bufferSize - 1)) ++ more.flatMap fragments).flatten =
          line.drop (bufferSize - 1) :: more := by
        rw [flatten_append, flatten_fragments, flatten_flatMap_fragments]
        exact rest.stretches_flatten
      have late : isMessage (line.drop (bufferSize - 1)) = false ∧
          isEnd (line.drop (bufferSize - 1)) = false := by
        by_cases short : (line.drop (bufferSize - 1)).length < bufferSize
        · obtain ⟨nonempty, plain⟩ := rest.of_mem _ mem_cons_self
          have single := IsLine.fragments_short ⟨nonempty, plain⟩ short
          exact within _ (by rw [single]; exact mem_cons_self)
        · have still := Nat.not_lt.1 short
          exact ⟨isMessage_of_le still, isEnd_of_le still⟩
      rw [same, blocks_cons more late.1 late.2, blocks_cons more (isMessage_of_le long)
        (isEnd_of_le long)]
      refine ⟨forall_mem_cons.2 ⟨?_, (forall_mem_cons.1 unbroken).2⟩, rfl⟩
      intro still part member
      have fit := (of_mem_fragments _ part member).2
      rw [← isMessage_of_lt fit, ← isEnd_of_lt fit]
      exact within part member

/-! ## The header -/

theorem reads_of_strstr {text find other : List UInt8} (found : strstr text find = true)
    (apart : strstr other find = false) : reads text other = false := by
  cases same : reads text other with
  | false => rfl
  | true =>
    rw [eq_of_reads same, apart] at found
    cases found

theorem within_of_strstr {find buffer : List UInt8} (fits : buffer.length < bufferSize)
    (found : strstr (content buffer) find = true)
    (noMessage : strstr (ascii "Message") find = false)
    (noEnd : strstr (ascii "End") find = false) :
    isMessage buffer = false ∧ isEnd buffer = false := by
  rw [isMessage_of_lt fits, isEnd_of_lt fits]
  exact ⟨reads_of_strstr found noMessage, reads_of_strstr found noEnd⟩

theorem ne_nil_of_strstr {text find : List UInt8} (found : strstr text find = true)
    (some : find ≠ []) : text ≠ [] := by
  rintro rfl
  exact some (infix_nil.1 (of_decide_eq_true found))

theorem readLine_quiet {self : TemplateParser} {text find : List UInt8}
    (quiet : self.analiceMark = false) (found : strstr text find = true)
    (noMessage : strstr (ascii "Message") find = false)
    (noEnd : strstr (ascii "End") find = false) : self.readLine text = self := by
  rw [readLine, readMark_eq, quiet, Bool.false_and, Bool.or_false, readMessage_eq rfl,
    reads_of_strstr found noMessage, readEnd_eq, reads_of_strstr found noEnd,
    if_neg Bool.false_ne_true, ← quiet]

/-- The parser while it has seen no header. -/
def initial (myIsInitBoxTemplate : Bool) : TemplateParser :=
  { start with myIsInitBoxTemplate := myIsInitBoxTemplate }

section

variable {before : UInt8} {init : Bool} {buffer : List UInt8} (some : buffer ≠ [])
  (fits : buffer.length < bufferSize) (text : ∀ c ∈ buffer, c ≠ 0)

include some fits text

theorem readFragment_initial (printed : Printed before [buffer]) :
    readFragment before (initial init) buffer =
      if ((initial init).readFirstLine (content buffer)).2 then
        .ok (((initial init).readFirstLine (content buffer)).1.readLine (content buffer), true)
      else .ok (((initial init).readFirstLine (content buffer)).1, false) := by
  have room : ¬msgSize ≤ (initial init).msg.length + buffer.length := by
    have small : bufferSize ≤ msgSize := by decide
    have none : (initial init).msg.length = 0 := rfl
    omega
  have shown : ¬(content buffer = [] ∧ isblankchar before = true) := by
    rintro ⟨blank, isBlank⟩
    exact printed isBlank buffer mem_cons_self blank
  rw [readFragment, cString_of_text text]
  simp only [if_neg some, if_neg room, if_neg shown]
  rfl

theorem readFragment_init (found : strstr (content buffer) (ascii "INIT TEMPLATE") = true) :
    readFragment before (initial init) buffer = .ok (initial true, true) := by
  have printed : Printed before [buffer] := by
    intro _ other member
    rw [mem_singleton.1 member]
    exact ne_nil_of_strstr found (by decide)
  have first : (initial init).readFirstLine (content buffer) = (initial true, true) := by
    rw [readFirstLine, if_pos found]
    rfl
  rw [readFragment_initial some fits text printed, first, if_pos rfl,
    readLine_quiet rfl found (by decide) (by decide)]

theorem readFragment_found (notInit : ¬strstr (content buffer) (ascii "INIT TEMPLATE") = true)
    (notEmpty : ¬strstr (content buffer) (ascii "EMPTY TEMPLATE") = true)
    (found : strstr (content buffer) PTSDVersion = true) :
    readFragment before (initial init) buffer =
      .ok ({ initial init with isFirstLine := false }, true) := by
  have printed : Printed before [buffer] := by
    intro _ other member
    rw [mem_singleton.1 member]
    exact ne_nil_of_strstr found (by decide)
  have first : (initial init).readFirstLine (content buffer) =
      ({ initial init with isFirstLine := false }, true) := by
    rw [readFirstLine, if_neg notInit, if_neg notEmpty, if_pos found]
    rfl
  rw [readFragment_initial some fits text printed, first, if_pos rfl,
    readLine_quiet rfl found (by decide) (by decide)]

theorem readFragment_refused (notInit : ¬strstr (content buffer) (ascii "INIT TEMPLATE") = true)
    (refuses : strstr (content buffer) (ascii "EMPTY TEMPLATE") = true ∨
      ¬strstr (content buffer) PTSDVersion = true) (printed : Printed before [buffer]) :
    ∃ done, readFragment before (initial init) buffer = .ok (done, false) ∧
      done.executed = [] ∧ (done.wrongPTSDVersion = true ∨ done.myIsEmptyTemplate = true) := by
  rw [readFragment_initial some fits text printed, readFirstLine, if_neg notInit]
  by_cases empty : strstr (content buffer) (ascii "EMPTY TEMPLATE") = true
  · rw [if_pos empty]
    exact ⟨_, rfl, rfl, Or.inr rfl⟩
  · have other := refuses.resolve_left empty
    rw [if_neg empty, if_neg other]
    exact ⟨_, rfl, rfl, Or.inl rfl⟩

end

theorem readFragment_blank {before : UInt8} {init : Bool} {buffer : List UInt8}
    (some : buffer ≠ []) (fits : buffer.length < bufferSize) (text : ∀ c ∈ buffer, c ≠ 0)
    (blank : ¬Printed before [buffer]) :
    readFragment before (initial init) buffer = .error .token := by
  have room : ¬msgSize ≤ (initial init).msg.length + buffer.length := by
    have small : bufferSize ≤ msgSize := by decide
    have none : (initial init).msg.length = 0 := rfl
    omega
  have here : content buffer = [] ∧ isblankchar before = true := by
    by_contra other
    apply blank
    intro isBlank part member
    rw [mem_singleton.1 member]
    exact fun none => other ⟨none, isBlank⟩
  rw [readFragment, cString_of_text text]
  simp only [if_neg some, if_neg room, if_pos here]

/-- How the loop gets past the header, or where it ends there. -/
def Leads (before : UInt8) (self : TemplateParser) (buffers : List (List UInt8)) : Header → Prop
  | .missing => ∃ init, parse before self buffers = .ok (initial init)
  | .refused buffer =>
    (¬Printed before [buffer] ∧ parse before self buffers = .error .token) ∨
      (Printed before [buffer] ∧ ∃ done, parse before self buffers = .ok done ∧
        done.executed = [] ∧ (done.wrongPTSDVersion = true ∨ done.myIsEmptyTemplate = true))
  | .found behind => ∃ init, parse before self buffers =
      parse before { initial init with isFirstLine := false } behind

theorem Leads.cons {before : UInt8} {init : Bool} {buffer : List UInt8}
    {buffers : List (List UInt8)} {first : Header}
    (read : readFragment before (initial init) buffer = .ok (initial true, true))
    (leads : Leads before (initial true) buffers first) :
    Leads before (initial init) (buffer :: buffers) first := by
  have same : parse before (initial init) (buffer :: buffers) =
      parse before (initial true) buffers := by
    rw [parse, read]
  cases first with
  | missing => rwa [Leads, same]
  | refused refusal => rwa [Leads, same]
  | found behind => rwa [Leads, same]

variable {buffers behind : List (List UInt8)} {file : List UInt8}

theorem leads_header (before : UInt8) (init : Bool)
    (fit : ∀ buffer ∈ buffers, buffer ≠ [] ∧ buffer.length < bufferSize)
    (text : ∀ buffer ∈ buffers, ∀ c ∈ buffer, c ≠ 0) :
    Leads before (initial init) buffers (header buffers) := by
  induction buffers generalizing init with
  | nil => exact ⟨init, rfl⟩
  | cons buffer buffers ih =>
    obtain ⟨⟨some, fits⟩, fit⟩ := forall_mem_cons.1 fit
    obtain ⟨plain, text⟩ := forall_mem_cons.1 text
    have refused (notInit : ¬strstr (content buffer) (ascii "INIT TEMPLATE") = true)
        (refuses : strstr (content buffer) (ascii "EMPTY TEMPLATE") = true ∨
          ¬strstr (content buffer) PTSDVersion = true) :
        Leads before (initial init) (buffer :: buffers) (.refused buffer) := by
      by_cases printed : Printed before [buffer]
      · obtain ⟨done, read, nothing, reason⟩ :=
          @readFragment_refused before init buffer some fits plain notInit refuses printed
        refine Or.inr ⟨printed, done, ?_, nothing, reason⟩
        rw [parse, read]
      · refine Or.inl ⟨printed, ?_⟩
        rw [parse, readFragment_blank some fits plain printed]
    rw [header]
    by_cases isInit : strstr (content buffer) (ascii "INIT TEMPLATE") = true
    · rw [if_pos isInit]
      exact (ih true fit text).cons (readFragment_init some fits plain isInit)
    · rw [if_neg isInit]
      by_cases empty : strstr (content buffer) (ascii "EMPTY TEMPLATE") = true
      · rw [if_pos empty]
        exact refused isInit (Or.inl empty)
      · rw [if_neg empty]
        by_cases current : strstr (content buffer) PTSDVersion = true
        · rw [if_pos current]
          refine ⟨init, ?_⟩
          rw [parse, readFragment_found some fits plain isInit empty current]
        · rw [if_neg current]
          exact refused isInit (Or.inr current)

theorem unbroken_found (found : header buffers = .found behind)
    (read : fragments buffers.flatten = buffers) (unbroken : Unbroken (lines buffers.flatten)) :
    fragments behind.flatten = behind ∧ Unbroken (lines behind.flatten) ∧
      blocks (lines behind.flatten) = blocks (lines buffers.flatten) := by
  induction buffers with
  | nil => cases found
  | cons buffer buffers ih =>
    have fits := (of_mem_fragments _ buffer (by rw [read]; exact mem_cons_self)).2
    have rest := fragments_of_cons read
    rw [header] at found
    by_cases isInit : strstr (content buffer) (ascii "INIT TEMPLATE") = true
    · rw [if_pos isInit] at found
      obtain ⟨noMessage, noEnd⟩ := within_of_strstr fits isInit (by decide) (by decide)
      obtain ⟨later, same⟩ := unbroken_behind read noMessage noEnd unbroken
      obtain ⟨pieces, unbroken, others⟩ := ih found rest later
      exact ⟨pieces, unbroken, others.trans same⟩
    · rw [if_neg isInit] at found
      split_ifs at found with empty current
      obtain rfl := Header.found.inj found
      obtain ⟨noMessage, noEnd⟩ := within_of_strstr fits current (by decide) (by decide)
      exact ⟨rest, unbroken_behind read noMessage noEnd unbroken⟩

theorem found_suffix (found : header buffers = .found behind) : behind <:+ buffers := by
  induction buffers with
  | nil => cases found
  | cons buffer buffers ih =>
    rw [header] at found
    split_ifs at found with isInit empty current
    · exact (ih found).trans (suffix_cons buffer buffers)
    · obtain rfl := Header.found.inj found
      exact suffix_cons buffer buffers

theorem within_missing (missing : header buffers = .missing)
    (fit : ∀ buffer ∈ buffers, buffer ≠ [] ∧ buffer.length < bufferSize) : Within buffers := by
  induction buffers with
  | nil =>
    intro buffer member
    cases member
  | cons buffer buffers ih =>
    obtain ⟨⟨-, fits⟩, fit⟩ := forall_mem_cons.1 fit
    rw [header] at missing
    split_ifs at missing with isInit
    exact forall_mem_cons.2
      ⟨within_of_strstr fits isInit (by decide) (by decide), ih missing fit⟩

theorem of_missing (missing : header (fragments file) = .missing) :
    Unbroken (lines file) ∧ blocks (lines file) = [] := by
  have within := within_missing missing (of_mem_fragments file)
  rw [fragments_eq_flatMap] at within
  constructor
  · intro line member long buffer part
    have fits := (of_mem_fragments line buffer part).2
    rw [← isMessage_of_lt fits, ← isEnd_of_lt fits]
    exact within buffer (mem_flatMap.2 ⟨line, member, part⟩)
  · apply filterMap_eq_nil_iff.2
    intro stretch member
    cases found : block stretch with
    | none => rfl
    | some text =>
      obtain ⟨behind, message, next, others, rfl, -, opens, -⟩ := exists_of_block found
      have inFile : message ∈ lines file :=
        (infix_of_mem_stretches member).subset (mem_append_right _ mem_cons_self)
      have fits : message.length < bufferSize := by
        rw [isMessage, Bool.and_eq_true, decide_eq_true_iff] at opens
        exact opens.1
      have single := (isLine_of_mem message inFile).fragments_short fits
      have part : message ∈ fragments message := by
        rw [single]
        exact mem_cons_self
      rw [(within message (mem_flatMap.2 ⟨message, inFile, part⟩)).1] at opens
      cases opens

/-! ## When a template is executed as it should be -/

theorem text_of_mem_fragments (text : ∀ c ∈ file, c ≠ 0) :
    ∀ buffer ∈ fragments file, ∀ c ∈ buffer, c ≠ 0 := by
  intro buffer member c part
  apply text
  rw [← flatten_fragments file]
  exact mem_flatten.2 ⟨buffer, member, part⟩

theorem parse_found_iff (before : UInt8) (init : Bool) {f : List UInt8}
    (text : ∀ c ∈ f, c ≠ 0) (unbroken : Unbroken (lines f)) :
    (∃ done, parse before { initial init with isFirstLine := false } (fragments f) = .ok done ∧
        done.executed = blocks (lines f)) ↔
      Room 0 (lines f) ∧ Printed before (fragments f) ∧
        ∀ stretch ∈ stretches isEnd (lines f), ends stretch = true → Sound stretch := by
  have areLines := isLine_of_mem (f := f)
  have parts := text_of_mem_fragments text
  have run (done : TemplateParser) :=
    @parse_iff before { initial init with isFirstLine := false } done _ (of_mem_fragments f)
      parts rfl
  have rooms : Room 0 (fragments f) ↔ Room 0 (lines f) := by
    rw [fragments_eq_flatMap, room_fragments areLines unbroken]
  have fold : (fragments f).foldl pass { initial init with isFirstLine := false } =
      (lines f).foldl pass { initial init with isFirstLine := false } := by
    rw [fragments_eq_flatMap, foldl_pass_fragments areLines unbroken]
  rw [← handed_eq_blocks_iff]
  constructor
  · rintro ⟨done, ran, same⟩
    obtain ⟨room, printed, rfl⟩ := (run done).1 ran
    rw [fold, executed_foldl_pass (lines f) rfl rfl rfl] at same
    exact ⟨rooms.1 room, printed, same⟩
  · rintro ⟨room, printed, same⟩
    refine ⟨_, (run _).2 ⟨rooms.2 room, printed, rfl⟩, ?_⟩
    rw [fold, executed_foldl_pass (lines f) rfl rfl rfl]
    exact same

theorem foldl_pass_flags (buffers : List (List UInt8)) (self : TemplateParser) :
    (buffers.foldl pass self).wrongPTSDVersion = self.wrongPTSDVersion ∧
      (buffers.foldl pass self).myIsEmptyTemplate = self.myIsEmptyTemplate := by
  induction buffers generalizing self with
  | nil => exact ⟨rfl, rfl⟩
  | cons buffer buffers ih =>
    have kept : (self.pass buffer).wrongPTSDVersion = self.wrongPTSDVersion ∧
        (self.pass buffer).myIsEmptyTemplate = self.myIsEmptyTemplate := by
      rw [pass]
      split <;> exact ⟨rfl, rfl⟩
    rw [foldl_cons, (ih (self.pass buffer)).1, (ih (self.pass buffer)).2]
    exact kept

theorem meets_found_iff {before : UInt8} (text : ∀ c ∈ file, c ≠ 0)
    (first : header (fragments file) = .found behind) :
    Meets before file ↔ Unbroken (lines file) ∧ Room 0 (lines behind.flatten) ∧
      Printed before behind ∧ ∀ stretch ∈ stretches isEnd (lines behind.flatten),
        ends stretch = true → Sound stretch := by
  have fit := of_mem_fragments file
  have parts := text_of_mem_fragments text
  have part := (found_suffix first).subset
  have behindText : ∀ c ∈ behind.flatten, c ≠ 0 := by
    intro c member
    obtain ⟨buffer, inside, here⟩ := mem_flatten.1 member
    exact parts buffer (part inside) c here
  have leads := leads_header before false fit parts
  rw [first] at leads
  obtain ⟨init, same⟩ := leads
  have accepted : ∀ done, parse before { initial init with isFirstLine := false } behind =
      .ok done → done.wrongPTSDVersion = false ∧ done.myIsEmptyTemplate = false := by
    intro done ran
    have run := (parse_iff (fun buffer member => fit buffer (part member))
      (fun buffer member => parts buffer (part member)) rfl).1 ran
    rw [← run.2.2]
    exact foldl_pass_flags behind _
  have found := unbroken_found first (by rw [flatten_fragments])
  rw [flatten_fragments] at found
  rw [Meets, and_iff_right fun buffer member => (fit buffer member).2, parseTemplate]
  change (∃ done, parse before (initial false) (fragments file) = _ ∧ _) ↔ _
  rw [same]
  constructor
  · rintro ⟨done, ran, right, readOn⟩
    have unbroken := readOn (accepted done ran).1 (accepted done ran).2
    obtain ⟨pieces, later, others⟩ := found unbroken
    have run := parse_found_iff before init behindText later
    rw [pieces, others] at run
    exact ⟨unbroken, run.1 ⟨done, ran, right⟩⟩
  · rintro ⟨unbroken, fits⟩
    obtain ⟨pieces, later, others⟩ := found unbroken
    have run := parse_found_iff before init behindText later
    rw [pieces, others] at run
    obtain ⟨done, ran, right⟩ := run.2 fits
    exact ⟨done, ran, right, fun _ _ => unbroken⟩

theorem meets_refused_iff {before : UInt8} (text : ∀ c ∈ file, c ≠ 0) {buffer : List UInt8}
    (first : header (fragments file) = .refused buffer) :
    Meets before file ↔ Printed before [buffer] ∧ blocks (lines file) = [] := by
  have fit := of_mem_fragments file
  have leads := leads_header before false fit (text_of_mem_fragments text)
  rw [first] at leads
  rw [Meets, and_iff_right fun buffer member => (fit buffer member).2, parseTemplate]
  rcases leads with ⟨blank, fault⟩ | ⟨printed, done, ran, nothing, reason⟩
  · constructor
    · rintro ⟨done, ran, -⟩
      cases fault.symm.trans ran
    · rintro ⟨printed, -⟩
      exact absurd printed blank
  · constructor
    · rintro ⟨other, alsoRan, same, -⟩
      obtain rfl := Except.ok.inj (ran.symm.trans alsoRan)
      exact ⟨printed, same.symm.trans nothing⟩
    · rintro ⟨-, none⟩
      refine ⟨done, ran, nothing.trans none.symm, fun right full => ?_⟩
      rcases reason with wrong | empty
      · cases right.symm.trans wrong
      · cases full.symm.trans empty

/-- A template is executed as it should be if and only if it fits the parser. -/
theorem meets_iff {before : UInt8} {file : List UInt8} (text : ∀ c ∈ file, c ≠ 0) :
    Meets before file ↔ Fits before file := by
  rw [Fits]
  cases first : header (fragments file) with
  | missing =>
    have fit := of_mem_fragments file
    have leads := leads_header before false fit (text_of_mem_fragments text)
    rw [first] at leads
    obtain ⟨init, ran⟩ := leads
    obtain ⟨unbroken, none⟩ := of_missing first
    apply iff_of_true _ trivial
    exact ⟨fun buffer member => (fit buffer member).2, _, ran, none.symm, fun _ _ => unbroken⟩
  | refused buffer => exact meets_refused_iff text first
  | found behind => exact meets_found_iff text first

set_option maxRecDepth 2000 in
/-- A template with one message. -/
theorem fits_message : Fits 0 (ascii "PTSD-1.19\nMessage\nBox\nEnd\n") := by
  apply (meets_iff (by decide)).1
  exact ⟨by decide, _, rfl, by decide, fun _ _ => by unfold Unbroken; decide⟩

/-- An empty line in front of the message is executed with it. -/
theorem not_meets : ¬Meets 0 (ascii "PTSD-1.19\n\nMessage\nBox\nEnd\n") := by
  rintro ⟨-, done, ran, same, -⟩
  have executed := congrArg (fun result => result.toOption.map TemplateParser.executed) ran
  rw [Except.toOption, Option.map_some, same] at executed
  revert executed
  decide

end TemplateParser

end CimArm.Telesup
