import CimArm.Lib.Bytes
import Mathlib.Data.List.DropRight

/-!
# Messages of the remote supervision

A message is sent line by line: a line with its name, lines `param=value`, and a line
`End`.  `encodeTelesupMessage` escapes the bytes below the blank, and
`decodeTelesupMessage` reads escapes in the values of the lines that have an equals sign.

The two do not fit together.  The encoder gives `snprintf` room for one hexadecimal digit
and the NUL, and steps over both, so its result has a NUL inside and the decoder stops
there.  It does not escape the backslash, and the decoder takes each backslash of a value
together with the byte behind it for one byte.  So each of those makes the decoded message
shorter:

* `decode_encode_iff`: a message comes back if and only if it is not too large and its
  values have no backslash and no byte below the blank.
-/

namespace CimArm.Telesup

open List

/-! ## Strings -/

def newline : UInt8 := 10

def backslash : UInt8 := 92

def equalsSign : UInt8 := 61

/-- The string in a buffer ends before the first NUL. -/
def cString (buffer : List UInt8) : List UInt8 := buffer.takeWhile fun c => c ≠ 0

def isblankchar (c : UInt8) : Bool := c = 32 ∨ c = 9 ∨ c = 11

def ltrim (p : List UInt8) : List UInt8 := p.dropWhile isblankchar

def rtrim (p : List UInt8) : List UInt8 := (p.reverse.dropWhile isblankchar).reverse

def trim (p : List UInt8) : List UInt8 := ltrim (rtrim p)

/-- The tokenizer's next line, and the text behind its line feed. -/
def getNextToken (text : List UInt8) : List UInt8 × List UInt8 :=
  (text.takeWhile fun c => c ≠ newline, (text.dropWhile fun c => c ≠ newline).drop 1)

/-! ## The codec -/

inductive TsupExn : Type
  | general
  | invalidRequest
  | nameTooLarge
  | msgTooLarge
  deriving DecidableEq

/-- `TELESUP_MSG_SIZE` -/
def telesupMsgSize : Nat := 32768

/-- The loop over the lines: a blank line is skipped, another one is coded and copied to
the target with a line feed.  Each line takes a byte of the text at least, so the length
of the text is enough fuel. -/
def copyLines (codeLine : List UInt8 → Except TsupExn (List UInt8)) :
    Nat → List UInt8 → List UInt8 → Except TsupExn (List UInt8)
  | 0, _, target => .ok target
  | fuel + 1, text, target =>
    if text = [] then .ok target
    else
      let token := (getNextToken text).1
      let rest := (getNextToken text).2
      if ltrim token = [] then copyLines codeLine fuel rest target
      else
        match codeLine token with
        | .error e => .error e
        | .ok line =>
          let target := target ++ line ++ [newline]
          if target.length > telesupMsgSize then .error .msgTooLarge
          else copyLines codeLine fuel rest target

def hexDigit (n : UInt8) : UInt8 := if n < 10 then 48 + n else 87 + n

/-- The digits that `%02x` prints. -/
def hexDigits (c : UInt8) : List UInt8 := [hexDigit (c / 16), hexDigit (c % 16)]

/-- A byte as it is sent. `snprintf` has room for two bytes, a digit and the NUL, and the
target goes on behind both. -/
def encodeByte (c : UInt8) : List UInt8 :=
  if c < 32 then backslash :: ((hexDigits c).take 1 ++ [0]) else [c]

def encodeLine (token : List UInt8) : List UInt8 := (ltrim token).flatMap encodeByte

def encodeTelesupMessage (source : List UInt8) : Except TsupExn (List UInt8) :=
  copyLines (fun token => .ok (encodeLine token)) (cString source).length (cString source) []

def isdigit (c : UInt8) : Bool := 48 ≤ c ∧ c ≤ 57

def isxdigit (c : UInt8) : Bool := isdigit c ∨ 65 ≤ c ∧ c ≤ 70 ∨ 97 ≤ c ∧ c ≤ 102

/-- `atoi` of a string without blanks or sign. -/
def atoi (s : List UInt8) : Nat :=
  (s.takeWhile isdigit).foldl (fun n c => 10 * n + (c - 48).toNat) 0

/-- At most two hexadecimal digits, read as decimal ones. -/
def convertG2HexaCodeToInteger (s : List UInt8) : Nat :=
  match s with
  | [] => 0
  | a :: s => if isxdigit a then atoi (a :: (s.take 1).filter isxdigit) else 0

/-- The value of a line: the byte behind a backslash is a backslash, or is skipped and
the bytes behind it are converted and then copied too. -/
def decodeValue : List UInt8 → List UInt8
  | [] => []
  | [c] => if c = backslash then [] else [c]
  | c :: d :: s =>
    if c = backslash then
      (if d = backslash then backslash else UInt8.ofNat (convertG2HexaCodeToInteger s)) ::
        decodeValue s
    else c :: decodeValue (d :: s)

def decodeLine (token : List UInt8) : Except TsupExn (List UInt8) :=
  if equalsSign ∉ token then .ok (trim token)
  else
    let s := ltrim token
    let name := s.takeWhile fun c => c ≠ equalsSign ∧ ¬ isblankchar c
    let s := ltrim (s.dropWhile fun c => c ≠ equalsSign ∧ ¬ isblankchar c)
    match s with
    | [] => .error .invalidRequest
    | c :: value =>
      if c = equalsSign then .ok (name ++ equalsSign :: decodeValue value)
      else .error .invalidRequest

def decodeTelesupMessage (source : List UInt8) : Except TsupExn (List UInt8) :=
  copyLines decodeLine (cString source).length (cString source) []

/-! ## Messages -/

/-- A line `param=value`: the name of the parameter is printable, without blanks and
equals sign, the value has any bytes but NUL and line feed. -/
structure Param : Type where
  name : List UInt8
  value : List UInt8
  name_bytes : ∀ c ∈ name, 32 < c ∧ c ≠ equalsSign
  value_bytes : ∀ c ∈ value, c ≠ 0 ∧ c ≠ newline

/-- A message; its name is printable, not blank and without an equals sign, and neither
starts nor ends with a blank. -/
structure Message : Type where
  name : List UInt8
  params : List Param
  name_bytes : ∀ c ∈ name, 32 ≤ c ∧ c ≠ equalsSign
  name_nonempty : name ≠ []
  name_trim : trim name = name

def Param.line (p : Param) : List UInt8 := p.name ++ equalsSign :: p.value

/-- The line `End`. -/
def endLine : List UInt8 := [69, 110, 100]

def Message.lines (m : Message) : List (List UInt8) := m.name :: m.params.map Param.line ++ [endLine]

/-- Each line with its line feed. -/
def joinLines (lines : List (List UInt8)) : List UInt8 := lines.flatMap fun l => l ++ [newline]

def Message.text (m : Message) : List UInt8 := joinLines m.lines

/-- A byte that is neither sent as an escape nor starts one. -/
def Printable (c : UInt8) : Prop := 32 ≤ c ∧ c ≠ backslash

instance : DecidablePred Printable := fun c => inferInstanceAs (Decidable (32 ≤ c ∧ c ≠ backslash))

/-! ## Lines -/

/-- What the loop does to the lines of a text. -/
def copyAll (codeLine : List UInt8 → Except TsupExn (List UInt8)) :
    List (List UInt8) → List UInt8 → Except TsupExn (List UInt8)
  | [], target => .ok target
  | l :: ls, target =>
    match codeLine l with
    | .error e => .error e
    | .ok line =>
      let target := target ++ line ++ [newline]
      if target.length > telesupMsgSize then .error .msgTooLarge else copyAll codeLine ls target

@[simp] theorem joinLines_nil : joinLines [] = [] := rfl

@[simp] theorem joinLines_cons (l : List UInt8) (ls : List (List UInt8)) :
    joinLines (l :: ls) = l ++ newline :: joinLines ls := by
  simp [joinLines]

theorem getNextToken_line {l : List UInt8} (line : newline ∉ l) (text : List UInt8) :
    getNextToken (l ++ newline :: text) = (l, text) := by
  have inside : ∀ c ∈ l, decide (c ≠ newline) = true := by
    intro c member
    exact decide_eq_true fun same => line (same ▸ member)
  unfold getNextToken
  rw [takeWhile_append_of_pos inside, dropWhile_append_of_pos inside]
  simp

/-- A line of a message has no line feed and starts with a byte that is not blank. -/
def IsLine (l : List UInt8) : Prop := newline ∉ l ∧ ltrim l ≠ []

variable (codeLine : List UInt8 → Except TsupExn (List UInt8)) {ls : List (List UInt8)} {c : UInt8}

theorem copyLines_filter (lines : ∀ l ∈ ls, newline ∉ l) (fuel : Nat)
    (enough : (joinLines ls).length ≤ fuel) (target : List UInt8) :
    copyLines codeLine fuel (joinLines ls) target =
      copyAll codeLine (ls.filter fun l => ltrim l ≠ []) target := by
  induction ls generalizing fuel target with
  | nil => cases fuel <;> rfl
  | cons l ls ih =>
    have line := lines l mem_cons_self
    rw [joinLines_cons, length_append, length_cons] at enough
    obtain ⟨fuel, rfl⟩ : ∃ n, fuel = n + 1 := ⟨fuel - 1, by omega⟩
    have some : l ++ newline :: joinLines ls ≠ [] := by simp
    have rest := ih (fun l member => lines l (mem_cons_of_mem _ member)) fuel (by omega)
    rw [joinLines_cons, copyLines, if_neg some]
    simp only [getNextToken_line line, rest]
    by_cases blank : ltrim l = []
    · rw [if_pos blank, filter_cons_of_neg (by simpa using blank)]
    · rw [if_neg blank, filter_cons_of_pos (by simpa using blank)]
      rfl

theorem copyLines_joinLines (lines : ∀ l ∈ ls, IsLine l) (fuel : Nat)
    (enough : (joinLines ls).length ≤ fuel) (target : List UInt8) :
    copyLines codeLine fuel (joinLines ls) target = copyAll codeLine ls target := by
  rw [copyLines_filter codeLine (fun l member => (lines l member).1) fuel enough,
    filter_eq_self.2 fun l member => decide_eq_true (lines l member).2]

theorem copyAll_eq {codeLine : List UInt8 → Except TsupExn (List UInt8)}
    (coded : List UInt8 → List UInt8) (all : ∀ l ∈ ls, codeLine l = .ok (coded l))
    (target : List UInt8) (fits : target.length ≤ telesupMsgSize) : copyAll codeLine ls target =
      if (target ++ joinLines (ls.map coded)).length ≤ telesupMsgSize then
        .ok (target ++ joinLines (ls.map coded))
      else .error .msgTooLarge := by
  induction ls generalizing target with
  | nil => simp [copyAll, fits]
  | cons l ls ih =>
    have rest := ih (fun l member => all l (mem_cons_of_mem _ member))
      (target ++ coded l ++ [newline])
    have joined : target ++ joinLines ((l :: ls).map coded) =
        target ++ coded l ++ [newline] ++ joinLines (ls.map coded) := by
      simp
    rw [joined, copyAll, all l mem_cons_self]
    dsimp only
    split_ifs with large small small
    · rw [length_append] at small
      omega
    · rfl
    · rw [rest (Nat.le_of_not_gt large), if_pos small]
    · rw [rest (Nat.le_of_not_gt large), if_neg small]

theorem copyLines_eq {codeLine : List UInt8 → Except TsupExn (List UInt8)}
    (coded : List UInt8 → List UInt8) (lines : ∀ l ∈ ls, IsLine l)
    (all : ∀ l ∈ ls, codeLine l = .ok (coded l)) :
    copyLines codeLine (joinLines ls).length (joinLines ls) [] =
      if (joinLines (ls.map coded)).length ≤ telesupMsgSize then .ok (joinLines (ls.map coded))
      else .error .msgTooLarge := by
  rw [copyLines_joinLines codeLine lines _ (Nat.le_refl _),
    copyAll_eq coded all [] (Nat.zero_le _), nil_append]

theorem getNextToken_length (text : List UInt8) :
    (getNextToken text).1.length + (getNextToken text).2.length + 1 = text.length ∨
      (getNextToken text).1 = text ∧ (getNextToken text).2 = [] := by
  have whole := takeWhile_append_dropWhile (p := fun c => decide (c ≠ newline)) (l := text)
  unfold getNextToken
  generalize List.takeWhile (fun c => decide (c ≠ newline)) text = token at whole ⊢
  cases behind : List.dropWhile (fun c => decide (c ≠ newline)) text with
  | nil =>
    rw [behind, append_nil] at whole
    exact .inr ⟨whole, rfl⟩
  | cons c rest =>
    rw [behind] at whole
    left
    simp only [← whole, drop_succ_cons, drop_zero, length_append, length_cons]
    omega

theorem copyLines_nil (fuel : Nat) (target : List UInt8) :
    copyLines codeLine fuel [] target = .ok target := by
  cases fuel <;> rfl

/-- The loop copies no more than it reads, but for a line feed behind a last line that
has none. -/
theorem copyLines_length_le {codeLine : List UInt8 → Except TsupExn (List UInt8)}
    (short : ∀ {token line}, codeLine token = .ok line → line.length ≤ token.length)
    (fuel : Nat) (text target : List UInt8) {r : List UInt8}
    (copied : copyLines codeLine fuel text target = .ok r) :
    r.length ≤ target.length + text.length + 1 := by
  induction fuel generalizing text target with
  | zero =>
    cases copied
    omega
  | succ fuel ih =>
    rw [copyLines] at copied
    dsimp only at copied
    have lengths := getNextToken_length text
    generalize getNextToken text = next at copied lengths
    split_ifs at copied with empty blank
    · cases copied
      omega
    · have rest := ih _ _ copied
      rcases lengths with lengths | ⟨-, last⟩
      · omega
      · rw [last, length_nil] at rest
        omega
    · cases coded : codeLine next.1 with
      | error e => simp [coded] at copied
      | ok line =>
        have shorter := short coded
        simp only [coded] at copied
        split_ifs at copied with large
        rcases lengths with lengths | ⟨whole, last⟩
        · have rest := ih _ _ copied
          simp only [length_append, length_singleton] at rest
          omega
        · rw [last, copyLines_nil] at copied
          cases copied
          simp only [length_append, length_singleton]
          rw [whole] at shorter
          omega

/-! ## What is sent -/

/-- The bytes of a text as they are sent; line feeds stay. -/
def escape (c : UInt8) : List UInt8 := if c = newline then [newline] else encodeByte c

theorem encodeByte_printable (above : 32 ≤ c) : encodeByte c = [c] := by
  rw [encodeByte, if_neg (UInt8.not_lt.2 above)]

theorem encodeByte_control (below : c < 32) : encodeByte c = [backslash, hexDigit (c / 16), 0] := by
  rw [encodeByte, if_pos below]
  rfl

theorem cString_two (a b : UInt8) (l : List UInt8) : (cString (a :: b :: 0 :: l)).length ≤ 2 := by
  by_cases first : a = 0
  · simp [cString, first]
  · by_cases second : b = 0 <;> simp [cString, first, second]

/-- Of what is sent for a text, the reader sees what stands before the first control byte,
and the two bytes before the NUL. -/
theorem cString_escape_length_le {text : List UInt8} (nonzero : ∀ c ∈ text, c ≠ 0) :
    (cString (text.flatMap escape)).length ≤
      (text.takeWhile fun c => 32 ≤ c ∨ c = newline).length + 2 := by
  induction text with
  | nil => exact Nat.zero_le _
  | cons c text ih =>
    have rest := ih fun c member => nonzero c (mem_cons_of_mem _ member)
    have head := nonzero c mem_cons_self
    by_cases plain : 32 ≤ c ∨ c = newline
    · have kept : escape c = [c] := by
        rw [escape]
        split_ifs with feed
        · rw [feed]
        · exact encodeByte_printable (plain.resolve_right feed)
      rw [flatMap_cons, kept, takeWhile_cons_of_pos (by simpa using plain),
        singleton_append, cString, takeWhile_cons_of_pos (by simpa using head)]
      exact Nat.succ_le_succ rest
    · have control : escape c = [backslash, hexDigit (c / 16), 0] := by
        rw [escape, if_neg (fun feed => plain (.inr feed))]
        exact encodeByte_control (UInt8.not_le.1 fun above => plain (.inl above))
      rw [flatMap_cons, control, takeWhile_cons_of_neg (by simpa using plain)]
      exact cString_two _ _ _

theorem joinLines_flatMap (lines : ∀ l ∈ ls, newline ∉ l) :
    joinLines (ls.map fun l => l.flatMap encodeByte) = (joinLines ls).flatMap escape := by
  induction ls with
  | nil => rfl
  | cons l ls ih =>
    have rest := ih fun l member => lines l (mem_cons_of_mem _ member)
    have line : l.flatMap escape = l.flatMap encodeByte := by
      apply flatMap_congr
      intro c member
      rw [escape, if_neg]
      exact fun feed => lines l mem_cons_self (feed ▸ member)
    rw [map_cons, joinLines_cons, joinLines_cons, rest, flatMap_append, flatMap_cons, line]
    rfl

/-! ## What is read -/

theorem decodeValue_cases (value : List UInt8) :
    (backslash ∉ value ∧ decodeValue value = value) ∨
      (backslash ∈ value ∧ (decodeValue value).length < value.length) := by
  fun_induction decodeValue value with
  | case1 => exact .inl ⟨not_mem_nil, rfl⟩
  | case2 => exact .inr ⟨mem_cons_self, Nat.zero_lt_succ 0⟩
  | case3 c other => exact .inl ⟨by simpa using Ne.symm other, rfl⟩
  | case4 d s ih =>
    refine .inr ⟨mem_cons_self, ?_⟩
    have short : (decodeValue s).length ≤ s.length := by
      rcases ih with ⟨-, same⟩ | ⟨-, shorter⟩
      · exact Nat.le_of_eq (congrArg List.length same)
      · exact Nat.le_of_lt shorter
    simp only [length_cons]
    omega
  | case5 c d s other ih =>
    rcases ih with ⟨none, same⟩ | ⟨some, shorter⟩
    · left
      refine ⟨?_, by rw [same]⟩
      rw [mem_cons, not_or]
      exact ⟨Ne.symm other, none⟩
    · right
      rw [length_cons, length_cons]
      exact ⟨mem_cons_of_mem _ some, Nat.succ_lt_succ shorter⟩

theorem decodeValue_of_notMem {value : List UInt8} (none : backslash ∉ value) :
    decodeValue value = value := by
  rcases decodeValue_cases value with ⟨-, same⟩ | ⟨some, -⟩
  · exact same
  · exact absurd some none

theorem decodeValue_length_le (value : List UInt8) :
    (decodeValue value).length ≤ value.length := by
  rcases decodeValue_cases value with ⟨-, same⟩ | ⟨-, shorter⟩
  · exact Nat.le_of_eq (congrArg List.length same)
  · exact Nat.le_of_lt shorter

theorem ltrim_length_le (p : List UInt8) : (ltrim p).length ≤ p.length :=
  (dropWhile_suffix isblankchar).length_le

theorem rtrim_length_le (p : List UInt8) : (rtrim p).length ≤ p.length := by
  rw [rtrim, length_reverse, ← @length_reverse _ p]
  exact ltrim_length_le p.reverse

theorem decodeLine_length_le {token line : List UInt8} (decoded : decodeLine token = .ok line) :
    line.length ≤ token.length := by
  unfold decodeLine at decoded
  by_cases plain : equalsSign ∉ token
  · rw [if_pos plain] at decoded
    cases decoded
    exact Nat.le_trans (ltrim_length_le _) (rtrim_length_le token)
  · rw [if_neg plain] at decoded
    dsimp only at decoded
    have left := ltrim_length_le token
    have split := congrArg List.length (takeWhile_append_dropWhile
      (p := fun c => decide (c ≠ equalsSign ∧ ¬ isblankchar c)) (l := ltrim token))
    rw [length_append] at split
    have blanks := ltrim_length_le
      ((ltrim token).dropWhile fun c => c ≠ equalsSign ∧ ¬ isblankchar c)
    split at decoded
    · cases decoded
    · rename_i c value behind
      split_ifs at decoded
      cases decoded
      have short := decodeValue_length_le value
      rw [behind, length_cons] at blanks
      simp only [length_append, length_cons]
      omega

/-! ## The lines of a message -/

theorem above_not_blank (above : 32 < c) : isblankchar c = false := by
  have apart : c ≠ 32 ∧ c ≠ 9 ∧ c ≠ 11 := by
    refine ⟨?_, ?_, ?_⟩ <;> rintro rfl <;> exact absurd above (by decide)
  simp [isblankchar, apart]

theorem ltrim_cons (other : isblankchar c = false) (l : List UInt8) : ltrim (c :: l) = c :: l := by
  rw [ltrim, dropWhile_cons_of_neg (by simp [other])]

theorem ne_newline_of_le (above : 32 ≤ c) : c ≠ newline := by
  rintro rfl
  exact absurd above (by decide)

theorem ne_zero_of_le (above : 32 ≤ c) : c ≠ 0 := by
  rintro rfl
  exact absurd above (by decide)

/-- A line as a message has it: without NUL and line feed, and not starting with a
blank. -/
structure Clean (l : List UInt8) : Prop where
  bytes : ∀ c ∈ l, c ≠ 0 ∧ c ≠ newline
  start : ltrim l = l
  nonempty : l ≠ []

theorem Clean.isLine {l : List UInt8} (clean : Clean l) : IsLine l :=
  ⟨fun feed => (clean.bytes newline feed).2 rfl, clean.start.symm ▸ clean.nonempty⟩

namespace Param

variable (p : Param)

theorem name_stop (c : UInt8) (member : c ∈ p.name) :
    decide (c ≠ equalsSign ∧ ¬ isblankchar c) = true := by
  rcases p.name_bytes c member with ⟨above, other⟩
  simp [other, above_not_blank above]

theorem ltrim_line : ltrim p.line = p.line := by
  unfold line
  cases named : p.name with
  | nil => exact ltrim_cons (by decide) _
  | cons c name =>
    have first := p.name_bytes c (named ▸ mem_cons_self)
    exact ltrim_cons (above_not_blank first.1) _

theorem clean_line : Clean p.line where
  bytes := by
    intro c member
    rcases mem_append.1 member with named | rest
    · have above := UInt8.le_of_lt (p.name_bytes c named).1
      exact ⟨ne_zero_of_le above, ne_newline_of_le above⟩
    · rcases mem_cons.1 rest with rfl | valued
      · decide
      · exact p.value_bytes c valued
  start := p.ltrim_line
  nonempty := by simp [line]

theorem decode_line : decodeLine p.line = .ok (p.name ++ equalsSign :: decodeValue p.value) := by
  have equals : ¬ equalsSign ∉ p.line := by simp [line]
  rw [decodeLine, if_neg equals]
  dsimp only
  rw [p.ltrim_line, line, takeWhile_append_of_pos p.name_stop,
    dropWhile_append_of_pos p.name_stop, takeWhile_cons_of_neg (by decide),
    dropWhile_cons_of_neg (by decide), ltrim_cons (by decide), append_nil]
  simp only [if_true]

end Param

namespace Message

variable (m : Message)

theorem clean_name : Clean m.name where
  bytes := by
    intro c member
    have above := (m.name_bytes c member).1
    exact ⟨ne_zero_of_le above, ne_newline_of_le above⟩
  start := by
    conv_lhs => rw [← m.name_trim]
    conv_rhs => rw [← m.name_trim]
    exact dropWhile_idempotent _ _
  nonempty := m.name_nonempty

theorem decode_name : decodeLine m.name = .ok m.name := by
  have plain : equalsSign ∉ m.name := fun member => (m.name_bytes _ member).2 rfl
  rw [decodeLine, if_pos plain, m.name_trim]

theorem mem_lines {l : List UInt8} :
    l ∈ m.lines ↔ l = m.name ∨ (∃ p ∈ m.params, p.line = l) ∨ l = endLine := by
  simp [lines]

theorem clean_lines : ∀ l ∈ m.lines, Clean l := by
  intro l member
  rcases m.mem_lines.1 member with rfl | ⟨p, -, rfl⟩ | rfl
  · exact m.clean_name
  · exact p.clean_line
  · exact ⟨Bytes.forall_mem_of_all rfl, by decide, by decide⟩

theorem text_bytes : ∀ c ∈ m.text, c ≠ 0 := by
  intro c member
  rcases mem_flatMap.1 member with ⟨l, line, inside⟩
  rcases mem_append.1 inside with inside | feed
  · exact ((m.clean_lines l line).bytes c inside).1
  · rw [mem_singleton.1 feed]
    decide

theorem cString_text : cString m.text = m.text :=
  takeWhile_eq_self_iff.2 fun c member => decide_eq_true (m.text_bytes c member)

theorem encode_eq :
    encodeTelesupMessage m.text =
      if (m.text.flatMap escape).length ≤ telesupMsgSize then .ok (m.text.flatMap escape)
      else .error .msgTooLarge := by
  have coded : ∀ l ∈ m.lines, (.ok (encodeLine l) : Except TsupExn (List UInt8)) =
      .ok (l.flatMap encodeByte) := by
    intro l member
    rw [encodeLine, (m.clean_lines l member).start]
  have feeds : ∀ l ∈ m.lines, newline ∉ l := fun l member => (m.clean_lines l member).isLine.1
  rw [encodeTelesupMessage, m.cString_text, text,
    copyLines_eq _ (fun l member => (m.clean_lines l member).isLine) coded, joinLines_flatMap feeds]

/-- What the decoder makes of a line. -/
def decodedLine (l : List UInt8) : List UInt8 :=
  match decodeLine l with
  | .ok line => line
  | .error _ => []

theorem decode_lines : ∀ l ∈ m.lines, decodeLine l = .ok (decodedLine l) := by
  intro l member
  rcases m.mem_lines.1 member with rfl | ⟨p, -, rfl⟩ | rfl
  · rw [decodedLine, m.decode_name]
  · rw [decodedLine, p.decode_line]
  · rfl

theorem decode_eq :
    decodeTelesupMessage m.text =
      if (joinLines (m.lines.map decodedLine)).length ≤ telesupMsgSize then
        .ok (joinLines (m.lines.map decodedLine))
      else .error .msgTooLarge := by
  rw [decodeTelesupMessage, m.cString_text, text,
    copyLines_eq _ (fun l member => (m.clean_lines l member).isLine) m.decode_lines]

/-- The values of a message have neither a backslash nor a byte below the blank. -/
def Plain : Prop := ∀ p ∈ m.params, ∀ c ∈ p.value, Printable c

end Message

/-- Lines that are not longer afterwards, and not shorter together, keep their length. -/
theorem joinLines_length_eq {coded : List UInt8 → List UInt8} {ls : List (List UInt8)}
    (short : ∀ l ∈ ls, (coded l).length ≤ l.length)
    (same : (joinLines (ls.map coded)).length = (joinLines ls).length) :
    ∀ l ∈ ls, (coded l).length = l.length := by
  have total : ∀ ls : List (List UInt8), (∀ l ∈ ls, (coded l).length ≤ l.length) →
      (joinLines (ls.map coded)).length ≤ (joinLines ls).length := by
    intro ls short
    induction ls with
    | nil => exact Nat.le_refl 0
    | cons l ls ih =>
      have head := short l mem_cons_self
      have rest := ih fun l member => short l (mem_cons_of_mem _ member)
      simp only [map_cons, joinLines_cons, length_append, length_cons]
      omega
  induction ls with
  | nil => simp
  | cons l ls ih =>
    have head := short l mem_cons_self
    have tails := fun l member => short l (mem_cons_of_mem _ member)
    have rest := total ls tails
    simp only [map_cons, joinLines_cons, length_append, length_cons] at same
    intro k member
    rcases mem_cons.1 member with rfl | member
    · omega
    · exact ih tails (by omega) k member

namespace Message

variable {m : Message}

theorem above_endLine : ∀ c ∈ endLine, 32 ≤ c := Bytes.forall_mem_of_all rfl

theorem above_text (values : ∀ p ∈ m.params, ∀ c ∈ p.value, 32 ≤ c) :
    ∀ c ∈ m.text, 32 ≤ c ∨ c = newline := by
  intro c member
  rcases mem_flatMap.1 member with ⟨l, line, inside⟩
  rcases mem_append.1 inside with inside | feed
  · left
    rcases m.mem_lines.1 line with rfl | ⟨p, param, rfl⟩ | rfl
    · exact (m.name_bytes c inside).1
    · rcases mem_append.1 inside with named | rest
      · exact UInt8.le_of_lt (p.name_bytes c named).1
      · rcases mem_cons.1 rest with rfl | valued
        · decide
        · exact values p param c valued
    · exact above_endLine c inside
  · exact .inr (mem_singleton.1 feed)

theorem mem_text {p : Param} (param : p ∈ m.params) {c : UInt8} (valued : c ∈ p.value) :
    c ∈ m.text := by
  have line : p.line ∈ m.lines := m.mem_lines.2 (.inr (.inl ⟨p, param, rfl⟩))
  refine mem_flatMap.2 ⟨p.line, line, mem_append_left _ ?_⟩
  exact mem_append_right _ (mem_cons_of_mem _ valued)

theorem escape_text (above : ∀ c ∈ m.text, 32 ≤ c ∨ c = newline) :
    m.text.flatMap escape = m.text := by
  have kept : ∀ c ∈ m.text, escape c = [c] := by
    intro c member
    rw [escape]
    split_ifs with feed
    · rw [feed]
    · exact encodeByte_printable ((above c member).resolve_right feed)
  rw [flatMap_congr kept, flatMap_singleton']

theorem takeWhile_length_lt (control : ¬ ∀ c ∈ m.text, 32 ≤ c ∨ c = newline) :
    (m.text.takeWhile fun c => 32 ≤ c ∨ c = newline).length + 4 < m.text.length := by
  have parts : m.text = joinLines (m.name :: m.params.map Param.line) ++ (endLine ++ [newline]) := by
    simp [text, lines, joinLines]
  rw [parts] at control ⊢
  generalize joinLines (m.name :: m.params.map Param.line) = body at control ⊢
  have cut : (body.takeWhile fun c => 32 ≤ c ∨ c = newline).length ≠ body.length := by
    intro whole
    have all := takeWhile_eq_self_iff.1
      ((List.takeWhile_prefix _).eq_of_length whole)
    apply control
    intro c member
    rcases mem_append.1 member with inside | last
    · exact of_decide_eq_true (all c inside)
    · rcases mem_append.1 last with ends | feed
      · exact .inl (above_endLine c ends)
      · exact .inr (mem_singleton.1 feed)
  have le := (List.takeWhile_prefix (l := body) fun c => decide (32 ≤ c ∨ c = newline)).length_le
  have four : (endLine ++ [newline]).length = 4 := rfl
  rw [takeWhile_append, if_neg cut, length_append, four]
  omega

/-- The message that is decoded from what is encoded. -/
def roundTrip (m : Message) : Except TsupExn (List UInt8) :=
  match encodeTelesupMessage m.text with
  | .error e => .error e
  | .ok sent => decodeTelesupMessage sent

theorem roundTrip_control (control : ¬ ∀ c ∈ m.text, 32 ≤ c ∨ c = newline) :
    m.roundTrip ≠ .ok m.text := by
  intro back
  rw [roundTrip, m.encode_eq] at back
  split_ifs at back with fits
  have read := copyLines_length_le decodeLine_length_le _ _ [] back
  have seen := cString_escape_length_le m.text_bytes
  have lost := takeWhile_length_lt control
  rw [length_nil] at read
  omega

theorem roundTrip_eq (above : ∀ c ∈ m.text, 32 ≤ c ∨ c = newline) :
    m.roundTrip =
      if m.text.length ≤ telesupMsgSize then decodeTelesupMessage m.text
      else .error .msgTooLarge := by
  rw [roundTrip, m.encode_eq, escape_text above]
  split_ifs <;> rfl

theorem decodedLine_length_le : ∀ l ∈ m.lines, (decodedLine l).length ≤ l.length :=
  fun l member => decodeLine_length_le (m.decode_lines l member)

/-- **The round trip of a message**: it comes back if and only if it is not too large and
its values have no backslash and no byte below the blank. -/
theorem decode_encode_iff (m : Message) :
    m.roundTrip = .ok m.text ↔ m.text.length ≤ telesupMsgSize ∧ m.Plain := by
  constructor
  · intro back
    have above : ∀ c ∈ m.text, 32 ≤ c ∨ c = newline := by
      by_contra control
      exact roundTrip_control control back
    rw [roundTrip_eq above] at back
    split_ifs at back with size
    refine ⟨size, ?_⟩
    rw [m.decode_eq] at back
    split_ifs at back
    have same := joinLines_length_eq decodedLine_length_le (congrArg List.length (Except.ok.inj back))
    intro p param c valued
    have kept := same p.line (m.mem_lines.2 (.inr (.inl ⟨p, param, rfl⟩)))
    rw [decodedLine, p.decode_line] at kept
    rcases decodeValue_cases p.value with ⟨none, -⟩ | ⟨-, shorter⟩
    · refine ⟨(above c (mem_text param valued)).resolve_right (p.value_bytes c valued).2, ?_⟩
      rintro rfl
      exact none valued
    · simp only [Param.line, length_append, length_cons] at kept
      omega
  · rintro ⟨size, plain⟩
    have above := above_text fun p param c valued => (plain p param c valued).1
    have decoded : m.lines.map decodedLine = m.lines := by
      have kept : ∀ l ∈ m.lines, decodedLine l = id l := by
        intro l member
        rcases m.mem_lines.1 member with rfl | ⟨p, param, rfl⟩ | rfl
        · rw [decodedLine, m.decode_name, id]
        · have none : backslash ∉ p.value := fun inside => (plain p param _ inside).2 rfl
          rw [decodedLine, p.decode_line, decodeValue_of_notMem none]
          rfl
        · rfl
      rw [map_congr_left kept, map_id]
    rw [roundTrip_eq above, if_pos size, m.decode_eq, decoded]
    exact if_pos size

end Message

/-- The value `a\b` comes back as the bytes `a`, NUL. -/
theorem decode_encode_backslash :
    ¬ ∀ m : Message, m.roundTrip = .ok m.text := by
  intro back
  have value := back
    { name := [79, 75], params := [{
        name := [80], value := [97, 92, 98], name_bytes := Bytes.forall_mem_of_all rfl
        value_bytes := Bytes.forall_mem_of_all rfl }]
      name_bytes := Bytes.forall_mem_of_all rfl, name_nonempty := by decide, name_trim := by decide }
  exact absurd value (by decide)

end CimArm.Telesup
