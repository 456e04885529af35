import CimArm.Telesup.MessageReader

/-!
# Messages sent in parts

A message is built line by line.  At the end of an entity the text so far is sent as a part of
the message when it has come within `flushMargin` of the size of a message, and the last part is
sent with the line `End`.  Each part is encoded on its own; the encoder skips blank lines, drops
the blanks at the start of a line, and writes three bytes for one below the blank.

* `Proxy.send_eq_whole_iff`: when what is added up to the next end of an entity stays below the
  margin, the parts are the encoded message if and only if each of them is short enough when it is
  encoded, and the last one has room for `End`.
-/

namespace CimArm.Telesup

open FileTransfer List

/-! ## Building a message -/

/-- What the proxy holds of a message, and what its writer was given. -/
structure Proxy : Type where
  myMessage : List UInt8
  myPartitionMessage : Bool
  written : List UInt8

/-- `END_ENTITY` -/
def endEntity : List UInt8 := bytes ['E', 'n', 'd', 'E', 'n', 't', 'i', 't', 'y']

/-- What is left free above the size that makes `addLine` send a part. -/
def flushMargin : Nat := 2000

/-- `TELESUP_RESPONSE_MSGLINE_SIZE` -/
def telesupResponseMsglineSize : Nat := 32768

/-- The name of a message or of its answer. -/
structure RequestName : Type where
  text : List UInt8
  bytes : ∀ c ∈ text, 32 ≤ c
  start : ltrim text = text
  some : text ≠ []
  size : text.length ≤ telesupRequestNameSize

/-- The calls that add to a message; a parameter comes with the text that its value is printed
as. -/
inductive LineCall : Type
  | addLine (aLine : List UInt8) (string : ∀ c ∈ aLine, c ≠ 0)
  | addParam (aParamName aValue : List UInt8) (string : ∀ c ∈ aParamName ++ aValue, c ≠ 0)

namespace Proxy

def newMessage (p : Proxy) (aMessageName : RequestName) : Proxy :=
  { p with myMessage := messageHeader ++ newline :: aMessageName.text ++ [newline] }

/-- `sprintf` into `myMessageLine` and `strcat` to `myMessage`. -/
def strcatLine (p : Proxy) (line : List UInt8) : Except Stop Proxy :=
  if (line ++ [newline]).length > telesupResponseMsglineSize then .error .outside
  else if (p.myMessage ++ (line ++ [newline])).length > telesupMsgSize then .error .outside
  else .ok { p with myMessage := p.myMessage ++ (line ++ [newline]) }

def sendMessagePart (p : Proxy) : Except Stop Proxy :=
  match encodeTelesupMessage p.myMessage with
  | .error e => .error (.exn e)
  | .ok sent => .ok { p with myPartitionMessage := true, written := p.written ++ sent }

def addLine (p : Proxy) (aLine : List UInt8) : Except Stop Proxy :=
  match p.strcatLine aLine with
  | .error e => .error e
  | .ok p =>
    if aLine = endEntity ∧ telesupMsgSize - flushMargin ≤ p.myMessage.length then
      match p.sendMessagePart with
      | .error e => .error e
      | .ok p => .ok { p with myMessage := [] }
    else .ok p

/-- `addParamAsString`, and the others once the value is printed. -/
def addParamAsString (p : Proxy) (aParamName aValue : List UInt8) : Except Stop Proxy :=
  p.strcatLine (aParamName ++ equalsSign :: aValue)

def addParamAsBoolean (p : Proxy) (aParamName : List UInt8) (aValue : Bool) : Except Stop Proxy :=
  p.addParamAsString aParamName
    (if aValue then FileTransfer.bytes ['T', 'r', 'u', 'e']
      else FileTransfer.bytes ['F', 'a', 'l', 's', 'e'])

/-- A message that was not sent in parts is looked at for its name first. -/
def sendMessage (p : Proxy) : Except Stop Proxy :=
  let myMessage := p.myMessage ++ (endLine ++ [newline])
  if myMessage.length > telesupMsgSize then .error .outside
  else
    match encodeTelesupMessage myMessage with
    | .error e => .error (.exn e)
    | .ok sent =>
      let after : Proxy :=
        { myMessage := myMessage, myPartitionMessage := false, written := p.written ++ sent }
      if p.myPartitionMessage then .ok after
      else
        match getRequestName (cString sent) with
        | .error e => .error e
        | .ok _ => .ok after

def call (p : Proxy) : LineCall → Except Stop Proxy
  | .addLine aLine _ => p.addLine aLine
  | .addParam aParamName aValue _ => p.addParamAsString aParamName aValue

def calls (p : Proxy) : List LineCall → Except Stop Proxy
  | [] => .ok p
  | c :: cs =>
    match p.call c with
    | .error e => .error e
    | .ok p => p.calls cs

/-- The rest of a message, with its line `End`. -/
def finish (p : Proxy) (cs : List LineCall) : Except Stop Proxy :=
  match p.calls cs with
  | .error e => .error e
  | .ok p => p.sendMessage

def send (p : Proxy) (aMessageName : RequestName) (cs : List LineCall) : Except Stop Proxy :=
  (p.newMessage aMessageName).finish cs

end Proxy

/-! ## The message as a whole -/

/-- The lines of a text, of which the last has no line feed. -/
def splitLines : List UInt8 → List (List UInt8)
  | [] => [[]]
  | c :: text =>
    if c = newline then [] :: splitLines text
    else
      match splitLines text with
      | [] => [[c]]
      | l :: ls => (c :: l) :: ls

def LineCall.text : LineCall → List UInt8
  | .addLine aLine _ => aLine
  | .addParam aParamName aValue _ => aParamName ++ equalsSign :: aValue

def LineCall.endsEntity : LineCall → Bool
  | .addLine aLine _ => aLine = endEntity
  | .addParam _ _ _ => false

/-- The lines that a call adds: its text may have line feeds inside. -/
def LineCall.lines (c : LineCall) : List (List UInt8) := splitLines c.text

/-- The bytes for lines that are encoded without a bound. -/
def wire (ls : List (List UInt8)) : List UInt8 :=
  joinLines ((ls.filter fun l => ltrim l ≠ []).map encodeLine)

def firstLines (aMessageName : RequestName) : List (List UInt8) :=
  [messageHeader, aMessageName.text]

/-- The lines that are held, those of the calls, and `End`. -/
def linesOf (held : List (List UInt8)) (cs : List LineCall) : List (List UInt8) :=
  held ++ (cs.flatMap LineCall.lines ++ [endLine])

/-- Where a message is cut: behind an entity with which the text has reached the size. -/
def parts : List (List UInt8) → List LineCall → List (List (List UInt8))
  | held, [] => [held ++ [endLine]]
  | held, c :: cs =>
    if c.endsEntity ∧ telesupMsgSize - flushMargin ≤ (joinLines (held ++ c.lines)).length then
      (held ++ c.lines) :: parts [] cs
    else parts (held ++ c.lines) cs

/-- The bytes that a line takes: three for each one below the blank. -/
def escapedLength (l : List UInt8) : Nat :=
  if ltrim l = [] then 0 else ((ltrim l).map fun c => if c < 32 then 3 else 1).sum + 1

def escapedSize (ls : List (List UInt8)) : Nat := (ls.map escapedLength).sum

/-- The bytes from one end of an entity to the next stay below the margin. -/
def ShortEntities : Nat → List LineCall → Prop
  | _, [] => True
  | behind, c :: cs =>
    behind + (c.text.length + 1) < flushMargin ∧
      ShortEntities (if c.endsEntity then 0 else behind + (c.text.length + 1)) cs

/-! ## Lines and bytes -/

theorem joinLines_append (ls ks : List (List UInt8)) :
    joinLines (ls ++ ks) = joinLines ls ++ joinLines ks := by
  simp [joinLines]

theorem joinLines_splitLines (text : List UInt8) :
    joinLines (splitLines text) = text ++ [newline] := by
  induction text with
  | nil => rfl
  | cons c text ih =>
    rw [splitLines]
    split_ifs with feed
    · rw [joinLines_cons, ih, feed]
      rfl
    · cases rest : splitLines text with
      | nil => simp [rest] at ih
      | cons l ls =>
        rw [rest, joinLines_cons] at ih
        simp [ih]

theorem mem_splitLines {text l : List UInt8} (member : l ∈ splitLines text) :
    newline ∉ l ∧ ∀ c ∈ l, c ∈ text := by
  induction text generalizing l with
  | nil =>
    rw [splitLines, mem_singleton] at member
    simp [member]
  | cons c text ih =>
    rw [splitLines] at member
    split_ifs at member with feed
    · rcases mem_cons.1 member with rfl | rest
      · simp
      · exact ⟨(ih rest).1, fun d inside => mem_cons_of_mem _ ((ih rest).2 d inside)⟩
    · cases rest : splitLines text with
      | nil =>
        rw [rest, mem_singleton] at member
        rw [member]
        exact ⟨by simpa using Ne.symm feed, by simp⟩
      | cons k ks =>
        rw [rest] at member
        rcases mem_cons.1 member with rfl | later
        · have first := ih (rest ▸ mem_cons_self)
          refine ⟨by simpa using ⟨Ne.symm feed, first.1⟩, ?_⟩
          intro d inside
          rcases mem_cons.1 inside with rfl | inside
          · exact mem_cons_self
          · exact mem_cons_of_mem _ (first.2 d inside)
        · have others := ih (rest ▸ mem_cons_of_mem _ later)
          exact ⟨others.1, fun d inside => mem_cons_of_mem _ (others.2 d inside)⟩

/-- Lines of a text without NUL. -/
def TextLines (ls : List (List UInt8)) : Prop := ∀ l ∈ ls, newline ∉ l ∧ ∀ c ∈ l, c ≠ 0

variable {ls : List (List UInt8)}

theorem TextLines.append {ks : List (List UInt8)} (left : TextLines ls) (right : TextLines ks) :
    TextLines (ls ++ ks) :=
  fun l member => (mem_append.1 member).elim (left l) (right l)

theorem TextLines.endLine : TextLines [endLine] :=
  forall_mem_singleton.2 ⟨by decide, Bytes.forall_mem_of_all rfl⟩

theorem TextLines.nonzero (lines : TextLines ls) : ∀ c ∈ joinLines ls, c ≠ 0 := by
  intro c member
  rcases mem_flatMap.1 member with ⟨l, line, inside⟩
  rcases mem_append.1 inside with inside | feed
  · exact (lines l line).2 c inside
  · rw [mem_singleton.1 feed]
    decide

theorem LineCall.text_nonzero (c : LineCall) : ∀ d ∈ c.text, d ≠ 0 := by
  cases c with
  | addLine aLine string => exact string
  | addParam aParamName aValue string =>
    intro d member
    rcases mem_append.1 member with named | rest
    · exact string d (mem_append_left _ named)
    · rcases mem_cons.1 rest with rfl | valued
      · decide
      · exact string d (mem_append_right _ valued)

theorem LineCall.textLines (c : LineCall) : TextLines c.lines := fun _ member =>
  ⟨(mem_splitLines member).1, fun d inside => c.text_nonzero d ((mem_splitLines member).2 d inside)⟩

theorem RequestName.textLines (aMessageName : RequestName) : TextLines (firstLines aMessageName) := by
  have name : ∀ c ∈ aMessageName.text, c ≠ newline ∧ c ≠ 0 := fun c member =>
    ⟨ne_newline_of_le (aMessageName.bytes c member), ne_zero_of_le (aMessageName.bytes c member)⟩
  intro l member
  rcases mem_cons.1 member with rfl | second
  · exact ⟨by decide, Bytes.forall_mem_of_all rfl⟩
  · rw [mem_singleton.1 second]
    exact ⟨fun feed => (name _ feed).1 rfl, fun c inside => (name c inside).2⟩

theorem wire_append (ls ks : List (List UInt8)) : wire (ls ++ ks) = wire ls ++ wire ks := by
  rw [wire, filter_append, map_append, joinLines_append]
  rfl

theorem encodeLine_length (l : List UInt8) :
    (encodeLine l).length = ((ltrim l).map fun c => if c < 32 then 3 else 1).sum := by
  rw [encodeLine, length_flatMap]
  congr 1
  apply map_congr_left
  intro c _
  rw [encodeByte]
  split_ifs <;> rfl

theorem wire_length (ls : List (List UInt8)) : (wire ls).length = escapedSize ls := by
  induction ls with
  | nil => rfl
  | cons l ls ih =>
    have cons : wire (l :: ls) = wire [l] ++ wire ls := wire_append [l] ls
    have first : (wire [l]).length = escapedLength l := by
      unfold wire escapedLength
      split_ifs with blanks
      · rw [filter_cons_of_neg (by simpa using blanks)]
        rfl
      · rw [filter_cons_of_pos (by simpa using blanks)]
        simp [encodeLine_length]
    rw [cons, length_append, ih, first]
    rfl

theorem TextLines.encode_eq (lines : TextLines ls) : encodeTelesupMessage (joinLines ls) =
      if escapedSize ls ≤ telesupMsgSize then .ok (wire ls) else .error .msgTooLarge := by
  have text : cString (joinLines ls) = joinLines ls :=
    takeWhile_eq_self_iff.2 fun c member => decide_eq_true (lines.nonzero c member)
  rw [encodeTelesupMessage, text, copyLines_filter _ (fun l member => (lines l member).1) _
    (Nat.le_refl _), copyAll_eq encodeLine (fun l _ => rfl) [] (Nat.zero_le _), nil_append,
    ← wire_length]
  rfl

/-! ## One call -/

namespace Proxy

variable {p : Proxy} {held : List (List UInt8)}

/-- The text of a proxy is made of lines. -/
structure Holds (p : Proxy) (held : List (List UInt8)) : Prop where
  text : p.myMessage = joinLines held
  lines : TextLines held

theorem Holds.strcatLine_eq (holds : p.Holds held) (c : LineCall) :
    p.strcatLine c.text =
      if (joinLines (held ++ c.lines)).length > telesupMsgSize then .error .outside
      else .ok { p with myMessage := joinLines (held ++ c.lines) } := by
  have added : p.myMessage ++ (c.text ++ [newline]) = joinLines (held ++ c.lines) := by
    rw [joinLines_append, holds.text, LineCall.lines, joinLines_splitLines]
  have length := congrArg List.length added
  rw [length_append] at length
  rw [strcatLine, added]
  unfold telesupResponseMsglineSize telesupMsgSize
  split_ifs with long large large
  · rfl
  · omega
  · rfl
  · rfl

theorem Holds.call_eq (holds : p.Holds held) (c : LineCall) :
    p.call c =
      if (joinLines (held ++ c.lines)).length > telesupMsgSize then .error .outside
      else if c.endsEntity ∧ telesupMsgSize - flushMargin ≤ (joinLines (held ++ c.lines)).length then
        if escapedSize (held ++ c.lines) ≤ telesupMsgSize then
          .ok { myMessage := [], myPartitionMessage := true
                written := p.written ++ wire (held ++ c.lines) }
        else .error (.exn .msgTooLarge)
      else .ok { p with myMessage := joinLines (held ++ c.lines) } := by
  have added := holds.strcatLine_eq c
  have encoded := (holds.lines.append c.textLines).encode_eq
  cases c with
  | addParam aParamName aValue string =>
    have plain : ¬ ((LineCall.addParam aParamName aValue string).endsEntity ∧ telesupMsgSize -
        flushMargin ≤ (joinLines (held ++ (LineCall.addParam aParamName aValue string).lines)).length) :=
      fun both => Bool.false_ne_true both.1
    rw [if_neg plain]
    exact added
  | addLine aLine string =>
    change p.strcatLine aLine = _ at added
    have ends : (LineCall.addLine aLine string).endsEntity = decide (aLine = endEntity) := rfl
    generalize (LineCall.addLine aLine string).lines = lines at *
    rw [call, addLine, added, ends]
    simp only [decide_eq_true_eq]
    by_cases large : (joinLines (held ++ lines)).length > telesupMsgSize
    · rw [if_pos large, if_pos large]
    · rw [if_neg large, if_neg large]
      dsimp only
      by_cases flush : aLine = endEntity ∧
          telesupMsgSize - flushMargin ≤ (joinLines (held ++ lines)).length
      · rw [if_pos flush, if_pos flush, sendMessagePart, encoded]
        by_cases fits : escapedSize (held ++ lines) ≤ telesupMsgSize
        · rw [if_pos fits, if_pos fits]
        · rw [if_neg fits, if_neg fits]
      · rw [if_neg flush, if_neg flush]

/-- The text of a message starts with its name, until a part of it is sent. -/
def Named (held : List (List UInt8)) : Prop :=
  ∃ (aMessageName : RequestName) (others : List (List UInt8)),
    held = firstLines aMessageName ++ others

theorem Named.getRequestName_wire {held : List (List UInt8)} (named : Named held) :
    ∃ name, getRequestName (cString (wire (held ++ [endLine]))) = .ok name := by
  obtain ⟨aMessageName, others, rfl⟩ := named
  have printed : ∀ c ∈ messageHeader, 32 ≤ c := Bytes.forall_mem_of_all rfl
  have line : newline ∉ aMessageName.text := fun feed =>
    ne_newline_of_le (aMessageName.bytes _ feed) rfl
  have kept : ∀ l : List UInt8, (∀ c ∈ l, 32 ≤ c) → ltrim l = l → encodeLine l = l := by
    intro l printed start
    rw [encodeLine, start]
    exact (flatMap_congr fun c member => encodeByte_printable (printed c member)).trans
      (flatMap_singleton' l)
  have first : wire (firstLines aMessageName) = joinLines (firstLines aMessageName) := by
    have header : ltrim messageHeader ≠ [] := by decide
    have both : (firstLines aMessageName).filter (fun l => ltrim l ≠ []) = firstLines aMessageName := by
      simp [firstLines, aMessageName.start, aMessageName.some, header]
    rw [wire, both, firstLines, map_cons, map_singleton, kept _ printed (by decide),
      kept _ aMessageName.bytes aMessageName.start]
  have found := @getRequestName_lines messageHeader _ (by decide) line (by decide) (by decide)
    aMessageName.size (cString (wire (others ++ [endLine])))
  refine ⟨_, Eq.trans ?_ found⟩
  rw [append_assoc, wire_append, first, cString, takeWhile_append_of_pos fun c member =>
      decide_eq_true (aMessageName.textLines.nonzero c member)]
  simp [firstLines, cString]

theorem Holds.sendMessage_eq (holds : p.Holds held) (named : p.myPartitionMessage ∨ Named held) :
    p.sendMessage =
      if (joinLines (held ++ [endLine])).length > telesupMsgSize then .error .outside
      else if escapedSize (held ++ [endLine]) ≤ telesupMsgSize then
        .ok { myMessage := joinLines (held ++ [endLine]), myPartitionMessage := false
              written := p.written ++ wire (held ++ [endLine]) }
      else .error (.exn .msgTooLarge) := by
  have added : p.myMessage ++ (endLine ++ [newline]) = joinLines (held ++ [endLine]) := by
    rw [joinLines_append, holds.text]
    rfl
  rw [sendMessage, added]
  dsimp only
  by_cases large : (joinLines (held ++ [endLine])).length > telesupMsgSize
  · rw [if_pos large, if_pos large]
  · rw [if_neg large, if_neg large, (holds.lines.append .endLine).encode_eq]
    by_cases fits : escapedSize (held ++ [endLine]) ≤ telesupMsgSize
    · rw [if_pos fits, if_pos fits]
      dsimp only
      by_cases part : p.myPartitionMessage
      · rw [if_pos part]
      · rw [if_neg part]
        obtain ⟨name, found⟩ := (named.resolve_left part).getRequestName_wire
        rw [found]
    · rw [if_neg fits, if_neg fits]

end Proxy

/-! ## The parts of a message -/

theorem exists_part_ge (held : List (List UInt8)) (cs : List LineCall) :
    ∃ part ∈ parts held cs, (joinLines held).length ≤ (joinLines part).length := by
  induction cs generalizing held with
  | nil =>
    refine ⟨held ++ [endLine], by simp [parts], ?_⟩
    rw [joinLines_append, length_append]
    exact Nat.le_add_right _ _
  | cons c cs ih =>
    have added : (joinLines held).length ≤ (joinLines (held ++ c.lines)).length := by
      rw [joinLines_append, length_append]
      exact Nat.le_add_right _ _
    rw [parts]
    split_ifs with flush
    · exact ⟨_, mem_cons_self, added⟩
    · obtain ⟨part, member, longer⟩ := ih (held ++ c.lines)
      exact ⟨part, member, Nat.le_trans added longer⟩

/-- A part that neither the message buffer nor the buffer for the encoded text is too small
for. -/
def PartFits (part : List (List UInt8)) : Prop :=
  (joinLines part).length ≤ telesupMsgSize ∧ escapedSize part ≤ telesupMsgSize

namespace Proxy

theorem Named.append {held : List (List UInt8)} (named : Named held) (ls : List (List UInt8)) :
    Named (held ++ ls) := by
  obtain ⟨aMessageName, others, rfl⟩ := named
  exact ⟨aMessageName, others ++ ls, by rw [append_assoc]⟩

/-- The message is sent as a whole, and nothing else is. -/
def SendsWhole (p : Proxy) (held : List (List UInt8)) (cs : List LineCall) : Prop :=
  ∃ q, p.finish cs = .ok q ∧ q.written = p.written ++ wire (linesOf held cs)

theorem Holds.sendsWhole_iff {p : Proxy} {held : List (List UInt8)} (holds : p.Holds held)
    (named : p.myPartitionMessage ∨ Named held) (cs : List LineCall) :
    p.SendsWhole held cs ↔ ∀ part ∈ parts held cs, PartFits part := by
  induction cs generalizing p held with
  | nil =>
    have last : linesOf held [] = held ++ [endLine] := by simp [linesOf]
    simp only [SendsWhole, finish, calls, holds.sendMessage_eq named, parts, mem_singleton,
      forall_eq, PartFits, last]
    by_cases large : (joinLines (held ++ [endLine])).length > telesupMsgSize
    · simp [if_pos large, Nat.not_le.2 large]
    · by_cases fits : escapedSize (held ++ [endLine]) ≤ telesupMsgSize
      · simp [if_neg large, fits, Nat.not_lt.1 large]
      · simp [if_neg large, fits]
  | cons c cs ih =>
    have whole : linesOf held (c :: cs) = (held ++ c.lines) ++ linesOf [] cs := by simp [linesOf]
    have lines := holds.lines.append c.textLines
    have step := holds.call_eq c
    by_cases large : (joinLines (held ++ c.lines)).length > telesupMsgSize
    · -- the buffer overflows, and the part that the text is in is too large
      rw [if_pos large] at step
      constructor
      · rintro ⟨q, sent, -⟩
        rw [finish, calls, step] at sent
        cases sent
      · intro fits
        obtain ⟨part, member, longer⟩ : ∃ part ∈ parts held (c :: cs),
            (joinLines (held ++ c.lines)).length ≤ (joinLines part).length := by
          rw [parts]
          split_ifs with flush
          · exact ⟨_, mem_cons_self, Nat.le_refl _⟩
          · exact exists_part_ge _ cs
        exact absurd (Nat.le_trans longer (fits part member).1) (Nat.not_le.2 large)
    · rw [if_neg large] at step
      by_cases flush : c.endsEntity ∧
          telesupMsgSize - flushMargin ≤ (joinLines (held ++ c.lines)).length
      · rw [if_pos flush] at step
        rw [parts, if_pos flush, forall_mem_cons]
        by_cases fits : escapedSize (held ++ c.lines) ≤ telesupMsgSize
        · rw [if_pos fits] at step
          have rest := @ih
            { myMessage := [], myPartitionMessage := true
              written := p.written ++ wire (held ++ c.lines) }
            [] ⟨rfl, by simp [TextLines]⟩ (.inl rfl)
          rw [and_iff_right ⟨Nat.not_lt.1 large, fits⟩, ← rest]
          simp only [SendsWhole, finish, calls, step, whole, wire_append, append_assoc]
        · rw [if_neg fits] at step
          constructor
          · rintro ⟨q, sent, -⟩
            rw [finish, calls, step] at sent
            cases sent
          · exact fun all => absurd all.1.2 fits
      · rw [if_neg flush] at step
        have rest := @ih { p with myMessage := joinLines (held ++ c.lines) } (held ++ c.lines)
          ⟨rfl, lines⟩ (named.imp id fun named => named.append _)
        rw [parts, if_neg flush, ← rest]
        simp only [SendsWhole, finish, calls, step, linesOf, flatMap_cons, append_assoc]

/-! ## Short entities -/

theorem length_le_of_short {held : List (List UInt8)} {cs : List LineCall} {start behind : Nat}
    (below : start < telesupMsgSize - flushMargin)
    (length : (joinLines held).length ≤ start + behind) (short : ShortEntities behind cs) :
    ∀ part ∈ (parts held cs).dropLast, (joinLines part).length ≤ telesupMsgSize := by
  induction cs generalizing held start behind with
  | nil => simp [parts]
  | cons c cs ih =>
    rcases short with ⟨first, rest⟩
    have size : (joinLines c.lines).length = c.text.length + 1 := by
      rw [LineCall.lines, joinLines_splitLines, length_append]
      rfl
    have added : (joinLines (held ++ c.lines)).length =
        (joinLines held).length + (c.text.length + 1) := by
      rw [joinLines_append, length_append, size]
    rw [parts]
    split_ifs with flush
    · have some : parts [] cs ≠ [] := by
        obtain ⟨part, member, -⟩ := exists_part_ge [] cs
        exact ne_nil_of_mem member
      rw [dropLast_cons_of_ne_nil some, forall_mem_cons]
      rw [if_pos flush.1] at rest
      refine ⟨?_, ih (by decide : 0 < telesupMsgSize - flushMargin) (Nat.zero_le _) rest⟩
      unfold telesupMsgSize flushMargin at *
      omega
    · by_cases ends : c.endsEntity
      · rw [if_pos ends] at rest
        have under := Nat.lt_of_not_le fun reached => flush ⟨ends, reached⟩
        exact ih under (Nat.le_refl _) rest
      · rw [if_neg ends] at rest
        exact ih below (by omega) rest

/-- **Sending in parts**: with short entities, the parts are the encoded message if and only if
each of them is short enough when it is encoded and the last one has room for its end. -/
theorem send_eq_whole_iff (p : Proxy) (aMessageName : RequestName) {cs : List LineCall}
    (short : ShortEntities 0 cs) :
    (∃ q, p.send aMessageName cs = .ok q ∧
        q.written = p.written ++ wire (linesOf (firstLines aMessageName) cs)) ↔
      (∀ part ∈ parts (firstLines aMessageName) cs, escapedSize part ≤ telesupMsgSize) ∧
      ∀ part ∈ (parts (firstLines aMessageName) cs).getLast?,
        (joinLines part).length ≤ telesupMsgSize := by
  have holds : (p.newMessage aMessageName).Holds (firstLines aMessageName) :=
    ⟨by simp [newMessage, firstLines], aMessageName.textLines⟩
  have sends := holds.sendsWhole_iff (.inr ⟨aMessageName, [], (append_nil _).symm⟩) cs
  have start : (joinLines (firstLines aMessageName)).length ≤ 1033 := by
    have size := aMessageName.size
    unfold telesupRequestNameSize at size
    simp [firstLines, messageHeader, FileTransfer.bytes]
    omega
  have room := length_le_of_short (by decide) (Nat.le_trans start (Nat.le_add_right _ 0)) short
  refine sends.trans ⟨fun fits => ⟨fun part member => (fits part member).2, ?_⟩, ?_⟩
  · exact fun part last => (fits part (mem_of_getLast? last)).1
  · rintro ⟨escaped, last⟩ part member
    refine ⟨?_, escaped part member⟩
    rcases eq_nil_or_concat (parts (firstLines aMessageName) cs) with none | ⟨front, end_, all⟩
    · rw [none] at member
      cases member
    · rw [concat_eq_append] at all
      rw [all] at member room last
      rw [dropLast_concat] at room
      rcases mem_append.1 member with inside | same
      · exact room part inside
      · rw [mem_singleton.1 same]
        exact last end_ (by simp)

/-- The name of an answer. -/
def okName : RequestName where
  text := FileTransfer.bytes ['O', 'K']
  bytes := Bytes.forall_mem_of_all rfl
  start := by decide
  some := by decide
  size := by decide

/-- A proxy that has sent nothing. -/
def silent : Proxy where
  myMessage := []
  myPartitionMessage := false
  written := []

theorem send_eq_whole_line :
    (∃ q, silent.send okName [.addLine endEntity (Bytes.forall_mem_of_all rfl)] = .ok q ∧
        q.written = silent.written ++ wire (linesOf (firstLines okName)
          [.addLine endEntity (Bytes.forall_mem_of_all rfl)])) ↔
      (∀ part ∈ parts (firstLines okName) [.addLine endEntity (Bytes.forall_mem_of_all rfl)],
        escapedSize part ≤ telesupMsgSize) ∧
      ∀ part ∈ (parts (firstLines okName)
          [.addLine endEntity (Bytes.forall_mem_of_all rfl)]).getLast?,
        (joinLines part).length ≤ telesupMsgSize :=
  silent.send_eq_whole_iff okName ⟨by decide, trivial⟩

theorem replicate_nonzero (n : Nat) : ∀ c ∈ [65] ++ List.replicate n (1 : UInt8), c ≠ 0 := by
  intro c member
  rcases mem_append.1 member with named | valued
  · rw [mem_singleton.1 named]
    decide
  · rw [eq_of_mem_replicate valued]
    decide

/-- An entity whose value is made of control bytes. -/
def controlEntity (n : Nat) : List LineCall :=
  [.addParam [65] (List.replicate n 1) (replicate_nonzero n),
    .addLine endEntity (Bytes.forall_mem_of_all rfl)]

theorem parts_of_small {held : List (List UInt8)} {cs : List LineCall}
    (small : (joinLines (linesOf held cs)).length < telesupMsgSize - flushMargin) :
    parts held cs = [linesOf held cs] := by
  induction cs generalizing held with
  | nil => simp [parts, linesOf]
  | cons c cs ih =>
    have whole : linesOf held (c :: cs) = linesOf (held ++ c.lines) cs := by simp [linesOf]
    rw [whole] at small ⊢
    have below : (joinLines (held ++ c.lines)).length ≤
        (joinLines (linesOf (held ++ c.lines) cs)).length := by
      rw [linesOf, joinLines_append (held ++ c.lines), length_append]
      exact Nat.le_add_right _ _
    rw [parts, if_neg fun flush => absurd (Nat.le_trans flush.2 below) (Nat.not_le.2 small), ih small]

theorem splitLines_of_notMem {text : List UInt8} (line : newline ∉ text) :
    splitLines text = [text] := by
  induction text with
  | nil => rfl
  | cons c text ih =>
    rcases not_or.1 (fun either => line (mem_cons.2 either)) with ⟨first, rest⟩
    rw [splitLines, if_neg (Ne.symm first), ih rest]

theorem controlEntity_lines (n : Nat) :
    (controlEntity n).flatMap LineCall.lines = [65 :: equalsSign :: List.replicate n 1, endEntity] := by
  have value : newline ∉ 65 :: equalsSign :: List.replicate n (1 : UInt8) := by
    intro feed
    rcases mem_cons.1 feed with same | feed
    · exact absurd same (by decide)
    · rcases mem_cons.1 feed with same | feed
      · exact absurd same (by decide)
      · exact absurd (eq_of_mem_replicate feed) (by decide)
  have line : newline ∉ endEntity := by decide
  simp only [controlEntity, flatMap_cons, flatMap_nil, LineCall.lines, LineCall.text,
    singleton_append, splitLines_of_notMem value, splitLines_of_notMem line, append_nil]

def controlMessage (n entities : Nat) : List LineCall :=
  (List.replicate entities (controlEntity n)).flatten

theorem controlMessage_short {n : Nat} (small : n + 13 < flushMargin) (entities : Nat) :
    ShortEntities 0 (controlMessage n entities) := by
  induction entities with
  | zero => trivial
  | succ entities ih =>
    have value : (65 :: equalsSign :: List.replicate n (1 : UInt8)).length = n + 2 := by simp
    have line : endEntity.length = 9 := rfl
    refine ⟨?_, ?_, ih⟩
    · change 0 + ((65 :: equalsSign :: List.replicate n (1 : UInt8)).length + 1) < flushMargin
      omega
    · change 0 + ((65 :: equalsSign :: List.replicate n (1 : UInt8)).length + 1) +
        (endEntity.length + 1) < flushMargin
      omega

theorem controlMessage_size (n entities : Nat) :
    (joinLines ((controlMessage n entities).flatMap LineCall.lines)).length = (n + 13) * entities ∧
      escapedSize ((controlMessage n entities).flatMap LineCall.lines) = (3 * n + 13) * entities := by
  induction entities with
  | zero => exact ⟨rfl, rfl⟩
  | succ entities ih =>
    have next : controlMessage n (entities + 1) = controlEntity n ++ controlMessage n entities := by
      simp [controlMessage, replicate_succ]
    have line : endEntity.length = 9 := rfl
    have escaped : escapedLength endEntity = 10 := by decide
    have value : escapedLength (65 :: equalsSign :: List.replicate n 1) = 3 * n + 3 := by
      have start : ltrim (65 :: equalsSign :: List.replicate n 1) =
          65 :: equalsSign :: List.replicate n 1 := ltrim_cons (by decide) _
      rw [escapedLength, start, if_neg (cons_ne_nil _ _)]
      simp [equalsSign, map_replicate, sum_replicate]
      omega
    rw [next, flatMap_append, controlEntity_lines, joinLines_append]
    constructor
    · rw [length_append, ih.1, joinLines_cons, joinLines_cons]
      simp only [length_append, length_cons, length_replicate, line, joinLines_nil, length_nil]
      ring
    · have rest := ih.2
      simp only [escapedSize, map_append, map_cons, map_nil, sum_append,
        sum_cons, sum_nil, value, escaped] at rest ⊢
      rw [rest]
      ring

/-- Six entities of control bytes are short, and too long when they are encoded. -/
theorem send_eq_whole_controls :
    ¬ ∀ (p : Proxy) (aMessageName : RequestName) (cs : List LineCall), ShortEntities 0 cs →
      ∃ q, p.send aMessageName cs = .ok q ∧
        q.written = p.written ++ wire (linesOf (firstLines aMessageName) cs) := by
  intro claim
  have holds : (silent.newMessage okName).Holds (firstLines okName) :=
    ⟨by simp [newMessage, firstLines], okName.textLines⟩
  have sends := holds.sendsWhole_iff (.inr ⟨okName, [], (append_nil _).symm⟩)
    (controlMessage 1900 6)
  rcases controlMessage_size 1900 6 with ⟨size, escaped⟩
  have first : (joinLines (firstLines okName)).length = 11 := rfl
  have last : (joinLines [endLine]).length = 4 := rfl
  have one : parts (firstLines okName) (controlMessage 1900 6) =
      [linesOf (firstLines okName) (controlMessage 1900 6)] := by
    apply parts_of_small
    rw [linesOf, joinLines_append, joinLines_append, length_append, length_append, size,
      first, last]
    decide
  have fits := sends.1 (claim silent okName _ (controlMessage_short (by decide) 6)) _
    (one ▸ mem_singleton_self _)
  have large := fits.2
  simp only [linesOf, escapedSize, map_append, sum_append] at large escaped
  unfold telesupMsgSize at large
  omega

end Proxy

end CimArm.Telesup
