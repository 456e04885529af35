import CimArm.Lib.Reassembly
import CimArm.Telesup.DFileTransferProtocol

/-!
# Reassembly of remote messages

`readTelesupMessage` collects what arrives until `isRequestComplete` finds the line `End` at the
end of it.  The search goes back from the end over blanks and line feeds; its loop ends when the
index of the character becomes 0, and so it starts before an empty text and never meets that end.
-/

namespace CimArm.Telesup

open FileTransfer List

/-- Why a call does not return: it waits for what has not arrived, it leaves its memory, or it
raises an exception. -/
inductive Stop : Type
  | waiting
  | outside
  | exn (e : TsupExn)
  deriving DecidableEq

/-! ## The end of a request -/

def blank : UInt8 := 32

def IsGap (c : UInt8) : Prop := c = newline ∨ c = blank

instance : DecidablePred IsGap := fun c => inferInstanceAs (Decidable (c = newline ∨ c = blank))

/-- What stands at a place of the buffer of a string; the NUL is its last place. -/
def charAt (buffer : List UInt8) (p : Int) : Option UInt8 :=
  if 0 ≤ p then (buffer ++ [0])[p.toNat]? else none

/-- `while (--i)`: `p` goes back to a character that is neither a blank nor a line feed.  It
leaves the buffer before there are more rounds than characters. -/
def skipGap (buffer : List UInt8) : Nat → Int → Int → Option (Int × Int)
  | 0, _, _ => none
  | fuel + 1, i, p =>
    let i := i - 1
    if i = 0 then some (i, p)
    else
      match charAt buffer p with
      | none => none
      | some c => if ¬ IsGap c then some (i, p) else skipGap buffer fuel i (p - 1)

/-- The comparisons around `p`; one that fails is the last. -/
def compareAt (buffer : List UInt8) (p : Int) : List (Int × (UInt8 → Bool)) → Option Bool
  | [] => some true
  | test :: tests =>
    match charAt buffer (p + test.1) with
    | none => none
    | some c => if test.2 c then compareAt buffer p tests else some false

/-- The search for the last line of a request: it is looked for behind `least` characters. -/
def findsEnd (least : Int) (tests : List (Int × (UInt8 → Bool))) (aBuffer : List UInt8) :
    Option Bool :=
  match skipGap aBuffer (aBuffer.length + 1) aBuffer.length (aBuffer.length - 1) with
  | none => none
  | some (i, p) => if i < least then some false else compareAt aBuffer p tests

/-- `tolower(*p) == c` -/
def caseless (c d : UInt8) : Bool := tolower d = c

/-- A line feed, `End` and a line feed. -/
def endTests : List (Int × (UInt8 → Bool)) :=
  [(1, fun c => c = newline), (0, caseless 100), (-1, caseless 110), (-2, caseless 101),
    (-3, fun c => c = newline)]

/-- `none` is an access outside the buffer. -/
def isRequestComplete (aBuffer : List UInt8) : Option Bool := findsEnd 5 endTests aBuffer

/-! ## Reading a message -/

/-- `G2_TELESUP_MESSAGE_HEADER` -/
def messageHeader : List UInt8 := bytes ['M', 'e', 's', 's', 'a', 'g', 'e']

/-- `TELESUP_REQUEST_NAME_SIZE`; the buffers of a line have a place more for the NUL. -/
def telesupRequestNameSize : Nat := 1024

/-- `stringcpy` takes the size of its target, here that of a pointer. -/
def pointerSize : Nat := 4

def getRequestName (aMessage : List UInt8) : Except Stop (List UInt8) :=
  if aMessage = [] then .error (.exn .invalidRequest)
  else
    let token := (getNextToken aMessage).1
    let rest := (getNextToken aMessage).2
    if token.length > telesupRequestNameSize then .error .outside
    else if ¬ sameText token messageHeader then .error (.exn .invalidRequest)
    else if rest = [] then .error (.exn .invalidRequest)
    else
      let token := (getNextToken rest).1
      -- the copy comes before the check of the size
      if token.length > telesupRequestNameSize then .error .outside
      else .ok (token.take (pointerSize - 1))

/-- The text so far, up to its first NUL. -/
def judgeRequest (text : List UInt8) : Except Stop Bool :=
  match isRequestComplete (cString text) with
  | none => .error .outside
  | some complete => .ok complete

/-- The message, and what arrives behind it. A read gives at most what it is asked for, so that
the check for a message too large never holds. -/
def readTelesupMessage (aQty : Nat) (chunks : List (List UInt8)) :
    Except Stop (List UInt8 × List (List UInt8)) :=
  match Reassembly.collect judgeRequest .waiting (.exn .general) aQty (aQty + 1) chunks [] with
  | .error e => .error e
  | .ok (text, chunks) =>
    match getRequestName (cString text) with
    | .error e => .error e
    | .ok _ =>
      match decodeTelesupMessage text with
      | .error e => .error (.exn e)
      | .ok message => .ok (message, chunks)

/-! ## Where the search looks -/

theorem charAt_add {buffer head tail : List UInt8} (split : buffer = head ++ tail) (k : Nat) :
    charAt buffer (head.length + k : Nat) = (tail ++ [0])[k]? := by
  rw [charAt, if_pos (Int.natCast_nonneg _), Int.toNat_natCast, split, append_assoc,
    List.getElem?_append_right (Nat.le_add_right _ _), Nat.add_sub_cancel_left]

theorem charAt_append {buffer head rest : List UInt8} {c : UInt8}
    (split : buffer = head ++ c :: rest) : charAt buffer head.length = some c :=
  charAt_add split 0

theorem charAt_isSome {buffer : List UInt8} {p : Int} (start : 0 ≤ p) (fits : p ≤ buffer.length) :
    ∃ c, charAt buffer p = some c := by
  have inside : p.toNat < (buffer ++ [0]).length := by
    rw [length_append, length_singleton]
    omega
  exact ⟨(buffer ++ [0])[p.toNat], by rw [charAt, if_pos start, List.getElem?_eq_getElem inside]⟩

/-- A text as the search sees it: the last character that is no gap, or the first one. -/
structure Ending (buffer body : List UInt8) (last : UInt8) (gaps : List UInt8) : Prop where
  whole : buffer = body ++ last :: gaps
  gaps : ∀ c ∈ gaps, IsGap c
  last : IsGap last → body = []

theorem Ending.exists_of_ne_nil {buffer : List UInt8} (nonempty : buffer ≠ []) :
    ∃ body last gaps, Ending buffer body last gaps := by
  induction buffer using List.reverseRecOn with
  | nil => exact absurd rfl nonempty
  | append_singleton buffer c ih =>
    by_cases gap : IsGap c
    · by_cases first : buffer = []
      · exact ⟨[], c, [], by rw [first], by simp, fun _ => rfl⟩
      · rcases ih first with ⟨body, last, gaps, found⟩
        refine ⟨body, last, gaps ++ [c], by simp [found.whole], ?_, found.last⟩
        intro d member
        rcases mem_append.1 member with inside | same
        · exact found.gaps d inside
        · exact mem_singleton.1 same ▸ gap
    · exact ⟨buffer, c, [], rfl, by simp, fun other => absurd other gap⟩

namespace Ending

variable {buffer body : List UInt8} {last : UInt8} {gaps : List UInt8}
  (found : Ending buffer body last gaps)

include found

theorem skipGap_eq {front back : List UInt8} (split : gaps = front ++ back) {fuel : Nat}
    (enough : front.length < fuel) :
    skipGap buffer fuel (body.length + 1 + front.length) (body.length + front.length) =
      some ((body.length : Int), (body.length : Int)) := by
  induction front using List.reverseRecOn generalizing back fuel with
  | nil =>
    obtain ⟨fuel, rfl⟩ := Nat.exists_eq_add_of_lt enough
    have index : (body.length : Int) + 1 + (0 : Nat) - 1 = body.length := by omega
    have place : (body.length : Int) + (0 : Nat) = body.length := by omega
    rw [length_nil, Nat.zero_add, skipGap]
    simp only [index, place]
    split_ifs with first
    · rfl
    · have there : ¬ IsGap last := fun gap => first (by rw [found.last gap]; rfl)
      rw [charAt_append found.whole]
      exact if_pos there
  | append_singleton front g ih =>
    obtain ⟨fuel, rfl⟩ := Nat.exists_eq_add_of_lt enough
    rw [length_append, length_singleton] at *
    have index : (body.length : Int) + 1 + (front.length + 1 : Nat) - 1 =
        body.length + 1 + front.length := by omega
    have place : (body.length : Int) + (front.length + 1 : Nat) =
        ((body ++ last :: front).length : Nat) := by simp
    have next : (body.length : Int) + (front.length + 1 : Nat) - 1 = body.length + front.length := by
      omega
    have here : charAt buffer ((body ++ last :: front).length : Nat) = some g :=
      @charAt_append _ _ back _ (by simp [found.whole, split])
    have gap : IsGap g := found.gaps g (by simp [split])
    rw [skipGap]
    simp only [index, next]
    rw [if_neg (by omega), place, here]
    dsimp only
    rw [if_neg (not_not_intro gap)]
    exact @ih (g :: back) (by simp [split]) _ (by omega)

theorem findsEnd_eq (least : Int) (tests : List (Int × (UInt8 → Bool))) :
    findsEnd least tests buffer =
      if (body.length : Int) < least then some false else compareAt buffer body.length tests := by
  have length : buffer.length = body.length + 1 + gaps.length := by
    rw [found.whole, length_append, length_cons]
    omega
  have skipped := found.skipGap_eq (append_nil gaps).symm (Nat.lt_succ_of_le
    (Nat.le_trans (Nat.le_add_left _ _) (Nat.le_of_eq length.symm)))
  have index : (buffer.length : Int) = body.length + 1 + gaps.length := by omega
  have place : (buffer.length : Int) - 1 = body.length + gaps.length := by omega
  rw [findsEnd, place, index, skipped]

end Ending

theorem compareAt_isSome {buffer : List UInt8} {p : Int} {tests : List (Int × (UInt8 → Bool))}
    (inside : ∀ test ∈ tests, 0 ≤ p + test.1 ∧ p + test.1 ≤ buffer.length) :
    compareAt buffer p tests ≠ none := by
  induction tests with
  | nil => exact Option.some_ne_none true
  | cons test tests ih =>
    have first := inside test mem_cons_self
    obtain ⟨c, there⟩ := charAt_isSome first.1 first.2
    rw [compareAt, there]
    dsimp only
    split_ifs
    · exact ih fun test member => inside test (mem_cons_of_mem _ member)
    · exact Option.some_ne_none false

theorem compareAt_eq_true {buffer : List UInt8} {p : Int} {tests : List (Int × (UInt8 → Bool))} :
    compareAt buffer p tests = some true ↔
      ∀ test ∈ tests, ∃ c, charAt buffer (p + test.1) = some c ∧ test.2 c = true := by
  induction tests with
  | nil => simp [compareAt]
  | cons test tests ih =>
    rw [forall_mem_cons, ← ih, compareAt]
    cases there : charAt buffer (p + test.1) with
    | none => simp
    | some c =>
      dsimp only
      split_ifs with passed <;> simp [passed]

theorem findsEnd_isSome {least : Int} {tests : List (Int × (UInt8 → Bool))}
    (inside : ∀ test ∈ tests, -least ≤ test.1 ∧ test.1 ≤ 1) {aBuffer : List UInt8}
    (nonempty : aBuffer ≠ []) : findsEnd least tests aBuffer ≠ none := by
  rcases Ending.exists_of_ne_nil nonempty with ⟨body, last, gaps, found⟩
  have length : aBuffer.length = body.length + 1 + gaps.length := by
    rw [found.whole, length_append, length_cons]
    omega
  rw [found.findsEnd_eq]
  split_ifs with short
  · exact Option.some_ne_none false
  · apply compareAt_isSome
    intro test member
    have bounds := inside test member
    omega

theorem isRequestComplete_isSome_iff (aBuffer : List UInt8) :
    isRequestComplete aBuffer ≠ none ↔ aBuffer ≠ [] := by
  constructor
  · rintro looked rfl
    exact looked rfl
  · exact findsEnd_isSome (by decide)

/-- A line that reads `End`, in capitals or not. -/
def EndWord (l : List UInt8) : Prop := l.map tolower = [101, 110, 100]

instance : DecidablePred EndWord := fun l => inferInstanceAs (Decidable (l.map tolower = _))

variable {word l : List UInt8}

theorem EndWord.exists (ends : EndWord word) :
    ∃ a b c, word = [a, b, c] ∧ tolower a = 101 ∧ tolower b = 110 ∧ tolower c = 100 := by
  rcases word with _ | ⟨a, _ | ⟨b, _ | ⟨c, _ | ⟨d, word⟩⟩⟩⟩ <;> simp_all [EndWord]

theorem endTests_eq_true {buffer head gaps : List UInt8} {f a b c : UInt8}
    (split : buffer = head ++ f :: a :: b :: c :: gaps) :
    compareAt buffer (head.length + 3 : Nat) endTests = some true ↔
      f = newline ∧ EndWord [a, b, c] ∧ gaps.head? = some newline := by
  have behind : (gaps ++ [0])[0]? = some newline ↔ gaps.head? = some newline := by
    cases gaps with
    | nil => simp [newline]
    | cons g gaps => simp
  have first : ((head.length + 3 : Nat) : Int) + -3 = (head.length + 0 : Nat) := by omega
  have second : ((head.length + 3 : Nat) : Int) + -2 = (head.length + 1 : Nat) := by omega
  have third : ((head.length + 3 : Nat) : Int) + -1 = (head.length + 2 : Nat) := by omega
  have fourth : ((head.length + 3 : Nat) : Int) + 0 = (head.length + 3 : Nat) := by omega
  have fifth : ((head.length + 3 : Nat) : Int) + 1 = (head.length + 4 : Nat) := by omega
  rw [compareAt_eq_true, ← behind]
  simp only [endTests, forall_mem_cons, not_mem_nil, IsEmpty.forall_iff, implies_true,
    and_true, first, second, third, fourth, fifth, charAt_add split, caseless]
  simp [EndWord, and_comm, and_assoc]

theorem exists_last_three {body : List UInt8} (long : 3 ≤ body.length) :
    ∃ head f a b, body = head ++ [f, a, b] := by
  have three : (body.drop (body.length - 3)).length = 3 := by
    rw [length_drop]
    omega
  rcases length_eq_three.1 three with ⟨f, a, b, last⟩
  exact ⟨body.take (body.length - 3), f, a, b, by rw [← last, take_append_drop]⟩

/-- What the search finds stands in the text as a line of its own, not as its first. -/
theorem isRequestComplete_sound {aBuffer : List UInt8}
    (complete : isRequestComplete aBuffer = some true) :
    ∃ head word rest, aBuffer = head ++ newline :: word ++ newline :: rest ∧ EndWord word := by
  have nonempty : aBuffer ≠ [] :=
    (isRequestComplete_isSome_iff aBuffer).1 (by rw [complete]; exact Option.some_ne_none true)
  rcases Ending.exists_of_ne_nil nonempty with ⟨body, last, gaps, found⟩
  rw [isRequestComplete, found.findsEnd_eq] at complete
  have long : ¬ (body.length : Int) < 5 := by
    intro short
    rw [if_pos short] at complete
    cases complete
  rw [if_neg long] at complete
  obtain ⟨head, f, a, b, rfl⟩ := exists_last_three (by omega : 3 ≤ body.length)
  have split : aBuffer = head ++ f :: a :: b :: last :: gaps := by simp [found.whole]
  rw [length_append] at complete
  rcases (endTests_eq_true split).1 complete with ⟨feed, ends, behind⟩
  obtain ⟨rest, rfl⟩ := List.head?_eq_some_iff.1 behind
  exact ⟨head, [a, b, last], rest, by simp [split, feed], ends⟩

theorem isRequestComplete_of_end {head : List UInt8} (long : 2 ≤ head.length) (ends : EndWord word)
    : isRequestComplete (head ++ newline :: word ++ [newline]) = some true := by
  obtain ⟨a, b, c, rfl, -, -, last⟩ := ends.exists
  have found : Ending (head ++ newline :: [a, b, c] ++ [newline]) (head ++ [newline, a, b]) c
      [newline] := by
    refine ⟨by simp, by simp [IsGap], ?_⟩
    rintro (rfl | rfl) <;> exact absurd last (by decide)
  rw [isRequestComplete, found.findsEnd_eq, length_append, if_neg (by simp; omega)]
  exact (@endTests_eq_true _ head [newline] newline a b c (by simp)).2 ⟨rfl, ends, rfl⟩

/-! ## The name of a request -/

theorem getRequestName_lines {header name : List UInt8} (line : newline ∉ header)
    (second : newline ∉ name) (word : sameText header messageHeader = true)
    (short : header.length ≤ telesupRequestNameSize) (size : name.length ≤ telesupRequestNameSize)
    (rest : List UInt8) :
    getRequestName (header ++ newline :: (name ++ newline :: rest)) =
      .ok (name.take (pointerSize - 1)) := by
  have some : header ++ newline :: (name ++ newline :: rest) ≠ [] := by simp
  have behind : name ++ newline :: rest ≠ [] := by simp
  rw [getRequestName, if_neg some, getNextToken_line line]
  simp only [getNextToken_line second, word, if_neg behind, if_neg (Nat.not_lt.2 short),
    if_neg (Nat.not_lt.2 size), not_true_eq_false, if_false]

/-! ## Messages as they arrive -/

/-- A message: the line `Message`, the line with the name, others, and the line `End`. -/
structure RemoteMessage : Type where
  header : List UInt8
  name : List UInt8
  body : List (List UInt8)
  ending : List UInt8
  header_word : header.map tolower = messageHeader.map tolower
  name_size : name.length ≤ telesupRequestNameSize
  ending_word : EndWord ending
  body_bytes : ∀ l ∈ name :: body, ∀ c ∈ l, c ≠ 0 ∧ c ≠ newline
  body_words : ∀ l ∈ name :: body, ¬ EndWord l

def RemoteMessage.lines (m : RemoteMessage) : List (List UInt8) :=
  m.header :: (m.name :: m.body ++ [m.ending])

def RemoteMessage.text (m : RemoteMessage) : List UInt8 := joinLines m.lines

/-- A line that stands for itself: words without blanks around them, or a parameter whose value
has no escape. -/
inductive PlainLine : List UInt8 → Prop
  | words {l : List UInt8} (noSign : equalsSign ∉ l) (trimmed : trim l = l) (some : l ≠ []) :
    PlainLine l
  | param (p : Param) (noEscape : backslash ∉ p.value) : PlainLine p.line

def RemoteMessage.Plain (m : RemoteMessage) : Prop := ∀ l ∈ m.name :: m.body, PlainLine l

/-- The message as the requests see it. -/
def RemoteMessage.decoded (m : RemoteMessage) : Except Stop (List UInt8) :=
  (decodeTelesupMessage m.text).mapError Stop.exn

theorem next_line_eq {w text rest : List UInt8} (line : newline ∉ l) (word : newline ∉ w)
    (same : l ++ newline :: text = w ++ newline :: rest) : l = w ∧ text = rest := by
  have tokens := congrArg getNextToken same
  rw [getNextToken_line line, getNextToken_line word] at tokens
  exact Prod.mk.inj tokens

/-- What stands between two line feeds of a text of lines, and has none inside, is one of them. -/
theorem joinLines_split {ls : List (List UInt8)} (lines : ∀ l ∈ ls, newline ∉ l)
    {head rest : List UInt8} (inside : newline ∉ word)
    (split : joinLines ls = head ++ newline :: word ++ newline :: rest) :
    ∃ front back, ls = front ++ word :: back ∧ front ≠ [] ∧ joinLines back = rest := by
  induction ls generalizing head with
  | nil => simp at split
  | cons l ls ih =>
    have line := lines l mem_cons_self
    have lines := fun l member => lines l (mem_cons_of_mem _ member)
    rw [joinLines_cons] at split
    by_cases feed : newline ∈ head
    · obtain ⟨first, later, rfl, none⟩ := eq_append_cons_of_mem feed
      have cut := next_line_eq line none (by simpa using split)
      obtain ⟨front, back, rfl, -, last⟩ := @ih lines later (by simpa using cut.2)
      exact ⟨l :: front, back, rfl, cons_ne_nil _ _, last⟩
    · have cut := (next_line_eq line feed (by simpa using split)).2
      cases ls with
      | nil => simp at cut
      | cons k ls =>
        rw [joinLines_cons] at cut
        obtain ⟨rfl, rfl⟩ := next_line_eq (lines k mem_cons_self) inside cut
        exact ⟨[l], ls, rfl, cons_ne_nil _ _, rfl⟩

theorem joinLines_cons_eq (l : List UInt8) (ls : List (List UInt8)) :
    ∃ tail, joinLines (l :: ls) = l ++ tail ++ [newline] := by
  induction ls generalizing l with
  | nil => exact ⟨[], by simp⟩
  | cons k ls ih =>
    obtain ⟨tail, rest⟩ := ih k
    exact ⟨newline :: k ++ tail, by simp [joinLines_cons l, rest]⟩

theorem letter_of_tolower {c : UInt8} (lower : 97 ≤ tolower c) : 65 ≤ c := by
  unfold tolower at lower
  split_ifs at lower with upper
  · exact upper.1
  · exact UInt8.le_trans (by decide) lower

theorem letters_of_map (same : l.map tolower = word) (letters : ∀ c ∈ word, 97 ≤ c) :
    ∀ c ∈ l, 65 ≤ c := by
  intro c member
  exact letter_of_tolower (letters _ (same ▸ mem_map_of_mem member))

theorem plain_of_letters (letters : ∀ c ∈ l, 65 ≤ c) (some : l ≠ []) : PlainLine l := by
  have printed : ∀ c ∈ l, isblankchar c = false := fun c member =>
    above_not_blank (UInt8.lt_of_lt_of_le (by decide) (letters c member))
  refine .words ?_ ?_ some
  · intro sign
    exact absurd (letters _ sign) (by decide)
  · have kept : ∀ l : List UInt8, (∀ c ∈ l, isblankchar c = false) → ltrim l = l := by
      intro l printed
      cases l with
      | nil => rfl
      | cons c l => exact ltrim_cons (printed c mem_cons_self) l
    have right : rtrim l = l := by
      have reversed : l.reverse.dropWhile isblankchar = l.reverse :=
        kept l.reverse fun c member => printed c (mem_reverse.1 member)
      rw [rtrim, reversed, reverse_reverse]
    rw [trim, right, kept l printed]

theorem PlainLine.decode (plain : PlainLine l) : decodeLine l = .ok l := by
  cases plain with
  | words noSign trimmed some => rw [decodeLine, if_pos noSign, trimmed]
  | param p noEscape => rw [p.decode_line, decodeValue_of_notMem noEscape]; rfl

theorem PlainLine.nonblank (plain : PlainLine l) : ltrim l ≠ [] := by
  cases plain with
  | words noSign trimmed some =>
    intro blanks
    have all := dropWhile_eq_nil_iff.1 blanks
    have none : rtrim l = [] := by
      rw [rtrim, reverse_eq_nil_iff, dropWhile_eq_nil_iff]
      exact fun c member => all c (mem_reverse.1 member)
    rw [trim, none] at trimmed
    exact some trimmed.symm
  | param p noEscape => rw [p.ltrim_line]; simp [Param.line]

namespace RemoteMessage

variable (m : RemoteMessage)

theorem header_letters : ∀ c ∈ m.header, 65 ≤ c :=
  letters_of_map m.header_word (Bytes.forall_mem_of_all rfl)

theorem ending_letters : ∀ c ∈ m.ending, 65 ≤ c :=
  letters_of_map m.ending_word (Bytes.forall_mem_of_all rfl)

theorem header_length : m.header.length = 7 := by
  have length := congrArg List.length m.header_word
  rwa [length_map] at length

theorem mem_lines {l : List UInt8} :
    l ∈ m.lines ↔ l = m.header ∨ l ∈ m.name :: m.body ∨ l = m.ending := by
  simp [lines, or_assoc]

theorem lines_bytes : ∀ l ∈ m.lines, ∀ c ∈ l, c ≠ 0 ∧ c ≠ newline := by
  have letter : ∀ c : UInt8, 65 ≤ c → c ≠ 0 ∧ c ≠ newline := by
    intro c above
    refine ⟨?_, ?_⟩ <;> rintro rfl <;> exact absurd above (by decide)
  intro l member c inside
  rcases m.mem_lines.1 member with rfl | line | rfl
  · exact letter c (m.header_letters c inside)
  · exact m.body_bytes l line c inside
  · exact letter c (m.ending_letters c inside)

theorem lines_newline : ∀ l ∈ m.lines, newline ∉ l :=
  fun l member feed => (m.lines_bytes l member _ feed).2 rfl

theorem text_bytes : ∀ c ∈ m.text, c ≠ 0 := by
  intro c member
  rcases mem_flatMap.1 member with ⟨l, line, inside⟩
  rcases mem_append.1 inside with inside | feed
  · exact (m.lines_bytes l line c inside).1
  · rw [mem_singleton.1 feed]
    decide

theorem cString_start {text : List UInt8} (start : text <+: m.text) : cString text = text :=
  takeWhile_eq_self_iff.2 fun c member => decide_eq_true (m.text_bytes c (start.subset member))

theorem text_eq : ∃ tail,
    m.text = m.header ++ tail ++ newline :: m.ending ++ [newline] := by
  obtain ⟨tail, front⟩ := joinLines_cons_eq m.header (m.name :: m.body)
  refine ⟨tail, ?_⟩
  have last : m.text = joinLines (m.header :: m.name :: m.body) ++ (m.ending ++ [newline]) := by
    simp [text, lines, joinLines]
  rw [last, front]
  simp

theorem eq_nil_of_end {word : List UInt8} (ends : EndWord word) {front back : List (List UInt8)}
    (some : front ≠ []) (split : m.lines = front ++ word :: back) : back = [] := by
  cases front with
  | nil => exact absurd rfl some
  | cons header front =>
    rcases eq_nil_or_concat back with none | ⟨others, last, rfl⟩
    · exact none
    · have tails : m.name :: m.body ++ [m.ending] = (front ++ word :: others) ++ [last] := by
        simpa using (List.cons.inj split).2
      have inside : word ∈ m.name :: m.body := by
        rw [(append_inj' tails rfl).1]
        simp
      exact absurd ends (m.body_words word inside)

theorem split_last {head word rest : List UInt8} (ends : EndWord word)
    (split : m.text = head ++ newline :: word ++ newline :: rest) : rest = [] := by
  have letters := letters_of_map ends (Bytes.forall_mem_of_all rfl)
  have line : newline ∉ word := fun feed => absurd (letters _ feed) (by decide)
  obtain ⟨front, back, lines, some, behind⟩ := joinLines_split m.lines_newline line split
  rw [← behind, m.eq_nil_of_end ends some lines]
  rfl

theorem judged : Reassembly.Judged judgeRequest m.text where
  complete := by
    obtain ⟨tail, whole⟩ := m.text_eq
    have long : 2 ≤ (m.header ++ tail).length := by
      rw [length_append, m.header_length]
      omega
    rw [judgeRequest, m.cString_start (prefix_refl _), whole,
      isRequestComplete_of_end long m.ending_word]
  incomplete := by
    rintro text ⟨rest, whole⟩ some shorter
    rw [judgeRequest, m.cString_start ⟨rest, whole⟩]
    cases looked : isRequestComplete text with
    | none => exact absurd looked ((isRequestComplete_isSome_iff text).2 some)
    | some complete =>
      cases complete with
      | false => rfl
      | true =>
        obtain ⟨head, word, behind, rfl, ends⟩ := isRequestComplete_sound looked
        have none : behind ++ rest = [] := @split_last m head word _ ends (by simp [← whole])
        rw [← whole, (append_eq_nil_iff.1 none).2, append_nil] at shorter
        exact absurd rfl shorter

theorem getRequestName_eq : getRequestName m.text = .ok (m.name.take (pointerSize - 1)) := by
  have line := fun l member => m.lines_newline l (m.mem_lines.2 member)
  have header : sameText m.header messageHeader = true := by
    have bytes : cString m.header = m.header :=
      takeWhile_eq_self_iff.2 fun c member => decide_eq_true
        (m.lines_bytes _ (m.mem_lines.2 (.inl rfl)) c member).1
    have word : cString messageHeader = messageHeader := by decide
    rw [sameText, bytes, word, m.header_word]
    exact decide_eq_true rfl
  have short : m.header.length ≤ telesupRequestNameSize := by
    rw [m.header_length]
    decide
  rw [text, lines, cons_append, joinLines_cons, joinLines_cons]
  exact getRequestName_lines (line _ (.inl rfl)) (line _ (.inr (.inl mem_cons_self))) header
    short m.name_size _

theorem Plain.decoded_eq {m : RemoteMessage} (plain : m.Plain)
    (size : m.text.length ≤ telesupMsgSize) : m.decoded = .ok m.text := by
  have kept : ∀ l ∈ m.lines, PlainLine l := by
    intro l member
    rcases m.mem_lines.1 member with rfl | line | rfl
    · exact plain_of_letters m.header_letters fun none => by simpa [none] using m.header_length
    · exact plain l line
    · refine plain_of_letters m.ending_letters fun none => ?_
      have word := m.ending_word
      rw [none] at word
      cases word
  have all : ∀ l ∈ m.lines, decodeLine l = .ok (id l) := fun l member => (kept l member).decode
  rw [decoded, decodeTelesupMessage, m.cString_start (prefix_refl _), text,
    copyLines_eq id (fun l member => ⟨m.lines_newline l member, (kept l member).nonblank⟩) all,
    map_id, if_pos (show (joinLines m.lines).length ≤ _ from size)]
  rfl

theorem read_eq {aQty : Nat} (fits : m.text.length ≤ aQty) {chunks : List (List UInt8)}
    (nonempty : ∀ chunk ∈ chunks, chunk ≠ []) (split : chunks.flatten = m.text)
    (more : List (List UInt8)) :
    readTelesupMessage aQty (chunks ++ more) = m.decoded.map fun message => (message, more) := by
  have some : chunks ≠ [] := by
    rintro rfl
    simp [text, lines] at split
  have enough : chunks.length ≤ aQty + 1 := by
    have each : ∀ n ∈ chunks.map List.length, 1 ≤ n := by
      intro n member
      obtain ⟨chunk, inside, rfl⟩ := mem_map.1 member
      exact length_pos_iff.2 (nonempty chunk inside)
    have total := length_le_sum_of_one_le _ each
    rw [length_map, ← List.length_flatten, split] at total
    omega
  have collected := m.judged.collect_eq .waiting (.exn .general) fits some nonempty
    ((nil_append _).trans split) more enough
  rw [readTelesupMessage, collected]
  dsimp only
  rw [m.cString_start (prefix_refl _), m.getRequestName_eq]
  unfold decoded
  cases decodeTelesupMessage m.text <;> rfl

/-- **Reassembly of a remote message**: the message is read as it was sent, with nothing behind
it and without a wait; and the search stays inside the buffer of any text but the empty one. -/
theorem reassembled_iff {aQty : Nat} (fits : m.text.length ≤ aQty) (size : aQty ≤ telesupMsgSize)
    {chunks : List (List UInt8)} (nonempty : ∀ chunk ∈ chunks, chunk ≠ [])
    (split : chunks.flatten = m.text) (more : List (List UInt8)) (aBuffer : List UInt8) :
    (readTelesupMessage aQty (chunks ++ more) = m.decoded.map (fun message => (message, more)) ∧
      (m.Plain → m.decoded = .ok m.text) ∧ isRequestComplete aBuffer ≠ none) ↔ aBuffer ≠ [] := by
  rw [isRequestComplete_isSome_iff]
  constructor
  · rintro ⟨-, -, some⟩
    exact some
  · exact fun some => ⟨m.read_eq fits nonempty split more,
      fun plain => plain.decoded_eq (Nat.le_trans fits size), some⟩

/-- The message `OK`. -/
def ok : RemoteMessage where
  header := messageHeader
  name := bytes ['O', 'K']
  body := []
  ending := endLine
  header_word := rfl
  name_size := Nat.le_of_ble_eq_true rfl
  ending_word := rfl
  body_bytes := forall_mem_singleton.2 (Bytes.forall_mem_of_all rfl)
  body_words := forall_mem_singleton.2 fun ends => by cases ends

/-- It arrives in three chunks, the second one ends inside the line `End`. -/
theorem reassembled_ok :
    (readTelesupMessage 32767 ([ok.text.take 4, (ok.text.drop 4).take 8, ok.text.drop 12] ++ [[77]]) =
      ok.decoded.map (fun message => (message, [[77]])) ∧
      (ok.Plain → ok.decoded = .ok ok.text) ∧ isRequestComplete ok.text ≠ none) ↔ ok.text ≠ [] :=
  ok.reassembled_iff (by decide) (by decide) (by decide) (by decide) _ _

/-- In an empty buffer the search starts before the first place. -/
theorem reassembled_empty :
    ¬ ∀ (m : RemoteMessage) (aQty : Nat), m.text.length ≤ aQty → aQty ≤ telesupMsgSize →
      ∀ chunks : List (List UInt8), (∀ chunk ∈ chunks, chunk ≠ []) → chunks.flatten = m.text →
      ∀ (more : List (List UInt8)) (aBuffer : List UInt8),
        readTelesupMessage aQty (chunks ++ more) = m.decoded.map (fun message => (message, more)) ∧
          (m.Plain → m.decoded = .ok m.text) ∧ isRequestComplete aBuffer ≠ none := by
  intro claim
  have whole := claim ok telesupMsgSize (by decide) (Nat.le_refl _) [ok.text] (by decide) (by decide)
    [] []
  exact whole.2.2 rfl

end RemoteMessage

end CimArm.Telesup
