import CimArm.Cim.Defs
import CimArm.Lib.Pieces

/-!
# The string tokenizer

A token ends where the delimiter is found next, or where the text ends.  Spaces are skipped at
its start and blanks left out at its end, as the mode says.  Skipping does not stop where the
token does: if the delimiter begins with a space the start may come to lie behind the end, and
then `memcpy` is called with a negative size.

There are more tokens while there is text left, and in the modes that trim the end only while
there is more than blanks.  So a last piece that is empty is never a token.

* `iterate_eq`: the tokens are the pieces between the delimiters, trimmed, up to where nothing
  is left, if no start comes to lie behind the end of its token.
-/

namespace CimArm

open Pieces List

/-! ## The tokenizer -/

inductive TokenizerTrimMode : Type
  | none
  | left
  | right
  | all
  deriving DecidableEq

def isblankchar (c : UInt8) : Bool := c = ' '.toUInt8 ∨ c = '\t'.toUInt8 ∨ c = '\x0B'.toUInt8

structure StringTokenizer : Type where
  myTextPtr : Nat
  myText : CString
  myDelimiter : CString
  myTrimMode : TokenizerTrimMode

namespace TokenizerTrimMode

def trimsLeft (mode : TokenizerTrimMode) : Bool := mode = all || mode = left

def trimsRight (mode : TokenizerTrimMode) : Bool := mode = all || mode = right

end TokenizerTrimMode

namespace StringTokenizer

variable (self : StringTokenizer)

/-- A character that counts as text that is left. -/
def counts (mode : TokenizerTrimMode) (c : UInt8) : Bool :=
  mode = .none || mode = .left || !isblankchar c

def hasMoreTokens : Bool :=
  decide (self.myTextPtr < self.myText.length) &&
    (self.myText.drop self.myTextPtr).any (counts self.myTrimMode)

def strstr (s d : CString) : Option Nat := find d s

/-- How many spaces a text begins with. -/
def spaces (s : CString) : Nat := (s.takeWhile (· = ' '.toUInt8)).length

/-- The loop that steps back from `toPtr = from + k - 1` while it is not before `from`, and the
step forward after it; counted from `from`. `before` is the byte in front of the text. -/
def stepBack (before : UInt8) (text : CString) (from_ : Nat) : Nat → Nat
  | 0 => 0
  | k + 1 =>
    let c := if from_ + k = 0 then before else text.getD (from_ + k - 1) 0
    if !isblankchar c then k else stepBack before text from_ k

/-- Where the next delimiter is, or the end of the text. -/
def toPtr : Nat :=
  match strstr (self.myText.drop self.myTextPtr) self.myDelimiter with
  | some i => self.myTextPtr + i
  | none => self.myText.length

/-- A token and the tokenizer behind it; nothing where `memcpy` is called with a negative
size. -/
def getNextToken (before : UInt8) : Option (CString × StringTokenizer) :=
  let toPtr := self.toPtr
  let p := toPtr
  let myTextPtr :=
    if self.myTrimMode.trimsLeft then
      self.myTextPtr + spaces (self.myText.drop self.myTextPtr)
    else self.myTextPtr
  let size : Int :=
    if self.myTrimMode.trimsRight then
      if myTextPtr ≤ toPtr then stepBack before self.myText myTextPtr (toPtr - myTextPtr + 1)
      else toPtr + 1 - myTextPtr
    else toPtr - myTextPtr
  if size < 0 then none
  else
    some ((self.myText.drop myTextPtr).take size.toNat,
      { self with myTextPtr := p + self.myDelimiter.length })

/-- The tokens, taken one after the other, with so many calls at most. -/
def iterate (before : UInt8) : Nat → StringTokenizer → Option (List CString)
  | 0, _ => none
  | fuel + 1, self =>
    if self.hasMoreTokens then
      match self.getNextToken before with
      | some (aToken, self) => (iterate before fuel self).map (aToken :: ·)
      | none => none
    else some []

/-- `initTokenizer`, and the mode. -/
def start (aText aDelimiter : CString) (mode : TokenizerTrimMode) : StringTokenizer :=
  ⟨0, aText, aDelimiter, mode⟩

end StringTokenizer

/-! ## The pieces of a text -/

namespace StringTokenizer

/-- A piece without the spaces at its start and the blanks at its end. -/
def trimmed (mode : TokenizerTrimMode) (piece : CString) : CString :=
  let piece := if mode.trimsLeft then piece.dropWhile (· = ' '.toUInt8) else piece
  if mode.trimsRight then piece.rdropWhile isblankchar else piece

/-- The pieces up to where no text that counts is left. -/
def reached (mode : TokenizerTrimMode) (delimiter : CString) : List CString → List CString
  | [] => []
  | piece :: pieces =>
    if (delimiter.intercalate (piece :: pieces)).any (counts mode) then
      piece :: reached mode delimiter pieces
    else []

/-- How far behind a piece the spaces may go that are skipped at its start: not at all, or one
byte where the end is looked for after it. -/
def slack (mode : TokenizerTrimMode) : Nat := if mode.trimsRight then 1 else 0

/-- No start that is reached comes to lie behind the end of its token. -/
def StaysInside (mode : TokenizerTrimMode) (delimiter : CString) : List CString → Prop
  | [] => True
  | piece :: pieces =>
    (delimiter.intercalate (piece :: pieces)).any (counts mode) →
      (mode.trimsLeft → spaces (delimiter.intercalate (piece :: pieces)) ≤
        piece.length + slack mode) ∧
      StaysInside mode delimiter pieces

/-! ## Spaces and blanks -/

theorem drop_spaces (s : CString) : s.drop (spaces s) = s.dropWhile (· = ' '.toUInt8) := by
  have parts := takeWhile_append_dropWhile (p := (· = ' '.toUInt8)) (l := s)
  exact (congrArg (List.drop _) parts.symm).trans drop_left

theorem spaces_append (p q : CString) :
    spaces (p ++ q) = spaces p ∧ spaces p < p.length ∨
      spaces (p ++ q) = p.length + spaces q ∧ spaces p = p.length := by
  rw [spaces, spaces, takeWhile_append]
  split_ifs with whole
  · exact .inr ⟨length_append, whole⟩
  · have le := (List.takeWhile_prefix (· = ' '.toUInt8) (l := p)).length_le
    exact .inl ⟨rfl, Nat.lt_of_le_of_ne le whole⟩

theorem stepBack_eq (before : UInt8) {text p q : CString} {from_ : Nat}
    (there : text.drop from_ = p ++ q) :
    stepBack before text from_ (p.length + 1) = (p.rdropWhile isblankchar).length := by
  have step (k : Nat) (le : k ≤ p.length) :
      stepBack before text from_ (k + 1) = ((p.take k).rdropWhile isblankchar).length := by
    induction k with
    | zero =>
      rw [stepBack]
      split_ifs <;> rfl
    | succ k ih =>
      have char : text.getD (from_ + (k + 1) - 1) 0 = p[k] := by
        have at_ : (text.drop from_)[k]? = some p[k] := by
          rw [there, List.getElem?_append_left le, List.getElem?_eq_getElem le]
        rw [List.getElem?_drop] at at_
        rw [getD_eq_getElem?_getD, Nat.add_succ_sub_one, at_]
        rfl
      have whole : p.take (k + 1) = p.take k ++ [p[k]] := by simp
      have inside : ¬ from_ + (k + 1) = 0 := by omega
      rw [stepBack, if_neg inside, char, whole]
      cases blank : isblankchar p[k] with
      | false =>
        rw [rdropWhile_concat_neg _ _ _ (by simp [blank])]
        simp
        omega
      | true =>
        rw [rdropWhile_concat_pos _ _ _ blank]
        exact ih (by omega)
  rw [step _ (Nat.le_refl _), take_length]

/-! ## One token -/

section token

variable {t : StringTokenizer} {p q : CString}

/-- The piece that comes next. -/
structure Next (t : StringTokenizer) (p q : CString) : Prop where
  text : t.myText.drop t.myTextPtr = p ++ q
  inside : t.myTextPtr ≤ t.myText.length
  ends : strstr (p ++ q) t.myDelimiter = none ∧ q = [] ∨
    strstr (p ++ q) t.myDelimiter = some p.length

theorem Next.toPtr_eq (next : Next t p q) : t.toPtr = t.myTextPtr + p.length := by
  rw [toPtr, next.text]
  rcases next.ends with ⟨found, last⟩ | found
  · have length := congrArg List.length next.text
    have inside := next.inside
    rw [last, append_nil, length_drop] at length
    rw [found]
    dsimp only
    omega
  · rw [found]

theorem size_eq (before : UInt8) {start : Nat} (there : t.myText.drop start = p ++ q) :
    (if t.myTrimMode.trimsRight then
      if start ≤ start + p.length then
        (stepBack before t.myText start (start + p.length - start + 1) : Int)
      else (start + p.length : Nat) + 1 - start
    else (start + p.length : Nat) - start) =
      ((if t.myTrimMode.trimsRight then p.rdropWhile isblankchar else p).length : Int) := by
  split_ifs with right le
  · rw [Nat.add_sub_cancel_left, stepBack_eq before there]
  · omega
  · omega

/-- A token is its piece, trimmed, when its start does not come to lie behind its end. -/
theorem Next.getNextToken (next : Next t p q) (before : UInt8)
    (stays : t.myTrimMode.trimsLeft → spaces (p ++ q) ≤ p.length + slack t.myTrimMode) :
    t.getNextToken before = some (trimmed t.myTrimMode p,
      { t with myTextPtr := t.myTextPtr + p.length + t.myDelimiter.length }) := by
  have taken {start : Nat} {l : CString} (there : t.myText.drop start = l ++ q) :
      (t.myText.drop start).take (if t.myTrimMode.trimsRight then l.rdropWhile isblankchar
        else l).length = if t.myTrimMode.trimsRight then l.rdropWhile isblankchar else l := by
    have starts : (if t.myTrimMode.trimsRight then l.rdropWhile isblankchar else l) <+: l := by
      split_ifs
      · exact rdropWhile_prefix _ _
      · exact prefix_rfl
    rw [there]
    exact (prefix_iff_eq_take.1 (starts.trans (prefix_append l q))).symm
  unfold StringTokenizer.getNextToken
  rw [next.toPtr_eq]
  dsimp only
  rw [next.text]
  by_cases left : t.myTrimMode.trimsLeft = true
  · have limit := stays left
    rw [if_pos left]
    rcases Nat.lt_or_ge p.length (spaces (p ++ q)) with past | inside
    · -- one byte behind the piece: the end is looked for from there, and found there
      have right : t.myTrimMode.trimsRight = true := by
        by_contra right
        rw [slack, if_neg right] at limit
        omega
      rw [slack, if_pos right] at limit
      have whole : spaces p = p.length := by
        rcases spaces_append p q with ⟨same, short⟩ | ⟨-, whole⟩
        · omega
        · exact whole
      have nothing : p.dropWhile (· = ' '.toUInt8) = [] := by
        rw [← drop_spaces, whole, drop_length]
      have zero : ((t.myTextPtr + p.length : Nat) : Int) + 1 -
          (t.myTextPtr + spaces (p ++ q) : Nat) = 0 := by omega
      have behind : ¬ t.myTextPtr + spaces (p ++ q) ≤ t.myTextPtr + p.length := by omega
      rw [if_pos right, if_neg behind, zero, if_neg (Int.lt_irrefl 0), trimmed, if_pos left,
        if_pos right, nothing]
      rfl
    · have start : p.drop (spaces (p ++ q)) = p.dropWhile (· = ' '.toUInt8) := by
        rw [← drop_spaces]
        rcases spaces_append p q with ⟨same, -⟩ | ⟨sum, whole⟩
        · rw [same]
        · congr 1
          omega
      have there : t.myText.drop (t.myTextPtr + spaces (p ++ q)) =
          p.dropWhile (· = ' '.toUInt8) ++ q := by
        rw [← drop_drop, next.text, drop_append_of_le_length inside, start]
      have length : t.myTextPtr + p.length = t.myTextPtr + spaces (p ++ q) +
          (p.dropWhile (· = ' '.toUInt8)).length := by
        rw [← start, length_drop]
        omega
      rw [length, size_eq before there, if_neg (by omega), trimmed, if_pos left,
        Int.toNat_natCast, taken there]
  · rw [if_neg left, size_eq before next.text, if_neg (by omega), trimmed, if_neg left,
      Int.toNat_natCast, taken next.text]

end token

/-! ## All tokens -/

theorem hasMoreTokens_eq (t : StringTokenizer) :
    t.hasMoreTokens = (t.myText.drop t.myTextPtr).any (counts t.myTrimMode) := by
  rw [hasMoreTokens]
  rcases Nat.lt_or_ge t.myTextPtr t.myText.length with inside | ended
  · rw [decide_eq_true inside, Bool.true_and]
  · rw [drop_eq_nil_of_le ended]
    simp

theorem iterate_ended (before : UInt8) {t : StringTokenizer} {fuel : Nat} (positive : 0 < fuel)
    (ended : t.myText.length ≤ t.myTextPtr) : iterate before fuel t = some [] := by
  obtain ⟨fuel, rfl⟩ := Nat.exists_eq_add_of_le' positive
  rw [iterate, hasMoreTokens_eq, drop_eq_nil_of_le ended]
  rfl

theorem iterate_from (before : UInt8) {t : StringTokenizer} (nonempty : t.myDelimiter ≠ [])
    {fuel : Nat} (enough : (t.myText.drop t.myTextPtr).length < fuel)
    (stays : StaysInside t.myTrimMode t.myDelimiter
      (pieces t.myDelimiter nonempty (t.myText.drop t.myTextPtr))) :
    iterate before fuel t = some ((reached t.myTrimMode t.myDelimiter
      (pieces t.myDelimiter nonempty (t.myText.drop t.myTextPtr))).map
        (trimmed t.myTrimMode)) := by
  induction fuel generalizing t with
  | zero => exact absurd enough (Nat.not_lt_zero _)
  | succ fuel ih =>
    have joined := intercalate_pieces nonempty (t.myText.drop t.myTextPtr)
    rw [iterate, hasMoreTokens_eq]
    by_cases more : (t.myText.drop t.myTextPtr).any (counts t.myTrimMode) = true
    · have inside : t.myTextPtr < t.myText.length := by
        by_contra ended
        rw [drop_eq_nil_of_le (Nat.le_of_not_lt ended)] at more
        simp at more
      have positive : 0 < (t.myText.drop t.myTextPtr).length := by
        rw [length_drop]
        omega
      rw [if_pos more]
      cases found : find t.myDelimiter (t.myText.drop t.myTextPtr) with
      | none =>
        rw [pieces_of_none nonempty found] at stays joined ⊢
        rw [StaysInside, joined] at stays
        have next : Next t (t.myText.drop t.myTextPtr) [] := {
          text := (append_nil _).symm
          inside := Nat.le_of_lt inside
          ends := .inl ⟨by rw [append_nil]; exact found, rfl⟩ }
        rw [next.getNextToken before (by rw [append_nil]; exact (stays more).1)]
        dsimp only
        rw [iterate_ended before (by omega) (by
          dsimp only
          rw [length_drop]
          omega), reached, joined, if_pos more]
        rfl
      | some i =>
        obtain ⟨length, sum⟩ := length_of_find found
        have split := split_of_find found
        rw [pieces_of_some nonempty found] at stays joined ⊢
        rw [StaysInside, joined] at stays
        obtain ⟨limit, stays⟩ := stays more
        have next : Next t ((t.myText.drop t.myTextPtr).take i)
            (t.myDelimiter ++ (t.myText.drop t.myTextPtr).drop (i + t.myDelimiter.length)) := {
          text := split
          inside := Nat.le_of_lt inside
          ends := .inr (by rw [← split, length]; exact found) }
        rw [next.getNextToken before (by rw [← split]; exact limit)]
        have later : t.myText.drop (t.myTextPtr + ((t.myText.drop t.myTextPtr).take i).length +
            t.myDelimiter.length) =
            (t.myText.drop t.myTextPtr).drop (i + t.myDelimiter.length) := by
          rw [drop_drop, length, Nat.add_assoc]
        have delimiter := length_pos_iff.2 nonempty
        have step := @ih { t with myTextPtr := t.myTextPtr +
          ((t.myText.drop t.myTextPtr).take i).length + t.myDelimiter.length } nonempty
        dsimp only at step ⊢
        rw [later] at step
        rw [step (by omega) stays, reached, joined, if_pos more]
        rfl
    · rw [if_neg more]
      cases all : pieces t.myDelimiter nonempty (t.myText.drop t.myTextPtr) with
      | nil => exact absurd all (pieces_ne_nil nonempty _)
      | cons piece rest =>
        rw [all] at joined
        rw [reached, joined, if_neg more]
        rfl

/-- Nothing is skipped behind a piece when the delimiter does not begin with a space. -/
theorem staysInside_of_head {mode : TokenizerTrimMode} {delimiter : CString}
    (other : mode.trimsLeft → delimiter.head? ≠ some ' '.toUInt8) (nonempty : delimiter ≠ [])
    (all : List CString) : StaysInside mode delimiter all := by
  induction all with
  | nil => trivial
  | cons piece rest ih =>
    refine fun _ => ⟨fun left => ?_, ih⟩
    cases rest with
    | nil =>
      rw [intercalate_singleton]
      exact Nat.le_add_right_of_le (List.takeWhile_prefix _).length_le
    | cons next rest =>
      obtain ⟨c, d, rfl⟩ := exists_cons_of_ne_nil nonempty
      have none : spaces ((c :: d) ++ (c :: d).intercalate (next :: rest)) = 0 := by
        rw [spaces, cons_append, takeWhile_cons_of_neg]
        · rfl
        · simpa using other left
      rw [intercalate_cons_cons, append_assoc]
      rcases spaces_append piece ((c :: d) ++ (c :: d).intercalate (next :: rest)) with
        ⟨same, short⟩ | ⟨sum, -⟩
      · omega
      · omega

/-- The tokens of a text are the pieces between the delimiters, trimmed, up to where nothing
is left that counts, when no start comes to lie behind the end of its token. -/
theorem iterate_eq (before : UInt8) (aText aDelimiter : CString) (mode : TokenizerTrimMode)
    (nonempty : aDelimiter ≠ [])
    (stays : StaysInside mode aDelimiter (pieces aDelimiter nonempty aText)) {fuel : Nat}
    (enough : aText.length < fuel) :
    iterate before fuel (start aText aDelimiter mode) =
      some ((reached mode aDelimiter (pieces aDelimiter nonempty aText)).map (trimmed mode)) :=
  @iterate_from before (start aText aDelimiter mode) nonempty fuel enough stays

/-- `a, b`, and a comma at the end. -/
def listText : CString := [' ', 'a', ',', ' ', 'b', ','].map Char.toUInt8

def comma : CString := [','.toUInt8]

theorem comma_ne_nil : comma ≠ [] := cons_ne_nil _ _

theorem iterate_eq_list : iterate 0 9 (start listText comma .all) =
    some ((reached .all comma (pieces comma comma_ne_nil listText)).map
      (trimmed .all)) :=
  iterate_eq 0 listText comma .all comma_ne_nil
    (staysInside_of_head (fun _ => by decide) comma_ne_nil _) (by decide)

/-- The empty piece behind the last comma is not a token. -/
theorem iterate_drops_last : iterate 0 9 (start listText comma .none) ≠
    some ((pieces comma comma_ne_nil listText).map (trimmed .none)) := by
  have run : iterate 0 9 (start listText comma .none) =
      some [[' ', 'a'].map Char.toUInt8, [' ', 'b'].map Char.toUInt8] := by decide
  have split : pieces comma comma_ne_nil listText =
      [[' ', 'a'].map Char.toUInt8, [' ', 'b'].map Char.toUInt8, []] := by
    rw [@pieces_of_some _ _ comma listText 2 comma_ne_nil (by decide),
      @pieces_of_some _ _ comma _ 2 comma_ne_nil (by decide), pieces_of_none _ (by decide)]
    decide
  rw [run, split]
  decide

end StringTokenizer

end CimArm
