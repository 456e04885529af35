import CimArm.Lib.Buffer
import CimArm.Lib.Trace
import Mathlib.Data.List.GetD
import Mathlib.Data.List.TakeWhile

/-!
# Editing a text field

The keys of a text field move its cursor and change its text, which is cut at the maximum length
and at the area of the field after each character.

`setText` cuts at the maximum length alone, and leaves the cursor behind the last place of a field
of several lines.  A character that is inserted first moves those behind it, with the terminator:
out of the buffer, where this is full.

* `edits_right`: when the keys do what they should.
-/

namespace CimArm.Ui

open Trace Function

inductive JTextNumericType : Type
  | normal
  | phone
  | modemPhone
  | ip
  | code
  deriving DecidableEq

/-- The keys that edit.  Those of other purposes have codes below the blank. -/
inductive TextKey : Type
  | left
  | right
  | delete
  | character (aKey : UInt8) (high : 32 ≤ aKey)

/-- A text field, of which the area and the maximum length leave room for the terminator. -/
structure JText : Type where
  myWidth : Int
  myHeight : Int
  area_pos : 0 < myWidth * myHeight
  area_le : myWidth * myHeight ≤ 64
  myMaxLen : Nat
  maxLen_le : myMaxLen ≤ 64
  myReadOnly : Bool
  myIsNumericMode : Bool
  myNumericType : JTextNumericType
  myText : Nat → UInt8
  myCurrentPosition : Int
  myFirstVisibleChar : Int
  myIsNewPosition : Bool

namespace JText

/-! ## The buffer -/

/-- `sizeof(myText)` -/
def size : Nat := 65

def lengthFrom (text : Nat → UInt8) : Nat → Nat → Nat
  | 0, i => i
  | fuel + 1, i => if text i = 0 then i else lengthFrom text fuel (i + 1)

def strlen (text : Nat → UInt8) : Nat := lengthFrom text size 0

def load (text : Nat → UInt8) (i : Int) : Option UInt8 :=
  if 0 ≤ i ∧ i < size then some (text i.toNat) else none

def store (text : Nat → UInt8) (i : Int) (c : UInt8) : Option (Nat → UInt8) :=
  if 0 ≤ i ∧ i < size then some (update text i.toNat c) else none

def memmove (text : Nat → UInt8) (target source count : Int) : Option (Nat → UInt8) :=
  if 0 ≤ target ∧ 0 ≤ source ∧ 0 ≤ count ∧ target + count ≤ size ∧ source + count ≤ size then
    some fun i =>
      if target ≤ i ∧ i < target + count then text (i - target + source).toNat else text i
  else none

/-! ## The keys -/

section

variable (self : JText)

def getComponentArea : Int := self.myWidth * self.myHeight

def setText (aText : List UInt8) : JText :=
  let copied := fun i => if i < size - 1 then (Buffer.cString aText).getD i 0 else 0
  let text := update copied self.myMaxLen 0
  let position : Int := strlen text
  let position := if position = self.myMaxLen then position - 1 else position
  let position := if position = self.myWidth then position - 1 else position
  { self with myText := text, myCurrentPosition := position }

def setNewCursorPosition : Option JText :=
  (if self.myCurrentPosition < self.myFirstVisibleChar then
    some { self with myFirstVisibleChar := self.myCurrentPosition }
  else if self.myCurrentPosition > self.myFirstVisibleChar + self.getComponentArea then
    some { self with myFirstVisibleChar := self.myCurrentPosition - self.getComponentArea }
  else if self.myFirstVisibleChar > 0 then
    (load self.myText self.myFirstVisibleChar).map fun c =>
      if c = 0 then
        { self with
          myFirstVisibleChar := self.myFirstVisibleChar - 1
          myCurrentPosition := self.myCurrentPosition - 1 }
      else self
  else some self).map fun self =>
    let position := self.myCurrentPosition
    let position := if position = self.myMaxLen then position - 1 else position
    let position := if position = self.getComponentArea then self.getComponentArea - 1 else position
    { self with myCurrentPosition := position }

def setDeleteKeyPressed : Option JText :=
  let tlen : Int := strlen self.myText
  let position := self.myCurrentPosition
  if position < tlen - 1 then
    (memmove self.myText position (position + 1) (tlen - position)).bind fun text =>
      (store text (size - 1 : Nat) 0).map fun text =>
        { self with myIsNewPosition := true, myText := text }
  else
    (load self.myText position).bind fun c =>
      let position := if c = 0 ∧ position > 0 then position - 1 else position
      (store self.myText position 0).bind fun text =>
        (store text (size - 1 : Nat) 0).map fun text =>
          { self with myIsNewPosition := true, myText := text, myCurrentPosition := position }

/-- The length is unsigned, and with it the position in the first comparison. -/
def setRightKeyPressed : JText :=
  let position := self.myCurrentPosition
  { self with
    myCurrentPosition :=
      if (0 ≤ position ∧ position < strlen self.myText) ∧ position < self.getComponentArea then
        position + 1
      else position
    myIsNewPosition := true }

def setLeftKeyPressed : JText :=
  { self with
    myCurrentPosition :=
      if self.myCurrentPosition > 0 then self.myCurrentPosition - 1 else self.myCurrentPosition
    myIsNewPosition := true }

/-- The field takes the character. -/
def Accepts (aKey : UInt8) : Prop :=
  ¬ (aKey < 32 ∨ self.myIsNumericMode ∧ self.myNumericType = .normal ∧ ¬ (48 ≤ aKey ∧ aKey ≤ 57))

instance (aKey : UInt8) : Decidable (self.Accepts aKey) := inferInstanceAs (Decidable (¬ _))

/-- A character typed here is inserted, else it replaces the one at the cursor. -/
def Inserts : Prop :=
  (self.myCurrentPosition < (strlen self.myText : Int) - 1 ∧ self.myIsNewPosition) ∧
    ¬ self.myIsNumericMode

instance : Decidable self.Inserts := inferInstanceAs (Decidable (_ ∧ _))

def makeRoom : Option (Nat → UInt8) :=
  let position := self.myCurrentPosition
  if self.Inserts then
    (memmove self.myText (position + 1) position (strlen self.myText - position + 1)).bind
      fun text => (load text position).bind fun c => store text (position + 1) c
  else some self.myText

def setNewKeyPressed (aKey : UInt8) : Option (Bool × JText) :=
  if ¬ self.Accepts aKey then some (false, self)
  else
    self.makeRoom.bind fun text =>
      (store text self.myCurrentPosition aKey).bind fun text =>
        (store text self.myMaxLen 0).bind fun text =>
          (store text self.getComponentArea 0).map fun text =>
            let self := { self with myText := text, myIsNewPosition := false }
            (true, if self.myIsNumericMode then self.setRightKeyPressed else self)

/-- `>` moves to the right, `^` changes the case of the keyboard. -/
def pressed : TextKey → Option (Bool × JText)
  | .left => some (true, self.setLeftKeyPressed)
  | .right => some (true, self.setRightKeyPressed)
  | .delete => self.setDeleteKeyPressed.map (true, ·)
  | .character aKey _ =>
    if aKey = 62 then some (true, self.setRightKeyPressed)
    else if aKey = 94 then some (true, self)
    else self.setNewKeyPressed aKey

def doKeyPressed (key : TextKey) : Option (Bool × JText) :=
  if self.myReadOnly then some (false, self)
  else
    (self.pressed key).bind fun (result, self) => self.setNewCursorPosition.map (result, ·)

end

/-- The field after a key. -/
def next (key : TextKey) (s : JText) : JText :=
  match s.doKeyPressed key with
  | some (_, s') => s'
  | none => s

/-- The key types a character. -/
def Types (key : TextKey) (c : UInt8) : Prop :=
  ∃ high, key = .character c high ∧ c ≠ 62 ∧ c ≠ 94

/-- A key writes inside the buffer, leaves a text that is not too long with the cursor in it, and
a character accepted is where the cursor was. -/
def Right (s : JText) (key : TextKey) : Prop :=
  match s.doKeyPressed key with
  | none => False
  | some (result, s') =>
    (strlen s'.myText ≤ s.myMaxLen ∧ strlen s'.myText ≤ s.getComponentArea) ∧
      (0 ≤ s'.myCurrentPosition ∧ s'.myCurrentPosition ≤ strlen s'.myText) ∧
      ∀ c, Types key c → result = true →
        s.myCurrentPosition < strlen s'.myText ∧ s'.myText s.myCurrentPosition.toNat = c

/-- A character accepted has a place at the cursor, and is not inserted in a full buffer. -/
def Clean (s : JText) (key : TextKey) : Prop :=
  ∀ c, Types key c → s.myReadOnly = false → s.Accepts c →
    (s.myCurrentPosition < s.myMaxLen ∧ s.myCurrentPosition < s.getComponentArea) ∧
      (s.Inserts → strlen s.myText < size - 1)

/-! ## Texts -/

/-- A text of some length, and zeros up to a place. -/
structure Ends (text : Nat → UInt8) (len last : Nat) : Prop where
  le : len ≤ last
  chars : ∀ i < len, text i ≠ 0
  zeros : ∀ i, len ≤ i → i ≤ last → text i = 0

variable {text : Nat → UInt8} {len last : Nat}

theorem lengthFrom_eq (chars : ∀ i < len, text i ≠ 0) (zero : text len = 0) {fuel i : Nat}
    (le : i ≤ len) (enough : len < i + fuel) : lengthFrom text fuel i = len := by
  induction fuel generalizing i with
  | zero => omega
  | succ fuel ih =>
    rw [lengthFrom]
    rcases Nat.lt_or_eq_of_le le with more | rfl
    · rw [if_neg (chars i more)]
      exact ih more (by omega)
    · exact if_pos zero

theorem Ends.strlen_eq (ends : Ends text len last) (fits : last ≤ 64) : strlen text = len := by
  have le := ends.le
  exact lengthFrom_eq ends.chars (ends.zeros len (le_refl len) le) (Nat.zero_le _)
    (by rw [size]; omega)

theorem load_eq {i : Int} (inside : 0 ≤ i ∧ i < 65) : load text i = some (text i.toNat) :=
  if_pos inside

theorem store_eq {i : Int} (inside : 0 ≤ i ∧ i < 65) (c : UInt8) :
    store text i c = some (update text i.toNat c) :=
  if_pos inside

theorem Ends.zero (ends : Ends text len last) {p : Nat} (behind : len ≤ p + 1) :
    Ends (update text p 0) (min len p) last where
  le := (Nat.min_le_left _ _).trans ends.le
  chars i inside := by
    rw [update_of_ne (by omega)]
    exact ends.chars i (by omega)
  zeros i from_ upto := by
    by_cases here : i = p
    · rw [here, update_self]
    · rw [update_of_ne here]
      exact ends.zeros i (by omega) upto

theorem Ends.erase (ends : Ends text len last) {p : Nat} (inside : p < len) :
    Ends (fun i => if p ≤ i ∧ i < len then text (i + 1) else text i) (len - 1) last where
  le := (Nat.sub_le _ _).trans ends.le
  chars i before := by
    split_ifs
    · exact ends.chars _ (by omega)
    · exact ends.chars i (by omega)
  zeros i from_ upto := by
    have le := ends.le
    split_ifs
    · exact ends.zeros _ (by omega) (by omega)
    · exact ends.zeros i (by omega) upto

theorem Ends.typed {room : Nat → UInt8} {p n a b : Nat} {c : UInt8} (here : p < n)
    (chars : ∀ i < n, i ≠ p → room i ≠ 0) (zeros : ∀ i, n ≤ i → i ≤ last → room i = 0)
    (nonzero : c ≠ 0) (cut : min a b = last) :
    Ends (update (update (update room p c) a 0) b 0) (min n last) last ∧
      (p < last →
        update (update (update room p c) a 0) b 0 p = c) := by
  have before {i : Nat} (inside : i < last) :
      update (update (update room p c) a 0) b 0 i =
        update room p c i := by
    rw [update_of_ne (by omega), update_of_ne (by omega)]
  refine ⟨⟨Nat.min_le_right _ _, fun i inside => ?_, fun i from_ upto => ?_⟩, fun inside => ?_⟩
  · rw [before (by omega)]
    by_cases there : i = p
    · rwa [there, update_self]
    · rw [update_of_ne there]
      exact chars i (by omega) there
  · rcases Nat.lt_or_eq_of_le upto with inside | rfl
    · rw [before inside, update_of_ne (by omega)]
      exact zeros i (by omega) upto
    · rcases Nat.le_total a b with le | le
      · by_cases both : i = b
        · rw [both, update_self]
        · rw [update_of_ne both, show i = a by omega, update_self]
      · rw [show i = b by omega, update_self]
  · rw [before inside, update_self]

/-! ## One key -/

variable {s : JText} {key : TextKey}

/-- The places of the text. -/
def limit (s : JText) : Nat := min s.myMaxLen s.getComponentArea.toNat

theorem limit_spec (s : JText) : s.limit ≤ s.myMaxLen ∧ (s.limit : Int) ≤ s.getComponentArea ∧
    (s.limit = s.myMaxLen ∨ (s.limit : Int) = s.getComponentArea) ∧ 0 < s.getComponentArea ∧
    s.getComponentArea ≤ 64 ∧ s.limit ≤ 64 := by
  have positive : 0 < s.getComponentArea := s.area_pos
  have small : s.getComponentArea ≤ 64 := s.area_le
  have few := s.maxLen_le
  rw [limit]
  omega

/-- The text is not too long, and the cursor in it or behind it. -/
structure Inv (s : JText) : Prop where
  some : 0 < s.myMaxLen
  ends : Ends s.myText (strlen s.myText) s.limit
  low : 0 ≤ s.myCurrentPosition
  high : s.myCurrentPosition ≤ strlen s.myText

theorem setNewCursorPosition_eq (some : 0 < s.myMaxLen) (fits : len ≤ s.limit)
    (low : 0 ≤ s.myCurrentPosition) (high : s.myCurrentPosition ≤ len) :
    ∃ f p, s.setNewCursorPosition =
      .some { s with myFirstVisibleChar := f, myCurrentPosition := p } ∧ 0 ≤ p ∧ p ≤ len := by
  have limits := s.limit_spec
  rw [setNewCursorPosition]
  split_ifs with before behind scrolled
  on_goal 3 =>
    rw [load_eq (by omega), Option.map_some]
    split_ifs with ended
  all_goals
    refine ⟨_, _, rfl, ?_⟩
    dsimp only [getComponentArea] at *
    split_ifs <;> omega

theorem finish {result : Bool} {p : Int} {b : Bool} (some : 0 < s.myMaxLen)
    (writable : s.myReadOnly = false)
    (pressed : s.pressed key = .some (result, { s with
      myText := text, myCurrentPosition := p, myIsNewPosition := b }))
    (ends : Ends text len s.limit) (low : 0 ≤ p) (high : p ≤ len) :
    (Right s key ↔ ∀ c, Types key c → result = true →
      s.myCurrentPosition < len ∧ text s.myCurrentPosition.toNat = c) ∧ Inv (next key s) := by
  obtain ⟨above, below, -, -, -, small⟩ := s.limit_spec
  have length := ends.strlen_eq small
  have le := ends.le
  obtain ⟨f, q, placed, low', high'⟩ := @setNewCursorPosition_eq len { s with
    myText := text, myCurrentPosition := p, myIsNewPosition := b } some le low high
  have done : s.doKeyPressed key = .some (result, { s with
      myText := text, myCurrentPosition := q, myIsNewPosition := b, myFirstVisibleChar := f }) := by
    rw [doKeyPressed, if_neg (by rw [writable]; exact Bool.false_ne_true), pressed]
    exact congrArg (Option.map (result, ·)) placed
  rw [Right, next, done]
  dsimp only
  rw [length]
  exact ⟨⟨fun right => right.2.2, fun typed => ⟨⟨by omega, by omega⟩, ⟨low', high'⟩, typed⟩⟩,
    some, length.symm ▸ ends, low', length.symm ▸ high'⟩

theorem setDeleteKeyPressed_eq (inv : s.Inv) : ∃ text len p,
    s.setDeleteKeyPressed = some { s with
      myText := text, myCurrentPosition := p, myIsNewPosition := true } ∧
      Ends text len s.limit ∧ 0 ≤ p ∧ p ≤ len := by
  obtain ⟨above, -, -, -, -, small⟩ := s.limit_spec
  obtain ⟨-, ends, low, high⟩ := inv
  have le := ends.le
  have last {text : Nat → UInt8} {len : Nat} (ends : Ends text len s.limit) :
      Ends (update text 64 0) len s.limit := by
    have le := ends.le
    have kept := ends.zero (p := 64) (by omega)
    rwa [Nat.min_eq_left (by omega)] at kept
  rw [setDeleteKeyPressed]
  generalize strlen s.myText = n at ends high le
  generalize at_ : s.myCurrentPosition = position at low high
  obtain ⟨p, rfl⟩ := Int.eq_ofNat_of_zero_le low
  dsimp only
  split_ifs with inside
  · rw [memmove, if_pos (by rw [size]; omega), Option.bind_some,
      store_eq (by rw [size]; omega), Option.map_some]
    have moved : (fun i : Nat => if (p : Int) ≤ i ∧ (i : Int) < p + (n - p) then
        s.myText ((i : Int) - p + (p + 1)).toNat else s.myText i) =
        fun i => if p ≤ i ∧ i < n then s.myText (i + 1) else s.myText i := by
      funext i
      rw [show ((i : Int) - p + (p + 1)).toNat = i + 1 by omega]
      exact if_congr (by omega) rfl rfl
    rw [moved, ← at_]
    exact ⟨_, _, _, rfl, last (ends.erase (by omega)), by omega, by omega⟩
  · rw [load_eq (by omega), Option.bind_some]
    obtain ⟨q, hq, bounds⟩ : ∃ q : Nat, (if s.myText (p : Int).toNat = 0 ∧ (p : Int) > 0 then
        (p : Int) - 1 else p) = q ∧ n ≤ q + 1 ∧ q ≤ n ∧ (q = n → n = 0) := by
      split_ifs with behind
      · have full : n ≤ p := Nat.le_of_not_lt fun more => ends.chars p more behind.1
        exact ⟨p - 1, by omega, by omega, by omega, by omega⟩
      · refine ⟨p, rfl, by omega, by omega, ?_⟩
        rintro rfl
        by_contra positive
        exact behind ⟨ends.zeros p (le_refl _) le, by omega⟩
    rw [hq, store_eq (by omega), Option.bind_some, store_eq (by rw [size]; omega), Option.map_some]
    exact ⟨_, _, _, rfl, last (ends.zero (p := q) (by omega)), by omega, by omega⟩

/-- The text with a character too many at the cursor, or one that is to be replaced. -/
theorem makeRoom_eq (inv : s.Inv) (free : s.Inserts → strlen s.myText < 64) :
    ∃ room n, s.makeRoom = some room ∧ s.myCurrentPosition.toNat < n ∧
      (∀ i < n, i ≠ s.myCurrentPosition.toNat → room i ≠ 0) ∧
      ∀ i, n ≤ i → i ≤ s.limit → room i = 0 := by
  obtain ⟨-, ends, low, high⟩ := inv
  have le := ends.le
  rw [makeRoom]
  split_ifs with inserts
  · have some_room := free inserts
    have inside := inserts.1.1
    generalize strlen s.myText = n at *
    generalize s.myCurrentPosition = position at *
    obtain ⟨p, rfl⟩ := Int.eq_ofNat_of_zero_le low
    rw [memmove, if_pos (by rw [size]; omega), Option.bind_some, load_eq (by omega),
      Option.bind_some, store_eq (by omega)]
    refine ⟨_, n + 1, rfl, by omega, fun i before other => ?_, fun i behind upto => ?_⟩
    · have other : i ≠ p := other
      by_cases next : i = p + 1
      · rw [next, show ((p : Int) + 1).toNat = p + 1 by omega, update_self,
          if_neg (by omega)]
        exact ends.chars _ (by omega)
      · rw [update_of_ne (by omega)]
        split_ifs
        · exact ends.chars _ (by omega)
        · exact ends.chars i (by omega)
    · rw [update_of_ne (by omega)]
      split_ifs
      · exact ends.zeros _ (by omega) (by omega)
      · exact ends.zeros i (by omega) upto
  · refine ⟨_, max (strlen s.myText) (s.myCurrentPosition.toNat + 1), rfl, by omega,
      fun i before other => ?_, fun i behind upto => ?_⟩
    · exact ends.chars i (by omega)
    · exact ends.zeros i (by omega) upto

theorem setNewKeyPressed_eq (inv : s.Inv) (free : s.Inserts → strlen s.myText < 64) {c : UInt8}
    (high : 32 ≤ c) (accepts : s.Accepts c) : ∃ text len p b,
    s.setNewKeyPressed c = some (true, { s with
      myText := text, myCurrentPosition := p, myIsNewPosition := b }) ∧
      Ends text len s.limit ∧ 0 ≤ p ∧ p ≤ len ∧
      (s.myCurrentPosition < s.limit ↔
        s.myCurrentPosition < len ∧ text s.myCurrentPosition.toNat = c) := by
  obtain ⟨room, n, made, here, chars, zeros⟩ := makeRoom_eq inv free
  obtain ⟨above, below, either, positive, few, small⟩ := s.limit_spec
  have le := inv.ends.le
  have low := inv.low
  have inside := inv.high
  have nonzero : c ≠ 0 := by
    rintro rfl
    exact absurd high (by decide)
  have maxLen := s.maxLen_le
  obtain ⟨ends, at_⟩ := Ends.typed here chars zeros nonzero
    (show min s.myMaxLen s.getComponentArea.toNat = s.limit from rfl)
  have length := ends.strlen_eq small
  rw [setNewKeyPressed, if_neg (not_not_intro accepts), made, Option.bind_some,
    store_eq (by omega), Option.bind_some, store_eq (by omega), Option.bind_some,
    store_eq (by omega), Option.map_some]
  by_cases numeric : s.myIsNumericMode = true
  · refine ⟨_, _, _, true, congrArg (fun t => some (true, t)) (if_pos numeric), ends, ?_, ?_,
      fun more => ⟨by omega, at_ (by omega)⟩, fun both => by omega⟩
    · dsimp only
      split_ifs <;> omega
    · dsimp only
      rw [Int.toNat_natCast, length]
      split_ifs <;> omega
  · exact ⟨_, _, _, false, congrArg (fun t => some (true, t)) (if_neg numeric), ends, low, by omega,
      fun more => ⟨by omega, at_ (by omega)⟩, fun both => by omega⟩

theorem Inv.right_iff (inv : s.Inv) (key : TextKey) :
    (Right s key ↔ Clean s key) ∧ (Clean s key → Inv (next key s)) := by
  obtain ⟨above, below, either, -, -, small⟩ := s.limit_spec
  have ⟨some, ends, low, high⟩ := inv
  cases writable : s.myReadOnly with
  | true =>
    have stays : s.doKeyPressed key = .some (false, s) := if_pos writable
    rw [Right, next, stays]
    have le := ends.le
    exact ⟨iff_of_true ⟨⟨le.trans above, by omega⟩, ⟨low, high⟩, fun c _ no => by cases no⟩
      fun c _ no => (by rw [writable] at no; cases no), fun _ => inv⟩
  | false =>
    -- a key that types nothing
    have quiet {result : Bool} {text : Nat → UInt8} {len : Nat} {p : Int} {b : Bool}
        (pressed : s.pressed key = .some (result, { s with
          myText := text, myCurrentPosition := p, myIsNewPosition := b }))
        (ends : Ends text len s.limit) (low : 0 ≤ p) (high : p ≤ len)
        (none : ∀ c, Types key c → result = false ∧ ¬ s.Accepts c) :
        (Right s key ↔ Clean s key) ∧ (Clean s key → Inv (next key s)) := by
      obtain ⟨right, kept⟩ := finish some writable pressed ends low high
      exact ⟨right.trans (iff_of_true
        (fun c types yes => by rw [(none c types).1] at yes; cases yes)
        fun c types _ accepts => absurd accepts (none c types).2), fun _ => kept⟩
    have right : (s.setRightKeyPressed).myCurrentPosition ≤ strlen s.myText := by
      unfold setRightKeyPressed
      dsimp only
      split_ifs <;> omega
    cases key with
    | left =>
      refine quiet rfl ends ?_ ?_ (by rintro c ⟨_, no, -⟩; cases no)
      all_goals split_ifs <;> omega
    | right =>
      refine quiet rfl ends ?_ right (by rintro c ⟨_, no, -⟩; cases no)
      split_ifs <;> omega
    | delete =>
      obtain ⟨text, len, p, deleted, ends, low, high⟩ := setDeleteKeyPressed_eq inv
      exact quiet (by rw [pressed, deleted]; rfl) ends low high (by rintro c ⟨_, no, -⟩; cases no)
    | character c visible =>
      by_cases mark : c = 62
      · refine quiet (if_pos mark) ends ?_ right ?_
        · split_ifs <;> omega
        · rintro d ⟨_, same, other, -⟩
          cases same
          exact absurd mark other
      by_cases case : c = 94
      · refine quiet ((if_neg mark).trans (if_pos case)) ends low high ?_
        rintro d ⟨_, same, -, other⟩
        cases same
        exact absurd case other
      have pressed : s.pressed (.character c visible) = s.setNewKeyPressed c :=
        (if_neg mark).trans (if_neg case)
      have types : Types (.character c visible) c := ⟨visible, rfl, mark, case⟩
      by_cases accepts : s.Accepts c
      · by_cases free : s.Inserts → strlen s.myText < size - 1
        · obtain ⟨text, len, p, b, typed, ends, low', high', at_⟩ :=
            setNewKeyPressed_eq inv free visible accepts
          obtain ⟨right, kept⟩ := finish some writable (pressed.trans typed) ends low' high'
          refine ⟨right.trans ⟨fun typed d _ _ _ => ?_, fun clean d same _ => ?_⟩, fun _ => kept⟩
          · have inside := at_.2 (typed c types rfl)
            exact ⟨by omega, free⟩
          · obtain ⟨_, same, -⟩ := same
            cases same
            have inside := (clean c types writable accepts).1
            exact at_.1 (by omega)
        · -- the buffer is full, and the terminator moves out of it
          obtain ⟨inserts, full⟩ := Classical.not_imp.1 free
          have out : s.doKeyPressed (.character c visible) = none := by
            have inside := inserts.1.1
            rw [doKeyPressed, if_neg (by rw [writable]; exact Bool.false_ne_true), pressed,
              setNewKeyPressed, if_neg (not_not_intro accepts), makeRoom, if_pos inserts, memmove,
              if_neg (by rw [size] at *; omega)]
            rfl
          have unclean : ¬ Clean s (.character c visible) := fun clean =>
            full ((clean c types writable accepts).2 inserts)
          rw [Right, out]
          exact ⟨iff_of_false id unclean, fun clean => absurd clean unclean⟩
      · refine quiet (pressed.trans (if_pos accepts)) ends low high ?_
        rintro d ⟨_, same, -⟩
        cases same
        exact ⟨rfl, accepts⟩

/-! ## A field is edited -/

theorem inv_setText (s : JText) {aText : List UInt8} (some : 0 < s.myMaxLen)
    (fits : min (Buffer.cString aText).length s.myMaxLen ≤ s.getComponentArea) :
    Inv (s.setText aText) := by
  obtain ⟨above, -, either, -, -, small⟩ := s.limit_spec
  have few := s.maxLen_le
  have ends : Ends (s.setText aText).myText (min (Buffer.cString aText).length s.myMaxLen)
      s.limit := by
    refine ⟨by omega, fun i before => ?_, fun i behind upto => ?_⟩
    · have inside : i < (Buffer.cString aText).length := by omega
      rw [setText]
      dsimp only
      rw [update_of_ne (by omega), if_pos (by rw [size]; omega),
        List.getD_eq_getElem _ _ inside]
      simpa using List.mem_takeWhile_imp (List.getElem_mem inside)
    · rw [setText]
      dsimp only
      by_cases last : i = s.myMaxLen
      · rw [last, update_self]
      · rw [update_of_ne last, List.getD_eq_default _ _ (by omega)]
        exact ite_self _
  have length := ends.strlen_eq small
  have wide : s.myWidth ≠ 0 := by
    intro none
    have positive := s.area_pos
    rw [none, Int.zero_mul] at positive
    exact lt_irrefl 0 positive
  refine ⟨some, length.symm ▸ ends, ?_, ?_⟩
  all_goals
    rw [setText] at *
    dsimp only at *
    rw [length]
    split_ifs <;> omega

/-- **Editing**: where a field has room for the text set, as far as its maximum length goes, every
key does what it should just in case every key is clean. -/
theorem edits_right (s : JText) {aText : List UInt8} (some : 0 < s.myMaxLen)
    (fits : min (Buffer.cString aText).length s.myMaxLen ≤ s.getComponentArea)
    (keys : List TextKey) :
    Always next Right keys (s.setText aText) ↔ Always next Clean keys (s.setText aText) := by
  refine Always.congr_of_invariant Inv ?_ ?_ (inv_setText s some fits)
    (Always.unconditional keys _)
  · intro field key inv _
    exact (inv.right_iff key).1
  · intro field key inv _ clean
    exact (inv.right_iff key).2 clean

/-- A line of three places, for a text of four characters. -/
def line : JText where
  myWidth := 3
  myHeight := 1
  area_pos := by decide
  area_le := by decide
  myMaxLen := 4
  maxLen_le := by decide
  myReadOnly := false
  myIsNumericMode := false
  myNumericType := .normal
  myText _ := 0
  myCurrentPosition := 0
  myFirstVisibleChar := 0
  myIsNewPosition := true

/-- A character is inserted in front of the last of two. -/
theorem edits_right_inserted : Always next Right
    [.left, .left, .character 99 (by decide)] (line.setText [97, 98]) := by
  have none : ∀ c, ¬ Types .left c := by
    rintro c ⟨_, no, -⟩
    cases no
  exact (edits_right line (by decide) (by decide) _).2
    ⟨fun c types => absurd types (none c), fun c types => absurd types (none c),
      fun _ _ _ _ => ⟨by decide, fun _ => by decide⟩, trivial⟩

/-- A text of four characters stays too long for the line. -/
theorem not_edits_right : ¬ ∀ (s : JText) (aText : List UInt8) (keys : List TextKey),
    Always next Right keys (s.setText aText) := by
  intro all
  have right := (all line [97, 98, 99, 100] [.left]).1
  exact absurd right.1.2 (by decide)

end JText

end CimArm.Ui
