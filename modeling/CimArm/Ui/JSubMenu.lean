import CimArm.Lib.Scroll
import CimArm.Lib.Trace
import Mathlib.Data.List.Nodup

/-!
# Selection in a menu

A menu has visible and invisible items.  UP and DOWN look for the next visible one, round the
menu if it is circular; a number typed selects an item by its place.

Looking on from the last visible item of a menu that is not circular ends at the last item, and
DOWN does not ask whether that one is visible.  The place of an item is counted among all items
while the number is compared with how many are visible.

* `selects_iff`: a run selects as it should if and only if DOWN is never pressed at the last
  visible item of such a menu with items behind it, and every number typed is that of an item
  without invisible ones in front of it.
-/

namespace CimArm.Ui

open Trace List Function

/-! ## The menu -/

inductive MenuKey : Type
  | up
  | down
  | plus10
  | digit (d : Fin 10)
  deriving DecidableEq

/-- A menu that is not in one of its submenus.  Its items are known by their places, and of each
it is known whether it is visible. -/
structure JSubMenu : Type where
  myMenuItems : List Bool
  mySelectedItem : Option Nat
  myVisibleOnTopItem : Option Nat
  myVisibleOnBottomItem : Option Nat
  myHeight : Nat
  height_pos : 0 < myHeight
  myCircularMenuMode : Bool
  myNumeratedMenuMode : Bool
  myLastKeyPressedTime : UInt32
  myIndexMenuPressed : Int

namespace JSubMenu

/-- `JMenuItem_MSECS_TO_PRESS_KEY` -/
def msecsToPressKey : UInt32 := 750

section

variable (self : JSubMenu)

def size : Nat := self.myMenuItems.length

def isVisible (aMenuItem : Nat) : Bool := self.myMenuItems.getD aMenuItem false

/-- The last one before a place that satisfies a condition. -/
def lastBefore (p : Nat → Bool) : Nat → Option Nat
  | 0 => none
  | index + 1 => if p index then some index else lastBefore p index

def getPreviousVisibleMenuItemFrom (aMenuItem : Nat) : Nat :=
  match lastBefore self.isVisible aMenuItem with
  | some menu => menu
  | none =>
    let menu := if 0 < aMenuItem then 0 else aMenuItem
    if self.myCircularMenuMode then
      (lastBefore (fun index => self.isVisible index || index = aMenuItem) self.size).getD menu
    else menu

def getNextVisibleMenuItemFrom (aMenuItem : Nat) : Nat :=
  match (List.range' (aMenuItem + 1) (self.size - (aMenuItem + 1))).find? self.isVisible with
  | some menu => menu
  | none =>
    let menu := if aMenuItem + 1 < self.size then self.size - 1 else aMenuItem
    if self.myCircularMenuMode then
      ((List.range self.size).find? fun index => self.isVisible index || index = aMenuItem).getD
        menu
    else menu

/-- How many lines a window goes on behind its first one. -/
def steps : Nat := min self.size self.myHeight - 1

/-- `reconfigureVisibleItems`; with items there is a selected one, as it asserts. -/
def reconfigureVisibleItems : JSubMenu :=
  match self.mySelectedItem with
  | none => self
  | some selected =>
    let h := self.steps
    let top := self.myVisibleOnTopItem.getD selected
    let bottom := self.myVisibleOnBottomItem.getD top
    let top := if selected < top then selected else top
    let top :=
      if selected > bottom then self.getPreviousVisibleMenuItemFrom^[h] selected else top
    { self with
      myVisibleOnTopItem := some top
      myVisibleOnBottomItem := some (self.getNextVisibleMenuItemFrom^[h] top) }

def setSelectedMenuItem (aMenu : Nat) : JSubMenu :=
  { self with mySelectedItem := some aMenu }.reconfigureVisibleItems

def addMenuItem (visible : Bool) : JSubMenu :=
  let place := self.size
  let self := { self with myMenuItems := self.myMenuItems ++ [visible] }
  let self :=
    if self.mySelectedItem = none ∧ visible = true then self.setSelectedMenuItem place else self
  self.reconfigureVisibleItems

def visibleMenuItemsCount : Nat := (List.range self.size).countP self.isVisible

/-- `gotoMenuItemFromIndex`, with an index in the range. -/
def gotoMenuItemFromIndex (anIndex : Nat) : JSubMenu :=
  if anIndex ≥ self.visibleMenuItemsCount then self else self.setSelectedMenuItem anIndex

/-- What is typed within a time is one number. -/
def dropOldIndex (ticks : UInt32) : JSubMenu :=
  if ticks - self.myLastKeyPressedTime ≥ msecsToPressKey then
    { self with
      myLastKeyPressedTime := 0
      myIndexMenuPressed := 0 }
  else self

def keyUp : JSubMenu :=
  let self := { self with myLastKeyPressedTime := 0 }
  match self.mySelectedItem with
  | none => self
  | some selected =>
    if self.size = 0 ∨ self.myVisibleOnTopItem = none then self
    else
      let menu := self.getPreviousVisibleMenuItemFrom selected
      if menu = selected ∨ self.isVisible menu = false then self
      else self.setSelectedMenuItem menu

def keyDown : JSubMenu :=
  let self := { self with myLastKeyPressedTime := 0 }
  match self.mySelectedItem with
  | none => self
  | some selected =>
    if self.size = 0 then self
    else
      let menu := self.getNextVisibleMenuItemFrom selected
      if menu = selected then self else self.setSelectedMenuItem menu

/-- The number that a digit completes. -/
def typed (d : Fin 10) (ticks : UInt32) : Int :=
  (self.dropOldIndex ticks).myIndexMenuPressed + d.val

def keyDigit (d : Fin 10) (ticks : UInt32) : JSubMenu :=
  let n := self.typed d ticks
  let self :=
    { self.dropOldIndex ticks with
      myIndexMenuPressed := n
      myLastKeyPressedTime := 0 }
  if n < 1 ∨ n > self.visibleMenuItemsCount then self
  else self.gotoMenuItemFromIndex (n - 1).toNat

def keyPlus10 (ticks later : UInt32) : JSubMenu :=
  let self := self.dropOldIndex ticks
  { self with
    myLastKeyPressedTime := later
    myIndexMenuPressed := self.myIndexMenuPressed + 10 }

/-- A key pressed, and what `getTicks` answers then. -/
structure KeyPress : Type where
  aKey : MenuKey
  ticks : UInt32
  later : UInt32

def doKeyPressed (press : KeyPress) : JSubMenu :=
  match press.aKey with
  | .up => self.keyUp
  | .down => self.keyDown
  | .plus10 =>
    if self.myNumeratedMenuMode then self.keyPlus10 press.ticks press.later else self
  | .digit d => if self.myNumeratedMenuMode then self.keyDigit d press.ticks else self

/-- The items that are drawn from one on, in so many lines at most. -/
def draw (bottom : Nat) : Nat → Nat → List Nat
  | 0, _ => []
  | lines + 1, menu =>
    menu :: if menu = bottom then []
      else draw bottom lines (self.getNextVisibleMenuItemFrom menu)

def doDraw : List Nat :=
  match self.myVisibleOnTopItem, self.myVisibleOnBottomItem with
  | some top, some bottom => self.draw bottom self.myHeight top
  | _, _ => []

/-! ## What keys are for -/

def visibleItems : List Nat := (List.range self.size).filter self.isVisible

/-- The place of the visible item above another one. -/
def above (k : Nat) : Nat :=
  if k = 0 then if self.myCircularMenuMode then self.visibleItems.length - 1 else 0 else k - 1

/-- The place of the visible item below another one. -/
def below (k : Nat) : Nat :=
  if k + 1 = self.visibleItems.length then if self.myCircularMenuMode then 0 else k else k + 1

/-- UP, DOWN and a number select the item they should. -/
def Selects (press : KeyPress) : Prop :=
  match press.aKey with
  | .up => ∃ k : Nat, self.visibleItems[k]? = self.mySelectedItem ∧
      (self.doKeyPressed press).mySelectedItem = self.visibleItems[self.above k]?
  | .down => ∃ k : Nat, self.visibleItems[k]? = self.mySelectedItem ∧
      (self.doKeyPressed press).mySelectedItem = self.visibleItems[self.below k]?
  | .plus10 => True
  | .digit d => self.myNumeratedMenuMode = true → ∀ n : Nat, self.typed d press.ticks = n + 1 →
      n < self.visibleItems.length →
        (self.doKeyPressed press).mySelectedItem = self.visibleItems[n]?

/-- The selected item is visible, and drawn in a window that has room. -/
def Shown : Prop :=
  ∃ selected, self.mySelectedItem = some selected ∧ self.isVisible selected = true ∧
    selected ∈ self.doDraw ∧ self.doDraw.length ≤ self.myHeight

/-- What a key press should do. -/
def Right (press : KeyPress) : Prop :=
  self.Selects press ∧ (self.doKeyPressed press).Shown

/-- A key press that goes right. -/
def Fine (press : KeyPress) : Prop :=
  match press.aKey with
  | .up => True
  | .down => self.myCircularMenuMode = true ∨
      ∀ selected, self.mySelectedItem = some selected → selected + 1 < self.size →
        ∃ index, selected < index ∧ self.isVisible index = true
  | .plus10 => True
  | .digit d => self.myNumeratedMenuMode = true → ∀ n : Nat, self.typed d press.ticks = n + 1 →
      n < self.visibleItems.length → ∀ index ≤ n, self.isVisible index = true

end

/-- A menu without items. -/
def initComponent (myHeight : Nat) (height_pos : 0 < myHeight)
    (myCircularMenuMode myNumeratedMenuMode : Bool) : JSubMenu where
  myMenuItems := []
  mySelectedItem := none
  myVisibleOnTopItem := none
  myVisibleOnBottomItem := none
  myHeight := myHeight
  height_pos := height_pos
  myCircularMenuMode := myCircularMenuMode
  myNumeratedMenuMode := myNumeratedMenuMode
  myLastKeyPressedTime := 0
  myIndexMenuPressed := 0

/-- A menu with a visible item and then others. -/
def build (myHeight : Nat) (height_pos : 0 < myHeight)
    (myCircularMenuMode myNumeratedMenuMode : Bool) (others : List Bool) : JSubMenu :=
  (true :: others).foldl addMenuItem
    (initComponent myHeight height_pos myCircularMenuMode myNumeratedMenuMode)

/-! ## Places in a sorted list -/

theorem get_lt_iff {l : List Nat} (sorted : l.Pairwise (· < ·)) {i j a b : Nat}
    (first : l[i]? = some a) (second : l[j]? = some b) : a < b ↔ i < j := by
  obtain ⟨inI, rfl⟩ := List.getElem?_eq_some_iff.1 first
  obtain ⟨inJ, rfl⟩ := List.getElem?_eq_some_iff.1 second
  have order := pairwise_iff_getElem.1 sorted
  constructor
  · intro less
    by_contra before
    rcases Nat.lt_or_eq_of_le (Nat.not_lt.1 before) with after | rfl
    · exact absurd (order j i inJ inI after) (Nat.lt_asymm less)
    · exact absurd less (Nat.lt_irrefl _)
  · exact order i j inI inJ

theorem get_eq_iff {l : List Nat} (sorted : l.Pairwise (· < ·)) {i j a b : Nat}
    (first : l[i]? = some a) (second : l[j]? = some b) : a = b ↔ i = j := by
  have less := get_lt_iff sorted first second
  have more := get_lt_iff sorted second first
  omega

theorem lastBefore_eq_some {p : Nat → Bool} {n x : Nat} (before : x < n) (holds : p x = true)
    (none : ∀ j, x < j → j < n → p j = false) : lastBefore p n = some x := by
  induction n with
  | zero => cases before
  | succ n ih =>
    rw [lastBefore]
    rcases Nat.lt_succ_iff_lt_or_eq.1 before with earlier | rfl
    · rw [none n earlier (Nat.lt_succ_self n), if_neg Bool.false_ne_true]
      exact ih earlier fun j after less => none j after (Nat.lt_succ_of_lt less)
    · rw [if_pos holds]

/-! ## Where looking for a visible item ends -/

variable {self : JSubMenu}

variable {a k s t : Nat}

theorem lt_size_of_isVisible (visible : self.isVisible a = true) : a < self.size := by
  by_contra outside
  rw [isVisible, getD_eq_getElem?_getD, List.getElem?_eq_none (Nat.not_lt.1 outside)]
    at visible
  cases visible

theorem mem_visibleItems : a ∈ self.visibleItems ↔ self.isVisible a = true := by
  rw [visibleItems, mem_filter, mem_range]
  exact and_iff_right_of_imp lt_size_of_isVisible

theorem visibleItems_sorted (self : JSubMenu) : self.visibleItems.Pairwise (· < ·) :=
  List.Pairwise.filter _ pairwise_lt_range

theorem exists_place (visible : self.isVisible a = true) :
    ∃ k : Nat, self.visibleItems[k]? = some a :=
  mem_iff_getElem?.1 (mem_visibleItems.2 visible)

theorem isVisible_of_place (place : self.visibleItems[k]? = some a) : self.isVisible a = true :=
  mem_visibleItems.1 (mem_of_getElem? place)

theorem not_visible_between {j : Nat} (place : self.visibleItems[k]? = some a) (after : a < j)
    (before : ∀ b, self.visibleItems[k + 1]? = some b → j < b) : self.isVisible j = false := by
  cases visible : self.isVisible j with
  | false => rfl
  | true =>
    obtain ⟨m, other⟩ := exists_place visible
    have order := (get_lt_iff self.visibleItems_sorted place other).1 after
    obtain ⟨inside, -⟩ := List.getElem?_eq_some_iff.1 other
    have following : self.visibleItems[k + 1]? = some (self.visibleItems[k + 1]) :=
      List.getElem?_eq_getElem (by omega)
    have less := (get_lt_iff self.visibleItems_sorted other following).1 (before _ following)
    omega

theorem next_of_place {b : Nat} (place : self.visibleItems[k]? = some a)
    (following : self.visibleItems[k + 1]? = some b) : self.getNextVisibleMenuItemFrom a = b := by
  have after := (get_lt_iff self.visibleItems_sorted place following).2 (Nat.lt_succ_self k)
  have visible := isVisible_of_place following
  have inside := lt_size_of_isVisible visible
  have found : (List.range' (a + 1) (self.size - (a + 1))).find? self.isVisible = some b := by
    rw [List.find?_range'_eq_some]
    refine ⟨visible, mem_range'_1.2 ⟨after, by omega⟩, ?_⟩
    intro j low high
    rw [not_visible_between place low]
    · rfl
    · intro c same
      rw [following] at same
      rwa [← Option.some.inj same]
  rw [getNextVisibleMenuItemFrom, found]

theorem find_behind_last (place : self.visibleItems[k]? = some a)
    (final : self.visibleItems[k + 1]? = none) :
    (List.range' (a + 1) (self.size - (a + 1))).find? self.isVisible = none := by
  rw [List.find?_range'_eq_none]
  intro j low _
  rw [not_visible_between place low]
  · rfl
  · intro b following
    rw [final] at following
    cases following

theorem next_of_last_circular (circular : self.myCircularMenuMode = true) {first : Nat}
    (place : self.visibleItems[k]? = some a) (final : self.visibleItems[k + 1]? = none)
    (start : self.visibleItems[0]? = some first) : self.getNextVisibleMenuItemFrom a = first := by
  have le : first ≤ a := by
    by_contra more
    exact absurd ((get_lt_iff self.visibleItems_sorted place start).1 (Nat.not_le.1 more))
      (Nat.not_lt_zero k)
  have visible := isVisible_of_place start
  have found : (List.range self.size).find?
      (fun index => self.isVisible index || decide (index = a)) = some first := by
    rw [List.find?_range_eq_some]
    refine ⟨by rw [visible]; rfl, mem_range.2 (lt_size_of_isVisible visible), ?_⟩
    intro j before
    cases earlier : self.isVisible j with
    | true =>
      obtain ⟨m, other⟩ := exists_place earlier
      exact absurd ((get_lt_iff self.visibleItems_sorted other start).1 before) (Nat.not_lt_zero m)
    | false =>
      have apart : j ≠ a := by omega
      simp [apart]
  rw [getNextVisibleMenuItemFrom, find_behind_last place final, if_pos circular, found]
  rfl

theorem next_of_last_linear (linear : self.myCircularMenuMode = false)
    (place : self.visibleItems[k]? = some a) (final : self.visibleItems[k + 1]? = none) :
    self.getNextVisibleMenuItemFrom a = self.size - 1 := by
  have inside := lt_size_of_isVisible (isVisible_of_place place)
  rw [getNextVisibleMenuItemFrom, find_behind_last place final, linear]
  dsimp only
  rw [if_neg Bool.false_ne_true]
  by_cases more : a + 1 < self.size
  · rw [if_pos more]
  · rw [if_neg more]
    omega

theorem prev_of_place {b : Nat} (place : self.visibleItems[k]? = some a)
    (following : self.visibleItems[k + 1]? = some b) :
    self.getPreviousVisibleMenuItemFrom b = a := by
  have before := (get_lt_iff self.visibleItems_sorted place following).2 (Nat.lt_succ_self k)
  have found : lastBefore self.isVisible b = some a := by
    apply lastBefore_eq_some before (isVisible_of_place place)
    intro j after less
    apply not_visible_between place after
    intro c same
    rw [following] at same
    rwa [← Option.some.inj same]
  rw [getPreviousVisibleMenuItemFrom, found]

theorem first_place (first : self.isVisible 0 = true) : self.visibleItems[0]? = some 0 := by
  obtain ⟨k, place⟩ := exists_place first
  cases k with
  | zero => exact place
  | succ k =>
    obtain ⟨inside, -⟩ := List.getElem?_eq_some_iff.1 place
    have start : self.visibleItems[0]? = some (self.visibleItems[0]) :=
      List.getElem?_eq_getElem (by omega)
    exact absurd ((get_lt_iff self.visibleItems_sorted start place).2 (Nat.succ_pos k))
      (Nat.not_lt_zero _)

theorem prev_of_first_linear (linear : self.myCircularMenuMode = false) :
    self.getPreviousVisibleMenuItemFrom 0 = 0 := by
  rw [getPreviousVisibleMenuItemFrom, lastBefore, linear, if_neg Bool.false_ne_true]
  rfl

theorem prev_of_first_circular (circular : self.myCircularMenuMode = true) {last : Nat}
    (place : self.visibleItems[k]? = some last) (final : self.visibleItems[k + 1]? = none) :
    self.getPreviousVisibleMenuItemFrom 0 = last := by
  have visible := isVisible_of_place place
  have found : lastBefore (fun index => self.isVisible index || decide (index = 0)) self.size =
      some last := by
    apply lastBefore_eq_some (lt_size_of_isVisible visible) (by rw [visible]; rfl)
    intro j after _
    have later : self.isVisible j = false := by
      apply not_visible_between place after
      intro b following
      rw [final] at following
      cases following
    have apart : j ≠ 0 := by omega
    simp [later, apart]
  rw [getPreviousVisibleMenuItemFrom, lastBefore, if_pos circular, found]
  rfl

/-! ## The items one comes to -/

/-- The item looking on ends at, if it is not visible. -/
def endItem (self : JSubMenu) : List Nat :=
  if self.myCircularMenuMode = false ∧ self.isVisible (self.size - 1) = false then [self.size - 1]
  else []

/-- The visible items and the one looking on may end at. -/
def rows (self : JSubMenu) : List Nat := self.visibleItems ++ self.endItem

theorem rows_of_place (place : self.visibleItems[k]? = some a) : self.rows[k]? = some a := by
  rw [rows, List.getElem?_append_left (List.getElem?_eq_some_iff.1 place).1, place]

theorem place_lt (place : self.visibleItems[k]? = some a) : k < self.visibleItems.length :=
  (List.getElem?_eq_some_iff.1 place).1

theorem rows_sorted (self : JSubMenu) : self.rows.Pairwise (· < ·) := by
  rw [rows, endItem]
  split_ifs with hidden
  · rw [pairwise_append]
    refine ⟨self.visibleItems_sorted, pairwise_singleton _ _, ?_⟩
    intro a member b other
    have visible := mem_visibleItems.1 member
    rw [mem_singleton.1 other]
    have inside := lt_size_of_isVisible visible
    have apart : a ≠ self.size - 1 := by
      rintro rfl
      rw [hidden.2] at visible
      cases visible
    omega
  · rw [append_nil]
    exact self.visibleItems_sorted

theorem row_cases (row : self.rows[k]? = some a) : self.visibleItems[k]? = some a ∨
      k = self.visibleItems.length ∧ a = self.size - 1 ∧ self.endItem = [a] ∧
        self.myCircularMenuMode = false := by
  rw [rows] at row
  by_cases inside : k < self.visibleItems.length
  · rw [List.getElem?_append_left inside] at row
    exact .inl row
  · rw [List.getElem?_append_right (Nat.not_lt.1 inside), endItem] at row
    right
    split_ifs at row with hidden
    · obtain ⟨short, same⟩ := List.getElem?_eq_some_iff.1 row
      rw [length_singleton] at short
      have place : k - self.visibleItems.length = 0 := by omega
      simp only [place, getElem_cons_zero] at same
      refine ⟨by omega, same.symm, ?_, hidden.1⟩
      rw [endItem, if_pos hidden, same]
    · cases row

theorem rows_length_circular (circular : self.myCircularMenuMode = true) :
    self.rows.length = self.visibleItems.length := by
  rw [rows, endItem, circular, if_neg (fun both => by cases both.1), append_nil]

theorem place_succ (final : self.visibleItems[k + 1]? = none) : self.visibleItems.length ≤ k + 1 :=
  List.getElem?_eq_none_iff.1 final

theorem getNext_end (self : JSubMenu) :
    self.getNextVisibleMenuItemFrom (self.size - 1) = self.size - 1 ∨
      self.myCircularMenuMode = true := by
  cases circular : self.myCircularMenuMode with
  | true => exact .inr rfl
  | false =>
    left
    have none : self.size - (self.size - 1 + 1) = 0 := by omega
    rw [getNextVisibleMenuItemFrom, none, circular, range'_zero, List.find?_nil]
    dsimp only
    rw [if_neg Bool.false_ne_true, if_neg (by omega)]

theorem rows_next (first : self.isVisible 0 = true) (row : self.rows[k]? = some a) :
    self.rows[Scroll.next self.myCircularMenuMode self.rows.length k]? =
      some (self.getNextVisibleMenuItemFrom a) := by
  have atLeast : self.visibleItems.length ≤ self.rows.length := by
    rw [rows, length_append]
    exact Nat.le_add_right _ _
  rw [Scroll.next]
  rcases row_cases row with place | ⟨rfl, rfl, ending, linear⟩
  · have inside := place_lt place
    cases following : self.visibleItems[k + 1]? with
    | some b =>
      have more := place_lt following
      have position : (if self.myCircularMenuMode then (k + 1) % self.rows.length
          else min (k + 1) (self.rows.length - 1)) = k + 1 := by
        split
        · exact Nat.mod_eq_of_lt (by omega)
        · omega
      rw [position, rows_of_place following, next_of_place place following]
    | none =>
      have short := place_succ following
      have whole : self.visibleItems.length = k + 1 := Nat.le_antisymm short inside
      cases circular : self.myCircularMenuMode with
      | true =>
        have around : (k + 1) % self.rows.length = 0 := by
          rw [rows_length_circular circular, whole, Nat.mod_self]
        rw [if_pos rfl, around, rows_of_place (first_place first),
          next_of_last_circular circular place following (first_place first)]
      | false =>
        rw [if_neg Bool.false_ne_true, next_of_last_linear circular place following]
        cases hidden : self.isVisible (self.size - 1) with
        | false =>
          have ending : self.endItem = [self.size - 1] := if_pos ⟨circular, hidden⟩
          have long : self.rows.length = k + 1 + 1 := by
            rw [rows, length_append, ending, length_singleton]
            omega
          rw [long, Nat.add_sub_cancel, Nat.min_self, rows, ending,
            List.getElem?_append_right short, whole, Nat.sub_self]
          rfl
        | true =>
          have ending : self.endItem = [] :=
            if_neg fun both => by rw [hidden] at both; cases both.2
          have long : self.rows.length = k + 1 := by
            rw [rows, ending, append_nil]
            omega
          have last : a = self.size - 1 := by
            have bound := lt_size_of_isVisible (isVisible_of_place place)
            by_contra other
            have between := not_visible_between (j := self.size - 1) place (by omega)
              fun b later => by rw [following] at later; cases later
            rw [hidden] at between
            cases between
          rw [long, Nat.add_sub_cancel, Nat.min_eq_right (Nat.le_succ k), row, last]
  · have long : self.rows.length = self.visibleItems.length + 1 := by
      rw [rows, length_append, ending, length_singleton]
    rw [linear, if_neg Bool.false_ne_true, long, Nat.add_sub_cancel,
      Nat.min_eq_right (Nat.le_succ _), row]
    rcases self.getNext_end with same | circular
    · rw [same]
    · rw [linear] at circular
      cases circular

theorem rows_prev (first : self.isVisible 0 = true) (row : self.rows[k]? = some a) :
    self.rows[Scroll.prev self.myCircularMenuMode self.rows.length k]? =
      some (self.getPreviousVisibleMenuItemFrom a) := by
  have bound := (List.getElem?_eq_some_iff.1 row).1
  have start := first_place first
  rw [Scroll.prev]
  rcases row_cases row with place | ⟨rfl, rfl, ending, linear⟩
  · cases k with
    | zero =>
      rw [start] at place
      obtain rfl := Option.some.inj place
      cases circular : self.myCircularMenuMode with
      | true =>
        have nonempty := place_lt start
        have last : self.visibleItems[self.visibleItems.length - 1]? =
            some (self.visibleItems[self.visibleItems.length - 1]) :=
          List.getElem?_eq_getElem (by omega)
        have final : self.visibleItems[self.visibleItems.length - 1 + 1]? = none :=
          List.getElem?_eq_none_iff.2 (by omega)
        have around : (0 + self.rows.length - 1) % self.rows.length =
            self.visibleItems.length - 1 := by
          rw [rows_length_circular circular, Nat.zero_add]
          exact Nat.mod_eq_of_lt (by omega)
        rw [if_pos rfl, around, rows_of_place last, prev_of_first_circular circular last final]
      | false =>
        rw [if_neg Bool.false_ne_true, prev_of_first_linear circular]
        exact rows_of_place start
    | succ k =>
      have inside := place_lt place
      have before : self.visibleItems[k]? = some (self.visibleItems[k]) :=
        List.getElem?_eq_getElem (by omega)
      have position : (if self.myCircularMenuMode then
          (k + 1 + self.rows.length - 1) % self.rows.length else k + 1 - 1) = k := by
        split
        · have round : k + 1 + self.rows.length - 1 = k + self.rows.length := by omega
          rw [round, Nat.add_mod_right]
          exact Nat.mod_eq_of_lt (by omega)
        · omega
      rw [position, rows_of_place before, prev_of_place before place]
  · have nonempty := place_lt start
    have last : self.visibleItems[self.visibleItems.length - 1]? =
        some (self.visibleItems[self.visibleItems.length - 1]) :=
      List.getElem?_eq_getElem (by omega)
    have final : self.visibleItems[self.visibleItems.length - 1 + 1]? = none :=
      List.getElem?_eq_none_iff.2 (by omega)
    have order := (get_lt_iff self.rows_sorted (rows_of_place last) row).2 (by omega)
    have found : lastBefore self.isVisible (self.size - 1) =
        some (self.visibleItems[self.visibleItems.length - 1]) := by
      apply lastBefore_eq_some order (isVisible_of_place last)
      intro j after _
      apply not_visible_between last after
      intro b later
      rw [final] at later
      cases later
    rw [linear, if_neg Bool.false_ne_true, rows_of_place last, getPreviousVisibleMenuItemFrom,
      found]

/-! ## The window -/

theorem rows_iterate_next (first : self.isVisible 0 = true) (row : self.rows[k]? = some a) (n : Nat)
    : self.rows[(Scroll.next self.myCircularMenuMode self.rows.length)^[n] k]? =
      some (self.getNextVisibleMenuItemFrom^[n] a) := by
  induction n with
  | zero => exact row
  | succ n ih =>
    rw [iterate_succ_apply', iterate_succ_apply']
    exact rows_next first ih

theorem rows_iterate_prev (first : self.isVisible 0 = true) (row : self.rows[k]? = some a) (n : Nat)
    : self.rows[(Scroll.prev self.myCircularMenuMode self.rows.length)^[n] k]? =
      some (self.getPreviousVisibleMenuItemFrom^[n] a) := by
  induction n with
  | zero => exact row
  | succ n ih =>
    rw [iterate_succ_apply', iterate_succ_apply']
    exact rows_prev first ih

theorem length_draw_le (self : JSubMenu) (bottom lines menu : Nat) :
    (self.draw bottom lines menu).length ≤ lines := by
  induction lines generalizing menu with
  | zero => exact Nat.le_refl 0
  | succ lines ih =>
    rw [draw, length_cons]
    split
    · exact Nat.succ_le_succ (Nat.zero_le _)
    · exact Nat.succ_le_succ (ih _)

theorem mem_draw {bottom lines menu j : Nat}
    (before : ∀ i < j, self.getNextVisibleMenuItemFrom^[i] menu ≠ bottom) (room : j < lines) :
    self.getNextVisibleMenuItemFrom^[j] menu ∈ self.draw bottom lines menu := by
  induction j generalizing lines menu with
  | zero =>
    obtain ⟨lines, rfl⟩ : ∃ l, lines = l + 1 := ⟨lines - 1, by omega⟩
    exact mem_cons_self
  | succ j ih =>
    obtain ⟨lines, rfl⟩ : ∃ l, lines = l + 1 := ⟨lines - 1, by omega⟩
    have here : menu ≠ bottom := before 0 (Nat.succ_pos j)
    rw [draw, if_neg here, iterate_succ_apply]
    apply mem_cons_of_mem
    apply ih _ (Nat.lt_of_succ_lt_succ room)
    intro i less
    exact before (i + 1) (Nat.succ_lt_succ less)

/-- The selected item and the window have places among the items one comes to, and the window
shows the selected item. -/
structure Placed (menu : JSubMenu) (s t : Nat) : Prop where
  first : menu.isVisible 0 = true
  inside : s < menu.visibleItems.length
  selected : menu.mySelectedItem = menu.visibleItems[s]?
  topInside : t < menu.rows.length
  top : menu.myVisibleOnTopItem = menu.rows[t]?
  bottom : menu.myVisibleOnBottomItem =
    menu.rows[(Scroll.next menu.myCircularMenuMode menu.rows.length)^[menu.steps] t]?
  shows : Scroll.Shows menu.myCircularMenuMode menu.rows.length menu.steps t s

theorem steps_lt (self : JSubMenu) : self.steps < self.myHeight := by
  have positive := self.height_pos
  rw [steps]
  omega

theorem Placed.shown (placed : Placed self s t) : self.Shown := by
  obtain ⟨first, inside, selected, topInside, top, bottom, j, few, reaches, before⟩ := placed
  have place : self.visibleItems[s]? = some self.visibleItems[s] := List.getElem?_eq_getElem inside
  have start : self.rows[t]? = some self.rows[t] := List.getElem?_eq_getElem topInside
  have iterate := rows_iterate_next first start
  have here := iterate j
  rw [reaches, rows_of_place place] at here
  rw [iterate self.steps] at bottom
  rw [start] at top
  have drawn : self.doDraw = self.draw (self.getNextVisibleMenuItemFrom^[self.steps] self.rows[t])
      self.myHeight self.rows[t] := by
    rw [doDraw, top, bottom]
  refine ⟨_, selected.trans place, isVisible_of_place place, ?_, ?_⟩
  · rw [drawn, Option.some.inj here]
    apply mem_draw _ (Nat.lt_of_le_of_lt few self.steps_lt)
    intro i less same
    exact before i less
      ((get_eq_iff self.rows_sorted (iterate i) (iterate self.steps)).1 same)
  · rw [drawn]
    exact self.length_draw_le _ _ _

theorem Placed.of_same (placed : Placed self s t) {other : JSubMenu}
    (items : other.myMenuItems = self.myMenuItems)
    (selected : other.mySelectedItem = self.mySelectedItem)
    (top : other.myVisibleOnTopItem = self.myVisibleOnTopItem)
    (bottom : other.myVisibleOnBottomItem = self.myVisibleOnBottomItem)
    (height : other.myHeight = self.myHeight)
    (circular : other.myCircularMenuMode = self.myCircularMenuMode) : Placed other s t := by
  cases other
  cases self
  dsimp only at items selected top bottom height circular
  subst items selected top bottom height circular
  exact ⟨placed.first, placed.inside, placed.selected, placed.topInside, placed.top, placed.bottom,
    placed.shows⟩

theorem reconfigureVisibleItems_eq {selected top bottom : Nat}
    (isSelected : self.mySelectedItem = some selected)
    (isTop : self.myVisibleOnTopItem = some top)
    (isBottom : self.myVisibleOnBottomItem = some bottom) :
    self.reconfigureVisibleItems =
      let top :=
        if bottom < selected then self.getPreviousVisibleMenuItemFrom^[self.steps] selected
        else if selected < top then selected
        else top
      { self with
        myVisibleOnTopItem := some top
        myVisibleOnBottomItem := some (self.getNextVisibleMenuItemFrom^[self.steps] top) } := by
  rw [reconfigureVisibleItems, isSelected, isTop, isBottom]
  rfl

theorem Placed.setSelectedMenuItem (placed : Placed self s t) {s' : Nat}
    (place : self.visibleItems[s']? = some a) :
    ∃ t', Placed (self.setSelectedMenuItem a) s' t' := by
  have first := placed.first
  have topInside := placed.topInside
  have start : self.rows[t]? = some self.rows[t] := List.getElem?_eq_getElem placed.topInside
  have stop := rows_iterate_next first start self.steps
  have inside := place_lt place
  have atLeast : self.visibleItems.length ≤ self.rows.length := by
    rw [rows, length_append]
    exact Nat.le_add_right _ _
  have rowsInside : s' < self.rows.length := by omega
  have row := rows_of_place place
  generalize ends : (Scroll.next self.myCircularMenuMode self.rows.length)^[self.steps] t = b
    at stop
  -- The item the window begins with, by the order of the places.
  have moved :
      self.rows[Scroll.reframe self.myCircularMenuMode self.rows.length self.steps s' t b]? =
      some (if self.getNextVisibleMenuItemFrom^[self.steps] self.rows[t] < a then
        self.getPreviousVisibleMenuItemFrom^[self.steps] a
      else if a < self.rows[t] then a else self.rows[t]) := by
    have below := get_lt_iff self.rows_sorted stop row
    have above := get_lt_iff self.rows_sorted row start
    rw [Scroll.reframe]
    by_cases under : b < s'
    · rw [if_pos under, if_pos (below.2 under)]
      exact rows_iterate_prev first row self.steps
    · rw [if_neg under, if_neg (mt below.1 under)]
      by_cases past : s' < t
      · rw [if_pos past, if_pos (above.2 past)]
        exact row
      · rw [if_neg past, if_neg (mt above.1 past)]
        exact start
  have afresh := @reconfigureVisibleItems_eq { self with mySelectedItem := some a } a _ _ rfl
    (placed.top.trans start) (placed.bottom.trans (by rw [ends]; exact stop))
  refine ⟨Scroll.reframe self.myCircularMenuMode self.rows.length self.steps s' t b, ?_⟩
  rw [JSubMenu.setSelectedMenuItem, afresh]
  refine ⟨first, inside, place.symm, Scroll.reframe_lt rowsInside topInside, moved.symm, ?_, ?_⟩
  · exact (rows_iterate_next first moved self.steps).symm
  · rw [← ends]
    exact Scroll.shows_reframe rowsInside topInside

theorem placed_reconfigureVisibleItems (first : self.isVisible 0 = true)
    (selected : self.mySelectedItem = some 0) (top : self.myVisibleOnTopItem.getD 0 = 0) :
    Placed self.reconfigureVisibleItems 0 0 := by
  have start := first_place first
  have row := rows_of_place start
  have inside := (List.getElem?_eq_some_iff.1 row).1
  rw [reconfigureVisibleItems, selected]
  dsimp only
  rw [top, if_neg (Nat.lt_irrefl 0), if_neg (Nat.not_lt_zero _)]
  refine ⟨first, place_lt start, start.symm, inside, row.symm, ?_, ?_⟩
  · exact (rows_iterate_next first row self.steps).symm
  · exact Scroll.shows_top _ _

theorem Placed.addMenuItem (placed : Placed self 0 0) (visible : Bool) :
    Placed (self.addMenuItem visible) 0 0 := by
  have start := first_place placed.first
  have selected : self.mySelectedItem = some 0 := placed.selected.trans start
  have top : self.myVisibleOnTopItem = some 0 := placed.top.trans (rows_of_place start)
  have known : ¬(self.mySelectedItem = none ∧ visible = true) := by
    rw [selected]
    intro both
    cases both.1
  rw [JSubMenu.addMenuItem]
  dsimp only
  rw [if_neg known]
  refine @placed_reconfigureVisibleItems
    { self with myMenuItems := self.myMenuItems ++ [visible] } ?_ selected ?_
  · have inside : 0 < self.myMenuItems.length := lt_size_of_isVisible placed.first
    have first := placed.first
    rw [isVisible, getD_eq_getElem?_getD] at first ⊢
    rwa [List.getElem?_append_left inside]
  · dsimp only
    rw [top]
    rfl

theorem placed_build (myHeight : Nat) (height_pos : 0 < myHeight)
    (myCircularMenuMode myNumeratedMenuMode : Bool) (others : List Bool) :
    Placed (build myHeight height_pos myCircularMenuMode myNumeratedMenuMode others) 0 0 := by
  have one : Placed ((initComponent myHeight height_pos myCircularMenuMode
      myNumeratedMenuMode).addMenuItem true) 0 0 := by
    let menu := initComponent myHeight height_pos myCircularMenuMode myNumeratedMenuMode
    exact @placed_reconfigureVisibleItems
      (JSubMenu.setSelectedMenuItem { menu with myMenuItems := [true] } 0) rfl rfl rfl
  rw [build, foldl_cons]
  generalize JSubMenu.addMenuItem _ true = menu at one ⊢
  induction others generalizing menu with
  | nil => exact one
  | cons visible others ih => exact ih _ (one.addMenuItem visible)

/-! ## Key presses -/

theorem place_above (first : self.isVisible 0 = true) (place : self.visibleItems[k]? = some a) :
    self.visibleItems[self.above k]? = some (self.getPreviousVisibleMenuItemFrom a) := by
  have start := first_place first
  rw [above]
  cases k with
  | zero =>
    rw [start] at place
    obtain rfl := Option.some.inj place
    rw [if_pos rfl]
    cases circular : self.myCircularMenuMode with
    | true =>
      have nonempty := place_lt start
      have last : self.visibleItems[self.visibleItems.length - 1]? =
          some (self.visibleItems[self.visibleItems.length - 1]) :=
        List.getElem?_eq_getElem (by omega)
      have final : self.visibleItems[self.visibleItems.length - 1 + 1]? = none :=
        List.getElem?_eq_none_iff.2 (by omega)
      rw [if_pos rfl, prev_of_first_circular circular last final]
      exact last
    | false =>
      rw [if_neg Bool.false_ne_true, prev_of_first_linear circular]
      exact start
  | succ k =>
    have inside := place_lt place
    have before : self.visibleItems[k]? = some (self.visibleItems[k]) :=
      List.getElem?_eq_getElem (by omega)
    rw [if_neg (Nat.succ_ne_zero k), Nat.add_sub_cancel, prev_of_place before place]
    exact before

theorem place_below_iff (first : self.isVisible 0 = true) (place : self.visibleItems[k]? = some a) :
    some (self.getNextVisibleMenuItemFrom a) = self.visibleItems[self.below k]? ↔
      self.myCircularMenuMode = true ∨
        (a + 1 < self.size → ∃ index, a < index ∧ self.isVisible index = true) := by
  have inside := place_lt place
  rw [below]
  cases following : self.visibleItems[k + 1]? with
  | some b =>
    have more := place_lt following
    have after := (get_lt_iff self.visibleItems_sorted place following).2 (Nat.lt_succ_self k)
    rw [if_neg (Nat.ne_of_lt more), next_of_place place following, following]
    exact iff_of_true rfl (.inr fun _ => ⟨b, after, isVisible_of_place following⟩)
  | none =>
    have short := place_succ following
    rw [if_pos (Nat.le_antisymm inside short)]
    cases circular : self.myCircularMenuMode with
    | true =>
      have start := first_place first
      rw [if_pos rfl, next_of_last_circular circular place following start, start]
      exact iff_of_true rfl (.inl rfl)
    | false =>
      have bound := lt_size_of_isVisible (isVisible_of_place place)
      have hidden {index : Nat} (after : a < index) : self.isVisible index = false := by
        apply not_visible_between place after
        intro b later
        rw [following] at later
        cases later
      rw [if_neg Bool.false_ne_true, next_of_last_linear circular place following, place]
      constructor
      · intro same
        have last := Option.some.inj same
        exact .inr fun more => absurd more (by omega)
      · intro either
        rcases either with wrong | visible
        · cases wrong
        · by_cases more : a + 1 < self.size
          · obtain ⟨index, after, shows⟩ := visible more
            rw [hidden after] at shows
            cases shows
          · have last : self.size - 1 = a := by omega
            rw [last]

theorem le_of_place (place : self.visibleItems[k]? = some a) : k ≤ a := by
  induction k generalizing a with
  | zero => exact Nat.zero_le a
  | succ k ih =>
    have inside := place_lt place
    have before : self.visibleItems[k]? = some (self.visibleItems[k]) :=
      List.getElem?_eq_getElem (by omega)
    have less := (get_lt_iff self.visibleItems_sorted before place).2 (Nat.lt_succ_self k)
    exact Nat.succ_le_of_lt (Nat.lt_of_le_of_lt (ih before) less)

/-- An item has the same place among all items and among the visible ones if no invisible one is
in front of it. -/
theorem place_self_iff {n : Nat} (inside : n < self.visibleItems.length) :
    self.visibleItems[n]? = some n ↔ ∀ index ≤ n, self.isVisible index = true := by
  induction n with
  | zero =>
    constructor
    · intro place index le
      rw [Nat.le_zero.1 le]
      exact isVisible_of_place place
    · intro visible
      exact first_place (visible 0 (Nat.le_refl 0))
  | succ n ih =>
    have before : self.visibleItems[n]? = some (self.visibleItems[n]) :=
      List.getElem?_eq_getElem (by omega)
    have low := le_of_place before
    have ih := ih (by omega)
    constructor
    · intro place index le
      have less := (get_lt_iff self.visibleItems_sorted before place).2 (Nat.lt_succ_self n)
      rcases Nat.le_succ_iff.1 le with earlier | rfl
      · apply ih.1 _ index earlier
        rw [before]
        exact congrArg some (by omega)
      · exact isVisible_of_place place
    · intro visible
      have place := ih.2 fun index le => visible index (Nat.le_succ_of_le le)
      have here : self.visibleItems[n + 1]? = some (self.visibleItems[n + 1]) :=
        List.getElem?_eq_getElem inside
      have less := (get_lt_iff self.visibleItems_sorted place here).2 (Nat.lt_succ_self n)
      obtain ⟨m, other⟩ := exists_place (visible (n + 1) (Nat.le_refl _))
      have after := (get_lt_iff self.visibleItems_sorted place other).1 (Nat.lt_succ_self n)
      have most : ¬n + 1 < self.visibleItems[n + 1] := by
        intro more
        have := (get_lt_iff self.visibleItems_sorted other here).1 more
        omega
      rw [here]
      exact congrArg some (by omega)

/-- The menu when no number is being typed. -/
def untimed (self : JSubMenu) : JSubMenu := { self with myLastKeyPressedTime := 0 }

theorem Placed.untimed (placed : Placed self s t) : Placed self.untimed s t :=
  placed.of_same rfl rfl rfl rfl rfl rfl

theorem Placed.keyUp_eq (placed : Placed self s t) (place : self.visibleItems[s]? = some a) :
    self.keyUp =
      let menu := self.getPreviousVisibleMenuItemFrom a
      if menu = a ∨ self.isVisible menu = false then self.untimed
      else self.untimed.setSelectedMenuItem menu := by
  have some_ : ¬(self.size = 0 ∨ self.myVisibleOnTopItem = none) := by
    have inside := lt_size_of_isVisible placed.first
    have top := placed.top
    rw [List.getElem?_eq_getElem placed.topInside] at top
    rw [top]
    intro either
    rcases either with empty | none
    · omega
    · cases none
  have selected := placed.selected.trans place
  rw [JSubMenu.keyUp]
  dsimp only
  split
  · rename_i nothing
    rw [selected] at nothing
    cases nothing
  · rename_i other same
    rw [selected] at same
    cases same
    exact if_neg some_

theorem Placed.keyDown_eq (placed : Placed self s t) (place : self.visibleItems[s]? = some a) :
    self.keyDown =
      let menu := self.getNextVisibleMenuItemFrom a
      if menu = a then self.untimed else self.untimed.setSelectedMenuItem menu := by
  have some_ : self.size ≠ 0 := Nat.ne_zero_of_lt (lt_size_of_isVisible placed.first)
  have selected := placed.selected.trans place
  rw [JSubMenu.keyDown]
  dsimp only
  split
  · rename_i nothing
    rw [selected] at nothing
    cases nothing
  · rename_i other same
    rw [selected] at same
    cases same
    exact if_neg some_

theorem Placed.keyUp (placed : Placed self s t) (place : self.visibleItems[s]? = some a) :
    self.keyUp.mySelectedItem = self.visibleItems[self.above s]? ∧
      ∃ s' t', Placed self.keyUp s' t' := by
  have found := place_above placed.first place
  rw [placed.keyUp_eq place]
  dsimp only
  by_cases same : self.getPreviousVisibleMenuItemFrom a = a
  · rw [if_pos (.inl same), found, same]
    exact ⟨placed.selected.trans place, s, t, placed.untimed⟩
  · have moves : ¬(self.getPreviousVisibleMenuItemFrom a = a ∨
        self.isVisible (self.getPreviousVisibleMenuItemFrom a) = false) := by
      rw [isVisible_of_place found]
      intro either
      rcases either with still | hidden
      · exact same still
      · cases hidden
    rw [if_neg moves]
    exact ⟨found.symm, self.above s, placed.untimed.setSelectedMenuItem found⟩

theorem Placed.keyDown_selected (placed : Placed self s t) (place : self.visibleItems[s]? = some a)
    : self.keyDown.mySelectedItem = some (self.getNextVisibleMenuItemFrom a) := by
  rw [placed.keyDown_eq place]
  dsimp only
  split
  · rename_i same
    rw [same]
    exact placed.selected.trans place
  · rfl

theorem Placed.keyDown (placed : Placed self s t) (place : self.visibleItems[s]? = some a)
    (found : some (self.getNextVisibleMenuItemFrom a) = self.visibleItems[self.below s]?) :
    ∃ s' t', Placed self.keyDown s' t' := by
  rw [placed.keyDown_eq place]
  dsimp only
  split
  · exact ⟨s, t, placed.untimed⟩
  · exact ⟨self.below s, placed.untimed.setSelectedMenuItem found.symm⟩

theorem dropOldIndex_eq (self : JSubMenu) (ticks : UInt32) : ∃ time index,
    self.dropOldIndex ticks =
      { self with
        myLastKeyPressedTime := time
        myIndexMenuPressed := index } := by
  rw [dropOldIndex]
  split
  · exact ⟨0, 0, rfl⟩
  · exact ⟨self.myLastKeyPressedTime, self.myIndexMenuPressed, rfl⟩

theorem visibleMenuItemsCount_eq (self : JSubMenu) :
    self.visibleMenuItemsCount = self.visibleItems.length :=
  countP_eq_length_filter

/-- The menu when a number has been typed so far. -/
def typing (self : JSubMenu) (n : Int) : JSubMenu :=
  { self with
    myIndexMenuPressed := n
    myLastKeyPressedTime := 0 }

theorem keyDigit_cases (self : JSubMenu) (d : Fin 10) (ticks : UInt32) :
    self.keyDigit d ticks = self.typing (self.typed d ticks) ∧
        (∀ n : Nat, self.typed d ticks = n + 1 → ¬n < self.visibleItems.length) ∨
      ∃ n : Nat, self.typed d ticks = n + 1 ∧ n < self.visibleItems.length ∧
        self.keyDigit d ticks = (self.typing (n + 1)).setSelectedMenuItem n := by
  rw [keyDigit]
  generalize self.typed d ticks = number
  obtain ⟨time, index, dropped⟩ := self.dropOldIndex_eq ticks
  have count := self.visibleMenuItemsCount_eq
  rw [dropped]
  by_cases out : number < 1 ∨ number > self.visibleMenuItemsCount
  · left
    refine ⟨if_pos out, ?_⟩
    intro n same
    omega
  · right
    obtain ⟨n, rfl⟩ : ∃ n : Nat, number = n + 1 := ⟨(number - 1).toNat, by omega⟩
    have inside : n < self.visibleMenuItemsCount := by omega
    have index : ((n : Int) + 1 - 1).toNat = n := by omega
    refine ⟨n, rfl, by omega, ?_⟩
    refine (if_neg out).trans ?_
    rw [index]
    exact if_neg (Nat.not_le.2 inside)

theorem selected_place (placed : Placed self s t)
    (place : self.visibleItems[k]? = self.mySelectedItem) : k = s := by
  have inside := placed.inside
  have other : self.visibleItems[s]? = some self.visibleItems[s] := List.getElem?_eq_getElem inside
  have here := place.trans (placed.selected.trans other)
  exact (get_eq_iff self.visibleItems_sorted here other).1 rfl

theorem Placed.selects_iff_fine (placed : Placed self s t) (press : KeyPress) :
    self.Selects press ↔ self.Fine press := by
  have inside := placed.inside
  have place : self.visibleItems[s]? = some self.visibleItems[s] := List.getElem?_eq_getElem inside
  have selected := placed.selected.trans place
  rw [Selects, Fine, doKeyPressed]
  cases press.aKey with
  | up => exact iff_of_true ⟨s, placed.selected.symm, (placed.keyUp place).1⟩ trivial
  | down =>
    dsimp only
    rw [placed.keyDown_selected place, selected]
    constructor
    · intro selects
      obtain ⟨k, same, found⟩ := selects
      rw [← selected] at same
      rw [selected_place placed same] at found
      rcases (place_below_iff placed.first place).1 found with circular | visible
      · exact .inl circular
      · right
        intro a same more
        rw [← Option.some.inj same] at more ⊢
        exact visible more
    · intro fine
      refine ⟨s, place, (place_below_iff placed.first place).2 ?_⟩
      rcases fine with circular | visible
      · exact .inl circular
      · exact .inr (visible _ rfl)
  | plus10 => exact Iff.rfl
  | digit d =>
    dsimp only
    apply imp_congr_right
    intro numerated
    rw [if_pos numerated]
    apply forall_congr'
    intro n
    apply imp_congr_right
    intro number
    apply imp_congr_right
    intro within
    rw [← place_self_iff within]
    rcases self.keyDigit_cases d press.ticks with ⟨-, out⟩ | ⟨m, other, -, goes⟩
    · exact absurd within (out n number)
    · have same : m = n := by omega
      rw [goes, same]
      exact eq_comm

theorem Placed.doKeyPressed (placed : Placed self s t) {press : KeyPress} (fine : self.Fine press) :
    ∃ s' t', Placed (self.doKeyPressed press) s' t' := by
  have inside := placed.inside
  have place : self.visibleItems[s]? = some self.visibleItems[s] := List.getElem?_eq_getElem inside
  rw [Fine] at fine
  rw [JSubMenu.doKeyPressed]
  generalize press.aKey = key at fine
  cases key with
  | up => exact (placed.keyUp place).2
  | down =>
    apply placed.keyDown place
    apply (place_below_iff placed.first place).2
    rcases fine with circular | visible
    · exact .inl circular
    · exact .inr (visible _ (placed.selected.trans place))
  | plus10 =>
    dsimp only
    obtain ⟨time, index, dropped⟩ := self.dropOldIndex_eq press.ticks
    rw [keyPlus10, dropped]
    split
    · exact ⟨s, t, placed.of_same rfl rfl rfl rfl rfl rfl⟩
    · exact ⟨s, t, placed⟩
  | digit d =>
    dsimp only at fine ⊢
    split
    · rename_i numerated
      have typed (n : Int) : Placed (self.typing n) s t := placed.of_same rfl rfl rfl rfl rfl rfl
      rcases self.keyDigit_cases d press.ticks with ⟨stays, -⟩ | ⟨n, number, within, goes⟩
      · rw [stays]
        exact ⟨s, t, typed _⟩
      · rw [goes]
        exact ⟨n, (typed _).setSelectedMenuItem
          ((place_self_iff within).2 (fine numerated n number within))⟩
    · exact ⟨s, t, placed⟩

theorem Placed.right_iff (placed : Placed self s t) (press : KeyPress) :
    self.Right press ↔ self.Fine press := by
  have selects := placed.selects_iff_fine press
  constructor
  · intro right
    exact selects.1 right.1
  · intro fine
    obtain ⟨s', t', after⟩ := placed.doKeyPressed fine
    exact ⟨selects.2 fine, after.shown⟩

/-! ## Runs -/

theorem selects_iff (myHeight : Nat) (height_pos : 0 < myHeight)
    (myCircularMenuMode myNumeratedMenuMode : Bool) (others : List Bool)
    (presses : List KeyPress) :
    let menu := build myHeight height_pos myCircularMenuMode myNumeratedMenuMode others
    menu.Shown ∧ Always (fun press menu => menu.doKeyPressed press) Right presses menu ↔
      Always (fun press menu => menu.doKeyPressed press) Fine presses menu := by
  intro menu
  have start : Placed menu 0 0 := placed_build _ _ _ _ _
  rw [and_iff_right start.shown]
  have free : Always (fun (press : KeyPress) (menu : JSubMenu) => menu.doKeyPressed press)
      (fun _ _ => True) presses menu :=
    Always.unconditional presses menu
  refine Always.congr_of_invariant (fun menu => ∃ s t, Placed menu s t) ?_ ?_ ⟨0, 0, start⟩ free
  · intro menu press placed _
    obtain ⟨s, t, placed⟩ := placed
    exact placed.right_iff press
  · intro menu press placed _ fine
    obtain ⟨s, t, placed⟩ := placed
    exact placed.doKeyPressed fine

/-- DOWN is pressed in a menu with an invisible item between two visible ones. -/
theorem selects_iff_down :
    let menu := build 2 (by decide) false true [false, true]
    menu.Shown ∧
      Always (fun press menu => menu.doKeyPressed press) Right [⟨.down, 0, 0⟩] menu := by
  apply (selects_iff 2 (by decide) false true [false, true] [⟨.down, 0, 0⟩]).2
  refine ⟨.inr ?_, trivial⟩
  intro selected same _
  cases same
  exact ⟨2, by decide, rfl⟩

/-- DOWN is pressed at a visible item with an invisible one behind it. -/
theorem not_selects :
    let menu := build 2 (by decide) false true [false]
    ¬(menu.Shown ∧
      Always (fun press menu => menu.doKeyPressed press) Right [⟨.down, 0, 0⟩] menu) := by
  intro menu right
  obtain ⟨selected, same, visible, -⟩ := right.2.1.2
  have last : (menu.doKeyPressed ⟨.down, 0, 0⟩).mySelectedItem = some 1 := rfl
  rw [last] at same
  cases same
  cases visible

end JSubMenu

end CimArm.Ui
