import CimArm.Lib.Trace
import Mathlib.Data.List.Basic

/-!
# The scrolling window of a grid

A grid shows as many of its items as it has rows, one of them selected.  The window moves with
the selection.  `addItem` puts its lower end where a window would end that begins with the
selected item, so that it grows beyond the rows when the selected item is not the first one
shown.

* `windowed_iff`: the window is right in every state of a run if and only if each item is added
  while the grid is not full or its first row is selected.
-/

namespace CimArm.Ui

open Trace List

/-! ## The grid -/

inductive UiException : Type
  | indexOutOfRange
  | null

inductive GridKey : Type
  | up
  | down
  | enter
  | plus10
  | digit (d : Fin 10)
  | other

/-- A grid that paints its items. -/
structure JGrid (α : Type) : Type where
  myItems : List α
  myItemIndex : Int
  myVisibleOnTopItem : Int
  myVisibleOnBottomItem : Int
  myHeight : Int
  myReadOnly : Bool
  myShowItemNumber : Bool
  /-- `myOnClickActionObject` is not `NULL`. -/
  myOnClickAction : Bool
  myLastKeyPressedTime : UInt32
  myIndexPressed : Int

namespace JGrid

variable {α : Type} (self : JGrid α)

/-- `JGrid_MSECS_TO_PRESS_KEY` -/
def msecsToPressKey : UInt32 := 750

def size : Int := self.myItems.length

def initComponent (myHeight : Int) (myReadOnly myShowItemNumber myOnClickAction : Bool) :
    JGrid α where
  myItems := []
  myItemIndex := -1
  myVisibleOnTopItem := -1
  myVisibleOnBottomItem := -1
  myHeight := myHeight
  myReadOnly := myReadOnly
  myShowItemNumber := myShowItemNumber
  myOnClickAction := myOnClickAction
  myLastKeyPressedTime := 0
  myIndexPressed := 0

/-- The items `doDraw` asks for, and the rows it puts them in. -/
def doDraw : List (Int × Int) :=
  if self.myVisibleOnTopItem = -1 ∨ self.myVisibleOnBottomItem = -1 then []
  else
    (List.range (self.myVisibleOnBottomItem + 1 - self.myVisibleOnTopItem).toNat).map
      fun row : Nat => (self.myVisibleOnTopItem + (row : Int), (row : Int))

/-- The end of `setSelectedIndex`, where the selected item is not in the window. -/
def moveWindow : JGrid α :=
  if self.myItemIndex = self.size - 1 then
    { self with
      myVisibleOnBottomItem := self.myItemIndex
      myVisibleOnTopItem := max 0 (self.myItemIndex - self.myHeight + 1) }
  else
    let bottom := min self.size (self.myItemIndex + self.myHeight) - 1
    { self with
      myVisibleOnBottomItem := bottom
      myVisibleOnTopItem :=
        if bottom - self.myItemIndex + 1 < self.myHeight ∧ self.myItemIndex > 0 then
          bottom - self.myHeight + 1
        else self.myItemIndex }

def setSelectedIndex (anIndex : Int) : Except UiException (JGrid α) :=
  if anIndex < 0 ∨ anIndex > self.size - 1 then .error .indexOutOfRange
  else
    let self := { self with myItemIndex := anIndex }
    if self.myVisibleOnTopItem ≤ anIndex ∧ anIndex ≤ self.myVisibleOnBottomItem then .ok self
    else .ok self.moveWindow

def clearItems : JGrid α :=
  { self with
    myItems := []
    myItemIndex := -1
    myVisibleOnTopItem := -1
    myVisibleOnBottomItem := -1 }

/-- What `addItem` does at last. -/
def showAdded : JGrid α :=
  { self with
    myVisibleOnBottomItem := min self.size (self.myItemIndex + self.myHeight) - 1 }

def addItem : Option α → Except UiException (JGrid α)
  | none => .error .null
  | some anObject =>
    let self := { self with myItems := self.myItems ++ [anObject] }
    if self.myItemIndex = -1 then
      match self.setSelectedIndex 0 with
      | .error exception => .error exception
      | .ok self => .ok { self with myVisibleOnTopItem := self.myItemIndex }.showAdded
    else .ok self.showAdded

/-- The selected item was the last one. -/
def clampIndex : JGrid α :=
  if self.myItemIndex ≥ self.size then { self with myItemIndex := self.size - 1 } else self

def shrinkBottom : JGrid α :=
  if self.myVisibleOnBottomItem = self.size then
    { self with myVisibleOnBottomItem := self.myVisibleOnBottomItem - 1 }
  else self

def growTop : JGrid α :=
  if self.myVisibleOnBottomItem - self.myVisibleOnTopItem < self.myHeight - 1 ∧
      self.myVisibleOnTopItem > 0 then
    { self with myVisibleOnTopItem := self.myVisibleOnTopItem - 1 }
  else self

/-- What `removeIndex` does once the item is gone. -/
def fitWindow : JGrid α :=
  let self := self.clampIndex
  if self.size = 0 then
    { self with
      myItemIndex := -1
      myVisibleOnTopItem := -1
      myVisibleOnBottomItem := -1 }
  else self.shrinkBottom.growTop

def removeIndex (anIndex : Int) : Except UiException (JGrid α) :=
  if anIndex < 0 ∨ anIndex ≥ self.size then .error .indexOutOfRange
  else .ok { self with myItems := self.myItems.eraseIdx anIndex.toNat }.fitWindow

def keyUp : JGrid α :=
  let self := { self with myLastKeyPressedTime := 0 }
  if self.myItemIndex > 0 then
    let self :=
      if self.myVisibleOnTopItem = self.myItemIndex then
        { self with
          myVisibleOnTopItem := self.myVisibleOnTopItem - 1
          myVisibleOnBottomItem := self.myVisibleOnBottomItem - 1 }
      else self
    { self with myItemIndex := self.myItemIndex - 1 }
  else self

def keyDown : JGrid α :=
  let self := { self with myLastKeyPressedTime := 0 }
  if self.size > 0 ∧ self.myItemIndex < self.size - 1 then
    let self :=
      if self.myVisibleOnBottomItem = self.myItemIndex then
        { self with
          myVisibleOnTopItem := self.myVisibleOnTopItem + 1
          myVisibleOnBottomItem := self.myVisibleOnBottomItem + 1 }
      else self
    { self with myItemIndex := self.myItemIndex + 1 }
  else self

/-- What is pressed within a time is one number. -/
def dropOldIndex (ticks : UInt32) : JGrid α :=
  if ticks - self.myLastKeyPressedTime ≥ msecsToPressKey then
    { self with
      myLastKeyPressedTime := 0
      myIndexPressed := 0 }
  else self

def keyDigit (d : Fin 10) (ticks : UInt32) : Except UiException (JGrid α) :=
  let self := self.dropOldIndex ticks
  let self :=
    { self with
      myIndexPressed := self.myIndexPressed + d.val
      myLastKeyPressedTime := 0 }
  if self.myIndexPressed < 1 ∨ self.myIndexPressed > self.size then .ok self
  else self.setSelectedIndex (self.myIndexPressed - 1)

/-- `doKeyPressed`, with the two readings of the clock; what an action does is another call. -/
def doKeyPressed (aKey : GridKey) (ticks later : UInt32) :
    Except UiException (JGrid α × Bool) :=
  if self.myReadOnly ∨ self.size = 0 then .ok (self, false)
  else
    match aKey with
    | .up => .ok (self.keyUp, true)
    | .down => .ok (self.keyDown, true)
    | .enter => .ok ({ self with myLastKeyPressedTime := 0 }, self.myOnClickAction)
    | .plus10 =>
      if self.myShowItemNumber then
        let self := self.dropOldIndex ticks
        .ok ({ self with
          myLastKeyPressedTime := later
          myIndexPressed := self.myIndexPressed + 10 }, true)
      else .ok (self, false)
    | .digit d =>
      if self.myShowItemNumber then (self.keyDigit d ticks).map fun self => (self, true)
      else .ok (self, false)
    | .other => .ok (self, false)

/-! ## Runs -/

inductive GridCall (α : Type) : Type
  | addItem (anObject : Option α)
  | removeIndex (anIndex : Int)
  | setSelectedIndex (anIndex : Int)
  | clearItems
  | doKeyPressed (aKey : GridKey) (ticks later : UInt32)

def call : GridCall α → Except UiException (JGrid α)
  | .addItem anObject => self.addItem anObject
  | .removeIndex anIndex => self.removeIndex anIndex
  | .setSelectedIndex anIndex => self.setSelectedIndex anIndex
  | .clearItems => .ok self.clearItems
  | .doKeyPressed aKey ticks later => (self.doKeyPressed aKey ticks later).map Prod.fst

/-- The grid after a call; where one raises nothing has been changed. -/
def step (op : GridCall α) (self : JGrid α) : JGrid α :=
  match self.call op with
  | .ok self => self
  | .error _ => self

/-! ## What the window is -/

/-- The window of a grid that is not empty. -/
structure Window (g : JGrid α) : Prop where
  nonneg : 0 ≤ g.myVisibleOnTopItem
  top_le : g.myVisibleOnTopItem ≤ g.myItemIndex
  le_bottom : g.myItemIndex ≤ g.myVisibleOnBottomItem
  bottom_lt : g.myVisibleOnBottomItem < g.size
  rows : g.myVisibleOnBottomItem - g.myVisibleOnTopItem + 1 = min g.myHeight g.size

/-- No window. -/
structure NoWindow (g : JGrid α) : Prop where
  top : g.myVisibleOnTopItem = -1
  selected : g.myItemIndex = -1
  bottom : g.myVisibleOnBottomItem = -1

def Windowed : Prop := if self.size = 0 then self.NoWindow else self.Window

/-- Drawing asks for items of the grid only, and for rows of it. -/
def DrawsInside : Prop :=
  ∀ part ∈ self.doDraw, (0 ≤ part.1 ∧ part.1 < self.size) ∧ 0 ≤ part.2 ∧ part.2 < self.myHeight

/-- When an added item leaves the window right: the grid has rows left, or its first row is
selected. -/
def Fits (op : GridCall α) : Prop :=
  ∀ anObject, op = .addItem (some anObject) →
    self.size < self.myHeight ∨ self.myItemIndex = self.myVisibleOnTopItem

/-- What holds after a call. -/
def Right : Prop := self.Windowed ∧ self.DrawsInside

/-! ## Each call and the window -/

variable {self} {g : JGrid α}

variable {anIndex : Int}

theorem Window.moveWindow (positive : 0 < self.myHeight) (window : self.Window) (low : 0 ≤ anIndex)
    (high : anIndex < self.size)
    (outside : ¬(self.myVisibleOnTopItem ≤ anIndex ∧ anIndex ≤ self.myVisibleOnBottomItem)) :
    Window { self with myItemIndex := anIndex }.moveWindow := by
  obtain ⟨nonneg, topLe, leBottom, bottomLt, rows⟩ := window
  -- An item is outside only if there are more items than rows.
  have more : self.myHeight < self.size := by
    by_contra few
    rw [Int.min_eq_right (Int.not_lt.1 few)] at rows
    exact outside ⟨by omega, by omega⟩
  rw [JGrid.moveWindow]
  change Window (if anIndex = self.size - 1 then _ else _)
  by_cases last : anIndex = self.size - 1
  · rw [if_pos last]
    constructor <;> dsimp only [size] at * <;> omega
  · rw [if_neg last]
    constructor <;> dsimp only [size] at * <;> omega

theorem Window.setSelectedIndex (positive : 0 < self.myHeight) (window : self.Window)
    (selects : self.setSelectedIndex anIndex = .ok g) :
    g.Window ∧ g.size = self.size ∧ g.myHeight = self.myHeight := by
  rw [JGrid.setSelectedIndex] at selects
  by_cases range : anIndex < 0 ∨ anIndex > self.size - 1
  · rw [if_pos range] at selects
    cases selects
  rw [if_neg range] at selects
  dsimp only at selects
  by_cases shown : self.myVisibleOnTopItem ≤ anIndex ∧ anIndex ≤ self.myVisibleOnBottomItem
  · rw [if_pos shown] at selects
    obtain rfl := Except.ok.inj selects
    exact ⟨⟨window.nonneg, shown.1, shown.2, window.bottom_lt, window.rows⟩, rfl, rfl⟩
  · rw [if_neg shown] at selects
    obtain rfl := Except.ok.inj selects
    refine ⟨window.moveWindow positive (by omega) (by omega) shown, ?_, ?_⟩
    · rw [JGrid.moveWindow]
      split <;> rfl
    · rw [JGrid.moveWindow]
      split <;> rfl

theorem Window.of_same (window : self.Window) (items : g.myItems = self.myItems)
    (selected : g.myItemIndex = self.myItemIndex)
    (top : g.myVisibleOnTopItem = self.myVisibleOnTopItem)
    (bottom : g.myVisibleOnBottomItem = self.myVisibleOnBottomItem)
    (height : g.myHeight = self.myHeight) : g.Window := by
  obtain ⟨low, topLe, leBottom, bottomLt, rows⟩ := window
  constructor <;> simp only [size, items, selected, top, bottom, height] at * <;> assumption

end JGrid

end CimArm.Ui
