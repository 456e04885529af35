import CimArm.Cim.CloseRun
import CimArm.Lib.Tiling
import Mathlib.Data.List.Find

/-!
# Every deposit is closed once

The ranges of the closes of a scope, the whole site or one cash, follow one another
over the deposits of the scope, and the open close goes on behind them
(`Ledger.Tiled`).  Deposits and closes keep this; a restart does where the tables
remember the last close of each scope and no cash takes over a number that one of its
deposits is behind (`Ledger.Resumable`).
-/

namespace CimArm

open ZCloseDAO Tiling List

/-- What a close is of. -/
inductive CloseScope
  | day | cash (cimCash : CimCash)
  deriving DecidableEq, Repr

namespace CloseScope

def Of : CloseScope → ZClose → Prop
  | .day, x => x.closeType = .endOfDay
  | .cash cimCash, x => x.closeType = .cashClose ∧ x.cimCash = some cimCash

def Owns : CloseScope → Deposit → Prop
  | .day, _ => True
  | .cash cimCash, d => d.cimCash = some cimCash

instance : (scope : CloseScope) → (x : ZClose) → Decidable (scope.Of x)
  | .day, x => inferInstanceAs (Decidable (x.closeType = _))
  | .cash _, _ => inferInstanceAs (Decidable (_ ∧ _))

instance : (scope : CloseScope) → (d : Deposit) → Decidable (scope.Owns d)
  | .day, _ => isTrue trivial
  | .cash _, d => inferInstanceAs (Decidable (d.cimCash = _))

/-- The numbers of the deposits of a scope. -/
def marks (scope : CloseScope) (deposits : List Deposit) : List Nat :=
  (deposits.filter fun d => scope.Owns d).map (·.number)

/-- The closes of a scope in which deposits were made. -/
def filled (scope : CloseScope) (closes : List ZClose) : List ZClose :=
  closes.filter fun x => scope.Of x ∧ x.toDepositNumber ≠ 0

end CloseScope

/-- The range of deposit numbers of a close. -/
def ZClose.range (x : ZClose) : Range := ⟨x.fromDepositNumber, x.toDepositNumber⟩

namespace CloseScope

/-- The ranges of the stored closes of a scope in which deposits were made. -/
def ranges (scope : CloseScope) (closes : List ZClose) : List Range :=
  (scope.filled closes).map (·.range)

variable {scope : CloseScope}

theorem belongs_iff {x : ZClose} (of : scope.Of x) (d : Deposit) :
    x.Belongs d ↔ scope.Owns d := by
  cases scope with
  | day => exact ⟨fun _ => trivial, fun _ => .inl of⟩
  | cash cimCash =>
    obtain ⟨type, own⟩ := of
    rw [ZClose.Belongs, type, own]
    exact ⟨fun mine => (mine.resolve_left CloseType.noConfusion).symm, fun mine => .inr mine.symm⟩

theorem marks_append (deposits : List Deposit) (d : Deposit) :
    scope.marks (deposits ++ [d]) =
      scope.marks deposits ++ if scope.Owns d then [d.number] else [] := by
  rw [marks, filter_append, map_append]
  by_cases own : scope.Owns d <;> simp [own, marks]

theorem mem_marks {deposits : List Deposit} {m : Nat} :
    m ∈ scope.marks deposits ↔ ∃ d ∈ deposits, scope.Owns d ∧ d.number = m := by
  simp [marks, and_assoc]

theorem ranges_append (closes : List ZClose) (x : ZClose) :
    scope.ranges (closes ++ [x]) =
      scope.ranges closes ++ if scope.Of x ∧ x.toDepositNumber ≠ 0 then [x.range] else [] := by
  rw [ranges, filled, filter_append, map_append]
  by_cases taken : scope.Of x ∧ x.toDepositNumber ≠ 0 <;> simp [taken, ranges, filled]

end CloseScope

/-- A number from which on a scope can go on behind a boundary: no deposit of the scope
lies between them. -/
def Resumes (marks : List Nat) (boundary n : Nat) : Prop :=
  boundary ≤ n ∧ ∀ m ∈ marks, boundary ≤ m → n ≤ m

theorem Resumes.append {marks more : List Nat} {boundary n : Nat}
    (resumes : Resumes marks boundary n) (above : ∀ m ∈ more, n ≤ m) :
    Resumes (marks ++ more) boundary n := by
  refine ⟨resumes.1, fun m hm behind => ?_⟩
  rcases mem_append.1 hm with hm | hm
  · exact resumes.2 m hm behind
  · exact above m hm

/-- Where a scope goes on after a close. -/
def ZClose.next (x : ZClose) : Nat :=
  if x.toDepositNumber ≠ 0 then x.toDepositNumber + 1 else x.fromDepositNumber

namespace Ledger

/-- The stored closes of a scope tile its deposits, and the open close and the last stored
one can be gone on with. -/
structure Tiled (l : Ledger) (scope : CloseScope) (current : ZClose) : Prop where
  tiles : Tiles (scope.marks l.deposits) 1 (scope.ranges l.closes)
  boundary_le : boundary 1 (scope.ranges l.closes) ≤ l.top + 1
  resumes : current.fromDepositNumber ≠ 0 →
    Resumes (scope.marks l.deposits) (boundary 1 (scope.ranges l.closes))
      current.fromDepositNumber
  fresh : current.fromDepositNumber = 0 →
    ∀ m ∈ scope.marks l.deposits, m < boundary 1 (scope.ranges l.closes)
  last : ∀ x, (l.closes.reverse.find? fun x => scope.Of x) = some x → x.fromDepositNumber ≠ 0 →
    Resumes (scope.marks l.deposits) (boundary 1 (scope.ranges l.closes)) x.next

/-- What holds while the restarts remember enough. -/
structure Ranged (site : CloseSite) (l : Ledger) : Prop where
  day : l.Tiled .day l.day
  cash : ∀ x ∈ l.cashCloses, ∀ cimCash, x.cimCash = some cimCash → l.Tiled (.cash cimCash) x
  zNumbers : NumbersBelow .endOfDay l.closes l.day.number
  cashNumbers : NumbersBelow .cashClose l.closes (l.lastCashCloseNumber + 1)

/-! ## The moves within a scope -/

section moves

variable {site : CloseSite} {l : Ledger} {scope : CloseScope} {current : ZClose}

theorem Tiled.deposit (tiled : l.Tiled scope current) (sound : Sound site l)
    (spans : l.Spans current) {d : Deposit} (follows : Follows site l.deposits d)
    (dropped : Nat) : (l.deposit d dropped).Tiled scope (current.take d) := by
  have above := Sound.top_lt follows
  have from_le := spans.from_le
  have boundary_le := tiled.boundary_le
  have marks := @CloseScope.marks_append scope l.deposits d
  have more (n : Nat) (le : n ≤ l.top + 1) :
      ∀ m ∈ (if scope.Owns d then [d.number] else []), n ≤ m := by
    intro m hm
    split_ifs at hm
    · rw [mem_singleton.1 hm]
      omega
    · cases hm
  refine ⟨?_, ?_, fun some => ?_, fun none => ?_, fun x found first => ?_⟩
  · show Tiles (scope.marks (l.deposits ++ [d])) 1 _
    rw [marks]
    split_ifs
    · exact tiled.tiles.mark (by omega)
    · rw [append_nil]
      exact tiled.tiles
  · show boundary 1 (scope.ranges l.closes) ≤ _
    rw [Sound.top_deposit]
    omega
  · show Resumes (scope.marks (l.deposits ++ [d])) (boundary 1 (scope.ranges l.closes)) _
    rw [marks, ZClose.take_fromDepositNumber]
    by_cases zero : current.fromDepositNumber = 0
    · rw [if_pos zero]
      refine ⟨by omega, fun m hm behind => ?_⟩
      rcases mem_append.1 hm with hm | hm
      · have := tiled.fresh zero m hm
        omega
      · split_ifs at hm
        · rw [mem_singleton.1 hm]
        · cases hm
    · rw [if_neg zero]
      exact (tiled.resumes zero).append (more _ from_le)
  · rw [ZClose.take_fromDepositNumber] at none
    have := follows.positive
    split_ifs at none <;> omega
  · show Resumes (scope.marks (l.deposits ++ [d])) (boundary 1 (scope.ranges l.closes)) _
    rw [marks]
    refine (tiled.last x found first).append (more _ ?_)
    have hx := mem_reverse.1 (List.mem_of_find?_eq_some found)
    obtain ⟨-, bounds, -⟩ := sound.kept x hx
    have from_le' := bounds.from_le
    have to_le := bounds.to_le
    rw [ZClose.next]
    split_ifs <;> omega

variable {l' : Ledger}

theorem Tiled.closeOther (tiled : l.Tiled scope current) {closed : ZClose}
    (other : ¬ scope.Of closed) (deposits : l'.deposits = l.deposits)
    (closes : l'.closes = l.closes ++ [closed]) : l'.Tiled scope current := by
  have ranges : scope.ranges l'.closes = scope.ranges l.closes := by
    rw [closes, CloseScope.ranges_append, if_neg fun taken => other taken.1, append_nil]
  have found : (l'.closes.reverse.find? fun x => scope.Of x) =
      l.closes.reverse.find? fun x => scope.Of x := by
    rw [closes, reverse_append, reverse_singleton, singleton_append,
      List.find?_cons_of_neg (by simpa using other)]
  have top : l'.top = l.top := by rw [Ledger.top, deposits, Ledger.top]
  obtain ⟨tiles, le, resumes, fresh, last⟩ := tiled
  rw [← ranges, ← deposits] at tiles resumes fresh last
  rw [← ranges, ← top] at le
  exact ⟨tiles, le, resumes, fresh, found ▸ last⟩

theorem Sound.pending_day (sound : Sound site l) (empty : l.day.toDepositNumber = 0)
    (first : l.day.fromDepositNumber ≠ 0) (d : Deposit) (hd : d ∈ l.deposits) :
    d.number < l.day.fromDepositNumber := by
  have pending := sound.day.pending empty first
  by_cases here : d ∈ l.retained
  · exact pending d here (.inl sound.ofDay)
  · -- the last deposit is retained, and is pending too
    have newest := sound.newest (ne_nil_of_mem hd)
    have some : l.retained ≠ [] := by
      rw [Ne, retained, drop_eq_nil_iff]
      omega
    obtain ⟨d', hd'⟩ := exists_mem_of_ne_nil _ some
    have before := sound.lt_of_not_retained hd here hd'
    have behind := pending d' hd' (.inl sound.ofDay)
    omega

theorem Tiled.closeOwn (tiled : l.Tiled scope current) (spans : l.Spans current)
    (of : scope.Of current) {closed next : ZClose} (same : current.ClosedAs closed)
    (deposits : l'.deposits = l.deposits) (closes : l'.closes = l.closes ++ [closed])
    (goesOn : next.fromDepositNumber ≠ 0 → next.fromDepositNumber = closed.next)
    (ended : next.fromDepositNumber = 0 → closed.toDepositNumber = 0 →
      ∀ m ∈ scope.marks l.deposits, m < boundary 1 (scope.ranges l.closes)) :
    l'.Tiled scope next := by
  have ofClosed : scope.Of closed := by
    cases scope with
    | day => exact same.closeType.trans of
    | cash cimCash => exact ⟨same.closeType.trans of.1, same.cimCash.trans of.2⟩
  have top : l'.top = l.top := by rw [Ledger.top, deposits, Ledger.top]
  have found : (l'.closes.reverse.find? fun x => scope.Of x) = some closed := by
    rw [closes, reverse_append, reverse_singleton, singleton_append,
      List.find?_cons_of_pos (by simpa using ofClosed)]
  have owned (m : Nat) (hm : m ∈ scope.marks l.deposits) (some : current.toDepositNumber ≠ 0) :
      m ≤ current.toDepositNumber := by
    obtain ⟨d, hd, own, rfl⟩ := CloseScope.mem_marks.1 hm
    exact spans.last some d hd ((CloseScope.belongs_iff of d).2 own)
  have first := same.fromDepositNumber
  have last := same.toDepositNumber
  by_cases empty : current.toDepositNumber = 0
  · -- no deposits: the ranges stay
    have ranges : scope.ranges l'.closes = scope.ranges l.closes := by
      rw [closes, CloseScope.ranges_append, if_neg fun taken => taken.2 (last.trans empty),
        append_nil]
    have next_eq : closed.next = current.fromDepositNumber := by
      rw [ZClose.next, if_neg (not_not.2 (last.trans empty)), first]
    have resumes (some : current.fromDepositNumber ≠ 0) := tiled.resumes some
    refine ⟨?_, ?_, fun some => ?_, fun zero => ?_, fun x hx some => ?_⟩
    · rw [ranges, deposits]
      exact tiled.tiles
    · rw [ranges, top]
      exact tiled.boundary_le
    · rw [ranges, deposits, goesOn some, next_eq]
      exact resumes (by rw [← next_eq, ← goesOn some]; exact some)
    · rw [ranges, deposits]
      exact ended zero (last.trans empty)
    · rw [found] at hx
      obtain rfl := Option.some.inj hx
      rw [ranges, deposits, next_eq]
      exact resumes (first ▸ some)
  · -- the range of the close follows the others
    obtain ⟨some, forward⟩ := spans.forward empty
    have resumes := tiled.resumes some
    have ranges : scope.ranges l'.closes = scope.ranges l.closes ++ [current.range] := by
      have taken : scope.Of closed ∧ closed.toDepositNumber ≠ 0 :=
        ⟨ofClosed, fun zero => empty (last ▸ zero)⟩
      rw [closes, CloseScope.ranges_append, if_pos taken, ZClose.range, first, last, ZClose.range]
    have next_eq : closed.next = current.toDepositNumber + 1 := by
      rw [ZClose.next, last, if_pos empty]
    have behind : Resumes (scope.marks l.deposits) (current.toDepositNumber + 1)
        (current.toDepositNumber + 1) := ⟨Nat.le_refl _, fun _ _ le => le⟩
    have bound : boundary 1 (scope.ranges l'.closes) = current.toDepositNumber + 1 := by
      rw [ranges, boundary_append]
      rfl
    refine ⟨?_, ?_, fun some' => ?_, fun _ m hm => ?_, fun x hx _ => ?_⟩
    · rw [ranges, deposits]
      exact tiled.tiles.append resumes.1 forward resumes.2
    · rw [bound, top]
      exact Nat.succ_le_succ spans.to_le
    · rw [bound, deposits, goesOn some', next_eq]
      exact behind
    · rw [deposits] at hm
      rw [bound]
      exact Nat.lt_succ_of_le (owned m hm empty)
    · rw [found] at hx
      obtain rfl := Option.some.inj hx
      rw [bound, deposits, next_eq]
      exact behind

theorem Tiled.restart (tiled : l.Tiled scope current) {next : ZClose}
    (deposits : l'.deposits = l.deposits) (closes : l'.closes = l.closes)
    (first : next.fromDepositNumber ≠ 0)
    (resumes : Resumes (scope.marks l.deposits) (boundary 1 (scope.ranges l.closes))
      next.fromDepositNumber) :
    l'.Tiled scope next := by
  have top : l'.top = l.top := by rw [Ledger.top, deposits, Ledger.top]
  obtain ⟨tiles, le, -, -, last⟩ := tiled
  rw [← closes, ← deposits] at tiles last resumes
  rw [← closes, ← top] at le
  exact ⟨tiles, le, fun _ => resumes, fun zero => absurd zero first, last⟩

end moves

/-! ## What a restart has to remember -/

/-- If a close of the site had a property, a stored row has it. -/
def Remembers (l : Ledger) (p : ZCloseRecord → Bool) : Prop :=
  (∃ x ∈ l.closes, p (.ofClose x) = true) → ∃ r ∈ l.rows, p r = true

/-- The loop over the cashes with the row that it last found: no cash without a row takes
over a number that one of its deposits is behind. -/
def Inherits (rows : List ZCloseRecord) (deposits : List Deposit) :
    List CimCash → Option ZCloseRecord → Prop
  | [], _ => True
  | cimCash :: cimCashs, left =>
    match lastRow rows (isCloseOfCash cimCash.cimCashId) with
    | some r => Inherits rows deposits cimCashs (some r)
    | none =>
      (∀ r ∈ left, ∀ d ∈ deposits, d.cimCash = some cimCash → resume r ≤ d.number) ∧
        Inherits rows deposits cimCashs left

instance decidableInherits (rows : List ZCloseRecord) (deposits : List Deposit) :
    (cimCashs : List CimCash) → (left : Option ZCloseRecord) →
      Decidable (Inherits rows deposits cimCashs left)
  | [], _ => isTrue trivial
  | cimCash :: cimCashs, left =>
    match found : lastRow rows (isCloseOfCash cimCash.cimCashId) with
    | some r =>
      have := decidableInherits rows deposits cimCashs (some r)
      decidable_of_iff (Inherits rows deposits cimCashs (some r)) (by rw [Inherits, found])
    | none =>
      have := decidableInherits rows deposits cimCashs left
      decidable_of_iff
        ((∀ r ∈ left, ∀ d ∈ deposits, d.cimCash = some cimCash → resume r ≤ d.number) ∧
          Inherits rows deposits cimCashs left) (by rw [Inherits, found])

/-- What a restart needs to go on where the closes ended: the tables have a last Z close, a
last one with deposits and a last close of each cash, if there ever was one, and no cash
inherits a number that is too high for it. -/
structure Resumable (site : CloseSite) (l : Ledger) : Prop where
  day : l.Remembers isZClose
  withDeposits : l.Remembers isZCloseWithDeposits
  cash : ∀ cimCash ∈ site.cimCashs, l.Remembers (isCloseOfCash cimCash.cimCashId)
  inherits : Inherits l.rows l.deposits site.cimCashs none

instance (l : Ledger) (p : ZCloseRecord → Bool) : Decidable (l.Remembers p) :=
  inferInstanceAs (Decidable ((∃ x ∈ l.closes, _) → ∃ r ∈ l.rows, _))

instance (site : CloseSite) (l : Ledger) : Decidable (l.Resumable site) :=
  decidable_of_iff (l.Remembers isZClose ∧ l.Remembers isZCloseWithDeposits ∧
      (∀ cimCash ∈ site.cimCashs, l.Remembers (isCloseOfCash cimCash.cimCashId)) ∧
      Inherits l.rows l.deposits site.cimCashs none)
    ⟨fun all => ⟨all.1, all.2.1, all.2.2.1, all.2.2.2⟩,
      fun all => ⟨all.1, all.2, all.3, all.4⟩⟩

/-- The last row with a property that is remembered is that of the last close with it. -/
theorem Remembers.lastRow_eq {l : Ledger} {p : ZCloseRecord → Bool} (remembers : l.Remembers p) :
    lastRow l.rows p = (l.closes.reverse.find? (p ∘ .ofClose)).map .ofClose := by
  have retained : lastRow l.rows p =
      (l.retainedCloses.reverse.find? (p ∘ .ofClose)).map .ofClose := by
    rw [lastRow, rows, ← map_reverse, List.find?_map]
  have split : l.closes.reverse =
      l.retainedCloses.reverse ++ (l.closes.take l.droppedCloses).reverse := by
    rw [retainedCloses, ← reverse_append, take_append_drop]
  rw [retained, split, List.find?_append]
  cases found : l.retainedCloses.reverse.find? (p ∘ .ofClose) with
  | some x => rfl
  | none =>
    have none_row : ¬ ∃ r ∈ l.rows, p r = true := by
      rintro ⟨r, hr, test⟩
      obtain ⟨x, hx, rfl⟩ := mem_map.1 hr
      exact List.find?_eq_none.1 found x (mem_reverse.2 hx) test
    have none_close : (l.closes.take l.droppedCloses).reverse.find? (p ∘ .ofClose) = none := by
      refine List.find?_eq_none.2 fun x hx test => none_row (remembers ⟨x, ?_, test⟩)
      exact mem_of_mem_take (mem_reverse.1 hx)
    rw [none_close]
    rfl

/-- Which number a cash goes on with: one behind its last row, else 1 or an inherited one. -/
theorem firstNumbers_inherits {rows : List ZCloseRecord} {deposits : List Deposit}
    {cimCashs : List CimCash} {left : Option ZCloseRecord}
    (inherits : Inherits rows deposits cimCashs left) {first : CimCash × Nat}
    (hfirst : first ∈ firstNumbers rows cimCashs ((left.map resume).getD 1)) :
    (∃ r, lastRow rows (isCloseOfCash first.1.cimCashId) = some r ∧ first.2 = resume r) ∨
      lastRow rows (isCloseOfCash first.1.cimCashId) = none ∧
        (first.2 = 1 ∨ ∀ d ∈ deposits, d.cimCash = some first.1 → first.2 ≤ d.number) := by
  induction cimCashs generalizing left with
  | nil => cases hfirst
  | cons cimCash cimCashs ih =>
    rw [firstNumbers] at hfirst
    rw [Inherits] at inherits
    cases found : lastRow rows (isCloseOfCash cimCash.cimCashId) with
    | some r =>
      rw [found] at hfirst inherits
      rcases mem_cons.1 hfirst with rfl | hfirst
      · exact .inl ⟨r, found, rfl⟩
      · exact ih inherits hfirst
    | none =>
      rw [found] at hfirst inherits
      rcases mem_cons.1 hfirst with rfl | hfirst
      · refine .inr ⟨found, ?_⟩
        cases left with
        | none => exact .inl rfl
        | some r => exact .inr fun d hd own => inherits.1 r rfl d hd own
      · exact ih inherits.2 hfirst

section restart

variable {site : CloseSite} {l : Ledger}

theorem isCloseOfCash_ofClose {cimCash : CimCash} (mem : cimCash ∈ site.cimCashs) {x : ZClose}
    (keeps : site.Keeps x) :
    isCloseOfCash cimCash.cimCashId (.ofClose x) = decide ((CloseScope.cash cimCash).Of x) := by
  refine decide_eq_decide.2 ?_
  show toShort (idOf (·.cimCashId) x.cimCash) = cimCash.cimCashId ∧ x.closeType = .cashClose ↔ _
  rcases keeps with day | ⟨type, own, hown, mine⟩
  · constructor
    · rintro ⟨-, cash⟩
      rw [day] at cash
      cases cash
    · rintro ⟨cash, -⟩
      rw [day] at cash
      cases cash
  · have fits := site.fits own hown
    have id : toShort (idOf (·.cimCashId) x.cimCash) = own.cimCashId := by
      rw [mine]
      exact toShort_of_range (by show _ ≤ own.cimCashId; omega) fits.2
    rw [id]
    constructor
    · rintro ⟨same, -⟩
      exact ⟨type, mine.trans (congrArg some (site.eq_of_cimCashId hown mem same))⟩
    · rintro ⟨-, same⟩
      rw [mine] at same
      rw [Option.some.inj same]
      exact ⟨rfl, type⟩

theorem Resumable.lastRow_cash (resumable : l.Resumable site) (sound : Sound site l)
    {cimCash : CimCash} (mem : cimCash ∈ site.cimCashs) :
    lastRow l.rows (isCloseOfCash cimCash.cimCashId) =
      (l.closes.reverse.find? fun x => (CloseScope.cash cimCash).Of x).map .ofClose := by
  rw [(resumable.cash cimCash mem).lastRow_eq]
  refine congrArg (Option.map _) (List.find?_congr fun x hx => ?_)
  exact isCloseOfCash_ofClose mem (sound.kept x (mem_reverse.1 hx)).1

theorem Sound.ofClose_fields (sound : Sound site l) {x : ZClose} (hx : x ∈ l.closes) :
    (ZCloseRecord.ofClose x).fromDepositNumber = x.fromDepositNumber ∧
      (ZCloseRecord.ofClose x).toDepositNumber = x.toDepositNumber ∧
      (x.closeType = .cashClose → resume (.ofClose x) = x.next) := by
  obtain ⟨-, bounds, -⟩ := sound.kept x hx
  have top := sound.top_room
  have from_le := bounds.from_le
  have to_le := bounds.to_le
  have from_eq : (ZCloseRecord.ofClose x).fromDepositNumber = x.fromDepositNumber :=
    toULong_of_lt (by omega)
  have to_eq : (ZCloseRecord.ofClose x).toDepositNumber = x.toDepositNumber :=
    toULong_of_lt (by omega)
  refine ⟨from_eq, to_eq, fun _ => ?_⟩
  rw [resume, ZClose.next, from_eq, to_eq, toULong_of_lt (by omega)]

theorem Resumable.firstDay_boundary (resumable : l.Resumable site) (sound : Sound site l) :
    ((lastRow l.rows isZCloseWithDeposits).map (·.toDepositNumber)).getD 0 + 1 =
      boundary 1 (CloseScope.day.ranges l.closes) := by
  have test (x : ZClose) (hx : x ∈ l.closes) : isZCloseWithDeposits (.ofClose x) =
      decide (CloseScope.day.Of x ∧ x.toDepositNumber ≠ 0) := by
    obtain ⟨from_, to_, -⟩ := sound.ofClose_fields hx
    have forward := (sound.kept x hx).2.1.forward
    refine decide_eq_decide.2 ?_
    rw [from_, to_]
    constructor
    · rintro ⟨-, some, type⟩
      exact ⟨type, Nat.ne_of_gt some⟩
    · rintro ⟨type, some⟩
      exact ⟨Nat.pos_of_ne_zero (forward some).1, Nat.pos_of_ne_zero some, type⟩
  have same : l.closes.reverse.find? (isZCloseWithDeposits ∘ .ofClose) =
      (CloseScope.day.filled l.closes).getLast? := by
    rw [CloseScope.filled, List.getLast?_filter]
    exact List.find?_congr fun x hx => test x (mem_reverse.1 hx)
  rw [resumable.withDeposits.lastRow_eq, same, boundary, CloseScope.ranges, List.getLast?_map]
  cases found : (CloseScope.day.filled l.closes).getLast? with
  | none => rfl
  | some x =>
    have hx := (mem_filter.1 (mem_of_getLast? found)).1
    exact congrArg (· + 1) (sound.ofClose_fields hx).2.1

theorem Remembers.numbers {type : CloseType} {bound : Nat}
    (remembers : l.Remembers fun r => r.closeType = type)
    (numbers : NumbersBelow type l.closes bound) (room : bound ≤ ulongSize) :
    NumbersBelow type l.closes
      (((lastRow l.rows fun r => r.closeType = type).map (·.number)).getD 0 + 1) := by
  have restarted := numbers.restart
  have same : ((lastRow l.rows fun r => r.closeType = type).map (·.number)).getD 0 =
      ((l.closes.reverse.find? fun x => x.closeType = type).map (·.number)).getD 0 := by
    rw [remembers.lastRow_eq]
    show ((l.closes.reverse.find? fun x => decide (x.closeType = type)).map _ |>.map _).getD 0 = _
    cases found : l.closes.reverse.find? fun x => decide (x.closeType = type) with
    | none => rfl
    | some x =>
      have hx := mem_reverse.1 (List.mem_of_find?_eq_some found)
      have below := numbers.below x hx (by simpa using List.find?_some found)
      exact toULong_of_lt (by omega)
  rw [same]
  exact restarted

theorem Ranged.restart (ranged : l.Ranged site) (sound : Sound site l)
    (resumable : l.Resumable site) {nextZNumber : Nat} {first : List ZClose}
    (room : nextZNumber < ulongSize)
    (loaded : List.Forall₂ (fun first close => ∃ openTime,
      close = opened first.1 first.2 openTime) (firstNumbers l.rows site.cimCashs 1) first) :
    (l.restart site.registry nextZNumber first).Ranged site := by
  obtain ⟨-, number, dayFrom, -, -⟩ := sound.restart_day nextZNumber first
  obtain ⟨above, -⟩ := sound.firstDay_number site.registry room
  refine ⟨?_, fun x hx cimCash own => ?_, ?_, ?_⟩
  · rw [resumable.firstDay_boundary sound] at dayFrom
    have start := ranged.day.tiles.start_le_boundary
    refine ranged.day.restart rfl rfl (by omega) ?_
    rw [dayFrom]
    exact ⟨Nat.le_refl _, fun _ _ le => le⟩
  · obtain ⟨head, hhead, -, own', from_, notZero, -, -⟩ :=
      sound.restart_cash nextZNumber loaded hx
    obtain rfl := Option.some.inj (own'.symm.trans own)
    have mem := (mem_firstNumbers hhead).1
    -- the open close of the cash before the restart
    obtain ⟨x₀, hx₀, own₀⟩ : ∃ x₀ ∈ l.cashCloses, x₀.cimCash = some head.1 := by
      have listed : some head.1 ∈ l.cashCloses.map (·.cimCash) := by
        rw [sound.cimCashs]
        exact mem_map_of_mem mem
      exact mem_map.1 listed
    have tiled := ranged.cash x₀ hx₀ head.1 own₀
    refine tiled.restart rfl rfl notZero ?_
    rw [from_]
    have last := resumable.lastRow_cash sound mem
    rcases firstNumbers_inherits resumable.inherits hhead with ⟨r, row, same⟩ | ⟨none, value⟩
    · rw [row] at last
      obtain ⟨z, hz, rfl⟩ := Option.map_eq_some_iff.1 last.symm
      have written := mem_reverse.1 (List.mem_of_find?_eq_some hz)
      have of : (CloseScope.cash head.1).Of z := by simpa using List.find?_some hz
      rw [same, (sound.ofClose_fields written).2.2 of.1]
      exact tiled.last z hz ((sound.kept z written).2.2 of.1)
    · rw [none] at last
      have noClose := List.find?_eq_none.1 (Option.map_eq_none_iff.1 last.symm)
      have ranges : (CloseScope.cash head.1).ranges l.closes = [] := by
        rw [CloseScope.ranges, CloseScope.filled, map_eq_nil_iff, filter_eq_nil_iff]
        intro z hz taken
        have taken' : (CloseScope.cash head.1).Of z ∧ z.toDepositNumber ≠ 0 :=
          of_decide_eq_true taken
        exact noClose z (mem_reverse.2 hz) (decide_eq_true taken'.1)
      rw [ranges, boundary_nil]
      refine ⟨by omega, fun m hm positive => ?_⟩
      rcases value with one | below
      · rw [one]
        exact positive
      · obtain ⟨d, hd, owned, rfl⟩ := CloseScope.mem_marks.1 hm
        exact below d hd owned
  · refine ((resumable.day.numbers ranged.zNumbers
      (Nat.le_of_lt sound.room.1)).mono ?_)
    rw [show ((lastRow l.rows fun r => r.closeType = .endOfDay).map (·.number)).getD 0 = _ from
      sound.lastRow_number .endOfDay, number]
    exact above
  · have remembers : l.Remembers isCashClose := by
      rintro ⟨x, hx, test⟩
      have type : x.closeType = .cashClose := of_decide_eq_true test
      rcases (sound.kept x hx).1 with day | ⟨-, cimCash, mem, own⟩
      · rw [type] at day
        cases day
      · have test' : isCloseOfCash cimCash.cimCashId (.ofClose x) = true := by
          rw [isCloseOfCash_ofClose mem (sound.kept x hx).1]
          exact decide_eq_true ⟨type, own⟩
        obtain ⟨r, hr, found⟩ := resumable.cash cimCash mem ⟨x, hx, test'⟩
        have parts : r.cimCashId = cimCash.cimCashId ∧ r.closeType = .cashClose :=
          of_decide_eq_true found
        exact ⟨r, hr, decide_eq_true parts.2⟩
    exact remembers.numbers ranged.cashNumbers sound.room.2

theorem Ranged.deposit (ranged : l.Ranged site) (sound : Sound site l) {d : Deposit}
    (follows : Follows site l.deposits d) (dropped : Nat) :
    (l.deposit d dropped).Ranged site := by
  refine ⟨ranged.day.deposit sound sound.day follows dropped, fun x hx cimCash own => ?_, ?_,
    ranged.cashNumbers⟩
  · obtain ⟨y, hy, rfl⟩ := mem_map.1 hx
    rw [ZClose.take_cimCash] at own
    exact (ranged.cash y hy cimCash own).deposit sound (sound.cash y hy) follows dropped
  · show NumbersBelow .endOfDay l.closes (l.day.take d).number
    rw [ZClose.take_number]
    exact ranged.zNumbers

theorem Ranged.closeCash (ranged : l.Ranged site) (sound : Sound site l)
    {before rest : List ZClose} {x closed : ZClose} (now droppedCloses : Nat)
    (current : l.cashCloses = before ++ x :: rest) (same : x.ClosedAs closed)
    (number : closed.number = l.lastCashCloseNumber + 1) :
    (l.closeCash before rest closed now droppedCloses).Ranged site := by
  have hx : x ∈ l.cashCloses := by
    rw [current]
    simp
  obtain ⟨ofCash, first⟩ := sound.ofCash x hx
  have type : closed.closeType = .cashClose := same.closeType.trans ofCash
  have to_le := (sound.cash x hx).to_le
  have top := sound.top_room
  obtain ⟨from', -, cash', -⟩ := Sound.nextCashClose_fields
    (by rw [same.toDepositNumber]; omega) now
  have next : (CloseMachine.nextCashClose closed now).fromDepositNumber = closed.next := by
    rw [from', ZClose.next, ite_not]
  refine ⟨ranged.day.closeOther (fun of => ?_) rfl rfl,
    fun y hy cimCash own => ?_,
    ranged.zNumbers.append _ (x := closed) (fun day => ?_) (Nat.le_refl _),
    ranged.cashNumbers.append (l.lastCashCloseNumber + 1 + 1) (x := closed)
      (fun _ => by omega) (by omega)⟩
  · have of' : closed.closeType = .endOfDay := of
    rw [type] at of'
    cases of'
  · -- the open cash closes are of different cashes
    have distinct : (l.cashCloses.map (·.cimCash)).Nodup := by
      rw [sound.cimCashs]
      exact (List.Nodup.of_map _ site.distinct).map (Option.some_injective _)
    rw [current, map_append, map_cons, nodup_middle, nodup_cons, ← map_append] at distinct
    have other (z : ZClose) (hz : z ∈ before ++ rest) (mine : z.cimCash = some cimCash) :
        ¬ (CloseScope.cash cimCash).Of closed := by
      rintro ⟨-, same'⟩
      refine distinct.1 ?_
      rw [← same.cimCash, same', ← mine]
      exact mem_map_of_mem hz
    rcases mem_append.1 hy with hy | hy
    · refine (ranged.cash y ?_ cimCash own).closeOther
        (other y (mem_append_left _ hy) own) rfl rfl
      rw [current]
      exact mem_append_left _ hy
    · rcases mem_cons.1 hy with rfl | hy
      · rw [cash', same.cimCash] at own
        refine (ranged.cash x hx cimCash own).closeOwn (sound.cash x hx) ⟨ofCash, own⟩ same rfl rfl
          (fun _ => next) fun zero empty => ?_
        rw [next, ZClose.next, if_neg (not_not.2 empty), same.fromDepositNumber] at zero
        exact absurd zero first
      · refine (ranged.cash y ?_ cimCash own).closeOther
          (other y (mem_append_right _ hy) own) rfl rfl
        rw [current]
        exact mem_append_right _ (mem_cons_of_mem x hy)
  · rw [type] at day
    cases day

theorem Ranged.closeDay (ranged : l.Ranged site) (sound : Sound site l) {closed next : ZClose}
    (droppedCloses : Nat) (same : l.day.ClosedAs closed) (number : closed.number = l.day.number)
    (fresh : ZClose.new.ClosedAs next) (above : l.day.number < next.number) :
    (l.closeDay closed next droppedCloses).Ranged site := by
  have type : closed.closeType = .endOfDay := same.closeType.trans sound.ofDay
  have zero : next.fromDepositNumber = 0 := fresh.fromDepositNumber
  refine ⟨ranged.day.closeOwn sound.day sound.ofDay same rfl rfl (fun some => absurd zero some)
    fun _ empty => ?_, fun y hy cimCash own => ?_,
    ranged.zNumbers.append next.number (x := closed) (fun _ => by omega) (by omega),
    ranged.cashNumbers.append _ (x := closed) (fun cash => ?_) (Nat.le_refl _)⟩
  · intro m hm
    by_cases first : l.day.fromDepositNumber = 0
    · exact ranged.day.fresh first m hm
    · -- the Z close is still without deposits, and all of them are behind it
      obtain ⟨d, hd, -, rfl⟩ := CloseScope.mem_marks.1 hm
      have behind := sound.pending_day (same.toDepositNumber ▸ empty) first d hd
      by_contra late
      have := (ranged.day.resumes first).2 d.number hm (Nat.not_lt.1 late)
      omega
  · refine (ranged.cash y hy cimCash own).closeOther (fun of => ?_) rfl rfl
    have cash := of.1
    rw [type] at cash
    cases cash
  · rw [type] at cash
    cases cash

theorem Step.ranged {l' : Ledger} (step : Step site (Resumable site) l l')
    (sound : Sound site l) (ranged : l.Ranged site) : l'.Ranged site := by
  cases step with
  | deposit follows => exact ranged.deposit sound follows _
  | closeCash current same number => exact ranged.closeCash sound _ _ current same number
  | closeDay same number fresh above => exact ranged.closeDay sound _ same number fresh above
  | restart ready room loaded => exact ranged.restart sound ready room loaded

end restart

theorem ranged_start (site : CloseSite) : (start site).Ranged site := by
  have tiled (scope : CloseScope) (current : ZClose) (le : current.fromDepositNumber ≤ 1) :
      (start site).Tiled scope current := by
    refine ⟨trivial, Nat.le_refl _, fun some => ⟨?_, fun m hm => ?_⟩, fun _ m hm => ?_,
      fun x hx => ?_⟩
    · show 1 ≤ _
      omega
    · cases hm
    · cases hm
    · cases hx
  refine ⟨tiled .day _ (Nat.zero_le _), fun x hx cimCash _ => tiled _ x ?_, .nil _ _, .nil _ _⟩
  obtain ⟨cash, -, rfl⟩ := mem_map.1 hx
  exact Nat.le_refl _

theorem resumable_start (site : CloseSite) : (start site).Resumable site := by
  have remembers (p : ZCloseRecord → Bool) : (start site).Remembers p := by
    rintro ⟨x, hx, -⟩
    cases hx
  refine ⟨remembers _, remembers _, fun _ _ => remembers _, ?_⟩
  have inherits (cimCashs : List CimCash) : Inherits [] [] cimCashs none := by
    induction cimCashs with
    | nil => trivial
    | cons cimCash cimCashs ih => exact ⟨fun r hr => (nomatch hr), ih⟩
  exact inherits site.cimCashs

end Ledger

/-! ## Every deposit is closed once -/

def CloseOp.isRestart : CloseOp → Bool
  | .restart .. => true
  | _ => false

namespace CloseHistory

/-- The ranges of the Z closes tile the deposits of the site and those of the closes of a cash
its own deposits. Every deposit is in one Z close and every retained one in one close
of its cash, the open ones included. The numbers of closes grow. -/
structure ClosedOnce (site : CloseSite) (h : CloseHistory) : Prop where
  day : Tiles (CloseScope.day.marks h.deposits) 1 (CloseScope.day.ranges h.closes)
  cash : ∀ cimCash ∈ site.cimCashs, Tiles ((CloseScope.cash cimCash).marks h.deposits) 1
    ((CloseScope.cash cimCash).ranges h.closes)
  inDay : ∀ d ∈ h.deposits, covering (CloseScope.day.ranges h.closes ++
    [h.machine.manager.currentZClose.range]) d.number = 1
  inCash : ∀ d ∈ h.retained, ∀ cimCash, d.cimCash = some cimCash →
    ∀ x ∈ h.machine.manager.currentCashCloses, x.cimCash = some cimCash →
      covering ((CloseScope.cash cimCash).ranges h.closes ++ [x.range]) d.number = 1
  atMostOnce : ∀ d ∈ h.deposits, ∀ cimCash, d.cimCash = some cimCash →
    covering ((CloseScope.cash cimCash).ranges h.closes) d.number ≤ 1
  zNumbers : ((h.closes.filter (·.closeType = .endOfDay)).map (·.number)).Pairwise (· < ·)
  cashNumbers : ((h.closes.filter (·.closeType = .cashClose)).map (·.number)).Pairwise (· < ·)

/-- Numbers have room, and a restart finds what it needs. -/
def Closes (site : CloseSite) (h : CloseHistory) (op : CloseOp) : Prop :=
  h.Fits site op ∧ (op.isRestart = true → h.ledger.Resumable site)

instance (site : CloseSite) (h : CloseHistory) (op : CloseOp) : Decidable (h.Closes site op) :=
  inferInstanceAs (Decidable (_ ∧ (_ → _)))

/-- A deposit of a scope is in one of its closes, the open one included, when it does not lie
behind the last number of the open one. -/
theorem covering_current {l : Ledger} {scope : CloseScope} {current : ZClose}
    (tiled : l.Tiled scope current) (spans : l.Spans current) {d : Deposit}
    (hd : d ∈ l.deposits) (owns : scope.Owns d) (positive : 0 < d.number)
    (belongs : current.Belongs d)
    (reached : current.toDepositNumber = 0 → current.fromDepositNumber ≠ 0 →
      d.number < current.fromDepositNumber) :
    covering (scope.ranges l.closes ++ [current.range]) d.number = 1 := by
  have mem : d.number ∈ scope.marks l.deposits := CloseScope.mem_marks.2 ⟨d, hd, owns, rfl⟩
  rw [covering_append, tiled.tiles.covering_eq mem positive]
  have from_eq : current.range.first = current.fromDepositNumber := rfl
  have to_eq : current.range.last = current.toDepositNumber := rfl
  by_cases first : current.fromDepositNumber = 0
  · have behind := tiled.fresh first d.number mem
    have empty : current.toDepositNumber = 0 := by
      by_contra some
      exact (spans.forward some).1 first
    have outside : ¬ current.range.Contains d.number := fun inside => by
      have := inside.2
      omega
    rw [if_pos behind, if_neg outside]
  · obtain ⟨behind, goesOn⟩ := tiled.resumes first
    by_cases early : d.number < boundary 1 (scope.ranges l.closes)
    · have outside : ¬ current.range.Contains d.number := fun inside => by
        have := inside.1
        omega
      rw [if_pos early, if_neg outside]
    · have late := goesOn d.number mem (Nat.not_lt.1 early)
      have some : current.toDepositNumber ≠ 0 := fun empty => by
        have := reached empty first
        omega
      have inside : current.range.Contains d.number := ⟨late, spans.last some d hd belongs⟩
      rw [if_neg early, if_pos inside]

theorem Running.closedOnce {site : CloseSite} {h : CloseHistory} (running : Running site h)
    (ranged : h.ledger.Ranged site) : ClosedOnce site h := by
  obtain ⟨p, sound, -⟩ := running
  have current (cimCash : CimCash) (mem : cimCash ∈ site.cimCashs) :
      ∃ x ∈ h.ledger.cashCloses, x.cimCash = some cimCash := by
    have listed : some cimCash ∈ h.ledger.cashCloses.map (·.cimCash) := by
      rw [sound.cimCashs]
      exact mem_map_of_mem mem
    exact mem_map.1 listed
  have own (d : Deposit) (hd : d ∈ h.deposits) (cimCash : CimCash)
      (mine : d.cimCash = some cimCash) : cimCash ∈ site.cimCashs := by
    obtain ⟨cash, mem, same⟩ := sound.cashs d hd
    rw [mine] at same
    exact Option.some.inj same ▸ mem
  refine ⟨ranged.day.tiles, fun cimCash mem => ?_, fun d hd => ?_,
    fun d hd cimCash mine x hx ofX => ?_, fun d hd cimCash mine => ?_, ?_, ?_⟩
  · obtain ⟨x, hx, ofX⟩ := current cimCash mem
    exact (ranged.cash x hx cimCash ofX).tiles
  · exact covering_current ranged.day sound.day hd trivial (sound.bounded d hd).1 (.inl sound.ofDay)
      fun empty first => sound.pending_day empty first d hd
  · have written := Persisted.mem_of_retained hd
    have belongs : x.Belongs d := .inr (ofX.trans mine.symm)
    exact covering_current (ranged.cash x hx cimCash ofX) (sound.cash x hx) written mine
      (sound.bounded d written).1 belongs fun empty first =>
        (sound.cash x hx).pending empty first d hd belongs
  · obtain ⟨x, hx, ofX⟩ := current cimCash (own d hd cimCash mine)
    have mem : d.number ∈ (CloseScope.cash cimCash).marks h.deposits :=
      CloseScope.mem_marks.2 ⟨d, hd, mine, rfl⟩
    have covered := (ranged.cash x hx cimCash ofX).tiles.covering_eq mem (sound.bounded d hd).1
    show covering ((CloseScope.cash cimCash).ranges h.ledger.closes) d.number ≤ 1
    rw [covered]
    split_ifs <;> omega
  · exact pairwise_map.2 ranged.zNumbers.growing
  · exact pairwise_map.2 ranged.cashNumbers.growing

theorem ranged_step {site : CloseSite} {h : CloseHistory} {op : CloseOp}
    (inv : Running site h ∧ h.ledger.Ranged site) (closes : h.Closes site op) :
    Running site (h.step site op) ∧ (h.step site op).ledger.Ranged site := by
  obtain ⟨running, ranged⟩ := inv
  obtain ⟨p, numbered, moves⟩ := running.step_moves closes.1
    fun restart => closes.2 (by
      obtain ⟨a, b, c, rfl⟩ := restart
      rfl)
  obtain ⟨sound, ranged'⟩ := Ledger.invariant_of_moves (Ledger.Ranged site)
    (fun step sound ranged => step.ranged sound ranged) moves running.sound ranged
  exact ⟨⟨p, sound, numbered⟩, ranged'⟩

theorem ranged_booted (site : CloseSite) (nextDepositNumber : Nat) {nextZNumber : Nat} (now : Nat)
    (room : nextZNumber < ulongSize) :
    (booted site nextDepositNumber nextZNumber now).ledger.Ranged site := by
  obtain ⟨first, loaded, same⟩ := booted_ledger site nextDepositNumber nextZNumber now
  rw [same]
  exact (Ledger.ranged_start site).restart (Ledger.sound_start site)
    (Ledger.resumable_start site) room loaded

/-- In every run in which the numbers have room and every restart finds what it needs, each
deposit is closed once. -/
theorem closedOnce_of_closes (site : CloseSite) (nextDepositNumber nextZNumber now : Nat)
    (room : nextZNumber < ulongSize) (ops : List CloseOp)
    (closes : Trace.Always (step site) (Closes site) ops
      (booted site nextDepositNumber nextZNumber now)) :
    ClosedOnce site (Trace.after (step site) ops
      (booted site nextDepositNumber nextZNumber now)) := by
  obtain ⟨running, ranged⟩ := Trace.Always.after_of_invariant
    (fun h => Running site h ∧ h.ledger.Ranged site) (fun inv ok => ranged_step inv ok)
    ⟨running_booted site nextDepositNumber now room,
      ranged_booted site nextDepositNumber now room⟩ closes
  exact running.closedOnce ranged

/-! ## A site with two cashes -/

def cashOne : CimCash := ⟨1, .auto, some ⟨1⟩⟩

def cashTwo : CimCash := ⟨2, .auto, some ⟨2⟩⟩

/-- Two automatic cashes behind a door each. -/
def twoCashs : CloseSite where
  tables := ⟨some 3, 4, 4, by decide, by decide⟩
  closes := ⟨some 5, 3, by decide⟩
  registry := ⟨[⟨1⟩, ⟨2⟩], [cashOne, cashTwo], [⟨1, .validator⟩], [⟨1⟩], [⟨1⟩], []⟩
  cimCashs := [cashOne, cashTwo]
  distinct := by decide
  fits := by decide
  registered := by decide

/-- A deposit of one note. -/
def oneNote (cimCash : CimCash) : Deposit :=
  { Deposit.new with
    cimCash := some cimCash, door := cimCash.door, user := some ⟨1⟩, depositType := .auto
    depositDetails := [⟨.validatedCash, 50000000, 1, some ⟨1⟩, some ⟨1, .validator⟩⟩] }

/-- Two deposits, a Z close, a restart, and a cash close of each door. -/
def closedRun : List CloseOp :=
  [.endDeposit (oneNote cashOne) 0 1, .endDeposit (oneNote cashTwo) 7 2,
    .generateZClose (some ⟨1⟩) 3 3 0, .restart 0 0 4, .endDeposit (oneNote cashTwo) 0 5,
    .generateCashCloseForDoor (some ⟨2⟩) none 6 6, .generateCashCloseForDoor (some ⟨1⟩) none 7 7]

theorem closedOnce_of_closes_run : ClosedOnce twoCashs
    (Trace.after (step twoCashs) closedRun (booted twoCashs 0 0 0)) :=
  closedOnce_of_closes twoCashs 0 0 0 (by decide) closedRun (by decide +kernel)

/-- The deposit is on the second cash; the close of the first one is stored, and a restart has
the second cash go on behind it. -/
def skippedRun : List CloseOp :=
  [.endDeposit (oneNote cashTwo) 0 1, .generateCashCloseForDoor (some ⟨1⟩) none 2 2,
    .restart 0 0 3, .endDeposit (oneNote cashTwo) 0 4,
    .generateCashCloseForDoor (some ⟨2⟩) none 5 5]

/-- The closes of the second cash leave its first deposit out. -/
theorem not_closedOnce :
    Trace.Always (step twoCashs) (Fits twoCashs) skippedRun (booted twoCashs 0 0 0) ∧
      ¬ ClosedOnce twoCashs
        (Trace.after (step twoCashs) skippedRun (booted twoCashs 0 0 0)) := by
  refine ⟨by decide +kernel, fun once => ?_⟩
  have gap : ¬ Tiles ((CloseScope.cash cashTwo).marks
      (Trace.after (step twoCashs) skippedRun (booted twoCashs 0 0 0)).deposits) 1
      ((CloseScope.cash cashTwo).ranges
        (Trace.after (step twoCashs) skippedRun (booted twoCashs 0 0 0)).closes) := by
    decide +kernel
  exact gap (once.cash cashTwo (by decide))

end CloseHistory

end CimArm
