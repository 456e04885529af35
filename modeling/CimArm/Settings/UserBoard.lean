import CimArm.Lib.Trace
import CimArm.Settings.UserDAO
import Mathlib.Data.List.Pairwise

/-!
# The table of users and the safe board

After a call of `store` the accounts of the board are those that the users of the table need,
with their passwords and keys, as long as the calls of the board are all answered or the first
one fails without being done.

* `Matched.save`: one row is saved and the accounts of its user with it.
* `agrees`: over any run.

The row is written after all the calls, none of which is taken back: when a later call fails,
or the answer of one is lost, the board keeps what was done for a user that the table does not
have.
-/

namespace CimArm.UserDAO

open SafeBoxUsers List Function

section

variable (settings : Settings)

/-! ## Agreement -/

/-- What a stored user needs. -/
def Needs (row : Row) (required : Requirement) : Prop :=
  settings.required row.profileId row.loginMethod = .ok required

/-- Two users have different login names, and different keys if any. -/
def Distinct (row row' : Row) : Prop :=
  row.loginName ≠ row'.loginName ∧ (row.key.length > 0 → row.key ≠ row'.key)

instance : Std.Symm Distinct where
  symm := by
    rintro row row' ⟨login, key⟩
    refine ⟨login.symm, fun some_key same => key ?_ same.symm⟩
    rw [← same]
    exact some_key

def State.live (s : State) : List Row := s.users.filter fun row => !row.deleted

/-- The table and the board agree. -/
structure Agrees (s : State) : Prop where
  needs : ∀ row ∈ s.live, ∃ required, Needs settings row required
  pin : ∀ row ∈ s.live, ∀ required, Needs settings row required →
    ((s.board row.loginName).isSome ↔ required.pin = true)
  pinPassword : ∀ row ∈ s.live, ∀ account, s.board row.loginName = some account →
    account.password = encryptPassword (s.lastPassword row.userId)
  dallas : ∀ row ∈ s.live, ∀ required, Needs settings row required →
    ((s.board (getDallasKeyLoginName row.loginName)).isSome ↔ required.dallas = true)
  dallasPassword : ∀ row ∈ s.live, ∀ account,
    s.board (getDallasKeyLoginName row.loginName) = some account →
      account.password = encryptPassword row.key
  owned : ∀ id, (s.board id).isSome → ∃ row ∈ s.live,
    id = row.loginName ∨ id = getDallasKeyLoginName row.loginName
  distinct : s.live.Pairwise Distinct

/-! ## The invariant -/

/-- The rows: ids of their own, up to the last one, and no name or key twice. -/
structure Table (s : State) : Prop where
  ids : s.users.Pairwise fun row row' => row.userId ≠ row'.userId
  positive : ∀ row ∈ s.users, 0 < row.userId
  upTo : ∀ row ∈ s.users, row.userId ≤ s.lastUserId
  last : s.lastUserId < 2 ^ 15
  needs : ∀ row ∈ s.live, ∃ required, Needs settings row required
  distinct : s.live.Pairwise Distinct

/-- The PIN of one is not under the name that the other has for its key. -/
def Apart (loginName loginName' : String) (required required' : Requirement) : Prop :=
  loginName = getDallasKeyLoginName loginName' → required.pin = false ∧ required'.dallas = false

/-- The accounts. -/
structure Matched (s : State) : Prop where
  pin : ∀ row ∈ s.live, ∀ required, Needs settings row required →
    Holds (s.board row.loginName) required.pin (s.lastPassword row.userId)
  dallas : ∀ row ∈ s.live, ∀ required, Needs settings row required →
    Holds (s.board (getDallasKeyLoginName row.loginName)) required.dallas row.key
  owned : ∀ id, (s.board id).isSome → ∃ row ∈ s.live,
    id = row.loginName ∨ id = getDallasKeyLoginName row.loginName
  apart : ∀ row ∈ s.live, ∀ row' ∈ s.live, ∀ required required', Needs settings row required →
    Needs settings row' required' → Apart row.loginName row'.loginName required required'

structure Good (s : State) : Prop where
  table : Table settings s
  matched : Matched settings s

end

variable {settings : Settings}

theorem State.mem_live {s : State} {row : Row} :
    row ∈ s.live ↔ row ∈ s.users ∧ row.deleted = false := by
  rw [State.live, mem_filter, Bool.not_eq_true']

theorem Needs.unique {row : Row} {required required' : Requirement}
    (needs : Needs settings row required) (needs' : Needs settings row required') :
    required = required' := Except.ok.inj (needs.symm.trans needs')

theorem Holds.isSome_iff {account : Option Account} {needed : Bool} {password : String}
    (holds : Holds account needed password) : account.isSome ↔ needed = true := by
  cases need : needed with
  | false =>
    obtain rfl := holds.none need
    exact Iff.rfl
  | true =>
    obtain ⟨found, rfl, -⟩ := holds.some need
    exact ⟨fun _ => rfl, fun _ => rfl⟩

theorem Holds.password {found : Account} {needed : Bool} {password : String}
    (holds : Holds (.some found) needed password) : found.password = encryptPassword password := by
  have need : needed = true := holds.isSome_iff.1 rfl
  obtain ⟨account, same, right⟩ := holds.some need
  rw [Option.some.inj same]
  exact right

theorem Table.unique {s : State} (table : Table settings s) {row row' : Row}
    (mem : row ∈ s.users) (mem' : row' ∈ s.users) (same : row.userId = row'.userId) :
    row = row' := by
  by_contra differ
  have symmetric : Std.Symm fun row row' : Row => row.userId ≠ row'.userId :=
    ⟨fun _ _ apart => apart.symm⟩
  exact table.ids.forall mem mem' differ same

theorem Table.findById {s : State} (table : Table settings s) {row : Row} (mem : row ∈ s.users) :
    s.findById row.userId = some row := by
  cases found : s.findById row.userId with
  | none => exact absurd (decide_eq_true rfl) (List.find?_eq_none.1 found row mem)
  | some other =>
    have same := List.find?_some found
    rw [table.unique (List.mem_of_find?_eq_some found) mem (of_decide_eq_true same)]

theorem Table.short {s : State} (table : Table settings s) {row : Row} (mem : row ∈ s.users) :
    toShort row.userId = row.userId := by
  have low := table.positive row mem
  have high := table.upTo row mem
  have last := table.last
  exact toShort_of_range (by omega) (by omega)

/-- A row in the place of the one with its id. -/
def replaced (users : List Row) (row : Row) : List Row :=
  users.map fun other => if other.userId = row.userId then row else other

theorem mem_replaced {users : List Row} {row other : Row} :
    other ∈ replaced users row ↔
      (other = row ∧ ∃ old ∈ users, old.userId = row.userId) ∨
        (other ∈ users ∧ other.userId ≠ row.userId) := by
  rw [replaced, mem_map]
  constructor
  · rintro ⟨old, mem, rfl⟩
    split_ifs with same
    · exact .inl ⟨rfl, old, mem, same⟩
    · exact .inr ⟨mem, same⟩
  · rintro (⟨rfl, old, mem, same⟩ | ⟨mem, differ⟩)
    · exact ⟨old, mem, if_pos same⟩
    · exact ⟨other, mem, if_neg differ⟩

theorem replaced_ids {users : List Row} (row : Row)
    (ids : users.Pairwise fun row row' => row.userId ≠ row'.userId) :
    (replaced users row).Pairwise fun row row' => row.userId ≠ row'.userId := by
  have keeps : ∀ other : Row,
      (if other.userId = row.userId then row else other).userId = other.userId := by
    intro other
    split_ifs with same
    · exact same.symm
    · rfl
  refine pairwise_map.2 (ids.imp fun differ same => differ ?_)
  rwa [keeps, keeps] at same

/-! ## One user at a time -/

/-- A state is another with one row saved, and perhaps the accounts of its user. -/
structure Saved (s s' : State) (row : Row) : Prop where
  ids : s'.users.Pairwise fun row row' => row.userId ≠ row'.userId
  mem : ∀ other, other ∈ s'.users ↔ other = row ∨ (other ∈ s.users ∧ other.userId ≠ row.userId)
  positive : 0 < row.userId
  upTo : row.userId ≤ s'.lastUserId
  grows : s.lastUserId ≤ s'.lastUserId
  last : s'.lastUserId < 2 ^ 15
  sameLogin : ∀ other ∈ s.live, other.userId = row.userId → other.loginName = row.loginName
  others : ∀ id, id ≠ row.userId → s'.lastPassword id = s.lastPassword id

namespace Saved

variable {s s' : State} {row : Row}

theorem mem_live (saved : Saved s s' row) (other : Row) :
    other ∈ s'.live ↔
      (other = row ∧ row.deleted = false) ∨ (other ∈ s.live ∧ other.userId ≠ row.userId) := by
  rw [State.mem_live, State.mem_live, saved.mem]
  constructor
  · rintro ⟨rfl | ⟨mem, differ⟩, alive⟩
    · exact .inl ⟨rfl, alive⟩
    · exact .inr ⟨⟨mem, alive⟩, differ⟩
  · rintro (⟨rfl, alive⟩ | ⟨⟨mem, alive⟩, differ⟩)
    · exact ⟨.inl rfl, alive⟩
    · exact ⟨.inr ⟨mem, differ⟩, alive⟩

theorem table (saved : Saved s s' row) (before : Table settings s)
    (needs : row.deleted = false → ∃ required, Needs settings row required)
    (distinct : row.deleted = false → ∀ other ∈ s.live, other.userId ≠ row.userId →
      other.loginName ≠ row.loginName ∧ (row.key.length > 0 → other.key ≠ row.key)) :
    Table settings s' where
  ids := saved.ids
  positive other hother := by
    rcases (saved.mem other).1 hother with rfl | ⟨mem, -⟩
    · exact saved.positive
    · exact before.positive other mem
  upTo other hother := by
    rcases (saved.mem other).1 hother with rfl | ⟨mem, -⟩
    · exact saved.upTo
    · exact (before.upTo other mem).trans (Int.ofNat_le.2 saved.grows)
  last := saved.last
  needs other hother := by
    rcases (saved.mem_live other).1 hother with ⟨rfl, alive⟩ | ⟨mem, -⟩
    · exact needs alive
    · exact before.needs other mem
  distinct := by
    have ids : s'.live.Pairwise fun row row' => row.userId ≠ row'.userId := saved.ids.filter _
    refine ids.imp_of_mem fun {other other'} hother hother' differ => ?_
    rcases (saved.mem_live other).1 hother with ⟨rfl, alive⟩ | ⟨mem, apart⟩
    · rcases (saved.mem_live other').1 hother' with ⟨rfl, -⟩ | ⟨mem', apart'⟩
      · exact absurd rfl differ
      · obtain ⟨login, key⟩ := distinct alive other' mem' apart'
        exact ⟨login.symm, fun some_key => (key some_key).symm⟩
    · rcases (saved.mem_live other').1 hother' with ⟨rfl, alive⟩ | ⟨mem', apart'⟩
      · obtain ⟨login, key⟩ := distinct alive other mem apart
        refine ⟨login, fun some_key same => key ?_ same⟩
        rw [← same]
        exact some_key
      · have rows : other ≠ other' := fun same => differ (congrArg Row.userId same)
        exact before.distinct.forall mem mem' rows

theorem matched (saved : Saved s s' row) (before : Matched settings s)
    {pin dallas : Option Account} {required : Requirement} (needs : Needs settings row required)
    (board : s'.board = owner s.board row.loginName pin dallas)
    (pinHolds : Holds pin (!row.deleted && required.pin) (s'.lastPassword row.userId))
    (dallasHolds : Holds dallas (!row.deleted && required.dallas) row.key)
    (login : ∀ other ∈ s.live, other.userId ≠ row.userId → other.loginName ≠ row.loginName)
    (apart : ∀ other ∈ s.live, other.userId ≠ row.userId → ∀ required',
      Needs settings other required' → Apart other.loginName row.loginName required' required ∧
        Apart row.loginName other.loginName required required') :
    Matched settings s' where
  pin other hother required' needs' := by
    rw [board]
    rcases (saved.mem_live other).1 hother with ⟨rfl, alive⟩ | ⟨mem, differ⟩
    · obtain rfl := needs'.unique needs
      rw [owner_login]
      rw [alive] at pinHolds
      exact pinHolds
    · rw [saved.others other.userId differ]
      by_cases clash : other.loginName = getDallasKeyLoginName row.loginName
      · obtain ⟨noPin, noDallas⟩ := (apart other mem differ required' needs').1 clash
        rw [noDallas, Bool.and_false] at dallasHolds
        rw [clash, owner_dallas, dallasHolds.none rfl, noPin]
        rfl
      · rw [owner_other pin dallas (login other mem differ) clash]
        exact before.pin other mem required' needs'
  dallas other hother required' needs' := by
    rw [board]
    rcases (saved.mem_live other).1 hother with ⟨rfl, alive⟩ | ⟨mem, differ⟩
    · obtain rfl := needs'.unique needs
      rw [owner_dallas]
      rw [alive] at dallasHolds
      exact dallasHolds
    · by_cases clash : getDallasKeyLoginName other.loginName = row.loginName
      · obtain ⟨noPin, noDallas⟩ := (apart other mem differ required' needs').2 clash.symm
        rw [noPin, Bool.and_false] at pinHolds
        rw [clash, owner_login, pinHolds.none rfl, noDallas]
        rfl
      · have key : getDallasKeyLoginName other.loginName ≠ getDallasKeyLoginName row.loginName :=
          fun same => login other mem differ (dallasKeyLoginName_inj same)
        rw [owner_other pin dallas clash key]
        exact before.dallas other mem required' needs'
  owned id some_account := by
    rw [board] at some_account
    by_cases here : id = row.loginName
    · rw [here, owner_login] at some_account
      have alive : row.deleted = false := by
        simpa using (Bool.and_eq_true_iff.1 (pinHolds.isSome_iff.1 some_account)).1
      exact ⟨row, (saved.mem_live row).2 (.inl ⟨rfl, alive⟩), .inl here⟩
    · by_cases key : id = getDallasKeyLoginName row.loginName
      · rw [key, owner_dallas] at some_account
        have alive : row.deleted = false := by
          simpa using (Bool.and_eq_true_iff.1 (dallasHolds.isSome_iff.1 some_account)).1
        exact ⟨row, (saved.mem_live row).2 (.inl ⟨rfl, alive⟩), .inr key⟩
      · rw [owner_other pin dallas here key] at some_account
        obtain ⟨other, mem, name⟩ := before.owned id some_account
        have differ : other.userId ≠ row.userId := by
          intro same
          rw [saved.sameLogin other mem same] at name
          exact name.elim here key
        exact ⟨other, (saved.mem_live other).2 (.inr ⟨mem, differ⟩), name⟩
  apart other hother other' hother' required₁ required₂ needs₁ needs₂ := by
    rcases (saved.mem_live other).1 hother with ⟨rfl, alive⟩ | ⟨mem, differ⟩
    · obtain rfl := needs₁.unique needs
      rcases (saved.mem_live other').1 hother' with ⟨rfl, -⟩ | ⟨mem', differ'⟩
      · exact fun clash => absurd clash.symm (dallasKeyLoginName_ne _)
      · exact (apart other' mem' differ' required₂ needs₂).2
    · rcases (saved.mem_live other').1 hother' with ⟨rfl, -⟩ | ⟨mem', differ'⟩
      · obtain rfl := needs₂.unique needs
        exact (apart other mem differ required₁ needs₁).1
      · exact before.apart other mem other' mem' required₁ required₂ needs₁ needs₂

end Saved

/-! ## One call of `store` -/

/-- What the board does for a call of `store`: it answers all, or the first call fails
without being done and is not ignored. -/
def Calm (calls : List Call) (fates : Nat → Fate) : Prop :=
  (∀ n < calls.length, fates n = .answers) ∨
    ∃ e, fates 0 = .fails e ∧ ∀ call, calls.head? = some call → call.ignored ≠ some e

/-- The objects that are stored: a new user, or one of the table under the same name; a user
who is deleted is not edited as well. -/
inductive Stored (s : State) (anObject : User) : Prop
  | new (id : anObject.userId = 0) (alive : anObject.deleted = false)
  | edit {row : Row} (mem : row ∈ s.live) (id : row.userId = anObject.userId)
      (login : row.loginName = anObject.loginName) (alive : anObject.deleted = false)
  | deletion {row : Row} (mem : row ∈ s.live) (id : row.userId = anObject.userId)
      (login : row.loginName = anObject.loginName) (profile : row.profileId = anObject.uProfileId)
      (method : row.loginMethod = anObject.loginMethod) (dead : anObject.deleted = true)

/-- Who edits its own password has an account and knows its password, or has no other
change of accounts before. -/
def Given (logedUserPersonalId : String) (old new : Requirement) (anObject : User)
    (lastPassword : String) : Prop :=
  PinGiven logedUserPersonalId old new anObject lastPassword ∨
    anObject.loginName = logedUserPersonalId ∧ anObject.password ≠ FICTICIOUS_PASSWORD ∧ old = new

variable (settings) in
/-- The name of a user and the name for its key meet no account of another. -/
def Clear (s : State) (anObject : User) : Prop :=
  ∀ required, settings.required anObject.uProfileId anObject.loginMethod = .ok required →
    ∀ other ∈ s.live, other.userId ≠ anObject.userId → ∀ required', Needs settings other required' →
      Apart other.loginName anObject.loginName required' required ∧
        Apart anObject.loginName other.loginName required required'

variable (settings) in
/-- When a call of `store` keeps the table and the board together. -/
structure Ok (s : State) (op : Store) : Prop where
  stored : Stored s op.anObject
  room : op.anObject.userId = 0 → s.lastUserId + 1 < 2 ^ 15
  calm : ∀ calls, plan settings op.logedUserPersonalId (s.rowOf op.anObject) op.anObject =
    .ok calls → Calm calls op.fates
  clear : op.anObject.deleted = false → Clear settings s op.anObject
  given : op.anObject.deleted = false → ∀ row ∈ s.live, row.userId = op.anObject.userId →
    ∀ old new, Needs settings row old →
      settings.required op.anObject.uProfileId op.anObject.loginMethod = .ok new →
        Given op.logedUserPersonalId old new op.anObject (s.lastPassword row.userId)

variable {op : Store} {calls : List Call} {anObject : User} {required : Requirement} {old : Row}
  {lastPassword : Int → String}

theorem store_saves {s : State} {board : Accounts}
    (valid : check settings s.users op.anObject = .ok ())
    (planned : plan settings op.logedUserPersonalId (s.rowOf op.anObject) op.anObject = .ok calls)
    (performed : performAll calls op.fates s.board = (none, board))
    (profile : lastProfile settings (s.rowOf op.anObject) = .ok ()) :
    (store settings op s).2 = s.save board op.anObject := by
  unfold store
  rw [valid, planned]
  dsimp only
  rw [performed, profile]

theorem store_raises {s : State} {e : SafeBoxException}
    (planned : plan settings op.logedUserPersonalId (s.rowOf op.anObject) op.anObject = .ok calls)
    (performed : performAll calls op.fates s.board = (some e, s.board)) :
    (store settings op s).2 = s := by
  unfold store
  rw [planned]
  cases check settings s.users op.anObject with
  | error e => rfl
  | ok done =>
    dsimp only
    rw [performed]

theorem store_cases {s : State} {P : State → Prop} (same : P s)
    (calm : ∀ calls,
      plan settings op.logedUserPersonalId (s.rowOf op.anObject) op.anObject = .ok calls →
        Calm calls op.fates)
    (answered : ∀ calls, check settings s.users op.anObject = .ok () →
      plan settings op.logedUserPersonalId (s.rowOf op.anObject) op.anObject = .ok calls →
        (∀ n < calls.length, op.fates n = .answers) → P (store settings op s).2) :
    P (store settings op s).2 := by
  cases valid : check settings s.users op.anObject with
  | error e =>
    unfold store
    rw [valid]
    exact same
  | ok done =>
    cases planned : plan settings op.logedUserPersonalId (s.rowOf op.anObject) op.anObject with
    | error e =>
      unfold store
      rw [valid, planned]
      exact same
    | ok calls =>
      rcases calm calls planned with answers | ⟨e, fails, raises⟩
      · exact answered calls valid planned answers
      · by_cases none : calls = []
        · refine answered calls valid planned fun n below => ?_
          rw [none] at below
          exact absurd below (Nat.not_lt_zero n)
        · rw [store_raises planned (performAll_fails fails none raises s.board)]
          exact same

/-! ## New users -/

theorem check_required {users : List Row} (valid : check settings users anObject = .ok ()) :
    ∃ required, settings.required anObject.uProfileId anObject.loginMethod = .ok required ∧
      ∀ userId, Needs settings (anObject.row userId) required := by
  obtain ⟨profile, found⟩ := validateFields_profile (check_ok valid).1
  have required : settings.required anObject.uProfileId anObject.loginMethod =
      .ok (requirement profile.securityLevel anObject.loginMethod) := by
    rw [Settings.required, found]
    rfl
  refine ⟨_, required, fun userId => ?_⟩
  unfold Needs User.row
  rw [Settings.getProfile_short found]
  exact required

theorem check_distinct {s : State} (valid : check settings s.users anObject = .ok ())
    (short : toShort anObject.userId = anObject.userId) {other : Row} (mem : other ∈ s.live)
    (differ : other.userId ≠ anObject.userId) : other.loginName ≠ anObject.loginName ∧
      (anObject.key.length > 0 → other.key ≠ anObject.key) := by
  obtain ⟨-, login, key⟩ := check_ok valid
  obtain ⟨hother, alive⟩ := State.mem_live.1 mem
  rw [← short] at differ
  exact ⟨duplicated_eq_false login hother alive differ,
    fun some_key => duplicated_eq_false (key some_key) hother alive differ⟩

theorem Matched.free {s : State} (matched : Matched settings s) (table : Table settings s)
    (needs : settings.required anObject.uProfileId anObject.loginMethod = .ok required)
    (clear : Clear settings s anObject) (differ : ∀ other ∈ s.live, other.userId ≠ anObject.userId)
    (login : ∀ other ∈ s.live, other.loginName ≠ anObject.loginName) :
    s.board anObject.loginName = none ∧
      s.board (getDallasKeyLoginName anObject.loginName) = none := by
  constructor
  · by_contra some_account
    obtain ⟨other, mem, name⟩ := matched.owned _ (Option.isSome_iff_ne_none.2 some_account)
    obtain ⟨required', needs'⟩ := table.needs other mem
    rcases name with name | name
    · exact login other mem name.symm
    · have apart := (clear required needs other mem (differ other mem) required' needs').2 name
      have holds := matched.dallas other mem required' needs'
      rw [← name] at holds
      exact some_account (holds.none apart.2)
  · by_contra some_account
    obtain ⟨other, mem, name⟩ := matched.owned _ (Option.isSome_iff_ne_none.2 some_account)
    obtain ⟨required', needs'⟩ := table.needs other mem
    rcases name with name | name
    · have apart := (clear required needs other mem (differ other mem) required' needs').1 name.symm
      have holds := matched.pin other mem required' needs'
      rw [← name] at holds
      exact some_account (holds.none apart.1)
    · exact login other mem (dallasKeyLoginName_inj name).symm

theorem Good.new {s : State} (good : Good settings s) (id : op.anObject.userId = 0)
    (alive : op.anObject.deleted = false) (room : s.lastUserId + 1 < 2 ^ 15)
    (clear : Clear settings s op.anObject) (valid : check settings s.users op.anObject = .ok ())
    (planned : plan settings op.logedUserPersonalId (s.rowOf op.anObject) op.anObject = .ok calls)
    (answers : ∀ n < calls.length, op.fates n = .answers) :
    Good settings (store settings op s).2 := by
  obtain ⟨required, needs, needsRow⟩ := check_required valid
  have rowOf : s.rowOf op.anObject = none := if_pos ⟨id, by rw [alive]; rfl⟩
  have differ : ∀ other ∈ s.live, other.userId ≠ op.anObject.userId := by
    intro other mem
    have positive := good.table.positive other (State.mem_live.1 mem).1
    omega
  have distinct := fun other mem => check_distinct valid (by rw [id]; rfl) mem (differ other mem)
  obtain ⟨noPin, noDallas⟩ := good.matched.free good.table needs clear differ
    fun other mem => (distinct other mem).1
  -- the two accounts are added
  have newCalls : calls = newCalls required op.anObject := by
    rw [rowOf, plan, needs, alive] at planned
    exact (Except.ok.inj planned).symm
  obtain ⟨pin, pinFollow, pinHolds⟩ := new_follow required.pin op.anObject.loginName
    op.anObject.password op.anObject.duressPassword
  obtain ⟨dallas, dallasFollow, dallasHolds⟩ := new_follow required.dallas
    (getDallasKeyLoginName op.anObject.loginName) op.anObject.key op.anObject.duressPassword
  rw [← noPin] at pinFollow
  rw [← noDallas] at dallasFollow
  have performed := performAll_owner answers
    (newCalls ▸ Only.callsAbout_append (.ite (.singleton (addUser ..)) (.nil _))
      (.ite (.singleton (addUser ..)) (.nil _))) pinFollow dallasFollow
  have saves := store_saves valid planned performed (by rw [rowOf]; rfl)
  have short : toShort (s.lastUserId + 1 : Int) = (s.lastUserId + 1 : Int) :=
    toShort_of_range (by omega) (by omega)
  rw [State.save, rowOf] at saves
  dsimp only at saves
  rw [short] at saves
  -- the row is added
  obtain ⟨row, hrow⟩ : ∃ row, row = op.anObject.row (s.lastUserId + 1 : Int) := ⟨_, rfl⟩
  have rowId : row.userId = (s.lastUserId + 1 : Int) := by rw [hrow]; rfl
  have rowLogin : row.loginName = op.anObject.loginName := by rw [hrow]; rfl
  have rowAlive : row.deleted = false := by rw [hrow]; exact alive
  rw [← hrow] at saves
  have fresh : ∀ other ∈ s.users, other.userId ≠ row.userId := by
    intro other mem
    have upTo := good.table.upTo other mem
    omega
  rw [saves]
  have saved : Saved s ⟨s.users ++ [row], s.lastUserId + 1,
      owner s.board op.anObject.loginName pin dallas,
      Function.update s.lastPassword (s.lastUserId + 1 : Int) op.anObject.password⟩ row :=
    { ids := pairwise_append.2 ⟨good.table.ids, pairwise_singleton _ _,
        fun other mem last hlast => by
          rw [mem_singleton.1 hlast]
          exact fresh other mem⟩
      mem := fun other => by
        rw [mem_append, mem_singleton]
        constructor
        · rintro (mem | same)
          · exact .inr ⟨mem, fresh other mem⟩
          · exact .inl same
        · rintro (same | ⟨mem, -⟩)
          · exact .inr same
          · exact .inl mem
      positive := by omega
      upTo := by
        rw [rowId]
        exact Int.le_refl _
      grows := Nat.le_succ _
      last := room
      sameLogin := fun other mem same => absurd same (fresh other (State.mem_live.1 mem).1)
      others := fun id' differ' => update_of_ne (rowId ▸ differ') _ _ }
  have rowNeeds : Needs settings row required := hrow ▸ needsRow _
  constructor
  · refine saved.table good.table (fun _ => ⟨required, rowNeeds⟩) fun _ other mem _ => ?_
    rw [hrow]
    exact distinct other mem
  · refine saved.matched good.matched rowNeeds (by rw [rowLogin]) ?_ ?_ ?_ ?_
    · rw [rowAlive, rowId]
      dsimp only
      rw [update_self]
      exact pinHolds
    · rw [rowAlive, hrow]
      exact dallasHolds
    · intro other mem _
      rw [rowLogin]
      exact (distinct other mem).1
    · intro other mem _ required' needs'
      rw [rowLogin]
      exact clear required needs other mem (differ other mem) required' needs'

/-! ## Users of the table -/

theorem Table.rowOf {s : State} (table : Table settings s) {row : Row} (mem : row ∈ s.live)
    (id : row.userId = anObject.userId) : s.rowOf anObject = some row := by
  have hrow := (State.mem_live.1 mem).1
  have positive := table.positive row hrow
  have known : ¬ (anObject.userId = 0 ∧ (!anObject.deleted) = true) := fun new => by omega
  rw [State.rowOf, if_neg known, ← id, table.findById hrow]
  rfl

theorem Needs.lastProfile {row : Row} (needs : Needs settings row required) :
    lastProfile settings (some row) = .ok () := by
  unfold Needs Settings.required at needs
  unfold UserDAO.lastProfile
  cases found : settings.getProfile row.profileId with
  | ok profile =>
    dsimp only
    rw [found]
    rfl
  | error e =>
    rw [found] at needs
    cases needs

theorem Saved.replaced {s : State} (table : Table settings s) {row : Row} {board : Accounts}
    (mem : old ∈ s.live) (id : row.userId = old.userId) (login : row.loginName = old.loginName)
    (others : ∀ id, id ≠ row.userId → lastPassword id = s.lastPassword id) :
    Saved s ⟨replaced s.users row, s.lastUserId, board, lastPassword⟩ row := by
  have hold := (State.mem_live.1 mem).1
  exact
    { ids := replaced_ids row table.ids
      mem := fun other => by
        rw [mem_replaced]
        exact or_congr_left (and_iff_left ⟨old, hold, id.symm⟩)
      positive := id ▸ table.positive old hold
      upTo := id ▸ table.upTo old hold
      grows := Nat.le_refl _
      last := table.last
      sameLogin := fun other hother same => by
        rw [table.unique (State.mem_live.1 hother).1 hold (same.trans id), login]
      others := others }

theorem Table.otherLogin {s : State} (table : Table settings s) {other : Row} (mem : old ∈ s.live)
    (hother : other ∈ s.live) (differ : other.userId ≠ old.userId) :
    other.loginName ≠ old.loginName :=
  (table.distinct.forall hother mem fun same => differ (congrArg Row.userId same)).1

theorem Good.deletion {s : State} (good : Good settings s) (mem : old ∈ s.live)
    (id : old.userId = op.anObject.userId) (login : old.loginName = op.anObject.loginName)
    (profile : old.profileId = op.anObject.uProfileId)
    (method : old.loginMethod = op.anObject.loginMethod) (dead : op.anObject.deleted = true)
    (valid : check settings s.users op.anObject = .ok ())
    (planned : plan settings op.logedUserPersonalId (s.rowOf op.anObject) op.anObject = .ok calls)
    (answers : ∀ n < calls.length, op.fates n = .answers) :
    Good settings (store settings op s).2 := by
  obtain ⟨required, needs, needsRow⟩ := check_required valid
  have rowOf := good.table.rowOf mem id
  have needsOld : Needs settings old required := by
    rw [Needs, profile, method]
    exact needs
  -- the two accounts are deleted
  have deletionCalls : calls = deletionCalls required op.anObject := by
    rw [rowOf, plan, needs, dead] at planned
    exact (Except.ok.inj planned).symm
  have pinFollow := deletion_follow (good.matched.pin old mem required needsOld)
    op.anObject.loginName
  have dallasFollow := deletion_follow (good.matched.dallas old mem required needsOld)
    (getDallasKeyLoginName op.anObject.loginName)
  rw [login] at pinFollow dallasFollow
  have performed := performAll_owner answers
    (deletionCalls ▸ Only.callsAbout_append (.ite (.singleton (deleteUser _)) (.nil _))
      (.ite (.singleton (deleteUser _)) (.nil _))) pinFollow dallasFollow
  have saves := store_saves valid planned performed (by rw [rowOf]; exact needsOld.lastProfile)
  rw [State.save, rowOf] at saves
  dsimp only at saves
  have kept : (!op.anObject.deleted && decide (op.anObject.password ≠ FICTICIOUS_PASSWORD)) =
      false := by
    rw [dead]
    rfl
  rw [if_neg (Bool.not_eq_true _ ▸ kept)] at saves
  -- the row is marked
  have saved : Saved s ⟨replaced s.users (op.anObject.row old.userId), s.lastUserId,
      owner s.board op.anObject.loginName none none, s.lastPassword⟩
      (op.anObject.row old.userId) :=
    .replaced good.table mem rfl login.symm fun _ _ => rfl
  have dead' : (op.anObject.row old.userId).deleted = true := dead
  rw [saves]
  constructor
  · exact saved.table good.table (fun alive => by rw [dead'] at alive; cases alive)
      fun alive => by rw [dead'] at alive; cases alive
  · refine saved.matched good.matched (needsRow _) rfl ?_ ?_ ?_ ?_
    · rw [dead']
      rfl
    · rw [dead']
      rfl
    · intro other hother differ
      have names := good.table.otherLogin mem hother differ
      rw [login] at names
      exact names
    · intro other hother differ required' needs'
      have other_old := good.matched.apart other hother old mem required' required needs' needsOld
      have old_other := good.matched.apart old mem other hother required required' needsOld needs'
      rw [login] at other_old old_other
      exact ⟨other_old, old_other⟩

theorem plan_edit {s : State} {oldRequired : Requirement} (rowOf : s.rowOf op.anObject = some old)
    (alive : op.anObject.deleted = false)
    (needs : settings.required op.anObject.uProfileId op.anObject.loginMethod = .ok required)
    (needsOld : Needs settings old oldRequired) :
    plan settings op.logedUserPersonalId (s.rowOf op.anObject) op.anObject =
      .ok (editCalls op.logedUserPersonalId oldRequired required old.key op.anObject) := by
  unfold Needs at needsOld
  rw [rowOf, plan, needs, alive]
  dsimp only
  rw [needsOld]
  rfl

theorem editCalls_refused {s : State}
    (holds : Holds (s.board op.anObject.loginName) required.pin (s.lastPassword old.userId))
    (own : op.anObject.loginName = op.logedUserPersonalId)
    (set : op.anObject.password ≠ FICTICIOUS_PASSWORD)
    (unknown : ¬ PinGiven op.logedUserPersonalId required required op.anObject
      (s.lastPassword old.userId))
    (first : op.fates 0 = .answers) :
    ∃ e, performAll (editCalls op.logedUserPersonalId required required old.key op.anObject)
      op.fates s.board = (some e, s.board) := by
  have pins : (required.pin && !required.pin) = false := by cases required.pin <;> rfl
  have keys : (required.dallas && !required.dallas) = false := by cases required.dallas <;> rfl
  rw [editCalls, Bool.and_comm (!required.pin), Bool.and_comm (!required.dallas), pins, keys,
    passwordCalls, if_pos set, if_neg (not_not.2 own)]
  refine performAll_refused first ?_
  change Call.follow _ (s.board op.anObject.loginName) = none
  cases pin : required.pin with
  | false =>
    rw [holds.none pin]
    rfl
  | true =>
    obtain ⟨found, account, right⟩ := holds.some pin
    have wrong : found.password ≠ encryptPassword op.anObject.realPassword := by
      intro same
      refine unknown ⟨fun noPin => ?_, fun _ _ => ⟨pin, ?_⟩⟩
      · rw [pin] at noPin
        cases noPin
      · rw [User.heldPassword, if_pos pin, ← right, same]
    rw [account]
    simp [Call.follow, Command.answer, wrong]

/-- The last passwords after an edit. -/
def editedPassword (lastPassword : Int → String) (anObject : User) (userId : Int) : Int → String :=
  if !anObject.deleted && anObject.password ≠ FICTICIOUS_PASSWORD then
    Function.update lastPassword userId anObject.password
  else lastPassword

theorem editedPassword_self (userId : Int) (alive : anObject.deleted = false) :
    editedPassword lastPassword anObject userId userId =
      anObject.newPassword (lastPassword userId) := by
  unfold editedPassword User.newPassword
  by_cases set : anObject.password ≠ FICTICIOUS_PASSWORD
  · have both : (!anObject.deleted && decide (anObject.password ≠ FICTICIOUS_PASSWORD)) = true := by
      rw [alive, decide_eq_true set]
      rfl
    rw [if_pos both, if_pos set, update_self]
  · have both : ¬ (!anObject.deleted && decide (anObject.password ≠ FICTICIOUS_PASSWORD)) = true := by
      rw [decide_eq_false set, Bool.and_false]
      exact Bool.false_ne_true
    rw [if_neg both, if_neg set]

theorem editedPassword_other {userId id : Int} (other : id ≠ userId) :
    editedPassword lastPassword anObject userId id = lastPassword id := by
  unfold editedPassword
  split_ifs
  · exact update_of_ne other _ _
  · rfl

theorem Good.edit {s : State} (good : Good settings s) (mem : old ∈ s.live)
    (id : old.userId = op.anObject.userId) (login : old.loginName = op.anObject.loginName)
    (alive : op.anObject.deleted = false) (clear : Clear settings s op.anObject)
    (given : ∀ oldRequired required, Needs settings old oldRequired →
      settings.required op.anObject.uProfileId op.anObject.loginMethod = .ok required →
        Given op.logedUserPersonalId oldRequired required op.anObject (s.lastPassword old.userId))
    (valid : check settings s.users op.anObject = .ok ())
    (planned : plan settings op.logedUserPersonalId (s.rowOf op.anObject) op.anObject = .ok calls)
    (answers : ∀ n < calls.length, op.fates n = .answers) :
    Good settings (store settings op s).2 := by
  obtain ⟨required, needs, needsRow⟩ := check_required valid
  obtain ⟨oldRequired, needsOld⟩ := good.table.needs old mem
  have rowOf := good.table.rowOf mem id
  have editCalls : calls = editCalls op.logedUserPersonalId oldRequired required old.key
      op.anObject := by
    rw [plan_edit rowOf alive needs needsOld] at planned
    exact (Except.ok.inj planned).symm
  have pinBefore := good.matched.pin old mem oldRequired needsOld
  have dallasBefore := good.matched.dallas old mem oldRequired needsOld
  rw [login] at pinBefore dallasBefore
  by_cases known : PinGiven op.logedUserPersonalId oldRequired required op.anObject
      (s.lastPassword old.userId)
  · -- each account goes from what the row needs to what the object needs
    obtain ⟨pin, pinFollow, pinHolds⟩ := pin_follow pinBefore known
    obtain ⟨dallas, dallasFollow, dallasHolds⟩ : ∃ after,
        followAll (dallasCalls oldRequired required old.key op.anObject)
          (s.board (getDallasKeyLoginName op.anObject.loginName)) = some after ∧
        Holds after required.dallas op.anObject.key := dallas_follow dallasBefore
    have performed := performAll_owner answers
      (fun id => by rw [editCalls, callsAbout_editCalls]) pinFollow dallasFollow
    have saves := store_saves valid planned performed (by rw [rowOf]; exact needsOld.lastProfile)
    rw [State.save, rowOf] at saves
    have saved : Saved s ⟨replaced s.users (op.anObject.row old.userId), s.lastUserId,
        owner s.board op.anObject.loginName pin dallas,
        editedPassword s.lastPassword op.anObject old.userId⟩ (op.anObject.row old.userId) :=
      .replaced good.table mem rfl login.symm fun _ other => editedPassword_other other
    have alive' : (op.anObject.row old.userId).deleted = false := alive
    have distinct := fun (other : Row) (hother : other ∈ s.live)
        (differ : other.userId ≠ old.userId) =>
      check_distinct valid (id ▸ good.table.short (State.mem_live.1 mem).1) hother (id ▸ differ)
    rw [saves]
    constructor
    · exact saved.table good.table (fun _ => ⟨required, needsRow _⟩) fun _ => distinct
    · refine saved.matched good.matched (needsRow _) rfl ?_ ?_ ?_ ?_
      · rw [alive']
        change Holds pin required.pin
          (editedPassword s.lastPassword op.anObject old.userId old.userId)
        rw [editedPassword_self old.userId alive]
        exact pinHolds
      · rw [alive']
        exact dallasHolds
      · exact fun other hother differ => (distinct other hother differ).1
      · intro other hother differ
        exact clear required needs other hother (id ▸ differ)
  · -- the first call is refused
    rcases given oldRequired required needsOld needs with known' | ⟨own, set, rfl⟩
    · exact absurd known' known
    · have first : op.fates 0 = .answers := by
        refine answers 0 ?_
        rw [editCalls, UserDAO.editCalls, passwordCalls, if_pos set, if_neg (not_not.2 own)]
        simp [sbChangePassword]
      obtain ⟨e, raised⟩ := editCalls_refused pinBefore own set known first
      rw [← editCalls] at raised
      rw [store_raises planned raised]
      exact good

/-! ## Runs -/

theorem Good.store {s : State} (good : Good settings s) (ok : Ok settings s op) :
    Good settings (UserDAO.store settings op s).2 := by
  refine store_cases good ok.calm fun calls valid planned answers => ?_
  cases ok.stored with
  | new id alive => exact good.new id alive (ok.room id) (ok.clear alive) valid planned answers
  | edit mem id login alive =>
    exact good.edit mem id login alive (ok.clear alive) (ok.given alive _ mem id) valid planned
      answers
  | deletion mem id login profile method dead =>
    exact good.deletion mem id login profile method dead valid planned answers

/-- No users and no accounts. -/
def State.empty : State := ⟨[], 0, fun _ => none, fun _ => ""⟩

theorem Good.empty : Good settings State.empty where
  table :=
    { ids := .nil
      positive := fun _ mem => nomatch mem
      upTo := fun _ mem => nomatch mem
      last := by decide
      needs := fun _ mem => nomatch mem
      distinct := .nil }
  matched :=
    { pin := fun _ mem => nomatch mem
      dallas := fun _ mem => nomatch mem
      owned := fun _ some_account => nomatch some_account
      apart := fun _ mem => nomatch mem }

/-- The state after each call of `store`. -/
def next (settings : Settings) (op : Store) (s : State) : State := (store settings op s).2

end CimArm.UserDAO
